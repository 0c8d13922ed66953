import FieldWalk.Proofs.Notation.Infix
/-!
# Reading infix notation

A reader takes the tokens one after the other, with one frame for each open parenthesis. What it finds
is what the grammar says, and nothing else (`denotes_iff_read`).
-/

namespace FieldWalk.Notation

open Formula Formula.Token

variable {K : Type}

/-! ## Reader -/

/-- What an open parenthesis waits for: the operations still to be applied to a product, a sum and an
argument once they are complete. -/
structure Frame (K : Type) where
  /-- The function whose arguments are read, none in a plain group. -/
  callee : Option (List Char)
  arguments : K → K
  sum : K → K
  product : K → K

namespace Frame

/-- Nothing has been read since the parenthesis. -/
def fresh (callee : Option (List Char)) : Frame K :=
  ⟨callee, id, id, id⟩

/-- The value of all that was read since the parenthesis. -/
def close (A : Arithmetic K) (f : Frame K) (v : K) : K :=
  match f.callee with
  | none => f.arguments (f.sum (f.product v))
  | some n => A.apply n (f.arguments (f.sum (f.product v)))

end Frame

/-- What comes next. -/
inductive Mode (K : Type) where
  | operand
  /-- The parenthesis behind a function name. -/
  | call (n : List Char)
  /-- An operator behind an operand of this value. -/
  | operator (v : K)

/-- A reader: its mode, the innermost open parenthesis and those around it. -/
structure Reader (K : Type) where
  mode : Mode K
  top : Frame K
  below : List (Frame K)

namespace Reader

/-- A reader before its first token. -/
def start : Reader K :=
  ⟨.operand, .fresh none, []⟩

/-- The reader after one more token. -/
def feed (A : Arithmetic K) : Reader K → Token → Option (Reader K)
  | ⟨.operand, f, fs⟩, t => match t with
    | number digits => some ⟨.operator (A.number digits), f, fs⟩
    | ident n =>
      if n ∈ functionNames then some ⟨.call n, f, fs⟩ else some ⟨.operator (A.name n), f, fs⟩
    | symbol '(' => some ⟨.operand, .fresh none, f :: fs⟩
    | symbol '+' => some ⟨.operand, f, fs⟩
    | symbol '-' => some ⟨.operand, { f with product := fun v => f.product (A.neg v) }, fs⟩
    | _ => none
  | ⟨.call n, f, fs⟩, t => if t = symbol '(' then some ⟨.operand, .fresh (some n), f :: fs⟩ else none
  | ⟨.operator u, f, fs⟩, t => match t with
    | symbol '^' => some ⟨.operand, { f with product := fun v => f.product (A.pow u v) }, fs⟩
    | symbol '*' => some ⟨.operand, { f with product := A.mul (f.product u) }, fs⟩
    | symbol '/' => some ⟨.operand, { f with product := A.div (f.product u) }, fs⟩
    | symbol '+' => some ⟨.operand, { f with sum := A.add (f.sum (f.product u)), product := id }, fs⟩
    | symbol '-' => some ⟨.operand, { f with sum := A.sub (f.sum (f.product u)), product := id }, fs⟩
    | symbol ',' => if f.callee = none then none else
      some ⟨.operand, ⟨f.callee, A.pair (f.arguments (f.sum (f.product u))), id, id⟩, fs⟩
    | symbol ')' => match fs with
      | [] => none
      | g :: fs => some ⟨.operator (f.close A u), g, fs⟩
    | _ => none

/-- The value at the end of the tokens. -/
def finish (A : Arithmetic K) : Reader K → Option K
  | ⟨.operator v, f, []⟩ => some (f.close A v)
  | _ => none

/-- The value that a reader finds in the tokens still to come. -/
def read (A : Arithmetic K) (r : Reader K) : List Token → Option K
  | [] => r.finish A
  | t :: ts => (r.feed A t).bind fun r => r.read A ts

/-- The reader after some more tokens. -/
def feedAll (A : Arithmetic K) (r : Reader K) : List Token → Option (Reader K)
  | [] => some r
  | t :: ts => (r.feed A t).bind fun r => r.feedAll A ts

variable {A : Arithmetic K}

theorem read_append (r : Reader K) (ts us : List Token) :
    r.read A (ts ++ us) = (r.feedAll A ts).bind fun r => r.read A us := by
  induction ts generalizing r with
  | nil => rfl
  | cons t ts ih =>
    rw [List.cons_append, read, feedAll, Option.bind_assoc]
    exact congrArg _ (funext ih)

/-! ## The reader finds what the grammar says -/

theorem read_congr {r r' : Reader K} {ts : List Token} (hn : r.finish A = r'.finish A)
    (hf : ∀ t, ts.head? = some t → r.feed A t = r'.feed A t) : r.read A ts = r'.read A ts := by
  cases ts with
  | nil => exact hn
  | cons t ts => rw [read, read, hf t rfl]

section
variable {c : Option (List Char)} {a b s t p q : K → K} {fs : List (Frame K)} {u v : K}

/-- Unless a power sign follows, only the completed product counts. -/
theorem read_product (h : p u = q v) {ts : List Token} (ht : ts.head? ≠ some (symbol '^')) :
    read A ⟨.operator u, ⟨c, a, s, p⟩, fs⟩ ts = read A ⟨.operator v, ⟨c, a, s, q⟩, fs⟩ ts := by
  refine read_congr ?_ ?_
  · cases fs <;> simp [finish, Frame.close, h]
  · intro t hh
    simp only [feed, Frame.close, h]
    split <;> simp_all

/-- Unless a tighter operator follows, only the completed sum counts. -/
theorem read_sum (h : s (p u) = t (q v)) {ts : List Token}
    (ht : ∀ c ∈ ['^', '*', '/'], ts.head? ≠ some (symbol c)) :
    read A ⟨.operator u, ⟨c, a, s, p⟩, fs⟩ ts = read A ⟨.operator v, ⟨c, a, t, q⟩, fs⟩ ts := by
  refine read_congr ?_ ?_
  · cases fs <;> simp [finish, Frame.close, h]
  · intro t hh
    simp only [feed, Frame.close, h]
    split <;> simp_all

/-- Unless an operator of a sum or a product follows, only the arguments count. -/
theorem read_arguments (h : a (s (p u)) = b (t (q v))) {ts : List Token}
    (ht : ∀ c ∈ ['^', '*', '/', '+', '-'], ts.head? ≠ some (symbol c)) :
    read A ⟨.operator u, ⟨c, a, s, p⟩, fs⟩ ts = read A ⟨.operator v, ⟨c, b, t, q⟩, fs⟩ ts := by
  refine read_congr ?_ ?_
  · cases fs <;> simp [finish, Frame.close, h]
  · intro t hh
    simp only [feed, Frame.close, h]
    split <;> simp_all

end

end Reader

namespace Rank

/-- The operators that would go on with a phrase of the rank. -/
def tighter : Rank → List Char
  | operand => []
  | factor | product => ['^']
  | sum => ['^', '*', '/']
  | arguments => ['^', '*', '/', '+', '-']

/-- A phrase of the rank can begin in the frame. -/
def Fits : Rank → Frame K → Prop
  | operand, _ | factor, _ => True
  | product, f => f.product = id
  | sum, f => f.product = id ∧ f.sum = id
  | arguments, f => f.product = id ∧ f.sum = id ∧ f.arguments = id ∧ f.callee ≠ none

/-- The phrase ends before the tokens. -/
def Ends (rank : Rank) (ts : List Token) : Prop :=
  ∀ c ∈ rank.tighter, ts.head? ≠ some (symbol c)

end Rank

open Reader

variable {A : Arithmetic K}

theorem Rank.ends_cons {rank : Rank} {c : Char} (h : c ∉ rank.tighter) (ts : List Token) :
    rank.Ends (symbol c :: ts) := by
  intro d hd he
  cases he
  exact h hd

/-- A phrase of a tighter rank can end wherever one of a looser rank can. -/
theorem Rank.Ends.mono {rank rank' : Rank} (h : rank.tighter ⊆ rank'.tighter) {ts : List Token}
    (he : rank'.Ends ts) : rank.Ends ts :=
  fun c hc => he c (h hc)

theorem Rank.Ends.noPower {ts : List Token} (h : Rank.factor.Ends ts) :
    ts.head? ≠ some (symbol '^') :=
  h '^' (List.mem_singleton.2 rfl)

/-- The reader takes in a phrase and has its value. -/
theorem Denotes.read {rank : Rank} {ts : List Token} {v : K} (h : Denotes A rank ts v)
    {f : Frame K} (fs : List (Frame K)) (us : List Token) (hf : rank.Fits f) (hu : rank.Ends us) :
    Reader.read A ⟨.operand, f, fs⟩ (ts ++ us) = Reader.read A ⟨.operator v, f, fs⟩ us := by
  -- the rank says which operations of the frame still have to be empty, and what may follow says
  -- that the phrase is complete, so that only the values of product, sum and arguments count
  induction h generalizing f fs us with
  | number digits => rfl
  | name h => simp [Reader.read, feed, h]
  | @group ts v h ih =>
    have hc := ih (f := .fresh none) (f :: fs) (symbol ')' :: us) ⟨rfl, rfl⟩
      (Rank.ends_cons (by decide) us)
    rw [List.append_assoc, List.singleton_append]
    exact hc
  | @call n ts v hn h ih =>
    have hc := ih (f := .fresh (some n)) (f :: fs) (symbol ')' :: us)
      ⟨rfl, rfl, rfl, Option.some_ne_none n⟩ (Rank.ends_cons (by decide) us)
    have hn' : feed A ⟨.operand, f, fs⟩ (ident n) = some ⟨.call n, f, fs⟩ := if_pos hn
    rw [List.append_assoc, List.singleton_append, List.cons_append, Reader.read, hn']
    exact hc
  | operand h ih => exact ih fs us trivial (hu.mono (by decide))
  | @pow ts us' u v h h' ih ih' =>
    have hs := ih (f := f) fs (symbol '^' :: (us' ++ us)) trivial (Rank.ends_cons (by decide) _)
    rw [List.append_assoc, List.cons_append, hs]
    refine (ih' (f := ⟨_, _, _, fun v => f.product (A.pow u v)⟩) fs us trivial hu).trans ?_
    refine read_product ?_ hu.noPower
    rfl
  | plus h ih => exact ih fs us trivial hu
  | @minus ts v h ih =>
    refine (ih (f := ⟨_, _, _, fun v => f.product (A.neg v)⟩) fs us trivial hu).trans ?_
    refine read_product ?_ hu.noPower
    rfl
  | factor h ih => exact ih fs us trivial (hu.mono (by decide))
  | mul h h' ih ih' | div h h' ih ih' =>
    rw [List.append_assoc, List.cons_append, ih fs _ hf (Rank.ends_cons (by decide) _)]
    refine (ih' fs us trivial hu).trans ?_
    refine read_product ?_ hu.noPower
    rw [hf]
    rfl
  | product h ih => exact ih fs us hf.1 (hu.mono (by decide))
  | add h h' ih ih' | sub h h' ih ih' =>
    rw [List.append_assoc, List.cons_append, ih fs _ hf (Rank.ends_cons (by decide) _)]
    refine (ih' fs us ?_ (hu.mono (by decide))).trans ?_
    · rfl
    · refine read_sum ?_ hu
      rw [hf.1, hf.2]
      rfl
  | sum h ih => exact ih fs us ⟨hf.1, hf.2.1⟩ (hu.mono (by decide))
  | @pair ts us' u v h h' ih ih' =>
    have hs := ih fs (symbol ',' :: (us' ++ us)) hf (Rank.ends_cons (by decide) _)
    have hcall : feed A ⟨.operator u, f, fs⟩ (symbol ',') =
        some ⟨.operand, ⟨f.callee, A.pair (f.arguments (f.sum (f.product u))), id, id⟩, fs⟩ :=
      if_neg hf.2.2.2
    rw [List.append_assoc, List.cons_append, hs, Reader.read, hcall]
    refine (ih' (f := ⟨_, A.pair (f.arguments (f.sum (f.product u))), id, id⟩) fs us ⟨rfl, rfl⟩
      (hu.mono (by decide))).trans ?_
    refine read_arguments ?_ hu
    rw [hf.1, hf.2.1, hf.2.2.1]
    rfl

/-! ## The reader finds nothing else -/

namespace Frame

/-- The rank of what the parentheses of the frame hold. -/
def rank (f : Frame K) : Rank :=
  match f.callee with
  | none => .sum
  | some _ => .arguments

/-- The tokens that open the frame. -/
def opener (f : Frame K) : List Token :=
  match f.callee with
  | none => [symbol '(']
  | some n => [ident n, symbol '(']

/-- The operations of the frame go on with these tokens. -/
structure Holds (A : Arithmetic K) (f : Frame K) (as ss ps : List Token) : Prop where
  arguments : ∀ us v, Denotes A .sum us v → Denotes A f.rank (as ++ us) (f.arguments v)
  sum : ∀ us v, Denotes A .product us v → Denotes A .sum (ss ++ us) (f.sum v)
  product : ∀ us v, Denotes A .factor us v → Denotes A .product (ps ++ us) (f.product v)

theorem holds_fresh (callee : Option (List Char)) : Holds A (fresh callee) [] [] [] where
  arguments us v h := by
    cases callee with
    | none => exact h
    | some n => exact .sum h
  sum us v h := .product h
  product us v h := .factor h

variable {f : Frame K} {as ss ps us : List Token} {u : K}

theorem Holds.toProduct (h : f.Holds A as ss ps) (hu : Denotes A .operand us u) :
    Denotes A .product (ps ++ us) (f.product u) :=
  h.product us u (.operand hu)

theorem Holds.toSum (h : f.Holds A as ss ps) (hu : Denotes A .operand us u) :
    Denotes A .sum (ss ++ (ps ++ us)) (f.sum (f.product u)) :=
  h.sum _ _ (h.toProduct hu)

theorem Holds.toArguments (h : f.Holds A as ss ps) (hu : Denotes A .operand us u) :
    Denotes A f.rank (as ++ (ss ++ (ps ++ us))) (f.arguments (f.sum (f.product u))) :=
  h.arguments _ _ (h.toSum hu)

/-- A frame goes on with what its parentheses hold when they are closed. -/
theorem Holds.close (h : f.Holds A as ss ps) (hu : Denotes A .operand us u)
    (hn : ∀ n, f.callee = some n → n ∈ functionNames) :
    Denotes A .operand (f.opener ++ (as ++ (ss ++ (ps ++ us))) ++ [symbol ')']) (f.close A u) := by
  have hw := h.toArguments hu
  obtain ⟨callee, a, s, p⟩ := f
  cases callee with
  | none => exact .group hw
  | some n => exact .call (hn n rfl) hw

end Frame

/-- The tokens lead from the first token to the frame, those around it included. -/
inductive Stack (A : Arithmetic K) : Frame K → List (Frame K) → List Token → Prop where
  | bottom {f as ss ps} (hc : f.callee = none) (h : f.Holds A as ss ps) :
      Stack A f [] (as ++ (ss ++ ps))
  | nested {f g fs ts as ss ps} (hn : ∀ n, f.callee = some n → n ∈ functionNames)
      (h : f.Holds A as ss ps) (hg : Stack A g fs ts) :
      Stack A f (g :: fs) (ts ++ (f.opener ++ (as ++ (ss ++ ps))))

/-- The tokens have been read. -/
def Reader.Has (A : Arithmetic K) : Reader K → List Token → Prop
  | ⟨.operand, f, fs⟩, ts => Stack A f fs ts
  | ⟨.call n, f, fs⟩, ts => n ∈ functionNames ∧ ∃ us, ts = us ++ [ident n] ∧ Stack A f fs us
  | ⟨.operator v, f, fs⟩, ts => ∃ us vs, ts = us ++ vs ∧ Stack A f fs us ∧ Denotes A .operand vs v

/-- The innermost frame may be replaced by one that goes on with more tokens. -/
theorem Stack.extend {f f' : Frame K} {fs : List (Frame K)} {ts us : List Token}
    (h : Stack A f fs ts) (hc : f'.callee = f.callee)
    (hh : ∀ as ss ps, f.Holds A as ss ps → ∃ as' ss' ps', f'.Holds A as' ss' ps' ∧
      as' ++ (ss' ++ ps') = as ++ (ss ++ ps) ++ us) : Stack A f' fs (ts ++ us) := by
  -- whatever is around the frame was read before, and only its callee shows in that
  have ho : f'.opener = f.opener := by rw [Frame.opener, Frame.opener, hc]
  cases h with
  | bottom hn h =>
    obtain ⟨as', ss', ps', h', he⟩ := hh _ _ _ h
    rw [← he]
    exact .bottom (hc.trans hn) h'
  | nested hn h hg =>
    obtain ⟨as', ss', ps', h', he⟩ := hh _ _ _ h
    rw [List.append_assoc, List.append_assoc, ← he, ← ho]
    exact .nested (fun n hn' => hn n (hc ▸ hn')) h' hg

section
variable {f : Frame K} {fs : List (Frame K)} {ts us : List Token} {u : K}

/-- A sign in front of a factor. -/
theorem Stack.sign {c : Char} (h : Stack A f fs ts) (op : K → K)
    (hop : ∀ us v, Denotes A .factor us v → Denotes A .factor (symbol c :: us) (op v)) :
    Stack A { f with product := fun v => f.product (op v) } fs (ts ++ [symbol c]) := by
  refine h.extend rfl fun as ss ps h => ⟨as, ss, ps ++ [symbol c], ⟨h.arguments, h.sum, ?_⟩, ?_⟩
  · intro us v hv
    rw [List.append_assoc]
    exact h.product _ _ (hop us v hv)
  · simp

/-- A power sign behind an operand. -/
theorem Stack.power (h : Stack A f fs ts) (hu : Denotes A .operand us u) :
    Stack A { f with product := fun v => f.product (A.pow u v) } fs (ts ++ (us ++ [symbol '^'])) := by
  refine h.extend rfl fun as ss ps h =>
    ⟨as, ss, ps ++ (us ++ [symbol '^']), ⟨h.arguments, h.sum, ?_⟩, ?_⟩
  · intro ws w hw
    rw [List.append_assoc, List.append_assoc]
    exact h.product _ _ (.pow hu hw)
  · simp

/-- An operator of a product behind an operand. -/
theorem Stack.factor {c : Char} {op : K → K → K} (h : Stack A f fs ts)
    (hu : Denotes A .operand us u)
    (hop : ∀ vs v ws w, Denotes A .product vs v → Denotes A .factor ws w →
      Denotes A .product (vs ++ symbol c :: ws) (op v w)) :
    Stack A { f with product := op (f.product u) } fs (ts ++ (us ++ [symbol c])) := by
  refine h.extend rfl fun as ss ps h =>
    ⟨as, ss, ps ++ us ++ [symbol c], ⟨h.arguments, h.sum, ?_⟩, ?_⟩
  · intro ws w hw
    rw [List.append_assoc]
    exact hop _ _ ws w (h.toProduct hu) hw
  · simp

/-- An operator of a sum behind an operand. -/
theorem Stack.summand {c : Char} {op : K → K → K} (h : Stack A f fs ts)
    (hu : Denotes A .operand us u)
    (hop : ∀ vs v ws w, Denotes A .sum vs v → Denotes A .product ws w →
      Denotes A .sum (vs ++ symbol c :: ws) (op v w)) :
    Stack A { f with sum := op (f.sum (f.product u)), product := id } fs
      (ts ++ (us ++ [symbol c])) := by
  refine h.extend rfl fun as ss ps h =>
    ⟨as, ss ++ (ps ++ us) ++ [symbol c], [], ⟨h.arguments, ?_, fun _ _ => .factor⟩, ?_⟩
  · intro ws w hw
    rw [List.append_assoc]
    exact hop _ _ ws w (h.toSum hu) hw
  · simp

/-- A comma behind an argument. -/
theorem Stack.comma (h : Stack A f fs ts) (hu : Denotes A .operand us u) (hc : f.callee ≠ none) :
    Stack A ⟨f.callee, A.pair (f.arguments (f.sum (f.product u))), id, id⟩ fs
      (ts ++ (us ++ [symbol ','])) := by
  refine h.extend rfl fun as ss ps h =>
    ⟨as ++ (ss ++ (ps ++ us)) ++ [symbol ','], [], [],
      ⟨?_, fun _ _ => .product, fun _ _ => .factor⟩, ?_⟩
  · intro ws w hw
    have hr : ∀ n, f.callee = some n → f.rank = .arguments := by
      intro n hn
      rw [Frame.rank, hn]
    obtain ⟨n, hn⟩ := Option.ne_none_iff_exists'.1 hc
    have ha := h.toArguments hu
    rw [hr n hn] at ha
    have hp := Denotes.pair ha hw
    rw [List.append_assoc]
    simpa [Frame.rank, hn] using hp
  · simp

/-- The parenthesis that closes the innermost frame. -/
theorem Stack.close {g : Frame K} (h : Stack A f (g :: fs) ts) (hu : Denotes A .operand us u) :
    ∃ vs ws, ts ++ us ++ [symbol ')'] = vs ++ ws ∧ Stack A g fs vs ∧
      Denotes A .operand ws (f.close A u) := by
  cases h with
  | @nested f g fs ts as ss ps hn h hg => exact ⟨ts, _, by simp, hg, h.close hu hn⟩

end

/-- One token more has been read after a step. -/
theorem Reader.Has.feed {r r' : Reader K} {ts : List Token} {t : Token} (h : r.Has A ts)
    (hf : r.feed A t = some r') : r'.Has A (ts ++ [t]) := by
  obtain ⟨mode, f, fs⟩ := r
  cases mode with
  | operand =>
    simp only [Reader.feed] at hf
    split at hf
    · cases hf
      exact ⟨ts, _, rfl, h, .number _⟩
    · split at hf
      · rename_i hn
        cases hf
        exact ⟨hn, ts, rfl, h⟩
      · rename_i hn
        cases hf
        exact ⟨ts, _, rfl, h, .name hn⟩
    · cases hf
      refine Stack.nested ?_ (Frame.holds_fresh none) h
      rintro n ⟨⟩
    · cases hf
      exact h.sign id fun _ _ => .plus
    · cases hf
      exact h.sign A.neg fun _ _ => .minus
    · cases hf
  | call n =>
    obtain ⟨hn, us, rfl, hs⟩ := h
    simp only [Reader.feed] at hf
    split at hf
    · rename_i ht
      cases hf
      rw [ht, List.append_assoc]
      refine Stack.nested ?_ (Frame.holds_fresh (some n)) hs
      rintro m ⟨⟩
      exact hn
    · cases hf
  | operator u =>
    obtain ⟨us, vs, rfl, hs, hu⟩ := h
    simp only [Reader.feed] at hf
    rw [List.append_assoc]
    split at hf
    · cases hf
      exact hs.power hu
    · cases hf
      exact hs.factor hu fun _ _ _ _ => .mul
    · cases hf
      exact hs.factor hu fun _ _ _ _ => .div
    · cases hf
      exact hs.summand hu fun _ _ _ _ => .add
    · cases hf
      exact hs.summand hu fun _ _ _ _ => .sub
    · split at hf
      · cases hf
      · rename_i hc
        cases hf
        exact hs.comma hu hc
    · split at hf
      · cases hf
      · cases hf
        rw [← List.append_assoc]
        exact hs.close hu
    · cases hf

theorem Reader.has_start : Reader.start.Has A [] :=
  Stack.bottom rfl (Frame.holds_fresh none)

/-- What a reader finds is what all the tokens denote. -/
theorem Reader.Has.read {r : Reader K} {ts us : List Token} {v : K} (h : r.Has A ts)
    (hr : r.read A us = some v) : Denotes A .sum (ts ++ us) v := by
  induction us generalizing r ts with
  | nil =>
    obtain ⟨mode, f, fs⟩ := r
    rw [List.append_nil]
    cases mode with
    | operand => cases hr
    | call n => cases hr
    | operator u =>
      obtain ⟨ws, vs, rfl, hs, hu⟩ := h
      cases hs with
      | bottom hc h =>
        have hsum := h.toArguments hu
        simp only [Reader.read, finish, Frame.close, hc, Option.some.injEq] at hr
        rw [Frame.rank, hc, hr] at hsum
        simpa using hsum
      | nested hn h hg => cases hr
  | cons t us ih =>
    rw [Reader.read] at hr
    cases hf : r.feed A t with
    | none =>
      rw [hf] at hr
      cases hr
    | some r' =>
      rw [hf] at hr
      have := ih (h.feed hf) hr
      rwa [List.append_assoc, List.singleton_append] at this

/-- The reader finds what the tokens denote as a sum, and nothing else. -/
theorem denotes_iff_read (ts : List Token) (v : K) :
    Denotes A .sum ts v ↔ Reader.start.read A ts = some v := by
  constructor
  · intro h
    have := h.read (f := .fresh none) [] [] ⟨rfl, rfl⟩ nofun
    rw [List.append_nil] at this
    exact this
  · intro h
    exact Reader.has_start.read h

end FieldWalk.Notation
