import FieldWalk.Proofs.Formula.Lexing
import FieldWalk.Proofs.Notation.Reader
/-!
# Quotients and roots in their place

A quotient or a root that is read where an operand is due, with and without parentheses around it.
Which operators wait for the operand is told by the tokens before: behind a division or power sign, signs
in between, an operand clings to it. What the reader keeps waiting is followed through every step
(`Reader.Keeps`).
-/

namespace FieldWalk.Notation

open Formula Formula.Token

variable {K : Type}

/-! ## What waits for an operand -/

/-- Whether an operand behind the token clings to what is before it; `g` says so before the token. -/
def cling (g : Bool) : Token → Bool
  | symbol c => c == '/' || c == '^' || ((c == '+' || c == '-') && g)
  | _ => false

/-- An operand behind the tokens is divided by or raised to. -/
def clings (ts : List Token) : Bool :=
  ts.foldl cling false

/-- A property of the operations that wait for a product, kept while its operators are read. The flag
says whether the next operand clings. -/
structure Kept (A : Arithmetic K) (P : Bool → (K → K) → Prop) : Prop where
  fresh : P false id
  sign : ∀ g k, P g k → P g fun v => k (A.neg v)
  power : ∀ g k u, P g k → P true fun v => k (A.pow u v)
  mul : ∀ u, P false (A.mul u)
  div : ∀ u, P true (A.div u)

namespace Reader

variable {A : Arithmetic K} {P : Bool → (K → K) → Prop}

/-- The property holds in every frame, and with the flag where an operand is due. -/
structure Keeps (P : Bool → (K → K) → Prop) (g : Bool) (r : Reader K) : Prop where
  below : ∀ f ∈ r.below, ∃ g, P g f.product
  top : ∃ g, P g r.top.product
  operand : r.mode = .operand → P g r.top.product
  other : r.mode ≠ .operand → g = false

theorem keeps_start (hP : Kept A P) : (start (K := K)).Keeps P false :=
  ⟨by simp [start], ⟨false, hP.fresh⟩, fun _ => hP.fresh, fun _ => rfl⟩

/-- An operand is due in the frame. -/
theorem keeps_operand {f : Frame K} {fs : List (Frame K)} {g : Bool}
    (hb : ∀ f ∈ fs, ∃ g, P g f.product) (ht : P g f.product) :
    Keeps P g ⟨.operand, f, fs⟩ :=
  ⟨hb, ⟨g, ht⟩, fun _ => ht, fun h => absurd rfl h⟩

/-- Something else is due in the frame. -/
theorem keeps_other {m : Mode K} {f : Frame K} {fs : List (Frame K)}
    (hb : ∀ f ∈ fs, ∃ g, P g f.product) (ht : ∃ g, P g f.product) (hm : m ≠ .operand) :
    Keeps P false ⟨m, f, fs⟩ :=
  ⟨hb, ht, fun h => absurd h hm, fun _ => rfl⟩

theorem operator_ne_operand (v : K) : Mode.operator v ≠ .operand :=
  nofun

theorem call_ne_operand (n : List Char) : (Mode.call n : Mode K) ≠ .operand :=
  nofun

theorem Keeps.feed (hP : Kept A P) {g : Bool} {r r' : Reader K} {t : Token} (h : r.Keeps P g)
    (hf : r.feed A t = some r') : r'.Keeps P (cling g t) := by
  obtain ⟨mode, f, fs⟩ := r
  -- a parenthesis puts the frame below and closing one brings it back, with its own flag lost
  have hb := h.below
  obtain ⟨g', ht⟩ := h.top
  have hpush : ∀ f' ∈ f :: fs, ∃ g, P g f'.product := by
    intro f' hf'
    rcases List.mem_cons.1 hf' with rfl | hf'
    · exact ⟨g', ht⟩
    · exact hb f' hf'
  cases mode with
  | operand =>
    have ho := h.operand rfl
    simp only [Reader.feed] at hf
    split at hf
    · cases hf
      exact keeps_other hb ⟨g', ht⟩ (operator_ne_operand _)
    · split at hf <;> cases hf
      · exact keeps_other hb ⟨g', ht⟩ (call_ne_operand _)
      · exact keeps_other hb ⟨g', ht⟩ (operator_ne_operand _)
    · cases hf
      exact keeps_operand hpush hP.fresh
    · cases hf
      exact keeps_operand hb ho
    · cases hf
      exact keeps_operand hb (hP.sign g _ ho)
    · cases hf
  | call n =>
    simp only [Reader.feed] at hf
    split at hf
    · rename_i hc
      cases hf
      rw [hc]
      exact keeps_operand hpush hP.fresh
    · cases hf
  | operator u =>
    have hg : g = false := h.other (operator_ne_operand u)
    subst hg
    simp only [Reader.feed] at hf
    split at hf
    · cases hf
      exact keeps_operand hb (hP.power g' _ u ht)
    · cases hf
      exact keeps_operand hb (hP.mul _)
    · cases hf
      exact keeps_operand hb (hP.div _)
    · cases hf
      exact keeps_operand hb hP.fresh
    · cases hf
      exact keeps_operand hb hP.fresh
    · split at hf
      · cases hf
      · cases hf
        exact keeps_operand hb hP.fresh
    · split at hf
      · cases hf
      · rename_i f' fs'
        cases hf
        exact keeps_other (fun f hf => hb f (List.mem_cons_of_mem _ hf)) (hb f' (by simp))
          (operator_ne_operand _)
    · cases hf

theorem Keeps.feedAll (hP : Kept A P) {g : Bool} {r r' : Reader K} {ts : List Token}
    (h : r.Keeps P g) (hf : r.feedAll A ts = some r') : r'.Keeps P (ts.foldl cling g) := by
  induction ts generalizing r g with
  | nil =>
    cases hf
    exact h
  | cons t ts ih =>
    rw [Reader.feedAll, Option.bind_eq_some_iff] at hf
    obtain ⟨s, hs, hf⟩ := hf
    exact ih (h.feed hP hs) hf

/-! ## Function names -/

theorem feedAll_append (r : Reader K) (ts us : List Token) :
    r.feedAll A (ts ++ us) = (r.feedAll A ts).bind fun r => r.feedAll A us := by
  induction ts generalizing r with
  | nil => rfl
  | cons t ts ih =>
    rw [List.cons_append, feedAll, feedAll, Option.bind_assoc]
    exact congrArg _ (funext ih)

/-- A parenthesis is due exactly behind a function name. -/
theorem feed_call {r r' : Reader K} {t : Token} (hf : r.feed A t = some r') (n : List Char) :
    r'.mode = .call n ↔ t = ident n ∧ n ∈ functionNames := by
  obtain ⟨mode, f, fs⟩ := r
  cases mode with
  | operand =>
    simp only [feed] at hf
    split at hf
    · cases hf
      simp
    · split at hf
      · rename_i m hm
        cases hf
        constructor
        · rintro ⟨⟩
          exact ⟨rfl, hm⟩
        · rintro ⟨⟨⟩, -⟩
          rfl
      · rename_i m hm
        cases hf
        constructor
        · rintro ⟨⟩
        · rintro ⟨⟨⟩, hn⟩
          exact absurd hn hm
    all_goals cases hf <;> simp
  | call m =>
    simp only [feed] at hf
    split at hf
    · rename_i hc
      cases hf
      simp [hc]
    · cases hf
  | operator u =>
    simp only [feed] at hf
    split at hf
    · cases hf
      simp
    · cases hf
      simp
    · cases hf
      simp
    · cases hf
      simp
    · cases hf
      simp
    · split at hf <;> cases hf
      simp
    · split at hf <;> cases hf
      simp
    · cases hf

theorem feedAll_call {ts : List Token} {r : Reader K} (hf : start.feedAll A ts = some r)
    (n : List Char) : r.mode = .call n ↔ ts.getLast? = some (ident n) ∧ n ∈ functionNames := by
  rcases List.eq_nil_or_concat ts with rfl | ⟨us, t, rfl⟩
  · cases hf
    simp [start]
  · rw [List.concat_eq_append, feedAll_append, Option.bind_eq_some_iff] at hf
    obtain ⟨s, -, hs⟩ := hf
    rw [feedAll, Option.bind_eq_some_iff] at hs
    obtain ⟨r', hr, hs⟩ := hs
    cases hs
    rw [feed_call hr n, List.concat_eq_append, List.getLast?_concat, Option.some.injEq]

end Reader

/-! ## Quotients and roots -/

/-- The tokens of a quotient of two groups. -/
def quotientTokens (as bs : List Token) : List Token :=
  parenTokens as ++ symbol '/' :: parenTokens bs

/-- The tokens of the root of a group with a given index. -/
def rootTokens (ns as : List Token) : List Token :=
  parenTokens as ++ symbol '^' :: parenTokens (number ['1'] :: symbol '/' :: parenTokens ns)

open Reader

variable {A : Arithmetic K} {as bs ns : List Token} {a b n : K}

theorem denotes_quotient (ha : Denotes A .sum as a) (hb : Denotes A .sum bs b) :
    Denotes A .sum (quotientTokens as bs) (A.div a b) :=
  .product (.div (.factor (.operand (.group ha))) (.operand (.group hb)))

theorem denotes_index (hn : Denotes A .sum ns n) :
    Denotes A .sum (number ['1'] :: symbol '/' :: parenTokens ns) (A.div (A.number ['1']) n) :=
  .product (.div (.factor (.operand (.number ['1']))) (.operand (.group hn)))

theorem denotes_root (hn : Denotes A .sum ns n) (ha : Denotes A .sum as a) :
    Denotes A .sum (rootTokens ns as) (A.pow a (A.div (A.number ['1']) n)) :=
  .product (.factor (.pow (.group ha) (.operand (.group (denotes_index hn)))))

section
variable (f : Frame K) (fs : List (Frame K)) (us : List Token)

theorem read_group (ha : Denotes A .sum as a) :
    read A ⟨.operand, f, fs⟩ (parenTokens as ++ us) = read A ⟨.operator a, f, fs⟩ us :=
  (Denotes.group ha).read fs us trivial nofun

/-- A group behind a function name is its argument. -/
theorem read_call {m : List Char} (hm : m ∈ functionNames) (ha : Denotes A .sum as a) :
    read A ⟨.call m, f, fs⟩ (parenTokens as ++ us) = read A ⟨.operator (A.apply m a), f, fs⟩ us := by
  have hc := (Denotes.call hm (.sum ha)).read (f := f) fs us trivial nofun
  have hf : feed A ⟨.operand, f, fs⟩ (ident m) = some ⟨.call m, f, fs⟩ := if_pos hm
  rw [List.cons_append, List.cons_append, Reader.read, hf] at hc
  exact hc

/-- A quotient is read as its divisor, the dividend being divided with all that waits for it. -/
theorem read_quotient (ha : Denotes A .sum as a) (hb : Denotes A .sum bs b) :
    read A ⟨.operand, f, fs⟩ (quotientTokens as bs ++ us) =
      read A ⟨.operator b, { f with product := A.div (f.product a) }, fs⟩ us := by
  rw [quotientTokens, List.append_assoc, List.cons_append, read_group f fs _ ha]
  exact read_group _ fs us hb

/-- A quotient behind a function name: only the dividend is the argument. -/
theorem read_quotient_call {m : List Char} (hm : m ∈ functionNames) (ha : Denotes A .sum as a)
    (hb : Denotes A .sum bs b) :
    read A ⟨.call m, f, fs⟩ (quotientTokens as bs ++ us) =
      read A ⟨.operator b, { f with product := A.div (f.product (A.apply m a)) }, fs⟩ us := by
  rw [quotientTokens, List.append_assoc, List.cons_append, read_call f fs _ hm ha]
  exact read_group _ fs us hb

/-- A root is read as its exponent. -/
theorem read_root (hn : Denotes A .sum ns n) (ha : Denotes A .sum as a) :
    read A ⟨.operand, f, fs⟩ (rootTokens ns as ++ us) =
      read A ⟨.operator (A.div (A.number ['1']) n),
        { f with product := fun v => f.product (A.pow a v) }, fs⟩ us := by
  rw [rootTokens, List.append_assoc, List.cons_append, read_group f fs _ ha]
  exact read_group _ fs us (denotes_index hn)

/-- A root behind a function name: only the radicand is the argument. -/
theorem read_root_call {m : List Char} (hm : m ∈ functionNames) (hn : Denotes A .sum ns n)
    (ha : Denotes A .sum as a) :
    read A ⟨.call m, f, fs⟩ (rootTokens ns as ++ us) =
      read A ⟨.operator (A.div (A.number ['1']) n),
        { f with product := fun v => f.product (A.pow (A.apply m a) v) }, fs⟩ us := by
  rw [rootTokens, List.append_assoc, List.cons_append, read_call f fs _ hm ha]
  exact read_group _ fs us (denotes_index hn)

end

/-- A function name is the last of the tokens. -/
def Calls (ps : List Token) : Prop :=
  ∃ n ∈ functionNames, ps.getLast? = some (ident n)

/-- A power sign is the first of the tokens. -/
def Raises (qs : List Token) : Prop :=
  qs.head? = some (symbol '^')

/-- Before a group that can be read an operand is due, or the arguments of a function. -/
theorem group_due {ps ts us : List Token} {v : K}
    (hv : start.read A (ps ++ (parenTokens ts ++ us)) = some v) :
    ∃ r, start.feedAll A ps = some r ∧ read A r (parenTokens ts ++ us) = some v ∧
      (Calls ps ∧ (∃ m ∈ functionNames, r.mode = .call m) ∨ ¬ Calls ps ∧ r.mode = .operand) := by
  rw [read_append, Option.bind_eq_some_iff] at hv
  obtain ⟨r, hr, hv⟩ := hv
  have hm := feedAll_call hr
  refine ⟨r, hr, hv, ?_⟩
  obtain ⟨mode, f, fs⟩ := r
  cases mode with
  | operand =>
    refine .inr ⟨?_, rfl⟩
    rintro ⟨n, hn, hl⟩
    have := (hm n).2 ⟨hl, hn⟩
    cases this
  | call m =>
    obtain ⟨hl, hn⟩ := (hm m).1 rfl
    exact .inl ⟨⟨m, hn, hl⟩, m, hn, rfl⟩
  | operator u => cases hv

/-! ## Where parentheses do not matter -/

/-- Division is the last of the operations of a product and of a sign. -/
structure Arithmetic.Lawful (A : Arithmetic K) : Prop where
  mul_div : ∀ a b c, A.mul a (A.div b c) = A.div (A.mul a b) c
  neg_div : ∀ a b, A.neg (A.div a b) = A.div (A.neg a) b

/-- What waits for an operand that does not cling can be applied to the dividend alone. -/
theorem kept_loose (hA : A.Lawful) :
    Kept A fun g k => g = false → ∀ a b, k (A.div a b) = A.div (k a) b where
  fresh _ _ _ := rfl
  sign g k h hg a b := by
    show k (A.neg (A.div a b)) = A.div (k (A.neg a)) b
    rw [hA.neg_div, h hg]
  power _ _ _ _ h := nomatch h
  mul u _ a b := hA.mul_div u a b
  div _ h := nomatch h

theorem quotient_same (hA : A.Lawful) (ha : Denotes A .sum as a) (hb : Denotes A .sum bs b)
    {ps qs : List Token} (hc : clings ps = false) (hf : ¬ Calls ps) (hq : ¬ Raises qs) :
    start.read A (ps ++ (quotientTokens as bs ++ qs)) =
      start.read A (ps ++ (parenTokens (quotientTokens as bs) ++ qs)) := by
  rw [read_append, read_append]
  cases hr : start.feedAll A ps with
  | none => rfl
  | some r =>
    have hk := (keeps_start (kept_loose hA)).feedAll (kept_loose hA) hr
    have hm := feedAll_call hr
    obtain ⟨mode, f, fs⟩ := r
    cases mode with
    | operand =>
      -- what waits is applied to the dividend in one case and to the quotient in the other
      show read A _ _ = read A _ _
      rw [read_group f fs qs (denotes_quotient ha hb), read_quotient f fs qs ha hb]
      exact read_product (hk.operand rfl hc a b).symm hq
    | call m =>
      obtain ⟨hl, hn⟩ := (hm m).1 rfl
      exact absurd ⟨m, hn, hl⟩ hf
    | operator u => rfl

theorem root_same (hn : Denotes A .sum ns n) (ha : Denotes A .sum as a) {ps qs : List Token}
    (hf : ¬ Calls ps) (hq : ¬ Raises qs) :
    start.read A (ps ++ (rootTokens ns as ++ qs)) =
      start.read A (ps ++ (parenTokens (rootTokens ns as) ++ qs)) := by
  rw [read_append, read_append]
  cases hr : start.feedAll A ps with
  | none => rfl
  | some r =>
    have hm := feedAll_call hr
    obtain ⟨mode, f, fs⟩ := r
    cases mode with
    | operand =>
      show read A _ _ = read A _ _
      rw [read_group f fs qs (denotes_root hn ha), read_root f fs qs hn ha]
      refine read_product ?_ hq
      rfl
    | call m =>
      obtain ⟨hl, hn⟩ := (hm m).1 rfl
      exact absurd ⟨m, hn, hl⟩ hf
    | operator u => rfl

end FieldWalk.Notation
