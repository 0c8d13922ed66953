import FieldWalk.Proofs.Notation.Position
import Mathlib.Tactic.Ring
/-!
# Quotients and roots out of place

Where an operand clings, is raised or is the bare argument of a function, parentheses around a quotient
change what it denotes. Arithmetics that weigh an expression tell the two readings apart: both have the
same size, but what is raised, what it is raised to or divided by, or what a function is applied to
costs more with the parentheses, and the reader never loses the difference (`Reader.Ahead.feed`).
-/

namespace FieldWalk.Notation

open Formula Formula.Token Reader

/-! ## Weights -/

/-- The size of an expression and its cost. -/
structure Weight where
  size : Nat
  cost : Nat

/-- What is charged for its size: a base, a divisor or an exponent, and an argument. -/
structure Charge where
  base : Nat
  depth : Nat
  argument : Nat

namespace Charge

variable (c : Charge)

/-- Two weights together. -/
def both (v w : Weight) : Weight :=
  ⟨v.size + w.size, v.cost + w.cost⟩

/-- The arithmetic that weighs expressions: each quotient and each power adds one to the size. -/
def arithmetic : Arithmetic Weight where
  number _ := ⟨0, 0⟩
  name _ := ⟨0, 0⟩
  neg v := v
  add := both
  sub := both
  mul := both
  div v w := ⟨v.size + w.size + 1, v.cost + w.cost + c.depth * w.size⟩
  pow v w := ⟨v.size + w.size + 1, v.cost + w.cost + c.base * v.size + c.depth * w.size⟩
  pair := both
  apply _ v := ⟨v.size, v.cost + c.argument * v.size⟩

theorem lawful : c.arithmetic.Lawful where
  mul_div u v w := by
    simp only [arithmetic, both, Weight.mk.injEq]
    omega
  neg_div _ _ := rfl

end Charge

/-! ## Ahead by a constant -/

/-- The second weight has the same size and costs more by `d`. -/
def Ahead (d : Nat) (v w : Weight) : Prop :=
  w.size = v.size ∧ w.cost = v.cost + d

/-- The second operation keeps what its operand is ahead and adds `d`. -/
def Advances (d : Nat) (k l : Weight → Weight) : Prop :=
  ∀ e v w, Ahead e v w → Ahead (d + e) (k v) (l w)

section
variable {c : Charge} {d e : Nat} {u v w x : Weight} {k l k' l' : Weight → Weight}

theorem advances_id : Advances 0 id id := by
  intro e v w h
  rwa [Nat.zero_add]

theorem Advances.comp (h : Advances d k l) (h' : Advances e k' l') :
    Advances (d + e) (fun v => k (k' v)) fun v => l (l' v) := by
  intro i v w hv
  rw [Nat.add_assoc]
  exact h _ _ _ (h' i v w hv)

theorem advances_both (h : Ahead d u v) : Advances d (Charge.both u) (Charge.both v) := by
  rintro e x y ⟨h1, h2⟩
  obtain ⟨h3, h4⟩ := h
  simp only [Ahead, Charge.both]
  constructor <;> omega

theorem advances_div (h : Ahead d u v) : Advances d (c.arithmetic.div u) (c.arithmetic.div v) := by
  rintro e x y ⟨h1, h2⟩
  obtain ⟨h3, h4⟩ := h
  simp only [Ahead, Charge.arithmetic, h1, h3, true_and]
  generalize c.depth * x.size = m
  omega

theorem advances_pow (h : Ahead d u v) : Advances d (c.arithmetic.pow u) (c.arithmetic.pow v) := by
  rintro e x y ⟨h1, h2⟩
  obtain ⟨h3, h4⟩ := h
  simp only [Ahead, Charge.arithmetic, h1, h3, true_and]
  generalize c.base * u.size = m
  generalize c.depth * x.size = n
  omega

theorem ahead_apply (n : List Char) (h : Ahead d u v) :
    Ahead d (c.arithmetic.apply n u) (c.arithmetic.apply n v) := by
  obtain ⟨h1, h2⟩ := h
  simp only [Ahead, Charge.arithmetic, h1, true_and]
  generalize c.argument * u.size = m
  omega

end

/-! ## Readers that are ahead -/

/-- The frames wait for the same, and what waits in the second ones is ahead by `d` in all. -/
inductive FramesAhead : Nat → List (Frame Weight) → List (Frame Weight) → Prop where
  | nil : FramesAhead 0 [] []
  | cons {d₁ d₂ d₃ e n a s p a' s' p' fs gs} (ha : Advances d₁ a a') (hs : Advances d₂ s s')
      (hp : Advances d₃ p p') (h : FramesAhead e fs gs) :
      FramesAhead (d₁ + d₂ + d₃ + e) (⟨n, a, s, p⟩ :: fs) (⟨n, a', s', p'⟩ :: gs)

/-- The second reader is due for the same and ahead by `d` in all. -/
inductive Reader.Ahead : Nat → Reader Weight → Reader Weight → Prop where
  | operand {d f fs g gs} (h : FramesAhead d (f :: fs) (g :: gs)) :
      Reader.Ahead d ⟨.operand, f, fs⟩ ⟨.operand, g, gs⟩
  | call {d n f fs g gs} (h : FramesAhead d (f :: fs) (g :: gs)) :
      Reader.Ahead d ⟨.call n, f, fs⟩ ⟨.call n, g, gs⟩
  | operator {d e v w f fs g gs} (hv : Notation.Ahead e v w) (h : FramesAhead d (f :: fs) (g :: gs)) :
      Reader.Ahead (d + e) ⟨.operator v, f, fs⟩ ⟨.operator w, g, gs⟩

section
variable {c : Charge} {d e : Nat} {f g : Frame Weight} {fs gs : List (Frame Weight)}
  {r r' s : Reader Weight} {v w : Weight}

theorem Reader.Ahead.of_eq (h : Reader.Ahead d r s) (hd : d = e) : Reader.Ahead e r s :=
  hd ▸ h

theorem FramesAhead.fresh (n : Option (List Char)) (h : FramesAhead d fs gs) :
    FramesAhead (0 + 0 + 0 + d) (Frame.fresh n :: fs) (Frame.fresh n :: gs) :=
  .cons advances_id advances_id advances_id h

/-- The value of a closed frame takes over what the frame was ahead. -/
theorem FramesAhead.close (h : FramesAhead d (f :: fs) (g :: gs)) (hv : Notation.Ahead e v w) :
    ∃ d₁ d₂, d = d₁ + d₂ ∧ Notation.Ahead (d₁ + e) (f.close c.arithmetic v) (g.close c.arithmetic w) ∧
      FramesAhead d₂ fs gs := by
  cases h with
  | @cons d₁ d₂ d₃ e' n a s p a' s' p' fs gs ha hs hp h =>
    have hw := ha _ _ _ (hs _ _ _ (hp _ _ _ hv))
    rw [← Nat.add_assoc, ← Nat.add_assoc] at hw
    refine ⟨d₁ + d₂ + d₃, e', rfl, ?_, h⟩
    cases n with
    | none => exact hw
    | some n => exact ahead_apply n hw

theorem advances_sign : Advances 0 c.arithmetic.neg c.arithmetic.neg := by
  intro e v w h
  rwa [Nat.zero_add]

/-- A step keeps what the reader is ahead. -/
theorem Reader.Ahead.feed {t : Token} (h : Reader.Ahead d r s) (hf : r.feed c.arithmetic t = some r') :
    ∃ s', s.feed c.arithmetic t = some s' ∧ Reader.Ahead d r' s' := by
  have hzero : Notation.Ahead 0 (⟨0, 0⟩ : Weight) ⟨0, 0⟩ := ⟨rfl, rfl⟩
  cases h with
  | operand h =>
    simp only [Reader.feed] at hf ⊢
    split at hf
    · cases hf
      exact ⟨_, rfl, .operator hzero h⟩
    · split at hf
      · rename_i hn
        cases hf
        exact ⟨_, if_pos hn, .call h⟩
      · rename_i hn
        cases hf
        exact ⟨_, if_neg hn, .operator hzero h⟩
    · cases hf
      -- a fresh frame is not ahead
      exact ⟨_, rfl, (Reader.Ahead.operand (h.fresh none)).of_eq (by omega)⟩
    · cases hf
      exact ⟨_, rfl, .operand h⟩
    · cases hf
      cases h with
      | cons ha hs hp h => exact ⟨_, rfl, .operand (.cons ha hs (hp.comp advances_sign) h)⟩
    · cases hf
  | call h =>
    simp only [Reader.feed] at hf ⊢
    split at hf
    · rename_i n _ _ _ _ ht
      cases hf
      exact ⟨_, if_pos ht, (Reader.Ahead.operand (h.fresh (some n))).of_eq (by omega)⟩
    · cases hf
  | @operator d e v w f fs g gs hv h =>
    have hcl := h.close (c := c) hv
    cases h with
    | @cons d₁ d₂ d₃ e' n a s p a' s' p' fs gs ha hs hp h =>
      -- what the operand is ahead moves into the operation that waits next
      have hprod := hp _ _ _ hv
      have hsum := hs _ _ _ hprod
      have hargs := ha _ _ _ hsum
      simp only [Reader.feed] at hf ⊢
      split at hf
      · cases hf
        exact ⟨_, rfl, (Reader.Ahead.operand (.cons ha hs (hp.comp (advances_pow hv)) h)).of_eq
          (by omega)⟩
      · cases hf
        exact ⟨_, rfl, (Reader.Ahead.operand (.cons ha hs (advances_both hprod) h)).of_eq (by omega)⟩
      · cases hf
        exact ⟨_, rfl, (Reader.Ahead.operand (.cons ha hs (advances_div hprod) h)).of_eq (by omega)⟩
      · cases hf
        exact ⟨_, rfl, (Reader.Ahead.operand (.cons ha (advances_both hsum) advances_id h)).of_eq
          (by omega)⟩
      · cases hf
        exact ⟨_, rfl, (Reader.Ahead.operand (.cons ha (advances_both hsum) advances_id h)).of_eq
          (by omega)⟩
      · split at hf
        · cases hf
        · rename_i hn
          cases hf
          exact ⟨_, if_neg hn, (Reader.Ahead.operand
            (.cons (advances_both hargs) advances_id advances_id h)).of_eq (by omega)⟩
      · cases h with
        | nil => cases hf
        | @cons d₁' d₂' d₃' e'' n' a₁ s₁ p₁ a₁' s₁' p₁' fs gs ha' hs' hp' h =>
          cases hf
          obtain ⟨i, j, hij, hc, hrest⟩ := hcl
          exact ⟨_, rfl, (Reader.Ahead.operator hc hrest).of_eq (by omega)⟩
      · cases hf

theorem Reader.Ahead.feedAll {ts : List Token} (h : Reader.Ahead d r s)
    (hf : r.feedAll c.arithmetic ts = some r') :
    ∃ s', s.feedAll c.arithmetic ts = some s' ∧ Reader.Ahead d r' s' := by
  induction ts generalizing r s with
  | nil =>
    cases hf
    exact ⟨s, rfl, h⟩
  | cons t ts ih =>
    rw [Reader.feedAll, Option.bind_eq_some_iff] at hf
    obtain ⟨q, hq, hf⟩ := hf
    obtain ⟨q', hq', h'⟩ := h.feed hq
    rw [Reader.feedAll, hq']
    exact ih h' hf

/-- What the reader is ahead is what its value is ahead. -/
theorem Reader.Ahead.read {ts : List Token} (h : Reader.Ahead d r s)
    (hr : r.read c.arithmetic ts = some v) :
    ∃ w, s.read c.arithmetic ts = some w ∧ Notation.Ahead d v w := by
  induction ts generalizing r s with
  | nil =>
    cases h with
    | operand h => cases hr
    | call h => cases hr
    | @operator d e u u' f fs g gs hv h =>
      obtain ⟨i, j, hij, hc, hrest⟩ := h.close (c := c) hv
      cases fs with
      | cons f' fs => cases hr
      | nil =>
        cases hrest
        cases hr
        rw [hij]
        exact ⟨_, rfl, hc⟩
  | cons t ts ih =>
    rw [Reader.read, Option.bind_eq_some_iff] at hr
    obtain ⟨q, hq, hr⟩ := hr
    obtain ⟨q', hq', h'⟩ := h.feed hq
    rw [Reader.read, hq']
    exact ih h' hr

/-- A reader that was started is not ahead of itself. -/
theorem ahead_self {ts : List Token} (hr : start.feedAll c.arithmetic ts = some r) :
    Reader.Ahead 0 r r := by
  have h0 : Reader.Ahead 0 start start := .operand (FramesAhead.nil.fresh none)
  obtain ⟨s, hs, h⟩ := h0.feedAll hr
  rw [hr] at hs
  cases hs
  exact h

theorem Reader.Ahead.frames (h : Reader.Ahead 0 r s) :
    FramesAhead 0 (r.top :: r.below) (s.top :: s.below) := by
  generalize hd : 0 = d at h
  cases h with
  | operand h => exact hd ▸ h
  | call h => exact hd ▸ h
  | @operator d e v w f fs g gs hv h =>
    obtain ⟨rfl, rfl⟩ : d = 0 ∧ e = 0 := by omega
    exact h

/-- A difference in what waits for a product is all the difference there is. -/
theorem FramesAhead.product {q q' : Weight → Weight} (h : FramesAhead 0 (f :: fs) (f :: fs))
    (hq : Advances d q q') :
    FramesAhead d ({ f with product := q } :: fs) ({ f with product := q' } :: fs) := by
  generalize hz : 0 = z at h
  cases h with
  | @cons d₁ d₂ d₃ e n a s p a' s' p' fs gs ha hs hp h =>
    have h1 : d₁ = 0 ∧ d₂ = 0 ∧ e = 0 := by omega
    obtain ⟨rfl, rfl, rfl⟩ := h1
    have := FramesAhead.cons (n := n) ha hs hq h
    simpa using this

/-- Readers that differ in the operand read last and in what waits for its product. -/
theorem read_apart {p q : Weight → Weight} {qs : List Token} (h : FramesAhead 0 (f :: fs) (f :: fs))
    (hs : ¬ Raises qs → Notation.Ahead d (p v) (q w))
    (hr : Raises qs → Advances d (fun x => p (c.arithmetic.pow v x)) fun x => q (c.arithmetic.pow w x))
    {x : Weight}
    (hx : read c.arithmetic ⟨.operator v, { f with product := p }, fs⟩ qs = some x) :
    ∃ y, read c.arithmetic ⟨.operator w, { f with product := q }, fs⟩ qs = some y ∧
      Notation.Ahead d x y := by
  by_cases hq : Raises qs
  · obtain ⟨qs, rfl⟩ := List.head?_eq_some_iff.1 hq
    exact (Reader.Ahead.operand (h.product (hr hq))).read hx
  · have hset : ∀ (k : Weight → Weight) u,
        read c.arithmetic ⟨.operator u, { f with product := k }, fs⟩ qs =
          read c.arithmetic ⟨.operator (k u), { f with product := id }, fs⟩ qs := by
      intro k u
      refine read_product ?_ hq
      rfl
    rw [hset] at hx ⊢
    have := (Reader.Ahead.operator (hs hq) (h.product advances_id)).read hx
    rwa [Nat.zero_add] at this

end

/-! ## What waits for an operand -/

/-- The operation adds constants to the weight, and `n` times the charge for depth. -/
def Steep (c : Charge) (n : Nat) (k : Weight → Weight) : Prop :=
  ∃ i j, ∀ x, k x = ⟨x.size + i, x.cost + c.depth * n * x.size + j⟩

/-- What waits for an operand that clings charges for its depth. -/
theorem kept_steep (c : Charge) :
    Kept c.arithmetic fun g k => ∃ n, (g = true → 0 < n) ∧ Steep c n k where
  fresh := ⟨0, nofun, 0, 0, fun x => by simp⟩
  sign _ _ h := h
  power g k u h := by
    obtain ⟨n, -, i, j, hk⟩ := h
    refine ⟨n + 1, fun _ => Nat.succ_pos n, u.size + 1 + i,
      u.cost + c.base * u.size + c.depth * n * (u.size + 1) + j, fun x => ?_⟩
    simp only [hk, Charge.arithmetic, Weight.mk.injEq]
    constructor
    · omega
    · ring
  mul u := ⟨0, nofun, u.size, u.cost, fun x => by
    simp only [Charge.arithmetic, Charge.both, Weight.mk.injEq]
    constructor <;> omega⟩
  div u := ⟨1, fun _ => Nat.one_pos, u.size + 1, u.cost, fun x => by
    simp only [Charge.arithmetic, Weight.mk.injEq]
    constructor
    · omega
    · ring⟩

/-! ## Where parentheses matter -/

/-- The charge for arguments. -/
def Charge.ofArgument : Charge :=
  ⟨0, 0, 1⟩

/-- The charge for bases. -/
def Charge.ofBase : Charge :=
  ⟨1, 0, 0⟩

/-- The charge for divisors and exponents. -/
def Charge.ofDepth : Charge :=
  ⟨0, 1, 0⟩

section
variable {a b : Weight} {k : Weight → Weight} {n : Nat} (m : List Char)

section
variable (hk : Steep .ofArgument n k)
include hk

/-- A function is charged for the whole quotient if it is its argument. -/
theorem quotient_argument {A : Arithmetic Weight} (hA : A = Charge.ofArgument.arithmetic) :
    Ahead (b.size + 1) (A.div (k (A.apply m a)) b) (k (A.apply m (A.div a b))) ∧
      Advances (b.size + 1) (fun x => A.div (k (A.apply m a)) (A.pow b x))
        fun x => k (A.pow (A.apply m (A.div a b)) x) := by
  subst hA
  obtain ⟨i, j, hk⟩ := hk
  constructor
  · simp only [hk, Ahead, Charge.arithmetic, Charge.ofArgument]
    constructor <;> omega
  · rintro e x y ⟨h1, h2⟩
    simp only [hk, Ahead, Charge.arithmetic, Charge.ofArgument]
    constructor <;> omega

/-- A function is charged for the whole root if it is its argument. -/
theorem root_argument {A : Arithmetic Weight} (hA : A = Charge.ofArgument.arithmetic) :
    Ahead (b.size + 1) (k (A.pow (A.apply m a) b)) (k (A.apply m (A.pow a b))) ∧
      Advances (b.size + 1) (fun x => k (A.pow (A.apply m a) (A.pow b x)))
        fun x => k (A.pow (A.apply m (A.pow a b)) x) := by
  subst hA
  obtain ⟨i, j, hk⟩ := hk
  constructor
  · simp only [hk, Ahead, Charge.arithmetic, Charge.ofArgument, true_and]
    omega
  · rintro e x y ⟨h1, h2⟩
    simp only [hk, Ahead, Charge.arithmetic, Charge.ofArgument]
    constructor <;> omega

end

section
variable (hk : Steep .ofBase n k)
include hk

/-- A power is charged for the whole quotient if it is its base. -/
theorem quotient_base {A : Arithmetic Weight} (hA : A = Charge.ofBase.arithmetic) :
    Advances (a.size + 1) (fun x => A.div (k a) (A.pow b x)) fun x => k (A.pow (A.div a b) x) := by
  subst hA
  obtain ⟨i, j, hk⟩ := hk
  rintro e x y ⟨h1, h2⟩
  simp only [hk, Ahead, Charge.arithmetic, Charge.ofBase]
  constructor <;> omega

/-- A power is charged for the whole root if it is its base. -/
theorem root_base {A : Arithmetic Weight} (hA : A = Charge.ofBase.arithmetic) :
    Advances (a.size + 1) (fun x => k (A.pow a (A.pow b x))) fun x => k (A.pow (A.pow a b) x) := by
  subst hA
  obtain ⟨i, j, hk⟩ := hk
  rintro e x y ⟨h1, h2⟩
  simp only [hk, Ahead, Charge.arithmetic, Charge.ofBase]
  constructor <;> omega

end

/-- What an operand clings to is charged for the whole quotient if it is the operand. -/
theorem quotient_depth {A : Arithmetic Weight} (hA : A = Charge.ofDepth.arithmetic)
    (hk : Steep .ofDepth n k) : Ahead (n * (b.size + 1)) (A.div (k a) b) (k (A.div a b)) := by
  subst hA
  obtain ⟨i, j, hk⟩ := hk
  simp only [hk, Ahead, Charge.arithmetic, Charge.ofDepth]
  constructor
  · omega
  · ring

end

/-- The tokens denote something in every arithmetic of weights. -/
def Weighable (ts : List Token) : Prop :=
  ∀ c : Charge, ∃ v, Denotes c.arithmetic .sum ts v

section
variable {as bs ns ps qs : List Token}

/-- What is read from two such readers differs. -/
theorem read_ne {c : Charge} {mode : Mode Weight} {f : Frame Weight} {fs : List (Frame Weight)}
    {u w x y : Weight} {p : Weight → Weight} {d : Nat}
    (hr : start.feedAll c.arithmetic ps = some ⟨mode, f, fs⟩)
    (hx : read c.arithmetic ⟨.operator u, { f with product := p }, fs⟩ qs = some x)
    (hy : read c.arithmetic ⟨.operator w, f, fs⟩ qs = some y) (hd : 0 < d)
    (h1 : ¬ Raises qs → Ahead d (p u) (f.product w))
    (h2 : Raises qs →
      Advances d (fun x => p (c.arithmetic.pow u x)) fun x => f.product (c.arithmetic.pow w x)) :
    x ≠ y := by
  obtain ⟨z, hz, hxz⟩ := read_apart (ahead_self hr).frames h1 h2 hx
  have hyz := hy.symm.trans hz
  cases hyz
  rintro rfl
  have := hxz.2
  omega

section
variable {c : Charge} {ts : List Token} {b w x y : Weight}

/-- A construct behind a function name, where its last part is read after all before it is joined. -/
theorem call_apart (join : List Char → (Weight → Weight) → Weight → Weight)
    (hbare : ∀ m ∈ functionNames, ∀ f fs us, read c.arithmetic ⟨.call m, f, fs⟩ (ts ++ us) =
      read c.arithmetic ⟨.operator b, { f with product := join m f.product }, fs⟩ us)
    (hwhole : Denotes c.arithmetic .sum ts w)
    (h : ∀ m k n, Steep c n k → ∃ d, 0 < d ∧
      Ahead d (join m k b) (k (c.arithmetic.apply m w)) ∧
      Advances d (fun x => join m k (c.arithmetic.pow b x))
        fun x => k (c.arithmetic.pow (c.arithmetic.apply m w) x))
    (hcall : Calls ps) (hx : start.read c.arithmetic (ps ++ (ts ++ qs)) = some x)
    (hy : start.read c.arithmetic (ps ++ (parenTokens ts ++ qs)) = some y) : x ≠ y := by
  obtain ⟨⟨mode, f, fs⟩, hr, hy, ⟨-, m, hm, ⟨⟩⟩ | ⟨hn, -⟩⟩ := group_due hy
  · obtain ⟨-, n, -, hk⟩ := ((keeps_start (kept_steep c)).feedAll (kept_steep c) hr).top
    obtain ⟨d, hd, h1, h2⟩ := h m _ n hk
    rw [read_append, hr] at hx
    exact read_ne hr ((hbare m hm f fs qs).symm.trans hx)
      ((read_call f fs qs hm hwhole).symm.trans hy) hd (fun _ => h1) (fun _ => h2)
  · exact absurd hcall hn

/-- A construct where an operand is due. -/
theorem operand_apart (join : (Weight → Weight) → Weight → Weight)
    (hbare : ∀ f fs us, read c.arithmetic ⟨.operand, f, fs⟩ (ts ++ us) =
      read c.arithmetic ⟨.operator b, { f with product := join f.product }, fs⟩ us)
    (hwhole : Denotes c.arithmetic .sum ts w)
    (h : ∀ k n, (clings ps = true → 0 < n) → Steep c n k → ∃ d, 0 < d ∧
      (¬ Raises qs → Ahead d (join k b) (k w)) ∧
      (Raises qs → Advances d (fun x => join k (c.arithmetic.pow b x))
        fun x => k (c.arithmetic.pow w x)))
    (hcall : ¬ Calls ps) (hx : start.read c.arithmetic (ps ++ (ts ++ qs)) = some x)
    (hy : start.read c.arithmetic (ps ++ (parenTokens ts ++ qs)) = some y) : x ≠ y := by
  obtain ⟨⟨mode, f, fs⟩, hr, hy, ⟨hc, -⟩ | ⟨-, ⟨⟩⟩⟩ := group_due hy
  · exact absurd hc hcall
  · obtain ⟨n, hn, hk⟩ := ((keeps_start (kept_steep c)).feedAll (kept_steep c) hr).operand rfl
    obtain ⟨d, hd, h1, h2⟩ := h _ n hn hk
    rw [read_append, hr] at hx
    exact read_ne hr ((hbare f fs qs).symm.trans hx) ((read_group f fs qs hwhole).symm.trans hy) hd h1 h2

end

/-- Parentheses around a quotient change what is read if it is the argument of a function, is raised or
clings. -/
theorem quotient_apart (ha : Weighable as) (hb : Weighable bs)
    (h : Calls ps ∨ Raises qs ∨ clings ps = true) :
    ∃ c : Charge, ∀ x y,
      start.read c.arithmetic (ps ++ (quotientTokens as bs ++ qs)) = some x →
      start.read c.arithmetic (ps ++ (parenTokens (quotientTokens as bs) ++ qs)) = some y → x ≠ y := by
  by_cases hcall : Calls ps
  -- the function takes the dividend alone
  · obtain ⟨a, ha⟩ := ha .ofArgument
    obtain ⟨b, hb⟩ := hb .ofArgument
    refine ⟨.ofArgument, fun x y => call_apart (fun m k => Arithmetic.div _ (k (Arithmetic.apply _ m a)))
      (fun m hm f fs us => read_quotient_call f fs us hm ha hb) (denotes_quotient ha hb)
      (fun m k n hk => ?_) hcall⟩
    exact ⟨_, Nat.succ_pos _, quotient_argument m hk rfl⟩
  by_cases hraise : Raises qs
  -- the power takes the divisor alone; it hides whether the quotient clings
  · obtain ⟨a, ha⟩ := ha .ofBase
    obtain ⟨b, hb⟩ := hb .ofBase
    refine ⟨.ofBase, fun x y => operand_apart (fun k => Arithmetic.div _ (k a))
      (fun f fs us => read_quotient f fs us ha hb) (denotes_quotient ha hb) (fun k n _ hk => ?_) hcall⟩
    exact ⟨_, Nat.succ_pos _, fun hq => absurd hraise hq, fun _ => quotient_base hk rfl⟩
  -- what is before divides by the dividend alone, or raises to it
  · have hcling : clings ps = true := (h.resolve_left hcall).resolve_left hraise
    obtain ⟨a, ha⟩ := ha .ofDepth
    obtain ⟨b, hb⟩ := hb .ofDepth
    refine ⟨.ofDepth, fun x y => operand_apart (fun k => Arithmetic.div _ (k a))
      (fun f fs us => read_quotient f fs us ha hb) (denotes_quotient ha hb) (fun k n hn hk => ?_) hcall⟩
    exact ⟨_, Nat.mul_pos (hn hcling) (Nat.succ_pos b.size), fun _ => quotient_depth rfl hk,
      fun hq => absurd hq hraise⟩

/-- Parentheses around a root change what is read if it is the argument of a function or is raised. -/
theorem root_apart (hn : Weighable ns) (ha : Weighable as) (h : Calls ps ∨ Raises qs) :
    ∃ c : Charge, ∀ x y,
      start.read c.arithmetic (ps ++ (rootTokens ns as ++ qs)) = some x →
      start.read c.arithmetic (ps ++ (parenTokens (rootTokens ns as) ++ qs)) = some y → x ≠ y := by
  by_cases hcall : Calls ps
  -- the function takes the radicand alone
  · obtain ⟨a, ha⟩ := ha .ofArgument
    obtain ⟨b, hb⟩ := hn .ofArgument
    refine ⟨.ofArgument, fun x y => call_apart (fun m k v => k (Arithmetic.pow _ (Arithmetic.apply _ m a) v))
      (fun m hm f fs us => read_root_call f fs us hm hb ha) (denotes_root hb ha)
      (fun m k n hk => ?_) hcall⟩
    exact ⟨_, Nat.succ_pos _, root_argument m hk rfl⟩
  -- the power takes the exponent of the root alone
  · have hraise : Raises qs := h.resolve_left hcall
    obtain ⟨a, ha⟩ := ha .ofBase
    obtain ⟨b, hb⟩ := hn .ofBase
    refine ⟨.ofBase, fun x y => operand_apart (fun k v => k (Arithmetic.pow _ a v))
      (fun f fs us => read_root f fs us hb ha) (denotes_root hb ha) (fun k n _ hk => ?_) hcall⟩
    exact ⟨_, Nat.succ_pos _, fun hq => absurd hraise hq, fun _ => root_base hk rfl⟩

end

end FieldWalk.Notation
