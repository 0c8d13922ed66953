import FieldWalk.Proofs.Numeral.Nearest
/-!
# The order of doubles

Infinite numbers lie at the ends of the order, and what has no value lies nowhere. Rounding to the
nearest keeps the order even where a result overflows, and so do sums.
-/

namespace FieldWalk.Numeral.Extended

/-- The rational number that a finite one is, zero for the others. -/
def value {r : Rounding} : Extended r → ℚ
  | finite q _ => q
  | infinite _ | undefined => 0

/-! ## At most -/

section
variable {r : Rounding} {x y z : Extended r} {p q : ℚ}

@[simp] theorem le_finite {hp : r.round p = some p} {hq : r.round q = some q} :
    Scalar.le (finite p hp) (finite q hq) = true ↔ p ≤ q := by
  show (compare p q).isLE = true ↔ p ≤ q
  rw [Ordering.isLE_iff_ne_gt]
  exact compare_le_iff_le

@[simp] theorem le_infinite_right {hp : r.round p = some p} {n : Bool} :
    Scalar.le (finite p hp) (infinite n) = !n := by
  cases n <;> rfl

@[simp] theorem le_infinite_left {hp : r.round p = some p} {n : Bool} :
    Scalar.le (infinite n) (finite p hp) = n := by
  cases n <;> rfl

@[simp] theorem le_infinite {m n : Bool} :
    Scalar.le (infinite m : Extended r) (infinite n) = (m || !n) := by
  cases m <;> cases n <;> rfl

@[simp] theorem not_le_undefined_left : Scalar.le (undefined : Extended r) x = false := rfl

@[simp] theorem not_le_undefined_right : Scalar.le x (undefined : Extended r) = false := by
  cases x <;> rfl

theorem le_trans_of_le (hxy : Scalar.le x y = true) (hyz : Scalar.le y z = true) :
    Scalar.le x z = true := by
  cases x <;> cases y <;> cases z <;> simp_all
  · exact le_trans hxy hyz
  · grind

/-- What lies between finite numbers is finite. -/
theorem isFinite_of_le {hp : r.round p = some p} {hq : r.round q = some q}
    (hpx : Scalar.le (finite p hp) x = true) (hxq : Scalar.le x (finite q hq) = true) :
    Scalar.isFinite x = true := by
  cases x with
  | finite => rfl
  | infinite n => simp_all
  | undefined => simp at hpx

end

/-! ## Rounding and sums -/

section
variable {x y : Extended .nearest} {p q : ℚ}

theorem round_nearest_of_le (h : |nearest q| ≤ largest) :
    Rounding.nearest.round q = some (nearest q) := if_pos h

theorem round_nearest_eq_none (h : ¬ |nearest q| ≤ largest) :
    Rounding.nearest.round q = none := if_neg h

theorem nearest_nonpos (h : q ≤ 0) : nearest q ≤ 0 := by
  rw [← nearest_zero]
  exact nearest_mono h

/-- What overflows on one side lies beyond all that does not. -/
theorem ofRat_mono (h : p ≤ q) : Scalar.le (ofRat .nearest p) (ofRat .nearest q) = true := by
  have hmono := nearest_mono h
  by_cases hp : |nearest p| ≤ largest
  · rw [ofRat_of_some (round_nearest_of_le hp)]
    by_cases hq : |nearest q| ≤ largest
    · rw [ofRat_of_some (round_nearest_of_le hq), le_finite]
      exact hmono
    · rw [ofRat_of_none (round_nearest_eq_none hq), le_infinite_right, Bool.not_eq_true',
        decide_eq_false_iff_not]
      intro hneg
      rw [abs_of_nonpos (nearest_nonpos hneg.le)] at hq
      have := (abs_le.1 hp).1
      linarith
  · rw [ofRat_of_none (round_nearest_eq_none hp)]
    by_cases hq : |nearest q| ≤ largest
    · rw [ofRat_of_some (round_nearest_of_le hq), le_infinite_left, decide_eq_true_iff]
      by_contra hneg
      rw [abs_of_nonneg (nearest_nonneg (not_lt.1 hneg))] at hp
      have := (abs_le.1 hq).2
      linarith
    · rw [ofRat_of_none (round_nearest_eq_none hq), le_infinite]
      by_cases hneg : q < 0
      · simp [h.trans_lt hneg]
      · simp [hneg]

theorem infinite_le_ofRat (q : ℚ) :
    Scalar.le (infinite true) (ofRat .nearest q) = true := by
  cases h : Rounding.nearest.round q with
  | some p => rw [ofRat_of_some h, le_infinite_left]
  | none => rw [ofRat_of_none h, le_infinite, Bool.true_or]

theorem ofRat_le_infinite (q : ℚ) :
    Scalar.le (ofRat .nearest q) (infinite false) = true := by
  cases h : Rounding.nearest.round q with
  | some p => rw [ofRat_of_some h, le_infinite_right, Bool.not_false]
  | none => rw [ofRat_of_none h, le_infinite, Bool.not_false, Bool.or_true]

/-- A finite number may be added on both sides. -/
theorem add_le_add_finite {hq : Rounding.nearest.round q = some q} (h : Scalar.le x y = true) :
    Scalar.le (x + finite q hq) (y + finite q hq) = true := by
  cases x with
  | undefined => simp at h
  | infinite m =>
    cases y with
    | undefined => simp at h
    | infinite n => exact h
    | finite p hp =>
      rw [le_infinite_left] at h
      subst h
      exact infinite_le_ofRat (p + q)
  | finite p hp =>
    cases y with
    | undefined => simp at h
    | infinite n =>
      rw [le_infinite_right, Bool.not_eq_true'] at h
      subst h
      exact ofRat_le_infinite (p + q)
    | finite p' hp' =>
      rw [le_finite] at h
      exact ofRat_mono (add_le_add_left h q)

end

end FieldWalk.Numeral.Extended
