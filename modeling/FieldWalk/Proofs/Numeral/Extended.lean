import FieldWalk.Proofs.Numeral.Exact
/-!
# Rational numbers with infinite ones

Scalars that are rational numbers, infinite numbers of either sign, and one without a value. A result is
computed exactly and then rounded; one beyond the range is infinite. With nothing rounded these are the
exact numbers with infinite ones beside them. Zero has no sign.
-/

namespace FieldWalk.Numeral

/-- A way to round: the number that stands for a rational number, none if it is beyond the range. -/
structure Rounding where
  round : ℚ → Option ℚ
  round_zero : round 0 = some 0
  round_round : ∀ {q p : ℚ}, round q = some p → round p = some p
  round_neg : ∀ q : ℚ, round (-q) = (round q).map (-·)

namespace Rounding

/-- Every number stands for itself. -/
def exact : Rounding where
  round := some
  round_zero := rfl
  round_round _ := rfl
  round_neg _ := rfl

variable {r : Rounding}

theorem neg_fixed {q : ℚ} (h : r.round q = some q) : r.round (-q) = some (-q) := by
  rw [r.round_neg, h]
  rfl

theorem abs_fixed {q : ℚ} (h : r.round q = some q) : r.round |q| = some |q| := by
  rcases abs_choice q with hq | hq <;> rw [hq]
  · exact h
  · exact neg_fixed h

end Rounding

/-- A rational number that is not changed by rounding, an infinite one, or none. -/
inductive Extended (r : Rounding) where
  | finite (q : ℚ) (fixed : r.round q = some q)
  | infinite (negative : Bool)
  | undefined
deriving DecidableEq

namespace Extended

variable {r : Rounding}

/-- The number that stands for a rational one, the infinite one of its sign beyond the range. -/
def ofRat (r : Rounding) (q : ℚ) : Extended r :=
  match h : r.round q with
  | some p => finite p (r.round_round h)
  | none => infinite (q < 0)

theorem ofRat_of_some {q p : ℚ} (h : r.round q = some p) :
    ofRat r q = finite p (r.round_round h) := by
  unfold ofRat
  split
  · rename_i h'
    rw [h] at h'
    cases h'
    rfl
  · rename_i h'
    rw [h] at h'
    cases h'

theorem ofRat_of_none {q : ℚ} (h : r.round q = none) : ofRat r q = infinite (q < 0) := by
  unfold ofRat
  split
  · rename_i h'
    rw [h] at h'
    cases h'
  · rfl

/-! ## Arithmetic -/

instance : Neg (Extended r) where
  neg
    | finite q h => finite (-q) (Rounding.neg_fixed h)
    | infinite n => infinite !n
    | undefined => undefined

instance : Add (Extended r) where
  add
    | undefined, _ | _, undefined => undefined
    | finite p _, finite q _ => ofRat r (p + q)
    | infinite m, infinite n => if m = n then infinite m else undefined
    | infinite m, finite _ _ | finite _ _, infinite m => infinite m

instance : Sub (Extended r) where
  sub a b := a + -b

instance : Mul (Extended r) where
  mul
    | undefined, _ | _, undefined => undefined
    | finite p _, finite q _ => ofRat r (p * q)
    | infinite m, infinite n => infinite (m != n)
    | infinite m, finite q _ | finite q _, infinite m =>
      if q = 0 then undefined else infinite (m != decide (q < 0))

instance : Div (Extended r) where
  div
    | undefined, _ | _, undefined | infinite _, infinite _ => undefined
    | finite p _, finite q _ =>
      if q = 0 then if p = 0 then undefined else infinite (p < 0) else ofRat r (p / q)
    | infinite m, finite q _ => infinite (m != decide (q < 0))
    | finite _ _, infinite _ => ofRat r 0

/-- The order of two numbers. -/
def order? : Extended r → Extended r → Option Ordering
  | undefined, _ | _, undefined => none
  | finite p _, finite q _ => some (compare p q)
  | infinite m, infinite n => some (compare n m)
  | infinite m, finite _ _ => some (if m then .lt else .gt)
  | finite _ _, infinite n => some (if n then .gt else .lt)

instance : Scalar (Extended r) where
  abs
    | finite q h => finite |q| (Rounding.abs_fixed h)
    | infinite _ => infinite false
    | undefined => undefined
  lt a b := order? a b == some .lt
  le a b := (order? a b).any (·.isLE)
  isFinite
    | finite _ _ => true
    | infinite _ | undefined => false
  nan := undefined
  ofInt? n := if (r.round n).isSome then some (ofRat r n) else none
  ofDecimal m e := ofRat r (m * 10 ^ e)
  floor
    | finite q _ => .ok ⌊q⌋
    | infinite _ => .error .infinite
    | undefined => .error .notANumber
  compareInt
    | finite q _, n => some (compare q n)
    | infinite m, _ => some (if m then .lt else .gt)
    | undefined, _ => none
  hypot
    | infinite _, _ | _, infinite _ => infinite false
    | finite p _, finite q _ => ofRat r (Scalar.hypot p q)
    | undefined, _ | _, undefined => undefined

/-! ## Signs -/

theorem decide_neg_lt {q : ℚ} (h : q ≠ 0) : decide (-q < 0) = !decide (q < 0) := by
  rcases lt_or_gt_of_ne h with hlt | hgt
  · simp [hlt, hlt.le]
  · simp [hgt, hgt.le]

theorem ofRat_neg (q : ℚ) : ofRat r (-q) = -ofRat r q := by
  have hround := r.round_neg q
  cases h : r.round q with
  | some p =>
    rw [h] at hround
    rw [ofRat_of_some h, ofRat_of_some hround]
    rfl
  | none =>
    rw [h] at hround
    have hq : q ≠ 0 := by
      rintro rfl
      rw [r.round_zero] at h
      cases h
    rw [ofRat_of_none h, ofRat_of_none hround, decide_neg_lt hq]
    rfl

instance : CommMagma (Extended r) where
  mul_comm a b := by
    cases a with
    | finite p hp =>
      cases b with
      | finite q hq => exact congrArg (ofRat r) (mul_comm p q)
      | infinite | undefined => rfl
    | infinite m =>
      cases b with
      | infinite n => exact congrArg infinite bne_comm
      | finite | undefined => rfl
    | undefined => cases b <;> rfl

/-- The sign of a product is the one of its factors, also where one of them is infinite. -/
theorem neg_mul_eq (a b : Extended r) : -a * b = -(a * b) := by
  have hleft : ∀ m n : Bool, ((!m) != n) = !(m != n) := by decide
  have hright : ∀ m n : Bool, (m != !n) = !(m != n) := by decide
  cases b with
  | undefined => cases a <;> rfl
  | finite q hq =>
    cases a with
    | undefined => rfl
    | finite p hp =>
      show ofRat r (-p * q) = -ofRat r (p * q)
      rw [neg_mul, ofRat_neg]
    | infinite m =>
      show (if q = 0 then undefined else infinite ((!m) != decide (q < 0))) =
        -(if q = 0 then undefined else infinite (m != decide (q < 0)) : Extended r)
      rw [hleft]
      split <;> rfl
  | infinite n =>
    cases a with
    | undefined => rfl
    | finite p hp =>
      show (if -p = 0 then undefined else infinite (n != decide (-p < 0))) =
        -(if p = 0 then undefined else infinite (n != decide (p < 0)) : Extended r)
      by_cases hp0 : p = 0
      · simp only [hp0, neg_zero, if_true]
        rfl
      · rw [if_neg (neg_ne_zero.2 hp0), if_neg hp0, decide_neg_lt hp0, hright]
        rfl
    | infinite m => exact congrArg infinite (hleft m n)

instance : HasDistribNeg (Extended r) where
  neg_neg a := by
    cases a with
    | finite q h =>
      show finite (- -q) _ = finite q h
      simp only [neg_neg]
    | infinite n => exact congrArg infinite (Bool.not_not n)
    | undefined => rfl
  neg_mul := neg_mul_eq
  mul_neg a b := by rw [mul_comm, neg_mul_eq, mul_comm]

theorem scalar_abs_neg (a : Extended r) : Scalar.abs (-a) = Scalar.abs a := by
  cases a with
  | finite q h =>
    show finite |-q| _ = finite |q| _
    simp only [abs_neg]
  | infinite | undefined => rfl

theorem isFinite_neg (a : Extended r) : Scalar.isFinite (-a) = Scalar.isFinite a := by
  cases a <;> rfl

theorem ofDecimal_neg (m e : ℤ) :
    (Scalar.ofDecimal (-m) e : Extended r) = -Scalar.ofDecimal m e := by
  show ofRat r (((-m : ℤ) : ℚ) * 10 ^ e) = -ofRat r (m * 10 ^ e)
  rw [Int.cast_neg, neg_mul, ofRat_neg]

end Extended

end FieldWalk.Numeral
