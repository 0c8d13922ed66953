import FieldWalk.Numeral.Scalar
import Mathlib.Data.Rat.Floor
import Mathlib.Algebra.Order.Field.Basic
import Mathlib.Tactic.Linarith
/-!
# Exact numbers

The rational numbers as scalars. Nothing is rounded and everything is finite; a division by zero is
zero, and only the length of a vector, which need not be rational, is cut off where it is not.
-/

namespace FieldWalk.Numeral

instance : Scalar ℚ where
  abs a := |a|
  lt a b := a < b
  le a b := a ≤ b
  isFinite _ := true
  nan := 0
  ofInt? n := some n
  ofDecimal m e := m * 10 ^ e
  floor a := .ok ⌊a⌋
  compareInt a n := some (compare a n)
  hypot a b :=
    let s := a * a + b * b
    (s.num.natAbs * s.den).sqrt / s.den

namespace Exact

theorem ofNat_eq (n : ℕ) : (Scalar.ofNat n : ℚ) = n := by
  show ((n : ℤ) : ℚ) * 10 ^ (0 : ℤ) = n
  simp

/-- The value of an integer or a rational number. -/
theorem toScalar?_eq (v : Number ℚ) : v.toScalar? = some v.toScalar := by
  cases v <;> rfl

theorem le_zero_iff (v : Number ℚ) : v.le (.int 0) = true ↔ v.toScalar ≤ 0 := by
  cases v with
  | int n =>
    show decide (n ≤ 0) = true ↔ (n : ℚ) ≤ 0
    simp
  | real a =>
    show (compare a ((0 : ℤ) : ℚ) != .gt) = true ↔ a ≤ 0
    rw [bne_iff_ne, Int.cast_zero, Ne, compare_gt_iff_gt]
    exact not_lt

end Exact

end FieldWalk.Numeral
