import FieldWalk.Proofs.Numeral.Exact
/-!
# Rational numbers that overflow

Doubles but for their rounding: a result beyond the largest double is infinite, any other is exact.
Zero has no sign.
-/

namespace FieldWalk.Numeral

/-- The largest finite double. -/
def largest : ℚ := (2 ^ 53 - 1) * 2 ^ 971

/-- A rational number up to the largest double, an infinite one or none. -/
inductive Ranged where
  | finite (q : ℚ) (le : |q| ≤ largest)
  | infinite (negative : Bool)
  | undefined
deriving DecidableEq

namespace Ranged

/-- The number in range, else the infinite one of its sign. -/
def ofRat (q : ℚ) : Ranged :=
  if h : |q| ≤ largest then finite q h else infinite (q < 0)

instance : Neg Ranged where
  neg
    | finite q h => finite (-q) ((abs_neg q).trans_le h)
    | infinite n => infinite !n
    | undefined => undefined

instance : Add Ranged where
  add
    | undefined, _ | _, undefined => undefined
    | finite p _, finite q _ => ofRat (p + q)
    | infinite m, infinite n => if m = n then infinite m else undefined
    | infinite m, finite _ _ | finite _ _, infinite m => infinite m

instance : Sub Ranged where
  sub a b := a + -b

instance : Mul Ranged where
  mul
    | undefined, _ | _, undefined => undefined
    | finite p _, finite q _ => ofRat (p * q)
    | infinite m, infinite n => infinite (m != n)
    | infinite m, finite q _ | finite q _, infinite m =>
      if q = 0 then undefined else infinite (m != decide (q < 0))

instance : Div Ranged where
  div
    | undefined, _ | _, undefined | infinite _, infinite _ => undefined
    | finite p _, finite q _ =>
      if q = 0 then if p = 0 then undefined else infinite (p < 0) else ofRat (p / q)
    | infinite m, finite q _ => infinite (m != decide (q < 0))
    | finite _ _, infinite _ => ofRat 0

/-- The order of two numbers. -/
def order? : Ranged → Ranged → Option Ordering
  | undefined, _ | _, undefined => none
  | finite p _, finite q _ => some (compare p q)
  | infinite m, infinite n => some (compare n m)
  | infinite m, finite _ _ => some (if m then .lt else .gt)
  | finite _ _, infinite n => some (if n then .gt else .lt)

instance : Scalar Ranged where
  abs
    | finite q h => finite |q| ((abs_abs q).trans_le h)
    | infinite _ => infinite false
    | undefined => undefined
  lt a b := order? a b == some .lt
  le a b := (order? a b).any (·.isLE)
  isFinite
    | finite _ _ => true
    | infinite _ | undefined => false
  nan := undefined
  ofInt? n := if |(n : ℚ)| ≤ largest then some (ofRat n) else none
  ofDecimal m e := ofRat (m * 10 ^ e)
  floor
    | finite q _ => .ok ⌊q⌋
    | infinite _ => .error .infinite
    | undefined => .error .notANumber
  compareInt
    | finite q _, n => some (compare q n)
    | infinite m, _ => some (if m then .lt else .gt)
    | undefined, _ => none
  hypot
    | infinite _, _ | _, infinite _ => infinite false
    | finite p _, finite q _ => ofRat (Scalar.hypot p q)
    | undefined, _ | _, undefined => undefined

/-- Beyond the largest double. -/
def Infinite (v : Ranged) : Prop :=
  ∃ negative, v = infinite negative

instance : DecidablePred Infinite
  | finite _ _ => isFalse nofun
  | infinite n => isTrue ⟨n, rfl⟩
  | undefined => isFalse nofun

theorem infinite_ofRat_iff (q : ℚ) : (ofRat q).Infinite ↔ largest < |q| := by
  unfold ofRat
  split
  · rename_i h
    exact iff_of_false nofun (not_lt.2 h)
  · rename_i h
    exact iff_of_true ⟨_, rfl⟩ (not_le.1 h)

theorem sub_finite {p q : ℚ} (hp : |p| ≤ largest) (hq : |q| ≤ largest) :
    finite p hp - finite q hq = ofRat (p - q) := by
  rw [sub_eq_add_neg p q]
  rfl

theorem infinite_div {d : ℚ} (hd : |d| ≤ largest) (m : Bool) :
    (infinite m / finite d hd).Infinite :=
  ⟨_, rfl⟩

/-- A quotient by a number up to one is beyond the range if its dividend is, and for less. -/
theorem infinite_ofRat_div_iff {d : ℚ} (hd : |d| ≤ largest) (pos : 0 < d) (le : d ≤ 1) (r : ℚ) :
    (ofRat r / finite d hd).Infinite ↔ largest * d < |r| := by
  by_cases hr : |r| ≤ largest
  · have hdiv : ofRat r / finite d hd = ofRat (r / d) := by
      rw [ofRat, dif_pos hr]
      exact if_neg pos.ne'
    rw [hdiv, infinite_ofRat_iff, abs_div, abs_of_pos pos, lt_div_iff₀ pos]
  · have hdiv : (ofRat r / finite d hd).Infinite := by
      rw [ofRat, dif_neg hr]
      exact infinite_div hd _
    refine iff_of_true hdiv ?_
    calc largest * d ≤ largest * 1 := mul_le_mul_of_nonneg_left le ((abs_nonneg d).trans hd)
      _ = largest := mul_one _
      _ < |r| := not_le.1 hr

end Ranged

end FieldWalk.Numeral
