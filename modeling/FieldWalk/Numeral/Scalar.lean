import FieldWalk.Numeral.Double
/-!
Arithmetic that the walker, the sampler and the player need. Doubles are one instance; exact
numbers can be another. Nothing is asked of the operations but that they exist.
-/

namespace FieldWalk.Numeral

/-- Why a number has no integer part. -/
inductive FloorFault where
  | notANumber
  | infinite
deriving Repr, DecidableEq

/-- A kind of number with values that are not finite. -/
class Scalar (α : Type) extends Add α, Sub α, Mul α, Div α, Neg α where
  /-- The magnitude. -/
  abs : α → α
  /-- Strictly less; false if one side is not a number. -/
  lt : α → α → Bool
  /-- Less or equal; false if one side is not a number. -/
  le : α → α → Bool
  /-- Neither infinite nor without value. -/
  isFinite : α → Bool
  /-- The value of what is undefined. -/
  nan : α
  /-- An integer, rounded; none beyond the range. -/
  ofInt? : Int → Option α
  /-- The decimal `mantissa * 10^exponent`, rounded. -/
  ofDecimal : Int → Int → α
  /-- The integer part, rounded down. -/
  floor : α → Except FloorFault Int
  /-- The order of a number and an integer, exactly. -/
  compareInt : α → Int → Option Ordering
  /-- The length of a vector. -/
  hypot : α → α → α

namespace Scalar

variable {α : Type} [Scalar α]

/-- A number that is finite, else the undefined value. -/
def finiteOrNan (v : α) : α :=
  if isFinite v then v else nan

/-- A small whole number. -/
def ofNat (n : Nat) : α :=
  ofDecimal n 0

end Scalar

/-- The integer part of a double, rounded down. -/
def floorDouble (v : Float) : Except FloorFault Int :=
  match expand? v with
  | none => .error (if v.isNaN then .notANumber else .infinite)
  | some d =>
    let r := d.ratio
    .ok (r.1.fdiv r.2)

/-- The order of a double and an integer, exactly. -/
def compareDoubleInt (v : Float) (n : Int) : Option Ordering :=
  match expand? v with
  | some d =>
    let r := d.ratio
    some (compare r.1 (n * r.2))
  | none => if v.isNaN then none else some (if v < 0 then .lt else .gt)

instance : Scalar Float where
  abs := Float.abs
  lt a b := a < b
  le a b := a ≤ b
  isFinite := Float.isFinite
  nan := 0.0 / 0.0
  ofInt? := doubleOfInt?
  ofDecimal m e := doubleOfDecimal (m < 0) m.natAbs e
  floor := floorDouble
  compareInt := compareDoubleInt
  hypot := hypotenuse

/-- An integer of any size or a scalar. -/
inductive Number (α : Type) where
  | int (n : Int)
  | real (v : α)
deriving Repr

namespace Number

variable {α : Type} [Scalar α]

/-- The scalar of a number, none for an integer beyond the range. -/
def toScalar? : Number α → Option α
  | int n => Scalar.ofInt? n
  | real v => some v

/-- Strictly less, exactly. -/
def lt : Number α → Number α → Bool
  | int m, int n => m < n
  | real a, real b => Scalar.lt a b
  | int m, real b => Scalar.compareInt b m == some .gt
  | real a, int n => Scalar.compareInt a n == some .lt

/-- Less or equal, exactly. -/
def le : Number α → Number α → Bool
  | int m, int n => m ≤ n
  | real a, real b => Scalar.le a b
  | int m, real b => (Scalar.compareInt b m).any (· != .lt)
  | real a, int n => (Scalar.compareInt a n).any (· != .gt)

/-- Equal to an integer. -/
def eqInt : Number α → Int → Bool
  | int m, n => m == n
  | real a, n => Scalar.compareInt a n == some .eq

/-- The scalar of a number; beyond the range it is not defined. -/
def toScalar (v : Number α) : α :=
  v.toScalar?.getD Scalar.nan

/-- The difference, exact between integers. -/
def minus : Number α → Number α → Number α
  | int m, int n => int (m - n)
  | a, b => real (a.toScalar - b.toScalar)

/-- The quotient as a scalar. -/
def ratio (a b : Number α) : α :=
  a.toScalar / b.toScalar

end Number

/-- The number of digits up to which an integer is written out. -/
def mostDigits : Nat := 4300

/-- The integer has more digits than are written out. The power is too large to be unfolded. -/
@[irreducible]
def overlong (n : Int) : Bool :=
  Nat.pow 10 mostDigits ≤ n.natAbs

/-- The number is an integer with more digits than are written out. -/
def tooLong {α : Type} : Number α → Bool
  | .int n => overlong n
  | .real _ => false

/-- The least number with too many digits. -/
def leastOverlong : Int := Int.ofNat (Nat.pow 10 mostDigits)

theorem overlong_leastOverlong : overlong leastOverlong = true := by
  decide +kernel

theorem overlong_eq_false_of_lt {n : Int} (h : n.natAbs < 10000) : overlong n = false := by
  have hpow : ∀ {k : Nat}, 4 ≤ k → Nat.pow 10 4 ≤ Nat.pow 10 k := Nat.pow_le_pow_right (by decide)
  have hmost : 4 ≤ mostDigits := by decide
  unfold overlong
  exact decide_eq_false (Nat.not_le.2 (Nat.lt_of_lt_of_le h (hpow hmost)))

end FieldWalk.Numeral
