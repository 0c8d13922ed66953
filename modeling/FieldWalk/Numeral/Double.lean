import FieldWalk.Numeral.Rounding
/-!
Doubles as exact numbers. A finite double is a sign and a mantissa times a power of two; a quotient
has one nearest double, ties going to the even mantissa.
-/

namespace FieldWalk.Numeral

/-- A finite double: `mantissa * 2^exponent`, negated if `negative`. -/
structure Expanded where
  negative : Bool
  mantissa : Nat
  exponent : Int
deriving Repr, DecidableEq

namespace Expanded

/-- The magnitude as a quotient of natural numbers. -/
def quotient (d : Expanded) : Nat × Nat :=
  if 0 ≤ d.exponent then (d.mantissa <<< d.exponent.toNat, 1)
  else (d.mantissa, 1 <<< (-d.exponent).toNat)

/-- The numerator with its sign, over the denominator. -/
def ratio (d : Expanded) : Int × Nat :=
  let q := d.quotient
  (if d.negative then -(q.1 : Int) else q.1, q.2)

end Expanded

/-- The sign bit of a double. -/
def signBit (v : Float) : Bool :=
  v.toBits >>> 63 == 1

/-- The exact value of a finite double. -/
def expand? (v : Float) : Option Expanded :=
  let bits := v.toBits.toNat
  let field := bits >>> 52 % 2048
  let fraction := bits % Nat.pow 2 52
  if field = 2047 then none
  else if field = 0 then some ⟨signBit v, fraction, -1074⟩
  else some ⟨signBit v, Nat.pow 2 52 + fraction, field - 1075⟩

/-- The bits of the nearest double of `num / den`, the sign left out. -/
def nearestBits (num den : Nat) : Nat :=
  if num = 0 then 0
  else
    let scaled (e : Int) : Nat × Nat :=
      if 0 ≤ e then (num, den <<< e.toNat) else (num <<< (-e).toNat, den)
    let e0 : Int := (num.log2 : Int) - den.log2 - 52
    let s0 := scaled e0
    let e1 := if s0.1 < s0.2 <<< 52 then e0 - 1 else e0
    let e := max e1 (-1074)
    let s := scaled e
    let bits := (e + 1074).toNat <<< 52 + roundDiv s.1 s.2
    min bits (2047 <<< 52)

/-- The nearest double of `num / den`; infinite beyond the range. -/
def nearestDouble (negative : Bool) (num den : Nat) : Float :=
  Float.ofBits (UInt64.ofNat ((if negative then 1 <<< 63 else 0) + nearestBits num den))

/-- The nearest double of a decimal `mantissa * 10^exponent`. Exponents far outside the range are
not carried out. -/
def doubleOfDecimal (negative : Bool) (mantissa : Nat) (exponent : Int) : Float :=
  let top := (decimalLength mantissa : Int) + exponent
  if mantissa = 0 || top < -400 then nearestDouble negative 0 1
  else if 400 < top then nearestDouble negative (Nat.pow 2 1024) 1
  else
    let s := scaleByTen mantissa 1 exponent
    nearestDouble negative s.1 s.2

/-- The nearest double of an integer, none if that is infinite. -/
def doubleOfInt? (n : Int) : Option Float :=
  let v := nearestDouble (n < 0) n.natAbs 1
  if v.isFinite then some v else none

/-- The length of the vector `(a, b)`, correctly rounded. An infinite component counts even
beside one that is not a number. -/
def hypotenuse (a b : Float) : Float :=
  match expand? a, expand? b with
  | some p, some q =>
    let e := min p.exponent q.exponent
    let u := p.mantissa <<< (p.exponent - e).toNat
    let v := q.mantissa <<< (q.exponent - e).toNat
    let square := u * u + v * v
    if square = 0 then 0
    else
      let root := floorSqrt (square <<< 128)
      let sticky := if root * root = square <<< 128 then 0 else 1
      let num := 2 * root + sticky
      let shift := e - 65
      if 0 ≤ shift then nearestDouble false (num <<< shift.toNat) 1
      else nearestDouble false num (1 <<< (-shift).toNat)
  | _, _ => if a.isInf || b.isInf then 1.0 / 0.0 else 0.0 / 0.0

end FieldWalk.Numeral
