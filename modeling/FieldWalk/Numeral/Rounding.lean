/-! Rounding of quotients of natural numbers. -/

namespace FieldWalk.Numeral

/-- The integer nearest to `num / den`; of two equally near ones the even. -/
def roundDiv (num den : Nat) : Nat :=
  let q := num / den
  let r := num % den
  if 2 * r < den then q
  else if den < 2 * r then q + 1
  else if q % 2 = 0 then q else q + 1

/-- The number of decimal digits of a natural number; zero has one. -/
def decimalLength (n : Nat) : Nat :=
  (toString n).length

/-- The exponent `e` with `10^e ≤ num / den < 10^(e+1)`, for a positive quotient. -/
def decimalExponent (num den : Nat) : Int :=
  if den ≤ num then (decimalLength (num / den) : Int) - 1
  else
    let k := decimalLength (den / num)
    if den ≤ num * Nat.pow 10 (k - 1) then 1 - (k : Int) else -(k : Int)

/-- `num / den` times a power of ten, as a quotient. -/
def scaleByTen (num den : Nat) (e : Int) : Nat × Nat :=
  if 0 ≤ e then (num * Nat.pow 10 e.toNat, den) else (num, den * Nat.pow 10 (-e).toNat)

/-- The `digits` leading decimal digits of a positive quotient, rounded, with the exponent of the
first one. -/
def leadingDigits (digits num den : Nat) : Nat × Int :=
  let e := decimalExponent num den
  let s := scaleByTen num den (digits - 1 - e)
  let q := roundDiv s.1 s.2
  if q = Nat.pow 10 digits then (Nat.pow 10 (digits - 1), e + 1) else (q, e)

/-- One step of the iteration for the square root, repeated while it descends. -/
def descendRoot (n : Nat) : Nat → Nat → Nat
  | 0, x => x
  | fuel + 1, x =>
    let y := (x + n / x) / 2
    if y < x then descendRoot n fuel y else x

/-- The integer part of the square root. -/
def floorSqrt (n : Nat) : Nat :=
  if n = 0 then 0 else descendRoot n (n.log2 + 2) (1 <<< (n.log2 / 2 + 1))

end FieldWalk.Numeral
