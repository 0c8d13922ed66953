import FieldWalk.Numeral.Double
/-!
Written forms of doubles. All are rounded from the exact value, a half going to the even digit:
positional with a fixed number of places, general with six significant digits, and the shortest text
that reads back.
-/

namespace FieldWalk.Numeral

/-- The digits of a natural number with leading zeros up to `width`. -/
def paddedDigits (width n : Nat) : String :=
  let ds := toString n
  String.ofList (List.replicate (width - ds.length) '0') ++ ds

/-- The text of an exponent: a sign and at least two digits. -/
def exponentText (e : Int) : String :=
  (if e < 0 then "e-" else "e+") ++ paddedDigits 2 e.natAbs

/-- The sign of a text. -/
def signText (negative : Bool) : String :=
  if negative then "-" else ""

/-- The text of a double that is not finite. -/
def specialText (v : Float) : String :=
  if v.isNaN then "nan" else if v < 0 then "-inf" else "inf"

/-- Digits, a point and `places` digits. -/
def fixed (places : Nat) (v : Float) : String :=
  match expand? v with
  | none => specialText v
  | some d =>
    let q := d.quotient
    let n := roundDiv (q.1 * Nat.pow 10 places) q.2
    let whole := toString (n / Nat.pow 10 places)
    signText d.negative ++ whole ++
      (if places = 0 then "" else "." ++ paddedDigits places (n % Nat.pow 10 places))

/-- The digits without zeros at the end. -/
def dropTrailingZeros (ds : List Char) : List Char :=
  (ds.reverse.dropWhile (· == '0')).reverse

/-- Significant digits with the exponent `e` of the first one in positional form. -/
def positional (ds : List Char) (e : Int) : String :=
  if e < 0 then
    String.ofList ('0' :: '.' :: List.replicate (-e - 1).toNat '0' ++ ds)
  else
    let n := e.toNat + 1
    let whole := ds.take n ++ List.replicate (n - ds.length) '0'
    let rest := ds.drop n
    String.ofList (if rest.isEmpty then whole else whole ++ '.' :: rest)

/-- Significant digits with the exponent `e` of the first one in exponent form. -/
def exponential (ds : List Char) (e : Int) : String :=
  let rest := ds.drop 1
  String.ofList (ds.take 1 ++ if rest.isEmpty then [] else '.' :: rest) ++ exponentText e

/-- Six significant digits without zeros at the end; the exponent form below `10^-4` and from
`10^6` on. -/
def general (v : Float) : String :=
  match expand? v with
  | none => specialText v
  | some d =>
    let q := d.quotient
    if q.1 = 0 then signText d.negative ++ "0"
    else
      let r := leadingDigits 6 q.1 q.2
      let ds := dropTrailingZeros (toString r.1).toList
      signText d.negative ++
        (if r.2 < -4 || 6 ≤ r.2 then exponential ds r.2 else positional ds r.2)

/-- The decimals with the given number of digits next to a positive quotient that read back as its
double, the nearest one of them; digits and exponent of the first digit. -/
def readsBack? (digits num den : Nat) : Option (Nat × Int) :=
  let e := decimalExponent num den
  let scale := (digits : Int) - 1 - e
  let s := scaleByTen num den scale
  let near := roundDiv s.1 s.2
  let low := s.1 / s.2
  let other := if near = low then low + 1 else low
  let target := nearestBits num den
  let back (q : Nat) : Bool :=
    let t := scaleByTen q 1 (-scale)
    nearestBits t.1 t.2 = target
  let carry (q : Nat) : Nat × Int :=
    if q = Nat.pow 10 digits then (Nat.pow 10 (digits - 1), e + 1) else (q, e)
  if back near then some (carry near) else if back other then some (carry other) else none

/-- The fewest digits that read back, tried from `digits` on. -/
def fewestDigits (num den : Nat) : Nat → Nat → Nat × Int
  | 0, digits => leadingDigits digits num den
  | fuel + 1, digits => (readsBack? digits num den).getD (fewestDigits num den fuel (digits + 1))

/-- The shortest text that reads back as the double: positional from `10^-4` to below `10^16`, a
whole number with one zero behind the point. -/
def shortest (v : Float) : String :=
  match expand? v with
  | none => specialText v
  | some d =>
    let q := d.quotient
    if q.1 = 0 then signText d.negative ++ "0.0"
    else
      let r := fewestDigits q.1 q.2 17 1
      let ds := dropTrailingZeros (toString r.1).toList
      let text := if r.2 < -4 || 16 ≤ r.2 then exponential ds r.2 else positional ds r.2
      let whole := 0 ≤ r.2 && r.2 < 16 && ds.length ≤ r.2.toNat + 1
      signText d.negative ++ text ++ (if whole then ".0" else "")

end FieldWalk.Numeral
