import FieldWalk.Numeral.Double
import FieldWalk.Text.Blank
import FieldWalk.Text.Digit
/-!
Numbers read from text. Digits of all scripts count, an underscore may stand between two digits,
and blanks around the number are ignored.
-/

namespace FieldWalk.Numeral

open Text

/-- A run of digits in which single underscores may separate, and what follows it. -/
def digitRun : List Char → List Nat × List Char
  | [] => ([], [])
  | c :: '_' :: r => match digitValue? c with
    | none => ([], c :: '_' :: r)
    | some d =>
      let t := digitRun r
      if t.1.isEmpty then ([d], '_' :: r) else (d :: t.1, t.2)
  | c :: cs => match digitValue? c with
    | none => ([], c :: cs)
    | some d =>
      let t := digitRun cs
      (d :: t.1, t.2)

/-- The number that decimal digits stand for. -/
def ofDigits (ds : List Nat) : Nat :=
  ds.foldl (fun n d => 10 * n + d) 0

/-- The exponent behind a mantissa: zero if there is none, none if it is malformed. -/
def exponent? : List Char → Option Int
  | [] => some 0
  | c :: r =>
    if c = 'e' || c = 'E' then
      let signed : Bool × List Char := match r with
        | '-' :: t => (true, t)
        | '+' :: t => (false, t)
        | t => (false, t)
      match digitRun signed.2 with
      | ([], _) => none
      | (ds, []) => some (if signed.1 then -(ofDigits ds : Int) else ofDigits ds)
      | _ => none
    else none

/-- A decimal without sign: mantissa and exponent. -/
def decimal? (s : List Char) : Option (Nat × Int) :=
  let whole := digitRun s
  let parts : List Nat × List Char := match whole.2 with
    | '.' :: r => digitRun r
    | r => ([], r)
  if whole.1.isEmpty && parts.1.isEmpty then none
  else (exponent? parts.2).map fun e => (ofDigits (whole.1 ++ parts.1), e - parts.1.length)

/-- The magnitude that a text without sign stands for. -/
def magnitude? (negative : Bool) (s : List Char) : Option Float :=
  let word := String.ofList (s.map Char.toLower)
  if word = "inf" || word = "infinity" then
    some (if negative then -1.0 / 0.0 else 1.0 / 0.0)
  else if word = "nan" then some (0.0 / 0.0)
  else (decimal? s).map fun d => doubleOfDecimal negative d.1 d.2

/-- A blank that may stand around a number: the information separators may not. -/
def isPadding (c : Char) : Bool :=
  isBlank c && !(28 ≤ c.toNat && c.toNat ≤ 31)

/-- The double that a text stands for; infinite beyond the range. -/
def double? (s : List Char) : Option Float :=
  match ((s.dropWhile isPadding).reverse.dropWhile isPadding).reverse with
  | '-' :: r => magnitude? true r
  | '+' :: r => magnitude? false r
  | r => magnitude? false r

end FieldWalk.Numeral
