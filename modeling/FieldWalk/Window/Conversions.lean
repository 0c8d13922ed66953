import FieldWalk.Numeral.Reading
import FieldWalk.Numeral.Rounding
import FieldWalk.Numeral.Text
import FieldWalk.Session.Control
/-! How the controls of the window turn numbers into text and back. -/

namespace FieldWalk.Window

open Numeral
open Session (StartFault)

/-- The conversions of the controls. -/
structure Conversions (α : Type) where
  /-- The point that two texts give. -/
  point : String → String → Except StartFault (α × α)
  /-- A picked coordinate as text. -/
  coordinate : α → String
  /-- What a range control makes of a number. -/
  settle : Number α → α
  /-- An opacity in hundredths. -/
  hundredths : Number α → Int
  /-- The opacity of hundredths. -/
  opacity : Int → α
  /-- A frame rate as text. -/
  rate : Number α → String
  /-- The wording of a fault, none where it has none of its own. -/
  fault? : Session.Fault α → Option String

/-- The greatest end of a range. -/
def rangeLimit : Float := 1000000

/-- A double rounded to two places, a half going to the even digit, and kept within the limits. -/
def settle (v : Float) : Float :=
  match expand? v with
  | none => if v.isNaN then v else if v < 0 then -rangeLimit else rangeLimit
  | some d =>
    let q := d.quotient
    let r := nearestDouble d.negative (roundDiv (q.1 * 100) q.2) 100
    if rangeLimit < r then rangeLimit else if r < -rangeLimit then -rangeLimit else r

/-- The nearest whole number, a half going to the even one. -/
def nearestInt (v : Float) : Int :=
  match expand? v with
  | none => 0
  | some d =>
    let q := d.quotient
    let n : Int := roundDiv q.1 q.2
    if d.negative then -n else n

/-- The hundredths of a number. -/
def hundredths : Number Float → Int
  | .int n => n * 100
  | .real v => nearestInt (v * 100)

/-- The conversions for doubles. -/
def Conversions.standard : Conversions Float where
  point x y := Session.startPoint (.text x.toList) (.text y.toList)
  coordinate := fixed 4
  settle v := FieldWalk.Window.settle v.toScalar
  hundredths := FieldWalk.Window.hundredths
  opacity n := (Number.int n).toScalar / 100
  rate := exactText
  fault? := Session.Fault.message?

end FieldWalk.Window
