import FieldWalk.Numeral.Reading
import FieldWalk.Numeral.Scalar
/-! The point where a walk starts, from what was entered for its two coordinates. -/

namespace FieldWalk.Session

open Numeral

/-- What was entered for a coordinate. -/
inductive Entry where
  | text (s : List Char)
  | number (v : Number Float)
  | truth (b : Bool)
  /-- Nothing, or nothing that can be a number. -/
  | other

/-- Why there is no start point. -/
inductive StartFault where
  | malformed
  | notFinite
  /-- An integer beyond the range of doubles. -/
  | beyondRange
deriving Repr, DecidableEq

/-- The number that was entered. -/
def Entry.read : Entry → Except StartFault Float
  | text s => match double? s with
    | some v => .ok v
    | none => .error .malformed
  | number v => match v.toScalar? with
    | some v => .ok v
    | none => .error .beyondRange
  | truth b => .ok (if b then 1 else 0)
  | other => .error .malformed

/-- The start point: both coordinates are read before they are checked. -/
def startPoint (x y : Entry) : Except StartFault (Float × Float) := do
  let u ← x.read
  let v ← y.read
  if u.isFinite && v.isFinite then pure (u, v) else throw .notFinite

/-- The wording of a fault, none where it has none of its own. -/
def StartFault.message? : StartFault → Option String
  | malformed => some "Please select a valid start point by right-clicking on the surface."
  | notFinite => some "The start point must be finite."
  | beyondRange => none

end FieldWalk.Session
