import FieldWalk.Settings
import FieldWalk.Window.Conversions
/-!
The controls of the window and what stands in them. While a path is played back the controls that
could disturb it are locked; the profile can be asked for while there is a path.
-/

namespace FieldWalk.Window

open Numeral

/-- A line of text the user can edit. -/
inductive Field where
  | markup | startX | startY
deriving Repr, DecidableEq

/-- A button. -/
inductive Button where
  | update | animate | clear | profile
deriving Repr, DecidableEq

/-- An end of a range. -/
inductive End where
  | low | high
deriving Repr, DecidableEq

/-- A control. -/
inductive Control where
  | button (b : Button)
  | field (f : Field)
  | range (axis : Axis) (e : End)
  | opacity
  | ascend
  | rate
deriving Repr, DecidableEq

namespace Control

/-- The control is locked while a path is played back. -/
def isLockable : Control → Bool
  | button .update | button .animate | field _ | ascend | rate => true
  | _ => false

/-- The controls that are locked while a path is played back. -/
def lockable : List Control :=
  [button .update, button .animate, field .markup, field .startX, field .startY, ascend, rate]

end Control

/-- What stands in the controls. -/
structure Controls (α : Type) where
  markup : String := ""
  /-- The flat text of the compiled field. -/
  flat : String := ""
  startX : String := ""
  startY : String := ""
  xRange : α × α
  yRange : α × α
  zRange : α × α
  /-- The opacity in hundredths. -/
  opacity : Int := 0
  ascend : Bool := false
  /-- The place of the frame rate among those on offer. -/
  rate : Nat := 0
  status : String := ""
  locked : Bool := false
  profileOpen : Bool := false

namespace Controls

variable {α : Type} [Scalar α]

/-- Empty controls. -/
def empty : Controls α :=
  let zero : α × α := (Scalar.ofNat 0, Scalar.ofNat 0)
  { xRange := zero, yRange := zero, zRange := zero }

/-- The control reacts to the user. -/
def isEnabled (c : Controls α) (k : Control) : Bool :=
  if k.isLockable then !c.locked else k != .button .profile || c.profileOpen

/-- Writes a text. -/
def setField (c : Controls α) (f : Field) (text : String) : Controls α :=
  match f with
  | .markup => { c with markup := text }
  | .startX => { c with startX := text }
  | .startY => { c with startY := text }

/-- The ends of an axis. -/
def range (c : Controls α) : Axis → α × α
  | .x => c.xRange
  | .y => c.yRange
  | .z => c.zRange

/-- Sets the ends of an axis. -/
def setRange (c : Controls α) (a : Axis) (r : α × α) : Controls α :=
  match a with
  | .x => { c with xRange := r }
  | .y => { c with yRange := r }
  | .z => { c with zRange := r }

/-- Sets one end of an axis. -/
def setEnd (c : Controls α) (a : Axis) (e : End) (v : α) : Controls α :=
  let r := c.range a
  c.setRange a (match e with | .low => (v, r.2) | .high => (r.1, v))

/-- The settings with the ranges of the controls. -/
def candidate (c : Controls α) (s : Settings α) : Settings α :=
  { s with
    xMin := .real c.xRange.1, xMax := .real c.xRange.2
    yMin := .real c.yRange.1, yMax := .real c.yRange.2
    zMin := .real c.zRange.1, zMax := .real c.zRange.2 }

/-- A number of hundredths within the whole. -/
def clampHundredths (n : Int) : Int := max 0 (min 100 n)

/-- The place of a frame rate among those on offer, the first if it is not there. -/
def rateIndex (v : Number α) : Nat :=
  let i := frameRates.findIdx fun (n : Nat) => v.eqInt n
  if i < frameRates.length then i else 0

/-- The controls as a session has them; what is locked stays so. -/
def load (k : Conversions α) (s : Session α) (c : Controls α) : Controls α :=
  let settled (a : Axis) : α × α :=
    let r := s.settings.range a
    (k.settle r.1, k.settle r.2)
  { c with
    markup := s.markup
    flat := (s.snapshot.map (·.flat)).getD ""
    startX := "", startY := ""
    xRange := settled .x, yRange := settled .y, zRange := settled .z
    opacity := clampHundredths (k.hundredths s.settings.opacity)
    ascend := s.settings.ascend
    rate := rateIndex s.settings.fps
    status := "" }

end Controls

end FieldWalk.Window
