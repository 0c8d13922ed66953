import FieldWalk.Numeral.Scalar
import FieldWalk.Numeral.Text
/-! The view settings: ranges, opacity, frame rate and direction of the walk. -/

namespace FieldWalk

open Numeral

/-- The settings of the view. -/
structure Settings (α : Type) where
  xMin : Number α := .int (-3)
  xMax : Number α := .int 3
  yMin : Number α := .int (-3)
  yMax : Number α := .int 3
  zMin : Number α := .int (-2)
  zMax : Number α := .int 10
  opacity : Number α
  fps : Number α := .int 30
  ascend : Bool := false
deriving Repr

/-- The frame rates on offer. -/
def frameRates : List Nat := [10, 24, 30, 60]

/-- An axis of the view. -/
inductive Axis where
  | x | y | z
deriving Repr, DecidableEq

/-- The letter of an axis. -/
def Axis.letter : Axis → String
  | x => "x"
  | y => "y"
  | z => "z"

/-- Why settings are rejected. -/
inductive SettingsFault (α : Type) where
  | rangeNotFinite (axis : Axis)
  | rangeEmpty (axis : Axis) (low high : Number α)
  | opacityOutside (v : Number α)
  | rateNotOffered (v : Number α)
  /-- An integer beyond the range of the numbers it is compared with. -/
  | beyondRange
  /-- An integer with more digits than are written out. -/
  | rateTooLong
deriving Repr

namespace Settings

variable {α : Type} [Scalar α]

/-- The settings at the start. -/
def usual : Settings α :=
  { xMin := .real (Scalar.ofDecimal (-3) 0), xMax := .real (Scalar.ofNat 3)
    yMin := .real (Scalar.ofDecimal (-3) 0), yMax := .real (Scalar.ofNat 3)
    zMin := .real (Scalar.ofDecimal (-2) 0), zMax := .real (Scalar.ofNat 10)
    opacity := .real (Scalar.ofDecimal 9 (-1)) }

/-- The ends of an axis. -/
def range (s : Settings α) : Axis → Number α × Number α
  | .x => (s.xMin, s.xMax)
  | .y => (s.yMin, s.yMax)
  | .z => (s.zMin, s.zMax)

/-- The ends of an axis as scalars. -/
def scalarRange? (s : Settings α) (a : Axis) : Option (α × α) := do
  let low ← (s.range a).1.toScalar?
  let high ← (s.range a).2.toScalar?
  pure (low, high)

/-- An axis has finite ends in increasing order. -/
def checkRange (s : Settings α) (a : Axis) : Except (SettingsFault α) Unit := do
  let r := s.range a
  let some low := r.1.toScalar? | throw .beyondRange
  unless Scalar.isFinite low do throw (.rangeNotFinite a)
  let some high := r.2.toScalar? | throw .beyondRange
  unless Scalar.isFinite high do throw (.rangeNotFinite a)
  if r.2.le r.1 then throw (.rangeEmpty a r.1 r.2)

/-- The opacity lies between zero and one. -/
def checkOpacity (s : Settings α) : Except (SettingsFault α) Unit := do
  unless (Number.int 0).le s.opacity && s.opacity.le (.int 1) do
    if s.opacity.toScalar?.isNone then throw .beyondRange
    throw (.opacityOutside s.opacity)

/-- The frame rate is on offer. -/
def checkRate (s : Settings α) : Except (SettingsFault α) Unit := do
  unless frameRates.any fun n => s.fps.eqInt n do
    if tooLong s.fps then throw .rateTooLong
    throw (.rateNotOffered s.fps)

/-- Every setting is usable; the first fault in the order of the axes, opacity and frame rate. -/
def validate (s : Settings α) : Except (SettingsFault α) Unit := do
  s.checkRange .x
  s.checkRange .y
  s.checkRange .z
  s.checkOpacity
  s.checkRate

end Settings

/-- The general text of a number; an integer is read as a double first. -/
def generalText (v : Number Float) : String :=
  general (v.toScalar?.getD 0)

/-- The exact text of a number. -/
def exactText : Number Float → String
  | .int n => toString n
  | .real v => shortest v

/-- The wording of a fault, none where it has none of its own. -/
def SettingsFault.message? : SettingsFault Float → Option String
  | rangeNotFinite a => some ("The " ++ a.letter ++ " range must be finite.")
  | rangeEmpty a low high =>
    some ("The " ++ a.letter ++ " range needs min < max (got " ++ generalText low ++ " >= "
      ++ generalText high ++ ").")
  | opacityOutside v => some ("Opacity must be within [0, 1], got " ++ generalText v ++ ".")
  | rateNotOffered v =>
    some ("Frame rate must be one of (10, 24, 30, 60), got " ++ exactText v ++ ".")
  | beyondRange | rateTooLong => none

end FieldWalk
