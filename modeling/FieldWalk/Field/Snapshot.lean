import FieldWalk.Numeral.Scalar
/-!
The active field and its samples. A compiled expression may fail or give a complex value; a sample
is a finite number or the undefined value.
-/

namespace FieldWalk.Field

open Numeral

/-- The value of a compiled expression at a point. -/
inductive Reading (α : Type) where
  | real (v : α)
  /-- A value whose imaginary part is not zero. -/
  | complex (re im : α)
deriving Repr

/-- A compiled expression; none where it fails. -/
abbrev Formula (α : Type) := α → α → Option (Reading α)

section
variable {α : Type} [Scalar α]

/-- The height drawn for a value: a complex one counts by its magnitude. -/
def Reading.height : Reading α → α
  | real v => Scalar.finiteOrNan v
  | complex re im => Scalar.finiteOrNan (Scalar.hypot re im)

/-- The slope a value stands for: a complex one has no direction. -/
def Reading.slope : Reading α → α
  | real v => Scalar.finiteOrNan v
  | complex _ _ => Scalar.nan

/-- A formula at a point, the undefined value where it fails. -/
def Formula.sample (f : Formula α) (decode : Reading α → α) (x y : α) : α :=
  match f x y with
  | some r => decode r
  | none => Scalar.nan
end

/-- What is told of the height next to the origin. -/
inductive RadialLimit (α : Type) where
  /-- No finite real limit, or none that is found. -/
  | unknown
  | value (v : α)
  /-- An oscillation between bounds has no limit. -/
  | oscillates

/-- The compiled field. A radial field is not sampled next to the origin: its height there is the
limit along the x axis, or else the height at a point just beside the origin. -/
structure Snapshot (α : Type) where
  height : Formula α
  /-- The partial derivatives; without them slopes are differences of heights. -/
  slopes : Option (Formula α × Formula α)
  radial : Bool
  limit : Option α
  flat : String
  markup : String

/-- The step of a difference of heights. -/
def differenceStep {α : Type} [Scalar α] : α := Scalar.ofDecimal 1 (-6)

/-- The distance from the origin below which a radial field is not sampled. -/
def singularityRadius {α : Type} [Scalar α] : α := Scalar.ofDecimal 1 (-8)

namespace Snapshot

variable {α : Type} [Scalar α]

/-- Slopes are differences of heights. -/
def numeric (s : Snapshot α) : Bool :=
  s.slopes.isNone

/-- The height at a point. -/
def evaluate (s : Snapshot α) (x y : α) : α :=
  if s.radial && Scalar.lt (Scalar.hypot x y) singularityRadius then
    match s.limit with
    | some v => v
    | none => s.height.sample Reading.height singularityRadius (Scalar.ofNat 0)
  else s.height.sample Reading.height x y

/-- The slopes as central differences. -/
def numericGradient (s : Snapshot α) (x y : α) : α × α :=
  let e := differenceStep
  let d := Scalar.ofNat 2 * e
  ((s.evaluate (x + e) y - s.evaluate (x - e) y) / d,
    (s.evaluate x (y + e) - s.evaluate x (y - e)) / d)

/-- The slopes at a point. -/
def gradient (s : Snapshot α) (x y : α) : α × α :=
  match s.slopes with
  | some (gx, gy) => (gx.sample Reading.slope x y, gy.sample Reading.slope x y)
  | none => s.numericGradient x y

end Snapshot

end FieldWalk.Field
