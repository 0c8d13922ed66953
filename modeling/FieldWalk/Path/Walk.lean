import FieldWalk.Numeral.Scalar
/-!
A walk along the gradient with a fixed step and a budget of samples. Each step samples the height
where the walker stands, records the point, and moves once; it ends at the budget, at a point or
slope that is not finite, or where both slopes lie below the floor.
-/

namespace FieldWalk.Path

open Numeral

/-- Why a walk ended. -/
inductive Reason where
  | budgetSpent
  | notFinite
  | flat
  | tooShort
deriving Repr, DecidableEq

/-- The wording of a reason. -/
def Reason.text : Reason → String
  | budgetSpent => "step budget exhausted"
  | notFinite => "non-finite position or value"
  | flat => "gradient below floor"
  | tooShort => "fewer than two waypoints"

/-- A recorded point. -/
structure Waypoint (α : Type) where
  x : α
  y : α
  z : α
deriving Repr, DecidableEq

/-- What a walk needs to know of the ground. -/
structure Ground (m : Type → Type) (α : Type) where
  height : α → α → m α
  gradient : α → α → m (α × α)

/-- The rules of a walk. -/
structure Rules (α : Type) where
  ascend : Bool
  /-- The factor from slope to step. -/
  rate : α
  /-- The most points to sample. -/
  budget : Int
  /-- Slopes below it count as flat. -/
  floor : α

/-- The usual rules. -/
def Rules.usual {α : Type} [Scalar α] (ascend : Bool) : Rules α :=
  ⟨ascend, Scalar.ofDecimal 4 (-2), 250, Scalar.ofDecimal 1 (-4)⟩

/-- A walk under way; `points` has the latest first, `reason` is set at its end. -/
structure Walk (α : Type) where
  x : α
  y : α
  taken : Nat
  points : List (Waypoint α)
  reason : Option Reason
deriving Repr

namespace Walk

variable {m : Type → Type} [Monad m] {α : Type} [Scalar α]

/-- Before the first step. -/
def start (x y : α) : Walk α :=
  ⟨x, y, 0, [], none⟩

/-- The number of points recorded. -/
def length (w : Walk α) : Nat :=
  w.points.length

/-- Ends a walk. One that has recorded fewer than two points is too short, whatever stopped it. -/
def finish (w : Walk α) (reason : Reason) : Walk α :=
  { w with reason := some (if w.length < 2 then .tooShort else reason) }

/-- Both slopes are below the floor. -/
def isFlat (rules : Rules α) (g : α × α) : Bool :=
  Scalar.lt (Scalar.abs g.1) rules.floor && Scalar.lt (Scalar.abs g.2) rules.floor

/-- The move of a slope. -/
def move (rules : Rules α) (g : α) : α :=
  let sign : α := if rules.ascend then Scalar.ofNat 1 else Scalar.ofDecimal (-1) 0
  sign * rules.rate * g

/-- Samples the height, records the point and moves once. A walk that has ended stays as it is. -/
def step (ground : Ground m α) (rules : Rules α) (w : Walk α) : m (Walk α) :=
  if w.reason.isSome then pure w
  else if rules.budget ≤ w.taken then pure (w.finish .budgetSpent)
  else do
    let w := { w with taken := w.taken + 1 }
    let z ← ground.height w.x w.y
    if !(Scalar.isFinite w.x && Scalar.isFinite w.y && Scalar.isFinite z) then
      pure (w.finish .notFinite)
    else
      let w := { w with points := ⟨w.x, w.y, z⟩ :: w.points }
      let g ← ground.gradient w.x w.y
      if !(Scalar.isFinite g.1 && Scalar.isFinite g.2) then pure (w.finish .notFinite)
      else if isFlat rules g then pure (w.finish .flat)
      else pure { w with x := w.x + move rules g.1, y := w.y + move rules g.2 }

/-- A number of steps. -/
def steps (ground : Ground m α) (rules : Rules α) : Nat → Walk α → m (Walk α)
  | 0, w => pure w
  | n + 1, w => do
    let w ← w.step ground rules
    steps ground rules n w

/-- Steps to the end. The budget bounds their number. -/
def run (ground : Ground m α) (rules : Rules α) (w : Walk α) : m (Walk α) :=
  steps ground rules (rules.budget.toNat + 1 - w.taken) w

end Walk

/-- A finished walk. -/
structure Trace (α : Type) where
  waypoints : List (Waypoint α)
  reason : Reason
  ascend : Bool
deriving Repr

namespace Trace

variable {α : Type}

/-- The number of waypoints. -/
def length (t : Trace α) : Nat :=
  t.waypoints.length

/-- A path needs two waypoints. -/
def succeeded (t : Trace α) : Bool :=
  2 ≤ t.length

/-- The word for a trace's direction. -/
def directionText (t : Trace α) : String :=
  if t.ascend then "ascent" else "descent"

/-- The trace of a walk that has ended. -/
def ofWalk (ascend : Bool) (w : Walk α) : Trace α :=
  ⟨w.points.reverse, w.reason.getD .tooShort, ascend⟩

end Trace

/-- The path from a point under the usual rules. -/
def trace {α : Type} [Scalar α] (ground : Ground Id α) (ascend : Bool) (x y : α) : Trace α :=
  .ofWalk ascend (Walk.run ground (.usual ascend) (.start x y))

end FieldWalk.Path
