import FieldWalk.Scene.Actor
import FieldWalk.Settings
/-!
The plotter holds the actors that were added and not removed, in order, each under a number of its
own, and what it was last told of camera, scale and axes.
-/

namespace FieldWalk.Scene

open Layout (Datum Properties)
open Numeral

/-- Where the camera stands; `κ` are the places a user can move it to. -/
inductive Camera (κ : Type) where
  /-- In the direction of the standard view, at a distance that shows everything. -/
  | standard
  | placed (position : κ)
deriving Repr

/-- The direction of the standard view. -/
def standardView {α : Type} [Scalar α] : List α :=
  [Scalar.ofDecimal (-15) (-1), Scalar.ofDecimal (-15) (-1), Scalar.ofDecimal 15 (-1)]

/-- The upward direction of the standard view. -/
def standardUp : List Int := [0, 0, 1]

/-- The plotter. -/
structure Plotter (κ α : Type) where
  actors : List (Nat × Actor α) := []
  /-- Actors added so far. -/
  added : Nat := 0
  camera : Option (Camera κ) := none
  /-- How far heights are stretched. -/
  stretch : Option α := none
  /-- The ends of the drawn axes. -/
  bounds : Option (List (Number α)) := none
  renders : Nat := 0
  closes : Nat := 0

namespace Plotter

variable {κ α : Type} [Scalar α]

/-- Adds a figure, and gives the number of its actor. -/
def add (p : Plotter κ α) (f : Figure α) : Nat × Plotter κ α :=
  (p.added, { p with
    actors := p.actors ++ [(p.added, { figure := f, opacity := f.opacity })]
    added := p.added + 1 })

/-- Removes an actor. -/
def remove (p : Plotter κ α) (n : Nat) : Plotter κ α :=
  { p with actors := p.actors.filter (·.1 ≠ n) }

/-- Changes an actor. -/
def change (p : Plotter κ α) (n : Nat) (f : Actor α → Actor α) : Plotter κ α :=
  { p with actors := p.actors.map fun a => if a.1 = n then (a.1, f a.2) else a }

/-- Draws everything anew. -/
def render (p : Plotter κ α) : Plotter κ α :=
  { p with renders := p.renders + 1 }

/-- What was said of scale and axes. -/
def view (p : Plotter κ α) : Properties α :=
  let scale := p.stretch.map fun v =>
    ("scale", Datum.record [("zscale", .number (.real v)), ("reset_camera", false)])
  let bounds := p.bounds.map fun vs =>
    ("bounds", Datum.record [("bounds", .numbers vs), ("xtitle", "X"), ("ytitle", "Y"),
      ("ztitle", "Z"), ("grid", false), ("location", "outer")])
  scale.toList ++ bounds.toList

end Plotter

end FieldWalk.Scene
