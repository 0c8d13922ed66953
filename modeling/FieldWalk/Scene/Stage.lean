import FieldWalk.Journal.Record
import FieldWalk.Scene.Plotter
/-!
The stage: the surface, and on it the line and the ball of a path. A new surface takes the path
away, since it belongs to the surface before; the camera stays where the user has put it.
-/

namespace FieldWalk.Scene

open Journal (Record)
open Numeral
open FieldWalk.Path (Waypoint)
open Surface (Grid Mesh)

/-- The parts of the stage that can be hidden. -/
inductive Layer where
  | surface
  | path
deriving Repr, DecidableEq

/-- The stage: the plotter, the numbers of the actors on it, and what is to be seen. -/
structure Stage (κ α : Type) where
  plotter : Plotter κ α := {}
  surface : Option Nat := none
  line : Option Nat := none
  ball : Option Nat := none
  /-- The waypoints that the ball moves along. -/
  trail : List (Waypoint α) := []
  stretch : α
  /-- The camera has been set to the standard view before. -/
  framed : Bool := false
  surfaceShown : Bool := true
  pathShown : Bool := true

namespace Stage

variable {κ α : Type} [Scalar α]

/-- An empty stage. -/
def new : Stage κ α := { stretch := Scalar.ofNat 1 }

/-- Works on the plotter. -/
def on (s : Stage κ α) (f : Plotter κ α → Plotter κ α) : Stage κ α :=
  { s with plotter := f s.plotter }

/-- Draws everything anew. -/
def render (s : Stage κ α) : Stage κ α := s.on .render

/-- Changes an actor if it is there. -/
def change (s : Stage κ α) (n : Option Nat) (f : Actor α → Actor α) : Stage κ α :=
  s.on fun p => n.elim p (p.change · f)

/-- Removes an actor if it is there. -/
def remove (s : Stage κ α) (n : Option Nat) : Stage κ α :=
  s.on fun p => n.elim p p.remove

/-- Removes the line and the ball without drawing. -/
def dropPath (s : Stage κ α) : Stage κ α :=
  { (s.remove s.line).remove s.ball with line := none, ball := none, trail := [] }

/-- Removes the line and the ball. -/
def clearPath (s : Stage κ α) : Stage κ α :=
  s.dropPath.render

/-- Shows each actor as its layer is shown. -/
def applyLayers (s : Stage κ α) : Stage κ α :=
  let set (v : Bool) (a : Actor α) : Actor α := { a with visible := v }
  ((s.change s.surface (set s.surfaceShown)).change s.line (set s.pathShown)).change s.ball
    (set s.pathShown)

/-- Stretches the heights. -/
def applyStretch (s : Stage κ α) : Stage κ α :=
  s.on fun p => { p with stretch := some s.stretch }

/-- Adds the surface of a mesh. -/
def addSurface (s : Stage κ α) (m : Mesh α) (settings : Settings α) : Stage κ α :=
  let r := s.plotter.add (.surface m (settings.range .z) settings.opacity)
  { s with plotter := r.2, surface := some r.1 }

/-- Puts the camera back where the user had it, or into the standard view. -/
def frame (s : Stage κ α) (saved : Option (Camera κ)) : Stage κ α :=
  match saved with
  | some c => s.on fun p => { p with camera := some c }
  | none => { s.on fun p => { p with camera := some .standard } with framed := true }

/-- The stretch that makes the axes of `x` and of the heights look equally long. -/
def equalStretch (settings : Settings α) : α :=
  (settings.xMax.minus settings.xMin).ratio (settings.zMax.minus settings.zMin)

/-- The ends of all axes. -/
def axisEnds (settings : Settings α) : List (Number α) :=
  [settings.xMin, settings.xMax, settings.yMin, settings.yMax, settings.zMin, settings.zMax]

/-- Shows a surface in place of the one before, as far as it lies within the range of heights. -/
def showSurface (s : Stage κ α) (g : Grid α) (settings : Settings α) :
    Stage κ α × List Record :=
  let saved := if s.framed then s.plotter.camera else none
  let bare := { s.dropPath.remove s.surface with surface := none }
  let mesh := Mesh.ofGrid? g settings.zMin settings.zMax
  let dressed := mesh.elim bare (bare.addSurface · settings)
  let stretched := { dressed with stretch := equalStretch settings }.applyStretch
  let bounded := stretched.on fun p => { p with bounds := some (axisEnds settings) }
  let records := .info .scene "Updating surface." ::
    (if mesh.isNone then
      [.warning .scene "No part of the surface lies within the z range, nothing to draw."]
    else [])
  ((bounded.applyLayers.frame saved).render, records)

/-- Changes the opacity of the surface. -/
def setOpacity (s : Stage κ α) (v : Number α) : Stage κ α :=
  if s.surface.isSome then (s.change s.surface fun a => { a with opacity := v }).render else s

/-- Shows a path with the ball on its first waypoint. -/
def showPath (s : Stage κ α) (ps : List (Waypoint α)) : Stage κ α :=
  let bare := s.dropPath
  let r := bare.plotter.add (.line ps)
  let q := r.2.add (.ball ps.head?)
  let placed := { bare with plotter := q.2, line := some r.1, ball := some q.1, trail := ps }
  placed.applyStretch.applyLayers.render

/-- The waypoint with an index; a negative index counts from the end, and the last waypoint has
none of these. -/
def waypoint? (ps : List (Waypoint α)) (i : Int) : Option (Waypoint α) :=
  if 0 ≤ i then ps[i.toNat]?
  else if i = -1 then none
  else if 0 ≤ ps.length + i then ps[(ps.length + i).toNat]?
  else none

/-- Moves the ball to a waypoint. -/
def moveBall (s : Stage κ α) (i : Int) : Stage κ α :=
  if s.ball.isSome then
    (s.change s.ball fun a => { a with figure := .ball (waypoint? s.trail i) }).render
  else s

/-- Shows or hides a layer; nothing is drawn anew if it is so already. -/
def toggle (s : Stage κ α) (layer : Layer) (shown : Bool) : Stage κ α :=
  match layer with
  | .surface =>
    if s.surfaceShown = shown then s else { s with surfaceShown := shown }.applyLayers.render
  | .path => if s.pathShown = shown then s else { s with pathShown := shown }.applyLayers.render

/-- The user moves the camera. -/
def moveCamera (s : Stage κ α) (c : Option κ) : Stage κ α :=
  s.on fun p => { p with camera := c.map .placed }

/-- Closes the plotter. -/
def close (s : Stage κ α) : Stage κ α :=
  s.on fun p => { p with closes := p.closes + 1 }

end Stage

end FieldWalk.Scene
