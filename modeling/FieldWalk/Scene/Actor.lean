import FieldWalk.Layout.Datum
import FieldWalk.Path.Walk
import FieldWalk.Surface.Mesh
/-! What stands on the stage: the surface, the line of a path, and the ball on it. -/

namespace FieldWalk.Scene

open Layout (Datum Properties)
open Numeral
open FieldWalk.Path (Waypoint)
open Surface (Mesh)

/-- The form of an actor. -/
inductive Figure (α : Type) where
  /-- A surface, coloured by height over a range. -/
  | surface (mesh : Mesh α) (colours : Number α × Number α) (opacity : Number α)
  /-- The line through the waypoints of a path. -/
  | line (points : List (Waypoint α))
  /-- The ball; without a place it is not seen. -/
  | ball (place : Option (Waypoint α))
deriving Repr

namespace Figure

variable {α : Type} [Scalar α]

/-- The kind of data that a figure is drawn from. -/
def kind : Figure α → String
  | surface m _ _ => if m.whole then "StructuredGrid" else "UnstructuredGrid"
  | _ => "PolyData"

/-- The place of a waypoint. -/
def place (p : Waypoint α) : α × α × α := (p.x, p.y, p.z)

/-- The points of a figure. -/
def points : Figure α → List (α × α × α)
  | surface m _ _ => m.places
  | line ps => ps.map place
  | ball p => p.toList.map place

/-- The number of points. -/
def pointCount : Figure α → Nat
  | surface m _ _ => m.places.length
  | line ps => ps.length
  | ball p => p.toList.length

/-- The number of cells: of a line one between two neighbours, of the ball always one. -/
def cellCount : Figure α → Nat
  | surface m _ _ => m.cells.length
  | line ps => ps.length - 1
  | ball _ => 1

/-- The corners of each cell by their numbers among the points. -/
def cells : Figure α → List (List Nat)
  | surface m _ _ => m.cells
  | line ps => (List.range (ps.length - 1)).map fun i => [i, i + 1]
  | ball _ => [[0]]

/-- The height of each point where the colour depends on it. -/
def heights? : Figure α → Option (List α)
  | surface m _ _ => some m.heights
  | _ => none

/-- The opacity that a figure is added with. -/
def opacity : Figure α → Number α
  | surface _ _ v => v
  | _ => .real (Scalar.ofNat 1)

/-- The options that a figure is added with. -/
def options : Figure α → Properties α
  | surface _ (low, high) v => [
      ("scalars", "z"), ("cmap", "viridis"), ("clim", .numbers [low, high]),
      ("opacity", .number v), ("show_scalar_bar", false), ("smooth_shading", true)]
  | line _ => [
      ("color", "#f57c00"), ("line_width", .whole 5), ("pickable", false),
      ("show_scalar_bar", false)]
  | ball _ => [
      ("color", "#d32f2f"), ("point_size", .whole 14), ("render_points_as_spheres", true),
      ("pickable", false), ("show_scalar_bar", false)]

end Figure

/-- A figure on the stage. -/
structure Actor (α : Type) where
  figure : Figure α
  opacity : Number α
  visible : Bool := true
deriving Repr

end FieldWalk.Scene
