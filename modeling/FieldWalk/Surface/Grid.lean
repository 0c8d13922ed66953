import FieldWalk.Field.Snapshot
import FieldWalk.Surface.Axis
/-! Heights over a rectangle: the height in row `i` and column `j` belongs to the point
`(xs[j], ys[i])`. -/

namespace FieldWalk.Surface

open Numeral

/-- Heights on a grid, row by row. -/
structure Grid (α : Type) where
  xs : List α
  ys : List α
  z : List (List α)
deriving Repr

namespace Grid

variable {α : Type} [Scalar α]

/-- Where the heights are defined. -/
def valid (g : Grid α) : List (List Bool) :=
  g.z.map (·.map Scalar.isFinite)

/-- The number of heights that are not defined. -/
def undefinedCount (g : Grid α) : Nat :=
  g.z.flatten.countP (!Scalar.isFinite ·)

/-- Samples a field at the crossings of two axes. -/
def ofAxes (height : α → α → α) (xs ys : List α) : Grid α :=
  ⟨xs, ys, ys.map fun y => xs.map fun x => height x y⟩

/-- Samples a field over a rectangle, `n` points to a side. -/
def sample (height : α → α → α) (xRange yRange : α × α) (n : Nat) : Grid α :=
  ofAxes height (axis xRange.1 xRange.2 n) (axis yRange.1 yRange.2 n)

end Grid

/-- The points to a side of a drawn surface. -/
def resolution : Nat := 80

end FieldWalk.Surface
