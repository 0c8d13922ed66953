import FieldWalk.Surface.Grid
/-!
The drawn part of a surface: the cells of a grid whose four corners all have a height within a
range. Points and cells are numbered column by column.
-/

namespace FieldWalk.Surface

open Numeral

/-! ## Crossings -/

/-- A crossing of two axes. -/
structure Crossing where
  row : Nat
  col : Nat
deriving Repr, DecidableEq

/-- The corners of the cell whose lowest corner is the crossing, around the cell. -/
def Crossing.corners (c : Crossing) : List Crossing :=
  [c, ⟨c.row + 1, c.col⟩, ⟨c.row + 1, c.col + 1⟩, ⟨c.row, c.col + 1⟩]

/-- The number of a crossing, column by column with some crossings each. -/
def Crossing.number (rows : Nat) (c : Crossing) : Nat :=
  c.col * rows + c.row

/-- The crossings of some rows and columns, column by column. -/
def crossings (rows cols : Nat) : List Crossing :=
  (List.range cols).flatMap fun j => (List.range rows).map fun i => ⟨i, j⟩

/-- The entries of a table, column by column. All rows are as long as the first. -/
def byColumn {β : Type} (t : List (List β)) : List β :=
  (List.range (t.headD []).length).flatMap fun j => t.filterMap (·[j]?)

/-! ## Flags -/

/-- The numbers of the flags that are set. -/
def flagged (flags : List Bool) : List Nat :=
  (flags.zipIdx.filter (·.1)).map (·.2)

/-- Flags for the first numbers, set for those listed. -/
def flagsOf (n : Nat) (ks : List Nat) : List Bool :=
  (ks.foldl (fun a k => a.setIfInBounds k true) (Array.replicate n false)).toList

/-- The entries whose flag is set. -/
def select {β : Type} : List Bool → List β → List β
  | b :: bs, v :: vs => if b then v :: select bs vs else select bs vs
  | _, _ => []

/-- How many flags are set before each, counted from a number on. -/
def ranks (k : Nat) : List Bool → List Nat
  | [] => []
  | b :: bs => k :: ranks (if b then k + 1 else k) bs

/-! ## Meshes -/

/-- Points in space and the cells between them. -/
structure Mesh (α : Type) where
  /-- The points are all the crossings of a grid. -/
  whole : Bool
  places : List (α × α × α)
  /-- The height that each point is coloured by. -/
  heights : List α
  /-- The corners of each cell, by their numbers. -/
  cells : List (List Nat)
deriving Repr

/-- How meshes are made. -/
structure Mesher (α : Type) where
  /-- The mesh of a grid from tables of its coordinates. -/
  grid : (x y z : List (List α)) → Mesh α
  /-- The cells with all corners among the points with given numbers. -/
  extract : Mesh α → List Nat → Mesh α

namespace Mesh

variable {α : Type}

/-- The mesh of a grid from tables of its coordinates. -/
def ofTables (x y z : List (List α)) : Mesh α :=
  let rows := x.length
  let cols := (x.headD []).length
  { whole := true
    places := (byColumn x).zip ((byColumn y).zip (byColumn z))
    heights := []
    cells := (crossings (rows - 1) (cols - 1)).map fun c => c.corners.map (·.number rows) }

/-- The cells with all corners among the points with given numbers. Points that no such cell uses
are dropped, the others keep their order. -/
def extract (m : Mesh α) (ks : List Nat) : Mesh α :=
  let kept := (flagsOf m.places.length ks).toArray
  let cells := m.cells.filter (·.all (kept.getD · false))
  let used := flagsOf m.places.length cells.flatten
  let number := (ranks 0 used).toArray
  { whole := false
    places := select used m.places
    heights := select used m.heights
    cells := cells.map (·.map (number.getD · 0)) }

end Mesh

/-- Meshes made from lists. -/
def Mesher.standard {α : Type} : Mesher α where
  grid := Mesh.ofTables
  extract := Mesh.extract

/-! ## The drawn part -/

variable {α : Type} [Scalar α]

/-- A height is finite and within a closed range, integer bounds rounded. -/
def isShown (low high : Number α) (z : α) : Bool :=
  Scalar.isFinite z && Scalar.le low.toScalar z && Scalar.le z high.toScalar

namespace Grid

/-- The `x` at each crossing. -/
def xTable (g : Grid α) : List (List α) :=
  g.ys.map fun _ => g.xs

/-- The `y` at each crossing. -/
def yTable (g : Grid α) : List (List α) :=
  g.ys.map fun y => g.xs.map fun _ => y

/-- The heights, with zero in place of those that are not finite. -/
def filled (g : Grid α) : List (List α) :=
  g.z.map (·.map fun z => if Scalar.isFinite z then z else Scalar.ofNat 0)

/-- Which heights lie within a range. -/
def mask (g : Grid α) (low high : Number α) : List (List Bool) :=
  g.z.map (·.map (isShown low high))

end Grid

/-- The mesh of a grid, coloured by its heights. -/
def Mesher.coloured (k : Mesher α) (g : Grid α) : Mesh α :=
  { k.grid g.xTable g.yTable g.filled with heights := byColumn g.z }

/-- The part of a grid within a range of heights, none if no cell is left. -/
def Mesher.surface? (k : Mesher α) (g : Grid α) (low high : Number α) : Option (Mesh α) :=
  let mask := g.mask low high
  if mask.all (·.all id) then some (k.coloured g)
  else
    let kept := flagged (byColumn mask)
    if kept.isEmpty then none
    else
      let part := k.extract (k.coloured g) kept
      if part.cells.isEmpty then none else some part

/-- The part of a grid within a range of heights, none if no cell is left. -/
def Mesh.ofGrid? (g : Grid α) (low high : Number α) : Option (Mesh α) :=
  Mesher.standard.surface? g low high

end FieldWalk.Surface
