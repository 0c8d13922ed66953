import FieldWalk.Numeral.Scalar
/-! Values that properties of widgets and actors take. -/

namespace FieldWalk.Layout

open Numeral

/-- A value of a property. -/
inductive Datum (α : Type) where
  | nothing
  | flag (b : Bool)
  | number (v : Number α)
  | text (s : String)
  | list (xs : List (Datum α))
  | record (fields : List (String × Datum α))
deriving Repr

namespace Datum

variable {α : Type}

/-- A whole number. -/
def whole (n : Int) : Datum α := .number (.int n)

/-- A list of whole numbers. -/
def wholes (ns : List Int) : Datum α := .list (ns.map whole)

/-- A list of numbers. -/
def numbers (vs : List (Number α)) : Datum α := .list (vs.map number)

instance : Coe String (Datum α) := ⟨.text⟩
instance : Coe Bool (Datum α) := ⟨.flag⟩

end Datum

/-- Named values. -/
abbrev Properties (α : Type) := List (String × Datum α)

end FieldWalk.Layout
