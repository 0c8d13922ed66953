import FieldWalk.Algebra.Compiled
import FieldWalk.Algebra.Derivative
import FieldWalk.Algebra.Limit
import FieldWalk.Algebra.Meaning
import FieldWalk.Algebra.Radial
import FieldWalk.Formula.Product
import FieldWalk.Journal.Record
import FieldWalk.Markup.Flat
import FieldWalk.Numeral.Text
/-!
From markup to a compiled field. The algebra behind it is given by its operations; the one in use
computes with expressions in simplest form.
-/

namespace FieldWalk.Session

open FieldWalk.Algebra (ParseFault Expr)
open FieldWalk.Field (Formula RadialLimit Snapshot)
open Journal (Record)

/-- The operations of an algebra with expressions `ε` over numbers `α`. -/
structure Engine (ε α : Type) where
  /-- Reads a flat text. -/
  parse : String → Except ParseFault ε
  /-- A numeric form, if there is one. -/
  compile : ε → Option (Formula α)
  /-- The two partial derivatives, unless differentiation fails. -/
  slopes : ε → Option (ε × ε)
  /-- The field is to be treated apart next to the origin. -/
  isRadial : ε → Bool
  limit : ε → RadialLimit α
  /-- A number in a record. -/
  text : α → String

/-- The algebra of expressions in simplest form. -/
def Engine.standard : Engine Expr Float where
  parse := Expr.ofText
  compile := Expr.formula?
  slopes u := some (u.derivative .x, u.derivative .y)
  isRadial := Expr.isRadial
  limit := Expr.radialLimit
  text := Numeral.general

/-- The same algebra without differentiation. -/
def Engine.withoutSlopes {ε α : Type} (e : Engine ε α) : Engine ε α :=
  { e with slopes := fun _ => none }

/-- Why markup gives no field. -/
inductive ExpressionFault where
  | unreadable (fault : ParseFault)
  | notCompilable
  /-- No field has been compiled before. -/
  | noField
  /-- The height oscillates at the origin of a radial field. -/
  | oscillation
deriving Repr, DecidableEq

/-- The wording of a fault, none where it has none of its own. -/
def ExpressionFault.message? : ExpressionFault → Option String
  | unreadable fault => some fault.message
  | notCompilable => some "Cannot compile"
  | noField => some "No expression has been compiled yet."
  | oscillation => none

/-- The flat text of markup, and what was noticed on the way. -/
def flatten (markup : String) : String × List Record :=
  let (text, warnings) := Markup.translate markup
  let flat := String.ofList (Formula.normalize text.toList)
  (flat, warnings.map (fun w => .warning .markup w.message)
    ++ [.info .session ("Translated '" ++ markup ++ "' -> '" ++ flat ++ "'")])

namespace Engine

variable {ε α : Type} (e : Engine ε α)

/-- The compiled partial derivatives, if both have a numeric form. -/
def compiledSlopes (u : ε) : Option (Formula α × Formula α) := do
  let (dx, dy) ← e.slopes u
  let gx ← e.compile dx
  let gy ← e.compile dy
  pure (gx, gy)

/-- The compiled field of an expression. -/
def snapshot (markup flat : String) (u : ε) : Except ExpressionFault (Snapshot α) := do
  let some height := e.compile u | throw .notCompilable
  let limit ← if e.isRadial u then match e.limit u with
      | .oscillates => throw .oscillation
      | .value v => pure (some v)
      | .unknown => pure none
    else pure none
  pure { height, slopes := e.compiledSlopes u, radial := e.isRadial u, limit, flat, markup }

/-- The field that markup describes, and what was noticed on the way. -/
def build (markup : String) : Except ExpressionFault (Snapshot α) × List Record :=
  let (flat, records) := flatten markup
  match e.parse flat with
  | .error f => (.error (.unreadable f), records)
  | .ok u =>
    let failed := (e.compile u).isSome && (e.compiledSlopes u).isNone
    let records := if failed then
        records ++ [.warning .session ("Symbolic differentiation failed for '" ++ flat ++ "'")]
      else records
    (e.snapshot markup flat u, records)

end Engine

end FieldWalk.Session
