import FieldWalk.Path.Walk
import FieldWalk.Session.Engine
import FieldWalk.Session.StartPoint
import FieldWalk.Settings
import FieldWalk.Surface.Grid
/-!
A session: the markup, the settings, the compiled field with its surface, and the last path. Field
and surface are replaced only after all steps towards them have succeeded, and then the path goes,
since it belongs to the field before.
-/

namespace FieldWalk

open FieldWalk.Field (Snapshot)
open Journal (Record)
open Numeral
open FieldWalk.Path (Trace)
open Session (Engine ExpressionFault StartFault)
open Surface (Grid)

/-- The markup at the start. -/
def usualMarkup : String := "x^2+y^2-\\frac\x7b1\x7d\x7b2\x7d\\cos\\left(2x\\right)"

/-- A session. -/
structure Session (α : Type) where
  markup : String := usualMarkup
  settings : Settings α
  snapshot : Option (Snapshot α) := none
  surface : Option (Grid α) := none
  path : Option (Trace α) := none

namespace Session

variable {ε α : Type} [Scalar α]

/-- Why an operation is refused. -/
inductive Fault (α : Type) where
  | settings (fault : SettingsFault α)
  | expression (fault : ExpressionFault)
  | start (fault : StartFault)
  | pathTooShort

/-- A session after an operation, what was noticed, and whether the operation was carried out. -/
structure Step (α : Type) where
  session : Session α
  records : List Record := []
  fault : Option (Fault α) := none

/-- An untouched session. -/
def new : Session α := { settings := .usual }

/-- The session with its path dropped. -/
def clearPath (s : Session α) : Session α := { s with path := none }

/-- Back to an untouched session. -/
def reset (_ : Session α) : Step α :=
  ⟨new, [.info .state "Session state has been reset."], none⟩

/-- A refusal that leaves the session as it was. -/
def refuse (s : Session α) (fault : Fault α) (records : List Record := []) : Step α :=
  ⟨s, records, some fault⟩

/-- The surface of a field over the ranges of some settings; the settings have to be usable. -/
def sampled (f : Snapshot α) (settings : Settings α) : Except (Fault α) (Grid α) := do
  let some xs := settings.scalarRange? .x | throw (.settings .beyondRange)
  let some ys := settings.scalarRange? .y | throw (.settings .beyondRange)
  pure (.sample f.evaluate xs ys Surface.resolution)

/-- What is noticed of a surface. -/
def surfaceRecords (g : Grid α) : List Record :=
  let n := g.undefinedCount
  if n = 0 then []
  else [.info .surface ("Surface sampled with " ++ toString n ++ " undefined cell(s).")]

/-- Compiles markup and samples its surface, with new settings if there are any. -/
def update (e : Engine ε α) (s : Session α) (markup : String)
    (settings : Option (Settings α) := none) : Step α :=
  let settings := settings.getD s.settings
  match settings.validate with
  | .error f => s.refuse (.settings f)
  | .ok _ =>
    let built := e.build markup
    match built.1 with
    | .error f => s.refuse (.expression f) built.2
    | .ok f => match sampled f settings with
      | .error fault => s.refuse fault built.2
      | .ok surface =>
        { session := { markup, settings, snapshot := some f, surface := some surface }
          records := built.2 ++ surfaceRecords surface }

/-- Samples the surface of the compiled field anew. -/
def resample (s : Session α) (settings : Option (Settings α) := none) : Step α :=
  let settings := settings.getD s.settings
  match settings.validate with
  | .error f => s.refuse (.settings f)
  | .ok _ => match s.snapshot with
    | none => s.refuse (.expression .noField)
    | some f => match sampled f settings with
      | .error fault => s.refuse fault
      | .ok surface =>
        { session := { s with settings, surface := some surface, path := none }
          records := surfaceRecords surface }

/-- What is noticed of a trace. -/
def traceRecord (e : Engine ε α) (start : α × α) (t : Trace α) : Record :=
  .info .session ("Traced " ++ toString t.length ++ " point(s) from (" ++ e.text start.1 ++ ", "
    ++ e.text start.2 ++ ") (" ++ t.directionText ++ "): " ++ t.reason.text ++ ".")

/-- Walks from a start point in the direction of the settings. A walk that is too short leaves no
path. -/
def trace (e : Engine ε α) (s : Session α) (start : Except StartFault (α × α)) : Step α :=
  match start with
  | .error f => s.refuse (.start f)
  | .ok p => match s.snapshot with
    | none => s.refuse (.expression .noField)
    | some f =>
      let t := Path.trace ⟨f.evaluate, f.gradient⟩ s.settings.ascend p.1 p.2
      let records := [traceRecord e p t]
      if t.succeeded then { session := { s with path := some t }, records }
      else s.clearPath.refuse .pathTooShort records

/-- A notice about the compiled field; empty if there is none. -/
def advisory (s : Session α) : String :=
  if s.snapshot.any (·.numeric) then
    "Symbolic derivative unavailable, using a numeric gradient."
  else ""

end Session

/-- The wording of a fault, none where it has none of its own. -/
def Session.Fault.message? : Session.Fault Float → Option String
  | settings f => f.message?
  | expression f => f.message?
  | start f => f.message?
  | pathTooShort => some "Cannot calculate path from this start point (gradient may be zero)."

end FieldWalk
