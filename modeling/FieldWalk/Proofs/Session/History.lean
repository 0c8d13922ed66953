import FieldWalk.Proofs.Path.Start
import FieldWalk.Proofs.Session.Outcome
/-!
# A session stays consistent

Whatever is done to a new session, in any order and with any failures, its four parts belong
together: the surface is that of the field, the field that of the markup, and the path a walk on the
field. The settings may change at any time, so the surface is tied to the settings that were in
force when it was last sampled, which a history keeps beside the session.
-/

namespace FieldWalk

open Numeral

/-- An assignment to a field of the settings. -/
inductive Settings.Assignment (α : Type) where
  | low (axis : Axis) (v : Number α)
  | high (axis : Axis) (v : Number α)
  | opacity (v : Number α)
  | fps (v : Number α)
  | ascend (b : Bool)

/-- The settings after an assignment. -/
def Settings.assign {α : Type} (st : Settings α) : Assignment α → Settings α
  | .low .x v => { st with xMin := v }
  | .low .y v => { st with yMin := v }
  | .low .z v => { st with zMin := v }
  | .high .x v => { st with xMax := v }
  | .high .y v => { st with yMax := v }
  | .high .z v => { st with zMax := v }
  | .opacity v => { st with opacity := v }
  | .fps v => { st with fps := v }
  | .ascend b => { st with ascend := b }

namespace Session

open FieldWalk.Field (Snapshot)
open FieldWalk.Path (Trace Walk Waypoint)
open Surface (Grid)

variable {ε α : Type} [Scalar α]

/-! ## Histories -/

/-- What can be done to a session. A trace is given what was read of its two entries. -/
inductive Operation (α : Type) where
  | update (markup : String) (settings : Option (Settings α))
  | resample (settings : Option (Settings α))
  | trace (start : Except StartFault (α × α))
  | reset
  | clearPath
  | assign (a : Settings.Assignment α)

/-- Carries out an operation. -/
def Operation.perform (e : Engine ε α) (s : Session α) : Operation α → Step α
  | update m c => s.update e m c
  | resample c => s.resample c
  | trace start => s.trace e start
  | reset => s.reset
  | clearPath => { session := s.clearPath }
  | assign a => { session := { s with settings := s.settings.assign a } }

/-- The settings in force for an operation that samples a surface: the candidate, or else those of
the session. None for the other operations. -/
def Operation.inForce (s : Session α) : Operation α → Option (Settings α)
  | update _ c | resample c => some (c.getD s.settings)
  | _ => none

/-- A session with the settings that were in force at its last successful update or resampling. -/
structure History (α : Type) where
  session : Session α
  sampled : Option (Settings α)

namespace History

/-- Nothing has been done yet. -/
def start : History α := ⟨new, none⟩

/-- The history after one more operation. -/
def push (e : Engine ε α) (h : History α) (o : Operation α) : History α :=
  let t := o.perform e h.session
  { session := t.session
    sampled := if t.fault.isNone then (o.inForce h.session).or h.sampled else h.sampled }

/-- The history of a new session after some operations. -/
def run (e : Engine ε α) (ops : List (Operation α)) : History α :=
  ops.foldl (push e) start

end History

/-! ## The invariant -/

/-- The parts of a session belong together. -/
structure Consistent (e : Engine ε α) (h : History α) : Prop where
  field_iff : h.session.snapshot = none ↔ h.session.surface = none
  built : ∀ f, h.session.snapshot = some f → (e.build h.session.markup).1 = .ok f
  surface : ∀ g, h.session.surface = some g →
    ∃ f st, h.session.snapshot = some f ∧ h.sampled = some st ∧ IsSurface f st g
  path : ∀ t, h.session.path = some t →
    ∃ f p, h.session.snapshot = some f ∧ 2 ≤ t.length ∧ t.waypoints.head? = some p ∧
      t = walk f t.ascend (p.x, p.y)

theorem consistent_start (e : Engine ε α) : Consistent e .start :=
  ⟨⟨fun _ => rfl, fun _ => rfl⟩, nofun, nofun, nofun⟩

/-- A field with its own surface and no path. -/
theorem consistent_sampled {e : Engine ε α} {m : String} {st : Settings α} {f : Snapshot α}
    {g : Grid α} (hb : (e.build m).1 = .ok f) (hg : IsSurface f st g) :
    Consistent e ⟨⟨m, st, some f, some g, none⟩, some st⟩ where
  field_iff := ⟨nofun, nofun⟩
  built f' hf := by cases hf; exact hb
  surface g' hg' := by cases hg'; exact ⟨f, st, rfl, rfl, hg⟩
  path := nofun

/-- The settings of the session are not part of what belongs together, and a path may go. -/
theorem consistent_drop {e : Engine ε α} {h : History α} (hc : Consistent e h) (st : Settings α) :
    Consistent e { h with session := { h.session with settings := st, path := none } } :=
  ⟨hc.field_iff, hc.built, hc.surface, nofun⟩

theorem consistent_assign {e : Engine ε α} {h : History α} (hc : Consistent e h) (st : Settings α) :
    Consistent e { h with session := { h.session with settings := st } } :=
  ⟨hc.field_iff, hc.built, hc.surface, hc.path⟩

/-- A walk on the field that succeeded may become the path. -/
theorem consistent_walk {e : Engine ε α} {h : History α} (hc : Consistent e h) {f : Snapshot α}
    (hf : h.session.snapshot = some f) (ascend : Bool) (p : α × α)
    (ht : (walk f ascend p).succeeded = true) :
    Consistent e { h with session := { h.session with path := some (walk f ascend p) } } where
  field_iff := hc.field_iff
  built := hc.built
  surface := hc.surface
  path t h' := by
    obtain rfl : walk f ascend p = t := Option.some.inj h'
    obtain ⟨q, hq, he⟩ := Path.trace_of_head _ _ _ _ ht
    exact ⟨f, q, hf, of_decide_eq_true ht, hq, he⟩

/-- Every operation, carried out or refused, keeps the parts together. -/
theorem consistent_push {e : Engine ε α} {h : History α} (hc : Consistent e h) (o : Operation α) :
    Consistent e (h.push e o) := by
  cases o with
  | update m c =>
    rcases update_cases e h.session m c with ⟨f, g, -, hb, hg, hn, hs⟩ | ⟨fault, hn, hs, -⟩ <;>
      simp only [History.push, Operation.perform, Operation.inForce, hn, hs, Option.isNone_none,
        Option.isNone_some, Bool.false_eq_true, if_true, if_false, Option.some_or]
    · exact consistent_sampled hb hg
    · exact hc
  | resample c =>
    rcases resample_cases h.session c with ⟨f, g, -, hf, hg, hn, hs⟩ | ⟨fault, hn, hs, -⟩ <;>
      simp only [History.push, Operation.perform, Operation.inForce, hn, hs, Option.isNone_none,
        Option.isNone_some, Bool.false_eq_true, if_true, if_false, Option.some_or]
    · exact consistent_sampled (hc.built f hf) hg
    · exact hc
  | trace start =>
    rcases trace_cases e h.session start with
      ⟨p, f, -, hf, ht, hn, hs⟩ | ⟨p, f, -, -, -, hn, hs⟩ | ⟨fault, hn, -, hs, -⟩ <;>
      simp only [History.push, Operation.perform, Operation.inForce, hn, hs, Option.isNone_none,
        Option.isNone_some, Bool.false_eq_true, if_true, if_false, Option.none_or]
    · exact consistent_walk hc hf _ p ht
    · exact consistent_drop hc _
    · exact hc
  | reset => exact ⟨⟨fun _ => rfl, fun _ => rfl⟩, nofun, nofun, nofun⟩
  | clearPath => exact consistent_drop hc _
  | assign a => exact consistent_assign hc _

theorem consistent_run (e : Engine ε α) (ops : List (Operation α)) :
    Consistent e (.run e ops) := by
  unfold History.run
  -- the induction is over the operations still to come, from any consistent history
  generalize hs : (History.start : History α) = h
  have hc : Consistent e h := hs ▸ consistent_start e
  clear hs
  induction ops generalizing h with
  | nil => exact hc
  | cons o ops ih => exact ih _ (consistent_push hc o)

/-- After any operations on a new session: there is a surface exactly if there is a field; the
field carries the session's markup and the flat text of it; the surface is that of the field over
the ranges in force at the last successful update or resampling; and a path has two waypoints or
more and is the walk on the field from its own first waypoint in its own direction. -/
theorem parts_belong_together (e : Engine ε α) (ops : List (Operation α)) :
    let h := History.run e ops
    let s := h.session
    (s.snapshot = none ↔ s.surface = none) ∧
    (∀ f, s.snapshot = some f → f.markup = s.markup ∧
      f.flat = String.ofList (Formula.normalize (Markup.translate s.markup).1.toList)) ∧
    (∀ g, s.surface = some g →
      ∃ f st, s.snapshot = some f ∧ h.sampled = some st ∧ IsSurface f st g) ∧
    ∀ t, s.path = some t → ∃ f p, s.snapshot = some f ∧ 2 ≤ t.length ∧
      t.waypoints.head? = some p ∧
      t = Path.trace ⟨f.evaluate, f.gradient⟩ t.ascend p.x p.y := by
  intro h s
  have hc : Consistent e h := consistent_run e ops
  exact ⟨hc.field_iff, fun f hf => build_text (hc.built f hf), hc.surface, hc.path⟩

end Session

end FieldWalk
