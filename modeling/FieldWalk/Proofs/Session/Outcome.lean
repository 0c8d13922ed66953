import FieldWalk.Session.Control
/-!
# What an operation does to a session

An update, a resampling or a trace either does all of its work or is refused. One lemma for each
operation lists what can happen, and later proofs split on these cases and never look at the
operations. The main theorem is that a refusal changes nothing, except that a walk that is too short
takes the old path with it.
-/

namespace FieldWalk.Session

open FieldWalk.Field (Snapshot)
open FieldWalk.Path (Trace)
open Numeral
open Surface (Grid)

variable {ε α : Type}

/-! ## Compiled markup -/

theorem snapshot_text {e : Engine ε α} {markup flat : String} {u : ε} {f : Snapshot α}
    (h : e.snapshot markup flat u = .ok f) : f.markup = markup ∧ f.flat = flat := by
  -- the texts are the same on every way to a snapshot, whatever became of slopes and limit
  simp only [Engine.snapshot] at h
  cases hc : e.compile u with
  | none => simp [hc, throw, throwThe, MonadExceptOf.throw] at h
  | some height =>
    cases hr : e.isRadial u with
    | false =>
      simp only [hc, hr] at h
      cases h
      exact ⟨rfl, rfl⟩
    | true =>
      simp only [hc, hr, if_true] at h
      cases hl : e.limit u with
      | oscillates => rw [hl] at h; cases h
      | value v => rw [hl] at h; cases h; exact ⟨rfl, rfl⟩
      | unknown => rw [hl] at h; cases h; exact ⟨rfl, rfl⟩

/-- A field remembers the markup it comes from and the flat text that was parsed. -/
theorem build_text {e : Engine ε α} {markup : String} {f : Snapshot α}
    (h : (e.build markup).1 = .ok f) :
    f.markup = markup ∧
      f.flat = String.ofList (Formula.normalize (Markup.translate markup).1.toList) := by
  simp only [Engine.build, flatten] at h
  split at h
  · cases h
  · exact snapshot_text h

/-! ## Usable settings have a surface -/

/-- A check without a fault has passed. -/
theorem eq_ok_of_isOk {r : Except ε Unit} (h : r.isOk = true) : r = .ok () := by
  cases r with
  | error => cases h
  | ok => rfl

variable [Scalar α]

theorem scalarRange?_of_checkRange {st : Settings α} {a : Axis} (h : st.checkRange a = .ok ()) :
    ∃ r, st.scalarRange? a = some r := by
  cases hlow : (st.range a).1.toScalar? with
  | none => simp [Settings.checkRange, hlow, throw, throwThe, MonadExceptOf.throw] at h
  | some low =>
    cases hhigh : (st.range a).2.toScalar? with
    | none =>
      by_cases hf : Scalar.isFinite low = true <;>
        simp [Settings.checkRange, hlow, hhigh, hf, throw, throwThe, MonadExceptOf.throw, bind,
          Except.bind] at h
    | some high => exact ⟨(low, high), by simp [Settings.scalarRange?, hlow, hhigh]⟩

theorem checkRange_of_validate {st : Settings α} (h : st.validate = .ok ()) :
    st.checkRange .x = .ok () ∧ st.checkRange .y = .ok () := by
  simp only [Settings.validate, bind, Except.bind] at h
  split at h
  · cases h
  · rename_i hx
    split at h
    · cases h
    · rename_i hy
      exact ⟨hx, hy⟩

/-- `g` is the surface of the field `f` over the ranges of the settings `st`. -/
def IsSurface (f : Snapshot α) (st : Settings α) (g : Grid α) : Prop :=
  ∃ xs ys, st.scalarRange? .x = some xs ∧ st.scalarRange? .y = some ys ∧
    g = .sample f.evaluate xs ys Surface.resolution

theorem sampled_of_validate (f : Snapshot α) {st : Settings α} (h : st.validate = .ok ()) :
    ∃ g, sampled f st = .ok g ∧ IsSurface f st g := by
  obtain ⟨hx, hy⟩ := checkRange_of_validate h
  obtain ⟨xs, hxs⟩ := scalarRange?_of_checkRange hx
  obtain ⟨ys, hys⟩ := scalarRange?_of_checkRange hy
  refine ⟨.sample f.evaluate xs ys Surface.resolution, ?_, xs, ys, hxs, hys, rfl⟩
  simp only [sampled, hxs, hys]
  rfl

/-! ## What the operations do -/

/-- An update replaces everything, or it is refused and the session stays. -/
theorem update_cases (e : Engine ε α) (s : Session α) (m : String) (c : Option (Settings α)) :
    (∃ f g, (c.getD s.settings).validate = .ok () ∧ (e.build m).1 = .ok f ∧
      IsSurface f (c.getD s.settings) g ∧ (s.update e m c).fault = none ∧
      (s.update e m c).session = ⟨m, c.getD s.settings, some f, some g, none⟩) ∨
    (∃ fault, (s.update e m c).fault = some fault ∧ (s.update e m c).session = s ∧
      ((∃ x, (c.getD s.settings).validate = .error x) ∨ ∃ x, (e.build m).1 = .error x)) := by
  cases hv : (c.getD s.settings).validate with
  | error x => exact .inr ⟨.settings x, by simp [update, hv, refuse], by simp [update, hv, refuse],
      .inl ⟨x, rfl⟩⟩
  | ok _ =>
    cases hb : (e.build m).1 with
    | error x =>
      refine .inr ⟨.expression x, ?_, ?_, .inr ⟨x, rfl⟩⟩ <;>
        simp only [update, hv, hb, refuse]
    | ok f =>
      obtain ⟨g, hg, hs⟩ := sampled_of_validate f hv
      refine .inl ⟨f, g, rfl, rfl, hs, ?_, ?_⟩ <;> simp only [update, hv, hb, hg]

/-- A resampling replaces settings and surface and drops the path, or it is refused and the session
stays. -/
theorem resample_cases (s : Session α) (c : Option (Settings α)) :
    (∃ f g, (c.getD s.settings).validate = .ok () ∧ s.snapshot = some f ∧
      IsSurface f (c.getD s.settings) g ∧ (s.resample c).fault = none ∧
      (s.resample c).session = ⟨s.markup, c.getD s.settings, some f, some g, none⟩) ∨
    (∃ fault, (s.resample c).fault = some fault ∧ (s.resample c).session = s ∧
      ((∃ x, (c.getD s.settings).validate = .error x) ∨ s.snapshot = none)) := by
  cases hv : (c.getD s.settings).validate with
  | error x => exact .inr ⟨.settings x, by simp [resample, hv, refuse],
      by simp [resample, hv, refuse], .inl ⟨x, rfl⟩⟩
  | ok _ =>
    cases hf : s.snapshot with
    | none =>
      refine .inr ⟨.expression .noField, ?_, ?_, .inr rfl⟩ <;> simp only [resample, hv, hf, refuse]
    | some f =>
      obtain ⟨g, hg, hs⟩ := sampled_of_validate f hv
      refine .inl ⟨f, g, rfl, rfl, hs, ?_, ?_⟩ <;> simp only [resample, hv, hf, hg]

/-- The walk over the field of a snapshot. -/
def walk (f : Snapshot α) (ascend : Bool) (p : α × α) : Trace α :=
  Path.trace ⟨f.evaluate, f.gradient⟩ ascend p.1 p.2

/-- A trace puts its path in place, drops the old path since its own is too short, or is refused
before it has walked. -/
theorem trace_cases (e : Engine ε α) (s : Session α) (start : Except StartFault (α × α)) :
    (∃ p f, start = .ok p ∧ s.snapshot = some f ∧ (walk f s.settings.ascend p).succeeded = true ∧
      (s.trace e start).fault = none ∧
      (s.trace e start).session = { s with path := some (walk f s.settings.ascend p) }) ∨
    (∃ p f, start = .ok p ∧ s.snapshot = some f ∧ (walk f s.settings.ascend p).succeeded = false ∧
      (s.trace e start).fault = some .pathTooShort ∧ (s.trace e start).session = s.clearPath) ∨
    (∃ fault, (s.trace e start).fault = some fault ∧ fault ≠ .pathTooShort ∧
      (s.trace e start).session = s ∧ ((∃ x, start = .error x) ∨ s.snapshot = none)) := by
  cases start with
  | error x => exact .inr (.inr ⟨.start x, rfl, nofun, rfl, .inl ⟨x, rfl⟩⟩)
  | ok p =>
    cases hf : s.snapshot with
    | none =>
      refine .inr (.inr ⟨.expression .noField, ?_, nofun, ?_, .inr rfl⟩) <;>
        simp only [trace, hf, refuse]
    | some f =>
      cases ht : (walk f s.settings.ascend p).succeeded with
      | true =>
        rw [walk] at ht
        refine .inl ⟨p, f, rfl, rfl, ht, ?_, ?_⟩ <;> simp only [trace, hf, ht, if_true, walk]
      | false =>
        rw [walk] at ht
        refine .inr (.inl ⟨p, f, rfl, rfl, ht, ?_, ?_⟩) <;>
          simp only [trace, hf, ht, Bool.false_eq_true, if_false, refuse]

/-! ## A refusal keeps the session -/

theorem update_fault_iff (e : Engine ε α) (s : Session α) (m : String) (c : Option (Settings α)) :
    (s.update e m c).fault = none ↔
      (c.getD s.settings).validate = .ok () ∧ ∃ f, (e.build m).1 = .ok f := by
  rcases update_cases e s m c with ⟨f, g, hv, hb, -, ht, -⟩ | ⟨fault, ht, -, ⟨x, hx⟩ | ⟨x, hx⟩⟩
  · simp [ht, hv, hb]
  · simp [ht, hx]
  · simp [ht, hx]

theorem resample_fault_iff (s : Session α) (c : Option (Settings α)) :
    (s.resample c).fault = none ↔
      (c.getD s.settings).validate = .ok () ∧ ∃ f, s.snapshot = some f := by
  rcases resample_cases s c with ⟨f, g, hv, hf, -, ht, -⟩ | ⟨fault, ht, -, ⟨x, hx⟩ | hf⟩
  · simp [ht, hv, hf]
  · simp [ht, hx]
  · simp [ht, hf]

/-- An update or a resampling is carried out exactly for usable settings and a field; where it is
refused the session is the one before. Where a trace is refused the session is the one before too,
but for the path, which is gone exactly if the new one was too short. -/
theorem refused_keeps_session (e : Engine ε α) (s : Session α) :
    (∀ m c, ((s.update e m c).fault = none ↔
        (c.getD s.settings).validate = .ok () ∧ ∃ f, (e.build m).1 = .ok f) ∧
      ((s.update e m c).fault ≠ none → (s.update e m c).session = s)) ∧
    (∀ c, ((s.resample c).fault = none ↔
        (c.getD s.settings).validate = .ok () ∧ ∃ f, s.snapshot = some f) ∧
      ((s.resample c).fault ≠ none → (s.resample c).session = s)) ∧
    ∀ start fault, (s.trace e start).fault = some fault →
      (fault = .pathTooShort → (s.trace e start).session = { s with path := none }) ∧
      (fault ≠ .pathTooShort → (s.trace e start).session = s) := by
  refine ⟨fun m c => ⟨update_fault_iff e s m c, fun h => ?_⟩,
    fun c => ⟨resample_fault_iff s c, fun h => ?_⟩, fun start fault h => ?_⟩
  · rcases update_cases e s m c with ⟨f, g, -, -, -, ht, -⟩ | ⟨fault, -, hs, -⟩
    · exact absurd ht h
    · exact hs
  · rcases resample_cases s c with ⟨f, g, -, -, -, ht, -⟩ | ⟨fault, -, hs, -⟩
    · exact absurd ht h
    · exact hs
  · rcases trace_cases e s start with
      ⟨p, f, -, -, -, ht, -⟩ | ⟨p, f, -, -, -, ht, hs⟩ | ⟨x, ht, hx, hs, -⟩
    · rw [ht] at h; cases h
    · rw [ht] at h; cases h
      exact ⟨fun _ => hs, fun hn => absurd rfl hn⟩
    · rw [ht] at h; cases h
      exact ⟨fun he => absurd he hx, fun _ => hs⟩

end FieldWalk.Session
