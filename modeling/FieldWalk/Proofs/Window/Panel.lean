import FieldWalk.Proofs.Playback.Steady
import FieldWalk.Proofs.Scene.Cast
import FieldWalk.Proofs.Session.Outcome
import FieldWalk.Window.Action
/-!
# The panel shows its session

What stands on the stage is what the session asks for: the part of its surface within the range of
heights, and the path with the ball on one waypoint. Everything that is done to a panel keeps it so, an
update or a walk that is rejected too.
-/

namespace FieldWalk.Window

open Numeral
open FieldWalk.Path (Trace)
open Playback (Offered)
open Scene (Actor Role Stage)
open Session (Engine)
open Surface (Grid Mesh)

variable {ε κ α : Type}

/-! ## Refusals -/

namespace Panel

/-- What is said of a refusal leaves session, stage and profile alone and locks nothing. -/
structure Said (p q : Panel κ α) : Prop where
  session : q.session = p.session
  stage : q.stage = p.stage
  profile : q.controls.profileOpen = p.controls.profileOpen
  unlocked : q.controls.locked = false

theorem said_rejected (k : Conversions α) (p : Panel κ α) (f : Session.Fault α) :
    p.Said (rejected k p f) := by
  unfold rejected
  split <;> exact ⟨rfl, rfl, rfl, rfl⟩

end Panel

variable [Scalar α]

/-! ## Changes of the panel alone -/

/-- What an action does to the panel if it works on the panel alone and on none of the path, the field
and the lock. -/
def Action.edit? (k : Conversions α) : Action κ α → Option (Panel κ α → Panel κ α)
  | .type f text => some (·.onControls (·.setField f text))
  | .press .profile inside | .choose .profile inside => some (·.openProfile inside)
  | .spin a i v => some (·.onControls (·.setEnd a i (k.settle v)))
  | .slide n => some (·.slide k n)
  | .ascend on => some (·.setAscend on)
  | .rate i => some (·.setRate i)
  | .pick x y => some (·.onControls fun c =>
      { c with startX := k.coordinate x, startY := k.coordinate y })
  | .toggle layer shown => some (·.onStage (·.toggle layer shown))
  | .camera c => some (·.onStage (·.moveCamera c))
  | _ => none

theorem act_edit (e : Engine ε α) {k : Conversions α} (w : Window κ α) {a : Action κ α}
    {f : Panel κ α → Panel κ α} (h : a.edit? k = some f) : w.act e k a = w.onPanel f := by
  cases a with
  | press b inside | choose b inside =>
    cases b <;> cases h
    rfl
  | enter | wait | close => cases h
  | _ => cases h; rfl

/-- A panel after a change of controls, settings or layers, with the lock, the field and the path that it
had. -/
inductive Panel.Edited (p : Panel κ α) : Panel κ α → Prop where
  | reported (visible : Bool) (r : Report α) : Edited p { p with visible, report := r }
  | settled (c : Controls α) (st : Settings α) (hl : c.locked = p.controls.locked)
    (ho : c.profileOpen = p.controls.profileOpen)
    (hz : st.range .z = p.session.settings.range .z) (hv : st.opacity = p.session.settings.opacity)
    (hf : st.fps = p.session.settings.fps ∨ Offered st.fps) :
    Edited p { p with session := { p.session with settings := st }, controls := c }
  | faded (n : Int) (v : Number α) :
    Edited p (((p.onControls fun c => { c with opacity := n }).onSettings
      fun s => { s with opacity := v }).onStage (·.setOpacity v))
  | toggled (layer : Scene.Layer) (shown : Bool) : Edited p (p.onStage (·.toggle layer shown))
  | turned (c : Option κ) : Edited p (p.onStage (·.moveCamera c))

namespace Panel

/-- New controls with the lock and the profile as they were. -/
theorem edited_controls (p : Panel κ α) {f : Controls α → Controls α}
    (hl : (f p.controls).locked = p.controls.locked)
    (ho : (f p.controls).profileOpen = p.controls.profileOpen) : p.Edited (p.onControls f) :=
  .settled (f p.controls) p.session.settings hl ho rfl rfl (.inl rfl)

omit [Scalar α] in
/-- What is done in a profile is only reported. -/
theorem openProfile_eq (p : Panel κ α) (inside : List ProfileAction) :
    ∃ r, p.openProfile inside = { p with report := r } := by
  have halert : ∀ (bs : List Box) (r : Report α),
      ∃ r', bs.foldl alert { p with report := r } = { p with report := r' } := by
    intro bs
    induction bs with
    | nil => exact fun r => ⟨r, rfl⟩
    | cons b bs ih => exact fun r => ih _
  unfold openProfile
  split
  · exact ⟨p.report, rfl⟩
  · rename_i t ht
    obtain ⟨r, hr⟩ := halert (Profile.run { path := t } inside).2.boxes
      { p.report with records := p.report.records ++ (Profile.run { path := t } inside).2.records }
    simp only [note, hr]
    exact ⟨_, rfl⟩

theorem edited_openProfile (p : Panel κ α) (inside : List ProfileAction) :
    p.Edited (p.openProfile inside) := by
  obtain ⟨r, hr⟩ := p.openProfile_eq inside
  rw [hr]
  exact .reported p.visible r

theorem edited_slide (k : Conversions α) (p : Panel κ α) (n : Int) : p.Edited (p.slide k n) := by
  dsimp only [slide]
  split
  · exact .reported p.visible p.report
  · exact .faded _ _

theorem edited_setAscend (p : Panel κ α) (on : Bool) : p.Edited (p.setAscend on) := by
  unfold setAscend
  split
  · exact .reported p.visible p.report
  · exact .settled _ { p.session.settings with ascend := on } rfl rfl rfl rfl (.inl rfl)

theorem edited_setRate (p : Panel κ α) (index : Int) : p.Edited (p.setRate index) := by
  dsimp only [setRate]
  split
  · rename_i n hn
    split
    · exact .reported p.visible p.report
    · have hoffered : Offered (.int n : Number α) :=
        List.any_eq_true.2 ⟨n, List.mem_of_getElem? hn, by simp [Number.eqInt]⟩
      exact .settled _ { p.session.settings with fps := .int n } rfl rfl rfl rfl (.inr hoffered)
  · exact .reported p.visible p.report

theorem edited_of_edit {k : Conversions α} (p : Panel κ α) {a : Action κ α}
    {f : Panel κ α → Panel κ α} (h : a.edit? k = some f) : p.Edited (f p) := by
  cases a with
  | press b inside | choose b inside =>
    cases b <;> cases h
    exact p.edited_openProfile inside
  | enter | wait | close => cases h
  | type g text =>
    cases h
    cases g <;> exact p.edited_controls rfl rfl
  | spin a i v =>
    cases h
    cases a <;> exact p.edited_controls rfl rfl
  | slide n =>
    cases h
    exact edited_slide k p n
  | ascend on =>
    cases h
    exact p.edited_setAscend on
  | rate i =>
    cases h
    exact p.edited_setRate i
  | pick x y =>
    cases h
    exact p.edited_controls rfl rfl
  | toggle layer shown =>
    cases h
    exact .toggled layer shown
  | camera c =>
    cases h
    exact .turned c

/-! ## Stage and session -/

/-- The actors that the session asks for, the surface with the opacity that it was added with and the
ball on a waypoint. -/
def due (p : Panel κ α) (added : Number α) (i : Int) : Role → Option (Actor α)
  | .surface => p.session.surface.bind fun g =>
    (Mesh.ofGrid? g p.session.settings.zMin p.session.settings.zMax).map fun m =>
      ⟨.surface m (p.session.settings.range .z) added, p.session.settings.opacity,
        p.stage.shown .surface⟩
  | .line => p.session.path.map fun t =>
    ⟨.line t.waypoints, .real (Scalar.ofNat 1), p.stage.shown .line⟩
  | .ball => p.session.path.map fun t =>
    ⟨.ball t.waypoints[i.toNat]?, .real (Scalar.ofNat 1), p.stage.shown .ball⟩

/-- The stage shows what the session asks for, with the ball on the waypoint of an index, and the
profile can be asked for exactly if there is a path. A path lies on a compiled field. -/
structure Mirrors (p : Panel κ α) (i : Int) : Prop where
  cast : ∃ added, p.stage.Shows (p.due added i)
  trail : ∀ t, p.session.path = some t → p.stage.trail = t.waypoints
  profile : p.controls.profileOpen = p.session.path.isSome
  index : ∀ t, p.session.path = some t → 0 ≤ i ∧ i < t.length
  compiled : p.session.path ≠ none → p.session.snapshot ≠ none

section
variable {p q : Panel κ α} {i : Int}

theorem visible_due (p : Panel κ α) (added : Number α) (i : Int) (r : Role) :
    ∀ a ∈ p.due added i r, a.visible = p.stage.shown r := by
  intro a ha
  cases r with
  | surface =>
    obtain ⟨g, -, hg⟩ := Option.bind_eq_some_iff.1 ha
    obtain ⟨m, -, rfl⟩ := Option.map_eq_some_iff.1 hg
    rfl
  | line | ball =>
    obtain ⟨t, -, rfl⟩ := Option.map_eq_some_iff.1 ha
    rfl

/-- Only session, stage and the profile count. -/
theorem Mirrors.of_eq (h : p.Mirrors i) (hs : q.session = p.session) (ht : q.stage = p.stage)
    (ho : q.controls.profileOpen = p.controls.profileOpen) : q.Mirrors i where
  cast := by
    have hd : q.due = p.due := by
      funext v j r
      cases r <;> simp only [due, hs, ht]
    rw [ht, hd]
    exact h.cast
  trail := by rw [hs, ht]; exact h.trail
  profile := by rw [ho, hs]; exact h.profile
  index := by rw [hs]; exact h.index
  compiled := by rw [hs]; exact h.compiled

/-- Without a path the index does not matter. -/
theorem Mirrors.unplaced (h : p.Mirrors i) (hn : ∀ t, p.session.path ≠ some t) (j : Int) :
    p.Mirrors j where
  cast := by
    obtain ⟨v, hv⟩ := h.cast
    have hpath : p.session.path = none := Option.eq_none_iff_forall_ne_some.2 hn
    refine ⟨v, hv.congr fun r => ?_⟩
    cases r <;> simp only [due, hpath, Option.map_none]
  trail := h.trail
  profile := h.profile
  index t ht := absurd ht (hn t)
  compiled := h.compiled

theorem Edited.mirrors (he : p.Edited q) (h : p.Mirrors i) : q.Mirrors i := by
  obtain ⟨v, hv⟩ := h.cast
  cases he with
  | reported v r => exact h.of_eq rfl rfl rfl
  | settled c st hl ho hz hopacity hf =>
    refine ⟨⟨v, hv.congr fun r => ?_⟩, h.trail, ho.trans h.profile, h.index, h.compiled⟩
    obtain ⟨hmin, hmax⟩ := Prod.mk.inj hz
    cases r <;> simp only [due, hz, hopacity, hmin, hmax]
  | faded n v' =>
    obtain ⟨htrail, hshown⟩ := p.stage.setOpacity_rest v'
    refine ⟨⟨v, (hv.setOpacity v').congr fun r => ?_⟩, ?_, h.profile, h.index, h.compiled⟩
    · cases r with
      | surface =>
        simp only [due, onStage, onSettings, onControls, hshown, Option.map_bind, Function.comp_def,
          Option.map_map]
        rfl
      | line | ball => simp only [due, onStage, onSettings, onControls, hshown]
    · intro t ht
      exact htrail.trans (h.trail t ht)
  | toggled layer shown =>
    refine ⟨⟨v, (hv.toggle (p.visible_due v i) layer shown).congr fun r => ?_⟩, ?_, h.profile, h.index,
      h.compiled⟩
    · cases r with
      | surface =>
        simp only [due, onStage, Option.map_bind, Function.comp_def, Option.map_map]
      | line | ball =>
        simp only [due, onStage, Option.map_map]
        rfl
    · intro t ht
      exact (p.stage.toggle_trail layer shown).trans (h.trail t ht)
  | turned c =>
    exact ⟨⟨v, hv.of_actors rfl rfl rfl⟩, h.trail, h.profile, h.index, h.compiled⟩

end

/-! ## Updates -/

theorem offered_of_validate {st : Settings α} (h : st.validate = .ok ()) : Offered st.fps := by
  simp only [Settings.validate, bind, Except.bind] at h
  split at h
  · cases h
  split at h
  · cases h
  split at h
  · cases h
  split at h
  · cases h
  by_contra hn
  rw [Offered, Bool.not_eq_true] at hn
  cases hlong : tooLong st.fps <;>
    simp [Settings.checkRate, hn, hlong, throw, throwThe, MonadExceptOf.throw, bind, Except.bind] at h

/-- An update gives a new field with its surface and no path, with usable settings, or it is refused and
the session stays. -/
theorem attempt_cases (e : Engine ε α) (p : Panel κ α) :
    (∃ m st f g, st.validate = .ok () ∧ (p.attempt e).fault = none ∧
      (p.attempt e).session = ⟨m, st, some f, some g, none⟩) ∨
    ∃ fault, (p.attempt e).fault = some fault ∧ (p.attempt e).session = p.session := by
  dsimp only [attempt]
  split
  · rcases p.session.resample_cases (some (p.controls.candidate p.session.settings)) with
      ⟨f, g, hv, -, -, hf, hs⟩ | ⟨fault, hf, hs, -⟩
    · exact .inl ⟨_, _, f, g, hv, hf, hs⟩
    · exact .inr ⟨fault, hf, hs⟩
  · rcases p.session.update_cases e p.controls.markup
      (some (p.controls.candidate p.session.settings)) with
      ⟨f, g, hv, -, -, hf, hs⟩ | ⟨fault, hf, hs, -⟩
    · exact .inl ⟨_, _, f, g, hv, hf, hs⟩
    · exact .inr ⟨fault, hf, hs⟩

section
variable {p : Panel κ α} {i : Int}

theorem accepted_rest {g : Grid α} (hg : p.session.surface = some g) :
    p.accepted.session = p.session ∧
      p.accepted.stage = (p.stage.showSurface g p.session.settings).1.clearPath ∧
      p.accepted.controls.profileOpen = false ∧
      p.accepted.controls.locked = p.controls.locked := by
  simp only [accepted, showSurface, note, onControls, onStage, hg, and_self]

/-- With a new surface nothing else is on the stage, whatever stood there before. -/
theorem mirrors_accepted {x : Role → Option (Actor α)} (hx : p.stage.Shows x) {g : Grid α}
    (hg : p.session.surface = some g) (hpath : p.session.path = none) : p.accepted.Mirrors i := by
  obtain ⟨-, hshown⟩ := p.stage.showSurface_rest g p.session.settings
  obtain ⟨hsession, hstage, hprofile, -⟩ := accepted_rest hg
  have hnone : ∀ t, p.accepted.session.path ≠ some t := by
    intro t ht
    rw [hsession, hpath] at ht
    cases ht
  refine ⟨⟨p.session.settings.opacity, ?_⟩, fun t ht => absurd ht (hnone t), ?_,
    fun t ht => absurd ht (hnone t), fun hn => absurd ?_ hn⟩
  · rw [hstage]
    refine ((hx.showSurface g p.session.settings).dropPath.render).congr fun r => ?_
    cases r with
    | surface =>
      have hs : p.accepted.stage.shown .surface = p.stage.surfaceShown := by
        rw [hstage]
        exact congrFun hshown .surface
      simp only [due, hsession, hg, hs, Option.bind_some]
    | line | ball => simp only [due, hsession, hpath, Option.map_none]
  · rw [hprofile, hsession, hpath]
    rfl
  · rw [hsession, hpath]

/-- What an update makes of the panel: a new field with its surface in usable settings, or the session
and the stage as they were. -/
theorem update_cases (e : Engine ε α) (k : Conversions α) (p : Panel κ α) :
    (∃ m st f g, st.validate = .ok () ∧ (p.attempt e).fault = none ∧
      (p.update e k).session = ⟨m, st, some f, some g, none⟩ ∧
      (p.update e k).controls.locked = p.controls.locked ∧
      ∀ x i, p.stage.Shows x → (p.update e k).Mirrors i) ∨
    ∃ fault, (p.attempt e).fault = some fault ∧ p.Said (p.update e k) := by
  rcases p.attempt_cases e with ⟨m, st, f, g, hv, hf, hs⟩ | ⟨fault, hf, hs⟩
  · have hsession : (p.take (p.attempt e)).session = ⟨m, st, some f, some g, none⟩ := hs
    obtain ⟨ha, -, -, hl⟩ := accepted_rest (p := p.take (p.attempt e)) (g := g) (by rw [hsession])
    refine .inl ⟨m, st, f, g, hv, hf, ?_, ?_, fun x i hx => ?_⟩ <;> simp only [update, hf]
    · rw [ha, hsession]
    · exact hl
    · exact mirrors_accepted (x := x) hx (by rw [hsession]) (by rw [hsession])
  · have hsaid := said_rejected k (p.take (p.attempt e)) fault
    refine .inr ⟨fault, hf, ?_⟩
    simp only [update, hf]
    exact ⟨hsaid.session.trans hs, hsaid.stage, hsaid.profile, hsaid.unlocked⟩

theorem Mirrors.update (h : p.Mirrors i) (e : Engine ε α) (k : Conversions α) :
    (p.update e k).Mirrors i := by
  obtain ⟨v, hv⟩ := h.cast
  rcases p.update_cases e k with ⟨m, st, f, g, -, -, -, -, hm⟩ | ⟨fault, -, hs⟩
  · exact hm _ i hv
  · exact h.of_eq hs.session hs.stage hs.profile

/-! ## Paths -/

/-- A path that is dropped leaves the surface; the old path of the session does not matter. -/
theorem Mirrors.dropPath (h : p.Mirrors i) {q : Panel κ α}
    (hs : q.session.clearPath = p.session.clearPath) (ht : q.stage = p.stage) (j : Int) :
    q.dropPath.Mirrors j := by
  obtain ⟨v, hv⟩ := h.cast
  have hsession : q.dropPath.session = p.session.clearPath := hs
  have hstage : q.dropPath.stage = p.stage.clearPath := by
    rw [← ht]
    rfl
  refine ⟨⟨v, ?_⟩, ?_, ?_, ?_, fun hn => absurd ?_ hn⟩
  · rw [hstage]
    refine hv.dropPath.render.congr fun r => ?_
    cases r with
    | surface =>
      simp only [due, hsession, hstage]
      rfl
    | line | ball =>
      simp only [due, hsession]
      rfl
  · intro t ht
    rw [hsession] at ht
    cases ht
  · rw [hsession]
    rfl
  · intro t ht
    rw [hsession] at ht
    cases ht
  · rw [hsession]
    rfl

omit [Scalar α] in
theorem lost_rest (k : Conversions α) (p : Panel κ α) (f : Session.Fault α) :
    (p.lost k f).session = p.session.clearPath ∧ (p.lost k f).controls.locked = false := by
  unfold Panel.lost
  split <;> exact ⟨rfl, rfl⟩

theorem Mirrors.lost (h : p.Mirrors i) {q : Panel κ α}
    (hs : q.session.clearPath = p.session.clearPath) (ht : q.stage = p.stage) (k : Conversions α)
    (f : Session.Fault α) (j : Int) : (q.lost k f).Mirrors j := by
  unfold Panel.lost
  split
  · exact (h.dropPath hs ht j).of_eq rfl rfl rfl
  · exact (h.dropPath (q := q.note _) hs ht j).of_eq rfl rfl rfl

theorem traced_rest (p : Panel κ α) (t : Trace α) :
    (p.traced t).session = p.session ∧ (p.traced t).stage = p.stage.showPath t.waypoints ∧
      (p.traced t).controls.locked = true ∧ (p.traced t).controls.profileOpen = true := by
  simp only [traced, setLocked, onStage, onControls, say, and_self]

/-- A new path is shown with the ball on its first waypoint. -/
theorem Mirrors.traced (h : p.Mirrors i) {q : Panel κ α} {t : Trace α}
    (hs : q.session = { p.session with path := some t }) (hst : q.stage = p.stage)
    (hsnap : q.session.snapshot ≠ none) (hlong : 2 ≤ t.length) : (q.traced t).Mirrors 0 := by
  obtain ⟨v, hv⟩ := h.cast
  obtain ⟨hsession, hstage, -, hprofile⟩ := q.traced_rest t
  have hsnap' : (q.traced t).session.snapshot ≠ none := by rwa [hsession]
  rw [hs] at hsession
  rw [hst] at hstage
  refine ⟨⟨v, ?_⟩, ?_, ?_, ?_, fun _ => hsnap'⟩
  · rw [hstage]
    refine (hv.showPath t.waypoints).congr fun r => ?_
    cases r with
    | surface =>
      simp only [due, hsession, hstage, Option.map_bind, Function.comp_def, Option.map_map]
      rfl
    | line =>
      simp only [due, hsession, hstage]
      rfl
    | ball =>
      simp only [due, hsession, hstage, List.head?_eq_getElem?]
      rfl
  · intro t' ht'
    rw [hsession] at ht'
    cases ht'
    rw [hstage]
    rfl
  · rw [hsession, hprofile]
    rfl
  · intro t' ht'
    rw [hsession] at ht'
    cases ht'
    exact ⟨Int.le_refl 0, by omega⟩

/-- A frame that is told moves the ball there. -/
theorem Mirrors.hear (h : p.Mirrors i) {j : Int}
    (hj : ∀ t, p.session.path = some t → 0 ≤ j ∧ j < t.length) : (p.hear (.frame j)).Mirrors j := by
  obtain ⟨v, hv⟩ := h.cast
  obtain ⟨htrail, hshown⟩ := p.stage.moveBall_rest j
  refine ⟨⟨v, (hv.moveBall j).congr fun r => ?_⟩, fun t ht => htrail.trans (h.trail t ht), h.profile,
    hj, h.compiled⟩
  cases r with
  | surface | line => simp only [due, Panel.hear, onStage, hshown]
  | ball =>
    simp only [due, Panel.hear, onStage, hshown]
    cases ht : p.session.path with
    | none => rfl
    | some t =>
      have hw : Stage.waypoint? p.stage.trail j = t.waypoints[j.toNat]? := by
        rw [h.trail t ht, Stage.waypoint?, if_pos (hj t ht).1]
      simp only [Option.map_some, hw]

end

end Panel

end FieldWalk.Window
