import FieldWalk.Proofs.Window.Lockstep
/-!
# What is hidden

Nothing but a toggle changes which layers of the stage are shown, so each layer is as its last toggle has
set it (`shown_run`).
-/

namespace FieldWalk.Window

open Playback (Event Player)
open Numeral
open Scene (Layer Role)
open Session (Engine)

variable {ε κ α : Type}

/-- What the action sets the visibility of a layer to, if it toggles that layer. -/
def Action.toggle? (layer : Layer) : Action κ α → Option Bool
  | .toggle l shown => if l = layer then some shown else none
  | _ => none

/-- What the last toggle of a layer has set; before any the layer is shown. -/
def lastToggle (layer : Layer) (actions : List (Action κ α)) : Bool :=
  (actions.filterMap (·.toggle? layer)).getLastD true

/-! ## The panel -/

namespace Panel

theorem shown_lost (k : Conversions α) (p : Panel κ α) (f : Session.Fault α) :
    (p.lost k f).stage.shown = p.stage.shown := by
  unfold lost
  split <;> rfl

theorem shown_hear (ev : Event) (p : Panel κ α) : (p.hear ev).stage.shown = p.stage.shown := by
  cases ev with
  | frame i => exact (p.stage.moveBall_rest i).2
  | finished => rfl

/-- Of the changes of the panel alone only a toggle counts. -/
theorem shown_edit {k : Conversions α} (p : Panel κ α) {a : Action κ α} {f : Panel κ α → Panel κ α}
    (h : a.edit? k = some f) (r : Role) :
    (f p).stage.shown r = (a.toggle? r.layer).getD (p.stage.shown r) := by
  cases a with
  | press b inside | choose b inside =>
    cases b <;> cases h
    obtain ⟨rep, hr⟩ := p.openProfile_eq inside
    dsimp only
    rw [hr]
    rfl
  | enter | wait | close => cases h
  | type | spin | pick | camera =>
    cases h
    rfl
  | slide n =>
    cases h
    dsimp only [slide]
    split
    · rfl
    · exact congrFun (p.stage.setOpacity_rest _).2 r
  | ascend on =>
    cases h
    dsimp only [setAscend]
    split <;> rfl
  | rate i =>
    cases h
    dsimp only [setRate]
    split
    · split <;> rfl
    · rfl
  | toggle layer v =>
    cases h
    refine (p.stage.toggle_shown layer v r).trans ?_
    simp only [Action.toggle?]
    split <;> rfl

variable [Scalar α]

theorem shown_accepted (p : Panel κ α) : p.accepted.stage.shown = p.stage.shown := by
  simp only [accepted, showSurface, onStage, onControls]
  split
  · rfl
  · exact (p.stage.showSurface_rest _ _).2

theorem shown_update (e : Engine ε α) (k : Conversions α) (p : Panel κ α) :
    (p.update e k).stage.shown = p.stage.shown := by
  dsimp only [update]
  split
  · rw [(said_rejected k _ _).stage]
    rfl
  · exact shown_accepted _

end Panel

/-! ## The window -/

section
variable (w : Window κ α)

theorem shown_stop : w.stop.panel.stage.shown = w.panel.stage.shown := by
  rw [stop_panel]
  rfl

variable [Scalar α]

theorem shown_fired (h : Nat) (time : Int) :
    (clocked.fired h time w).panel.stage.shown = w.panel.stage.shown := by
  rw [fired_eq]
  split
  · rfl
  · rename_i n hn
    have hq : (w.reckoned time n).audience = w.panel := by
      rw [reckoned, (Player.advanced_clocked _ n w.player).2]
      rfl
    refine Eq.trans ?_ (congrArg (·.stage.shown) hq)
    simp only [panel, Player.passed]
    split
    · exact (Panel.shown_hear _ _).trans (Panel.shown_hear _ _)
    · exact Panel.shown_hear _ _

theorem shown_wait (ms : Int) : (clocked.wait ms w).panel.stage.shown = w.panel.stage.shown :=
  clocked.wait_kept (P := fun v => v.panel.stage.shown = w.panel.stage.shown) ms rfl
    fun v h hv _ => (shown_fired (clocked.setClock (v.player.host.cancel h) v) h _).trans hv

theorem shown_waits (ms : Int) (times : Nat) :
    ((List.range times).foldl (fun v _ => clocked.wait ms v) w).panel.stage.shown =
      w.panel.stage.shown := by
  induction times with
  | zero => rfl
  | succ n ih =>
    rw [List.range_succ, List.foldl_append]
    exact (shown_wait _ ms).trans ih

theorem shown_animate (e : Engine ε α) (k : Conversions α) :
    (w.animate e k).panel.stage.shown = w.panel.stage.shown := by
  cases hr : w.player.running with
  | true =>
    simp only [animate, hr]
    rfl
  | false =>
    rcases animate_cases e k hr with ⟨-, ha⟩ | ⟨q, f, -, hst, ha⟩ | ⟨q, t, -, hst, -, -, hshort, ha⟩
    · rw [ha]
      rfl
    · rw [ha, ← hst]
      exact q.shown_lost k f
    · rw [ha, (replay_rest k (w.onPanel fun _ => q.traced t) hshort).2.1, ← hst]
      exact congrArg (·.shown) (q.traced_rest t).2.1

/-- What one action shows and hides. -/
theorem shown_perform (e : Engine ε α) (k : Conversions α) (a : Action κ α) (r : Role) :
    (w.perform e k a).panel.stage.shown r = (a.toggle? r.layer).getD (w.panel.stage.shown r) := by
  let w₀ := w.onPanel fun p => { p with report := {} }
  have hperform : w.perform e k a = if w₀.admits a then w₀.act e k a else w₀ := rfl
  have hstop : ∀ v : Window κ α, (v.update e k).panel.stage.shown = v.panel.stage.shown :=
    fun v => (Panel.shown_update e k _).trans (shown_stop v)
  rw [hperform]
  split
  · rename_i ha
    cases hf : a.edit? k with
    | some f =>
      rw [act_edit e w₀ hf]
      exact w₀.panel.shown_edit hf r
    | none =>
      have hnone : a.toggle? r.layer = none := by
        cases a <;> first | rfl | cases hf
      rw [hnone, Option.getD_none]
      refine congrFun ?_ r
      cases a with
      | enter => exact hstop w₀
      | press b inside =>
        cases b with
        | update => exact hstop w₀
        | animate => exact shown_animate w₀ e k
        | clear => exact shown_stop w₀
        | profile => cases hf
      | choose entry inside =>
        cases entry with
        | new => exact (hstop _).trans (shown_stop w₀)
        | exit => exact shown_stop w₀
        | clear => exact shown_stop w₀
        | profile => cases hf
      | wait ms times => exact shown_waits w₀ ms times
      | close => exact shown_stop w₀
      | _ => cases hf
  · rename_i ha
    cases a <;> first | rfl | exact absurd rfl ha

/-- Each layer is as its last toggle has set it, and as it was before if there is none. -/
theorem shown_run (e : Engine ε α) (k : Conversions α) (actions : List (Action κ α)) (r : Role) :
    (actions.foldl (perform e k) w).panel.stage.shown r =
      (actions.filterMap (·.toggle? r.layer)).getLastD (w.panel.stage.shown r) := by
  induction actions generalizing w with
  | nil => rfl
  | cons a actions ih =>
    rw [List.foldl_cons, ih, shown_perform, List.filterMap_cons]
    cases a.toggle? r.layer with
    | none => rfl
    | some v =>
      rw [Option.getD_some, List.getLastD_cons]

end

/-- A window is shown first with all layers to be seen. -/
theorem shown_opened [Scalar α] (e : Engine ε α) (k : Conversions α) (s : Session α) (r : Role) :
    (opened e k s : Window κ α).panel.stage.shown r = true := by
  let p : Panel κ α := { session := s, stage := .new, controls := Controls.empty.load k s }
  have hnew : p.stage.shown r = true := by cases r <;> rfl
  rw [← hnew]
  exact congrFun ((Panel.shown_update e k _).trans (shown_stop ⟨Player.new {} p⟩)) r

end FieldWalk.Window
