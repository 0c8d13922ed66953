import FieldWalk.Proofs.Path.Course
import FieldWalk.Proofs.Playback.Silent
import FieldWalk.Proofs.Window.Panel
/-!
# What an action does to a window

But for the passing of time an action has one of six effects (`Effect`): it works on the panel alone, or
it updates, walks, clears, begins again or closes. What a window keeps is proved for each of them, and no
later proof looks at the actions again.
-/

namespace FieldWalk.Window

open Numeral
open FieldWalk.Path (Trace)
open Playback (Clock Player)
open Session (Engine)

variable {ε κ α : Type}

/-! ## Stopping -/

theorem cancelled_clock {σ : Type} (p : Player α Clock σ) :
    (p.cancelled Clock.source).host.now = p.host.now ∧
      (p.host.timers = [] → (p.cancelled Clock.source).host.timers = []) := by
  unfold Player.cancelled
  split
  · exact ⟨rfl, fun h => by simp [Clock.source, Clock.cancel, h]⟩
  · exact ⟨rfl, id⟩

theorem stop_panel (w : Window κ α) : w.stop.panel = w.panel.setLocked false := by
  simp only [stop, Window.onPanel, panel, Player.cancelled_audience]

theorem stop_now (w : Window κ α) : w.stop.player.host.now = w.player.host.now := by
  simp only [stop, Window.onPanel, Player.cancelled]
  split <;> rfl

variable [Scalar α]

/-! ## Replays -/

/-- A playback that is set up waits for its first tick, or it fails before the first one over a rate that
is refused or has no time of a frame. The panel hears nothing of it. -/
theorem replay_cases (k : Conversions α) (w : Window κ α) {t : Trace α}
    (hshort : overlong t.length = false) :
    let fps := w.panel.session.settings.fps
    let p := w.player.rewound Clock.source t.length
    (∃ v, (Player.intervalOf fps : Except (Playback.Fault α) α) = .ok v ∧
      ∃ rs, w.replay k t =
        Window.onPanel ⟨{ p with interval := v }.requested Clock.source⟩ (·.note rs)) ∨
    ((w.replay k t = w ∨ w.replay k t = ⟨p⟩) ∧
      (fps.le (.int 0) = true ∨
        ∃ f, (Player.intervalOf fps : Except (Playback.Fault α) α) = .error f)) := by
  intro fps p
  have hrun := Player.start_eq Clock.source t.length fps w.player
  by_cases hle : fps.le (.int 0) = true
  · rw [if_pos hle] at hrun
    refine .inr ⟨.inl ?_, .inl hle⟩
    simp only [replay, play, hrun, fps]
    rfl
  rw [if_neg hle] at hrun
  cases hi : (Player.intervalOf fps : Except (Playback.Fault α) α) with
  | error f =>
    simp only [hi] at hrun
    refine .inr ⟨.inr ?_, .inr ⟨f, rfl⟩⟩
    simp only [replay, play, hrun, fps]
    rfl
  | ok v =>
    simp only [hi, hshort] at hrun
    refine .inl ⟨v, rfl, ?_⟩
    simp only [replay, play, hrun, fps]
    exact ⟨_, rfl⟩

theorem replay_rest (k : Conversions α) (w : Window κ α) {t : Trace α}
    (hshort : overlong t.length = false) :
    (w.replay k t).panel.session = w.panel.session ∧ (w.replay k t).panel.stage = w.panel.stage ∧
      (w.replay k t).panel.controls = w.panel.controls ∧
      (w.replay k t).player.host.now = w.player.host.now := by
  have hpanel : (w.player.rewound Clock.source t.length).audience = w.panel :=
    Player.cancelled_audience w.player Clock.source
  have hnow : (w.player.rewound Clock.source t.length).host.now = w.player.host.now :=
    (cancelled_clock w.player).1
  rcases replay_cases k w hshort with ⟨v, -, rs, h⟩ | ⟨h | h, -⟩
  · rw [h]
    exact ⟨congrArg (·.session) hpanel, congrArg (·.stage) hpanel, congrArg (·.controls) hpanel, hnow⟩
  · rw [h]
    exact ⟨rfl, rfl, rfl, rfl⟩
  · rw [h]
    exact ⟨congrArg (·.session) hpanel, congrArg (·.stage) hpanel, congrArg (·.controls) hpanel, hnow⟩

/-! ## Walks -/

/-- The waypoints of a walk are few. -/
theorem overlong_walk (f : Field.Snapshot α) (ascend : Bool) (p : α × α) :
    overlong (Session.walk f ascend p).length = false := by
  have h := Path.length_trace_le ⟨f.evaluate, f.gradient⟩ ascend p.1 p.2
  refine overlong_eq_false_of_lt ?_
  rw [Int.natAbs_natCast]
  exact h.trans_lt (by decide)

/-- A walk that is asked for is refused, loses the path, or gives one that is played back. -/
theorem animate_cases {w : Window κ α} (e : Engine ε α) (k : Conversions α) (h : w.player.running = false) :
    (w.panel.session.snapshot = none ∧
      w.animate e k = w.onPanel (·.refuse "Update the function before animating.")) ∨
    (∃ (q : Panel κ α) (f : Session.Fault α), q.session.clearPath = w.panel.session.clearPath ∧
      q.stage = w.panel.stage ∧ w.animate e k = w.onPanel fun _ => q.lost k f) ∨
    ∃ (q : Panel κ α) (t : Trace α), q.session = { w.panel.session with path := some t } ∧
      q.stage = w.panel.stage ∧ q.session.snapshot ≠ none ∧ 2 ≤ t.length ∧
      overlong t.length = false ∧ w.animate e k = (w.onPanel fun _ => q.traced t).replay k t := by
  simp only [animate, h, Bool.false_eq_true, if_false]
  split
  · rename_i hn
    exact .inl ⟨Option.isNone_iff_eq_none.1 hn, rfl⟩
  · generalize k.point w.panel.controls.startX w.panel.controls.startY = start
    refine .inr ?_
    rcases w.panel.session.trace_cases e start with
      ⟨p, f, -, hsnap, hlong, hf, hs⟩ | ⟨p, f, -, -, -, hf, hs⟩ | ⟨fault, hf, -, hs, -⟩
    · have hq : (w.panel.take (w.panel.session.trace e start)).session = _ := hs
      simp only [hf, hs]
      refine .inr ⟨w.panel.take (w.panel.session.trace e start), _, hq, rfl, ?_,
        of_decide_eq_true hlong, overlong_walk .., rfl⟩
      rw [hq]
      simp [hsnap]
    · simp only [hf]
      exact .inl ⟨w.panel.take (w.panel.session.trace e start), _, congrArg (·.clearPath) hs, rfl, rfl⟩
    · simp only [hf]
      exact .inl ⟨w.panel.take (w.panel.session.trace e start), _, congrArg (·.clearPath) hs, rfl, rfl⟩

/-- The action asks for a walk. -/
def Action.isWalk : Action κ α → Bool
  | .press .animate _ => true
  | _ => false

omit [Scalar α] in
/-- A walk can only be asked for while nothing is locked. -/
theorem unlocked_of_admits {w : Window κ α} {inside : List ProfileAction}
    (h : w.admits (.press .animate inside) = true) : w.panel.controls.locked = false := by
  simpa [admits, Action.control?, Controls.isEnabled, Control.isLockable] using h

/-! ## Effects -/

/-- What an action does to a window, and whether it is a walk. -/
inductive Effect (e : Engine ε α) (k : Conversions α) (w : Window κ α) : Bool → Window κ α → Prop where
  | edited {f : Panel κ α → Panel κ α} (h : w.panel.Edited (f w.panel)) : Effect e k w false (w.onPanel f)
  | updated : Effect e k w false (w.update e k)
  | walked (h : w.panel.controls.locked = false) : Effect e k w true (w.animate e k)
  | cleared : Effect e k w false w.clear
  | renewed : Effect e k w false (w.renew e k)
  | closed : Effect e k w false w.close

theorem effect_of_act (e : Engine ε α) (k : Conversions α) {w : Window κ α} {a : Action κ α}
    (ha : w.admits a = true) (hwait : ∀ ms times, a ≠ .wait ms times) :
    Effect e k w a.isWalk (w.act e k a) := by
  cases hf : a.edit? k with
  | some f =>
    have hwalk : a.isWalk = false := by
      cases a with
      | press b inside => cases b <;> first | rfl | cases hf
      | _ => rfl
    rw [act_edit e w hf, hwalk]
    exact .edited (Panel.edited_of_edit w.panel hf)
  | none =>
    cases a with
    | enter => exact .updated
    | press b inside =>
      cases b with
      | update => exact .updated
      | animate => exact .walked (unlocked_of_admits ha)
      | clear => exact .cleared
      | profile => cases hf
    | choose entry inside =>
      cases entry with
      | new => exact .renewed
      | exit => exact .closed
      | clear => exact .cleared
      | profile => cases hf
    | wait ms times => exact absurd rfl (hwait ms times)
    | close => exact .closed
    | _ => cases hf

/-- Where a control is not enabled only the report is emptied. -/
theorem effect_of_perform (e : Engine ε α) (k : Conversions α) (w : Window κ α) {a : Action κ α}
    (hwait : ∀ ms times, a ≠ .wait ms times) :
    Effect e k (w.onPanel fun p => { p with report := {} }) (a.isWalk && w.admits a)
      (w.perform e k a) := by
  let w₀ := w.onPanel fun p => { p with report := {} }
  have hperform : w.perform e k a = if w₀.admits a then w₀.act e k a else w₀ := rfl
  have hadmits : w.admits a = w₀.admits a := rfl
  rw [hperform, hadmits]
  by_cases ha : w₀.admits a = true
  · rw [if_pos ha, ha, Bool.and_true]
    exact effect_of_act e k ha hwait
  · rw [if_neg ha, Bool.eq_false_iff.2 ha, Bool.and_false]
    exact .edited (f := id) (.reported w₀.panel.visible w₀.panel.report)

end FieldWalk.Window
