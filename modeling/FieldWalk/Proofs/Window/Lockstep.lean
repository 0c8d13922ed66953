import FieldWalk.Proofs.Playback.Doubles
import FieldWalk.Proofs.Window.Effect
/-!
# Controls and playback in step

A window is idle, or it plays the path of its session back with one timer pending and the controls
locked that could disturb it. Only where the arithmetic of the playback fails it can be stuck, with the
controls locked and no timer; numbers a replay can rely on do not let this happen
(`locked_while_running`).
-/

namespace FieldWalk.Window

open Numeral
open FieldWalk.Path (Trace)
open Playback (Clock Event Listener Offered Player Steady Timely)
open Session (Engine)

variable {ε κ α : Type}

/-! ## Phases -/

/-- Nothing is played back and nothing is locked. -/
structure Idle (w : Window κ α) : Prop where
  timers : w.player.host.timers = []
  running : w.player.running = false
  unlocked : w.panel.controls.locked = false

theorem Idle.onPanel {w : Window κ α} (h : Idle w) {f : Panel κ α → Panel κ α}
    (hl : (f w.panel).controls.locked = false) : Idle (w.onPanel f) :=
  ⟨h.timers, h.running, hl⟩

/-- A clock without timers has one after a request. -/
theorem requested_timer {σ : Type} {p : Player α Clock σ} (h : p.host.timers = []) :
    ∃ n due, (p.requested Clock.source).host.timers = [⟨n, due⟩] ∧
      (p.requested Clock.source).handle = some n :=
  ⟨p.host.started, p.host.now + p.host.interval,
    by simp [Player.requested, Clock.source, Clock.request, h], rfl⟩

variable [Scalar α]

/-- A path is played back: the controls are locked and the frames are counted by the waypoints of the
session's path. -/
structure Playing (N : ℕ) (p : Player α Clock (Panel κ α)) (t : Trace α) : Prop where
  running : p.running = true
  locked : p.audience.controls.locked = true
  path : p.audience.session.path = some t
  trail : p.audience.stage.trail = t.waypoints
  count : p.count = t.length
  long : 2 ≤ t.length
  frame : 0 ≤ p.frame
  timely : Timely N p

/-- A path is played back, and the one timer is the one the player knows of. -/
structure Live (N : ℕ) (w : Window κ α) (t : Trace α) : Prop where
  playing : Playing N w.player t
  timer : ∃ h due, w.player.host.timers = [⟨h, due⟩] ∧ w.player.handle = some h

/-- A playback has failed over numbers that it cannot rely on. -/
structure Stuck (N : ℕ) (w : Window κ α) : Prop where
  timers : w.player.host.timers = []
  locked : w.panel.controls.locked = true
  unsteady : ¬ Steady α N

/-- The window is idle, playing or stuck. -/
inductive Phase (N : ℕ) (w : Window κ α) : Prop where
  | idle (h : Idle w)
  | live (t : Trace α) (h : Live N w t)
  | stuck (h : Stuck N w)

/-- The rate is one on offer once there is a field. -/
def Panel.Rated (p : Panel κ α) : Prop :=
  p.session.snapshot ≠ none → Offered p.session.settings.fps

/-! ## Panel and player -/

section
variable {N : ℕ} {w : Window κ α} {f : Panel κ α → Panel κ α}

theorem Panel.Edited.rest {p q : Panel κ α} (h : p.Edited q) :
    q.controls.locked = p.controls.locked ∧ q.session.path = p.session.path ∧
      q.stage.trail = p.stage.trail ∧ (p.Rated → q.Rated) := by
  cases h with
  | reported v r => exact ⟨rfl, rfl, rfl, id⟩
  | settled c st hl ho hz hv hf =>
    refine ⟨hl, rfl, rfl, fun hr hs => ?_⟩
    rcases hf with hf | hf
    · have hr := hr hs
      rwa [← hf] at hr
    · exact hf
  | faded n v => exact ⟨rfl, rfl, (p.stage.setOpacity_rest v).1, id⟩
  | toggled layer shown => exact ⟨rfl, rfl, p.stage.toggle_trail layer shown, id⟩
  | turned c => exact ⟨rfl, rfl, rfl, id⟩

theorem Phase.edited (h : Phase N w) (he : w.panel.Edited (f w.panel)) : Phase N (w.onPanel f) := by
  obtain ⟨hlocked, hpath, htrail, -⟩ := he.rest
  cases h with
  | idle h => exact .idle ⟨h.timers, h.running, hlocked.trans h.unlocked⟩
  | live t h =>
    obtain ⟨hp, ht⟩ := h
    exact .live t ⟨{
      running := hp.running
      locked := hlocked.trans hp.locked
      path := hpath.trans hp.path
      trail := htrail.trans hp.trail
      count := hp.count
      long := hp.long
      frame := hp.frame
      timely := ⟨hp.timely.rate, hp.timely.debt, hp.timely.last⟩ }, ht⟩
  | stuck h => exact .stuck ⟨h.timers, hlocked.trans h.locked, h.unsteady⟩

/-- Stopping ends every phase. -/
theorem Phase.stop (h : Phase N w) : Idle w.stop where
  timers := by
    cases h with
    | idle h => exact (cancelled_clock w.player).2 h.timers
    | stuck h => exact (cancelled_clock w.player).2 h.timers
    | live t h =>
      obtain ⟨n, due, ht, hh⟩ := h.timer
      simp [Window.stop, Window.onPanel, Player.cancelled, hh, ht, Clock.source, Clock.cancel]
  running := Player.cancelled_running _ _
  unlocked := by
    rw [stop_panel]
    rfl

/-! ## Starting -/

/-- A path that is shown is played back at a rate on offer, unless the numbers are unsteady. -/
theorem phase_replay (k : Conversions α) {t : Trace α} (ht : w.player.host.timers = [])
    (hl : w.panel.controls.locked = true) (hpath : w.panel.session.path = some t)
    (htrail : w.panel.stage.trail = t.waypoints) (hlong : 2 ≤ t.length)
    (hshort : overlong t.length = false) (hf : Offered w.panel.session.settings.fps) :
    Phase N (w.replay k t) := by
  obtain ⟨hsession, hstage, hcontrols, -⟩ := replay_rest k w hshort
  have hnone : (w.player.rewound Clock.source t.length).host.timers = [] :=
    (cancelled_clock w.player).2 ht
  have hlocked : (w.replay k t).panel.controls.locked = true := by rw [hcontrols, hl]
  rcases replay_cases k w hshort with ⟨v, hv, rs, h⟩ | ⟨hw, hfault⟩
  · have hp := Playback.timely_begun (N := N) Clock.source t.length hf hv w.player
    refine .live t ⟨{
      running := by rw [h]; rfl
      locked := hlocked
      path := hsession ▸ hpath
      trail := hstage ▸ htrail
      count := by rw [h]; rfl
      long := hlong
      frame := by rw [h]; exact Int.le_refl 0
      timely := by rw [h]; exact ⟨hp.rate, hp.debt, hp.last⟩ }, ?_⟩
    rw [h]
    exact requested_timer (p := { w.player.rewound Clock.source t.length with interval := v }) hnone
  · refine .stuck ⟨?_, hlocked, fun hs => ?_⟩
    · rcases hw with hw | hw <;> rw [hw]
      · exact ht
      · exact hnone
    · rcases hfault with hle | ⟨f, hi⟩
      · rw [hs.positive _ hf] at hle
        cases hle
      · obtain ⟨v, hv⟩ := hs.interval _ hf
        rw [hv] at hi
        cases hi

/-! ## Ticks -/

/-- The frames that the player would tell of at a time. -/
def told (w : Window κ α) (time : Int) : List Int :=
  let note : Event → List Int → List Int
    | .frame i, is => is ++ [i]
    | .finished, is => is
  let p : Player α Clock (List Int) := { w.player with audience := [] }
  match (Player.tick Clock.source (.mute note) (Scalar.ofDecimal time 0)).run p with
  | .ok _ q | .error _ q => q.audience

/-- The whole frames in the player's debt at a time, if they can be counted. -/
def dueAt (w : Window κ α) (time : Int) : Except (Playback.Fault α) Int :=
  let p := w.player.clocked (Scalar.ofDecimal time 0)
  Player.due p.interval p.debt

/-- The player at a time, some whole frames in its debt paid. -/
def reckoned (w : Window κ α) (time n : Int) : Player α Clock (Panel κ α) :=
  (w.player.clocked (Scalar.ofDecimal time 0)).advanced n

/-- One frame is told, or none if the frames in the debt cannot be counted. -/
theorem told_eq (w : Window κ α) (time : Int) :
    w.told time = match w.dueAt time with
      | .error _ => []
      | .ok n => [(w.reckoned time n).shownIndex] := by
  let p : Player α Clock (List Int) := { w.player with audience := [] }
  have hrun := fun hear => Player.tick_mute Clock.source hear (Scalar.ofDecimal time 0) p
  have hindex : ∀ n, ((p.clocked (Scalar.ofDecimal time 0)).advanced n).shownIndex =
      (w.reckoned time n).shownIndex ∧
      ((p.clocked (Scalar.ofDecimal time 0)).advanced n).audience = [] := by
    intro n
    unfold reckoned Player.advanced
    split <;> exact ⟨rfl, rfl⟩
  have hdue : (Player.due (p.clocked (Scalar.ofDecimal time 0)).interval
    (p.clocked (Scalar.ofDecimal time 0)).debt : Except (Playback.Fault α) Int) = w.dueAt time := rfl
  simp only [hdue] at hrun
  cases hd : w.dueAt time with
  | error f =>
    simp only [hd] at hrun
    simp only [told, hrun, p]
    rfl
  | ok n =>
    obtain ⟨hi, ha⟩ := hindex n
    simp only [hd] at hrun
    simp only [told, hrun, p] at hi ha ⊢
    rw [← hi, Player.passed]
    split
    · rw [ha]
      rfl
    · simp only [Player.requested, ha]
      rfl

theorem fired_eq (w : Window κ α) (h : Nat) (time : Int) :
    clocked.fired h time w = match w.dueAt time with
      | .error _ => ⟨w.player.clocked (Scalar.ofDecimal time 0)⟩
      | .ok n => ⟨(w.reckoned time n).passed Clock.source Panel.hear⟩ := by
  have hrun := Player.tick_mute Clock.source Panel.hear (Scalar.ofDecimal time 0) w.player
  have hlistener : (Panel.listener : Listener α (Panel κ α)) = .mute Panel.hear := rfl
  have hdue : (Player.due (w.player.clocked (Scalar.ofDecimal time 0)).interval
    (w.player.clocked (Scalar.ofDecimal time 0)).debt : Except (Playback.Fault α) Int) =
      w.dueAt time := rfl
  rw [hdue] at hrun
  cases hd : w.dueAt time with
  | error f =>
    simp only [hd] at hrun
    simp only [clocked, play, hlistener, hrun]
  | ok n =>
    simp only [hd] at hrun
    simp only [clocked, play, hlistener, hrun, reckoned]

/-- The clock does not matter to what is played back. -/
theorem Playing.onHost {p : Player α Clock (Panel κ α)} {t : Trace α} (h : Playing N p t) (c : Clock) :
    Playing N { p with host := c } t :=
  ⟨h.running, h.locked, h.path, h.trail, h.count, h.long, h.frame,
    ⟨h.timely.rate, h.timely.debt, h.timely.last⟩⟩

theorem Playing.reckoned {p : Player α Clock (Panel κ α)} {t : Trace α} (h : Playing N p t) {time : Int}
    (ht : time.natAbs ≤ N) {n : Int} (hd : (Player.due (p.clocked (Scalar.ofDecimal time 0)).interval
      (p.clocked (Scalar.ofDecimal time 0)).debt : Except (Playback.Fault α) Int) = .ok n) :
    Playing N ((p.clocked (Scalar.ofDecimal time 0)).advanced n) t ∧
      ((p.clocked (Scalar.ofDecimal time 0)).advanced n).host = p.host ∧
      ((p.clocked (Scalar.ofDecimal time 0)).advanced n).audience = p.audience := by
  have htimely := (h.timely.clocked ht).advanced hd
  obtain ⟨hle, hq⟩ := Player.advanced_clocked (Scalar.ofDecimal time 0) n p
  have hframe := Int.le_trans h.frame hle
  rw [hq] at htimely hframe ⊢
  exact ⟨⟨h.running, h.locked, h.path, h.trail, h.count, h.long, hframe, htimely⟩, rfl, rfl⟩

/-- A tick that goes through shows a waypoint, and then the playback goes on or ends. -/
theorem Playing.passed {p : Player α Clock (Panel κ α)} {t : Trace α} (h : Playing N p t)
    (ht : p.host.timers = []) :
    let w : Window κ α := ⟨p.passed Clock.source Panel.hear⟩
    0 ≤ p.shownIndex ∧ p.shownIndex < t.length ∧ w.player.host.now = p.host.now ∧
      (w.panel = p.audience.hear (.frame p.shownIndex) ∧ Live N w t ∨
        w.panel = (p.audience.hear (.frame p.shownIndex)).hear .finished ∧ Idle w) := by
  have hlong := h.long
  have hcount := h.count
  obtain ⟨hlow, hhigh⟩ := p.shownIndex_bounds (by omega) h.frame
  have htimely := h.timely.passed Clock.source Panel.hear
  refine ⟨hlow, by omega, ?_⟩
  unfold Player.passed at htimely ⊢
  by_cases hend : p.count - 1 ≤ p.frame
  · rw [if_pos hend]
    exact ⟨rfl, .inr ⟨rfl, ht, rfl, rfl⟩⟩
  · rw [if_neg hend] at htimely ⊢
    have htrail := (p.audience.stage.moveBall_rest p.shownIndex).1.trans h.trail
    refine ⟨rfl, .inl ⟨rfl, ?_, ?_⟩⟩
    · exact ⟨h.running, h.locked, h.path, htrail, h.count, h.long, h.frame, htimely⟩
    · exact requested_timer (p := { p with audience := p.audience.hear (.frame p.shownIndex) }) ht

/-- The firing of the pending timer: the playback fails, goes on or ends. A frame that it tells is that of
a waypoint. -/
theorem Live.fired {t : Trace α} (hl : Live N w t) {h : Nat}
    (hp : w.player.host.isPending h = true) (hN : w.player.host.now.natAbs ≤ N) :
    let now := w.player.host.now
    let w₀ := clocked.setClock (w.player.host.cancel h) w
    let w' := clocked.fired h now w₀
    w'.player.host.now = now ∧
      ((w₀.told now = [] ∧ w'.panel = w.panel ∧ Stuck N w') ∨
        ∃ i : Int, 0 ≤ i ∧ i < t.length ∧ w₀.told now = [i] ∧
          (w'.panel = w.panel.hear (.frame i) ∧ Live N w' t ∨
            w'.panel = (w.panel.hear (.frame i)).hear .finished ∧ Idle w')) := by
  intro now w₀ w'
  obtain ⟨hl, htimer⟩ := hl
  have hnone : w₀.player.host.timers = [] := by
    obtain ⟨n, due, ht, -⟩ := htimer
    have hn : n = h := by simpa [Clock.isPending, ht] using hp
    simp [w₀, clocked, Clock.cancel, ht, hn]
  have hplaying : Playing N w₀.player t := hl.onHost _
  have hfired : w' = _ := fired_eq w₀ h now
  have htold := told_eq w₀ now
  cases hd : w₀.dueAt now with
  | error f =>
    simp only [hd] at hfired htold
    rw [hfired]
    refine ⟨rfl, .inl ⟨htold, rfl, hnone, hl.locked, fun hs => ?_⟩⟩
    obtain ⟨n, hn⟩ := (hplaying.timely.clocked hN).due hs
    rw [dueAt, hn] at hd
    cases hd
  | ok n =>
    simp only [hd] at hfired htold
    obtain ⟨hq, hhost, haudience⟩ := hplaying.reckoned hN hd
    obtain ⟨hlow, hhigh, hnow, hcases⟩ := hq.passed (by rw [hhost]; exact hnone)
    rw [haudience] at hcases
    rw [hfired]
    exact ⟨by rw [reckoned, hnow, hhost]; rfl, .inr ⟨_, hlow, hhigh, htold, hcases⟩⟩

/-! ## Waiting -/

theorem not_pending {c : Clock} (h : c.timers = []) (n : Nat) : c.isPending n = false := by
  rw [Clock.isPending, h]
  rfl

theorem Phase.fired (hp : Phase N w) {h : Nat} (hpend : w.player.host.isPending h = true)
    (hN : w.player.host.now.natAbs ≤ N) :
    let w' := clocked.fired h w.player.host.now (clocked.setClock (w.player.host.cancel h) w)
    Phase N w' ∧ w'.player.host.now = w.player.host.now ∧ w'.panel.session = w.panel.session := by
  intro w'
  cases hp with
  | idle hi =>
    rw [not_pending hi.timers] at hpend
    cases hpend
  | stuck hs =>
    rw [not_pending hs.timers] at hpend
    cases hpend
  | live t hl =>
    obtain ⟨hnow, ⟨-, hq, hs⟩ | ⟨i, -, -, -, ⟨hq, hl'⟩ | ⟨hq, hi⟩⟩⟩ := hl.fired hpend hN
    · exact ⟨.stuck hs, hnow, congrArg (·.session) hq⟩
    · exact ⟨.live t hl', hnow, congrArg (·.session) hq⟩
    · exact ⟨.idle hi, hnow, congrArg (·.session) hq⟩

theorem Phase.advance (hp : Phase N w) (ms : Int) :
    Phase N (clocked.setClock (w.player.host.advance ms) w) := by
  cases hp with
  | idle h => exact .idle ⟨h.timers, h.running, h.unlocked⟩
  | stuck h => exact .stuck ⟨h.timers, h.locked, h.unsteady⟩
  | live t h =>
    exact .live t ⟨h.playing.onHost _, h.timer⟩

theorem Phase.wait (hp : Phase N w) {ms : Int} (hN : (w.player.host.now + ms).natAbs ≤ N) :
    Phase N (clocked.wait ms w) ∧ (clocked.wait ms w).player.host.now = w.player.host.now + ms ∧
      (clocked.wait ms w).panel.session = w.panel.session := by
  refine clocked.wait_kept (P := fun v => Phase N v ∧ v.player.host.now = w.player.host.now + ms ∧
    v.panel.session = w.panel.session) ms ⟨hp.advance ms, rfl, rfl⟩ ?_
  rintro v h ⟨hv, hnow, hs⟩ hpend
  obtain ⟨hv', hnow', hs'⟩ := hv.fired hpend (by rw [hnow]; exact hN)
  exact ⟨hv', hnow'.trans hnow, hs'.trans hs⟩

end

/-! ## Actions -/

/-- The time that passes in an action at most, in milliseconds. -/
def Action.time : Action κ α → ℕ
  | .wait ms times => times * ms.natAbs
  | _ => 0

/-- What every step keeps at its cost, as long as the limit is not passed, is kept by a run. -/
theorem foldl_kept {σ β : Type} {N : ℕ} {P : ℕ → σ → Prop} {f : σ → β → σ} {cost : β → ℕ}
    (hf : ∀ M s b, P M s → M + cost b ≤ N → P (M + cost b) (f s b)) (l : List β) {M : ℕ} {s : σ}
    (hs : P M s) (hN : M + (l.map cost).sum ≤ N) : P (M + (l.map cost).sum) (l.foldl f s) := by
  induction l generalizing s M with
  | nil => exact hs
  | cons b l ih =>
    rw [List.map_cons, List.sum_cons, ← Nat.add_assoc] at hN ⊢
    exact ih (hf M s b hs (Nat.le_of_add_right_le hN)) hN

/-- Waiting again and again keeps what waiting once keeps. -/
theorem foldl_wait_kept {σ : Type} {N : ℕ} {P : ℕ → σ → Prop} {k : Playback.Clocked σ} {ms : Int}
    (hf : ∀ M s, P M s → M + ms.natAbs ≤ N → P (M + ms.natAbs) (k.wait ms s)) (times : ℕ) {M : ℕ}
    {s : σ} (hs : P M s) (hN : M + times * ms.natAbs ≤ N) :
    P (M + times * ms.natAbs) ((List.range times).foldl (fun s _ => k.wait ms s) s) := by
  have hsum : ((List.range times).map fun _ => ms.natAbs).sum = times * ms.natAbs := by simp
  rw [← hsum] at hN ⊢
  exact foldl_kept (fun M s _ => hf M s) _ hs hN

/-- A window in some phase, its rate on offer and its clock no more than `M` milliseconds from zero. -/
structure InStep (N M : ℕ) (w : Window κ α) : Prop where
  phase : Phase N w
  rated : w.panel.Rated
  now : w.player.host.now.natAbs ≤ M

theorem Panel.update_rest (e : Engine ε α) (k : Conversions α) {p : Panel κ α} (hr : p.Rated)
    (hl : p.controls.locked = false) :
    (p.update e k).Rated ∧ (p.update e k).controls.locked = false := by
  rcases p.update_cases e k with ⟨m, st, f, g, hv, -, hs, hlocked, -⟩ | ⟨fault, -, hs⟩
  · refine ⟨fun _ => ?_, hlocked.trans hl⟩
    rw [hs]
    exact offered_of_validate hv
  · refine ⟨?_, hs.unlocked⟩
    rw [Panel.Rated, hs.session]
    exact hr

section
variable {N M : ℕ} {w : Window κ α}

theorem InStep.edited (h : InStep N M w) {f : Panel κ α → Panel κ α} (he : w.panel.Edited (f w.panel)) :
    InStep N M (w.onPanel f) :=
  ⟨h.phase.edited he, he.rest.2.2.2 h.rated, h.now⟩

/-- What follows on a stop. -/
theorem InStep.stopped (h : InStep N M w) {f : Panel κ α → Panel κ α}
    (hl : (f w.stop.panel).controls.locked = false) (hr : (f w.stop.panel).Rated) :
    InStep N M (w.stop.onPanel f) where
  phase := .idle (h.phase.stop.onPanel hl)
  rated := hr
  now := (stop_now w).symm ▸ h.now

theorem InStep.update (h : InStep N M w) (e : Engine ε α) (k : Conversions α) :
    InStep N M (w.update e k) := by
  have hr : w.stop.panel.Rated := by
    rw [stop_panel]
    exact h.rated
  obtain ⟨hr', hl⟩ := Panel.update_rest e k hr h.phase.stop.unlocked
  exact h.stopped hl hr'

theorem InStep.renew (h : InStep N M w) (e : Engine ε α) (k : Conversions α) :
    InStep N M (w.renew e k) :=
  (h.stopped (f := fun p => (p.take p.session.reset).onControls (·.load k (p.take p.session.reset).session))
    h.phase.stop.unlocked (fun hn => absurd rfl hn)).update e k

theorem InStep.clear (h : InStep N M w) : InStep N M w.clear := by
  refine h.stopped h.phase.stop.unlocked ?_
  rw [stop_panel]
  exact h.rated

theorem InStep.close (h : InStep N M w) : InStep N M w.close := by
  refine h.stopped h.phase.stop.unlocked ?_
  rw [stop_panel]
  exact h.rated

theorem Phase.idle_of_unlocked (h : Phase N w) (hl : w.panel.controls.locked = false) : Idle w := by
  cases h with
  | idle hi => exact hi
  | live t ht =>
    rw [panel, ht.playing.locked] at hl
    cases hl
  | stuck hs =>
    rw [hs.locked] at hl
    cases hl

theorem InStep.animate (h : InStep N M w) (hl : w.panel.controls.locked = false) (e : Engine ε α)
    (k : Conversions α) : InStep N M (w.animate e k) := by
  have hi := h.phase.idle_of_unlocked hl
  rcases animate_cases e k hi.running with
    ⟨-, ha⟩ | ⟨q, f, hs, -, ha⟩ | ⟨q, t, hs, -, hsnap, hlong, hshort, ha⟩
  · rw [ha]
    exact ⟨.idle (hi.onPanel rfl), h.rated, h.now⟩
  · rw [ha]
    obtain ⟨hq, hlocked⟩ := q.lost_rest k f
    have hrated : (q.lost k f).Rated := by
      rw [Panel.Rated, hq, hs]
      exact h.rated
    exact ⟨.idle (hi.onPanel (f := fun _ => q.lost k f) hlocked), hrated, h.now⟩
  · obtain ⟨hq, hstage, hlocked, -⟩ := q.traced_rest t
    rw [hs] at hq
    have hrated : (q.traced t).Rated := by
      rw [Panel.Rated, hq]
      exact h.rated
    obtain ⟨hsession, -, -, hnow⟩ := replay_rest k (w.onPanel fun _ => q.traced t) hshort
    rw [ha]
    refine ⟨?_, ?_, ?_⟩
    · exact phase_replay k (w := w.onPanel fun _ => q.traced t) hi.timers hlocked
        (congrArg (·.path) hq) (congrArg (·.trail) hstage) hlong hshort (hrated (by rwa [hq, ← hs]))
    · rw [Panel.Rated, hsession]
      exact hrated
    · rw [hnow]
      exact h.now

theorem InStep.wait (h : InStep N M w) {ms : Int} (hN : M + ms.natAbs ≤ N) :
    InStep N (M + ms.natAbs) (clocked.wait ms w) := by
  have hnow := h.now
  have hlate : (w.player.host.now + ms).natAbs ≤ N := by omega
  obtain ⟨hp, hnow', hs⟩ := h.phase.wait hlate
  refine ⟨hp, ?_, by omega⟩
  rw [Panel.Rated, hs]
  exact h.rated

theorem InStep.effect (h : InStep N M w) {e : Engine ε α} {k : Conversions α} {b : Bool}
    {v : Window κ α} (he : Effect e k w b v) : InStep N M v := by
  cases he with
  | edited he => exact h.edited he
  | updated => exact h.update e k
  | walked hl => exact h.animate hl e k
  | cleared => exact h.clear
  | renewed => exact h.renew e k
  | closed => exact h.close

/-- What one action keeps. -/
theorem InStep.perform (h : InStep N M w) (e : Engine ε α) (k : Conversions α) {a : Action κ α}
    (hN : M + a.time ≤ N) : InStep N (M + a.time) (w.perform e k a) := by
  have hw : InStep N M (w.onPanel fun p => { p with report := {} }) := h.edited (.reported w.panel.visible {})
  cases a with
  | wait ms times => exact foldl_wait_kept (fun _ _ hv => hv.wait) times hw hN
  | _ => exact hw.effect (effect_of_perform e k w nofun)

/-- A window is shown first with nothing under way. -/
theorem inStep_opened (N : ℕ) (e : Engine ε α) (k : Conversions α) (markup : String)
    (settings : Settings α) :
    InStep N 0 (opened e k ⟨markup, settings, none, none, none⟩ : Window κ α) := by
  let s : Session α := ⟨markup, settings, none, none, none⟩
  let w : Window κ α :=
    ⟨Player.new {} { session := s, stage := .new, controls := Controls.empty.load k s }⟩
  have h : InStep N 0 w := ⟨.idle ⟨rfl, rfl, rfl⟩, fun hn => absurd rfl hn, Nat.le_refl 0⟩
  exact (h.update e k).edited (f := fun p => { p with visible := true }) (.reported true _)

/-- What every run of actions keeps. -/
theorem InStep.run (e : Engine ε α) (k : Conversions α) (actions : List (Action κ α))
    (h : InStep N M w) (hN : M + (actions.map Action.time).sum ≤ N) :
    InStep N (M + (actions.map Action.time).sum) (actions.foldl (Window.perform e k) w) :=
  foldl_kept (fun _ _ _ hv => hv.perform e k) actions h hN

end

/-! ## Controls and playback -/

/-- A playback tells only of frames of its path, whenever its timer fires. -/
theorem Playing.told {N : ℕ} {w : Window κ α} {t : Trace α} (h : Playing N w.player t) (time : Int) :
    ∀ i ∈ w.told time, 0 ≤ i ∧ i < t.length := by
  intro i hi
  rw [told_eq] at hi
  split at hi
  · cases hi
  · rename_i n hn
    cases List.mem_singleton.1 hi
    obtain ⟨hle, hq⟩ := Player.advanced_clocked (Scalar.ofDecimal time 0) n w.player
    have hcount : (w.reckoned time n).count = t.length := by
      rw [Window.reckoned, hq]
      exact h.count
    have hlong := h.long
    obtain ⟨hlow, hhigh⟩ :=
      (w.reckoned time n).shownIndex_bounds (by omega) (Int.le_trans h.frame hle)
    omega

omit [Scalar α] in
theorem isEnabled_lockable (c : Controls α) : ∀ k ∈ Control.lockable, c.isEnabled k = !c.locked := by
  intro k hk
  have hl : ∀ k ∈ Control.lockable, k.isLockable = true := by decide
  rw [Controls.isEnabled, if_pos (hl k hk)]

/-- Controls and playback are in step. -/
structure Coupled (w : Window κ α) : Prop where
  /-- The player runs exactly if one timer is pending. -/
  running_iff : w.player.running = true ↔ w.player.host.timers.length = 1
  /-- Otherwise none is. -/
  stopped_iff : w.player.running = false ↔ w.player.host.timers = []
  /-- What could disturb a playback is disabled exactly while the player runs. -/
  disabled : ∀ c ∈ Control.lockable, w.panel.controls.isEnabled c = !w.player.running
  /-- While it runs it counts the waypoints of the session's path, the stage has the same ones, and every
  frame told is one of them, whenever a timer fires. -/
  path : w.player.running = true → ∃ t, w.panel.session.path = some t ∧ w.player.count = t.length ∧
    w.panel.stage.trail = t.waypoints ∧ ∀ time, ∀ i ∈ w.told time, 0 ≤ i ∧ i < t.length

/-- With numbers that a replay can rely on a window is never stuck. -/
theorem Phase.coupled {N : ℕ} {w : Window κ α} (h : Phase N w) (hs : Steady α N) : Coupled w := by
  have henabled := isEnabled_lockable w.panel.controls
  cases h with
  | idle hi =>
    refine ⟨by simp [hi.running, hi.timers], by simp [hi.running, hi.timers], ?_, ?_⟩
    · rwa [hi.running, ← hi.unlocked]
    · rw [hi.running]
      exact nofun
  | live t hl =>
    obtain ⟨hp, n, due, ht, -⟩ := hl
    refine ⟨by simp [hp.running, ht], by simp [hp.running, ht], ?_, fun _ => ?_⟩
    · rwa [hp.running, ← hp.locked]
    · exact ⟨t, hp.path, hp.count, hp.trail, hp.told⟩
  | stuck hn => exact absurd hs hn.unsteady

/-- After any actions on a window that reckons with doubles, in which less than `2^63` milliseconds are
waited: the player runs exactly if one timer is pending, and otherwise none is; each control that could
disturb a playback is disabled exactly while the player runs. While it runs it counts the waypoints of the
session's path, the stage has the same ones, and whenever a timer fires every frame told is one of them. -/
theorem locked_while_running (e : Engine ε Float) (k : Conversions Float) (markup : String)
    (settings : Settings Float) (actions : List (Action κ Float))
    (ht : (actions.map Action.time).sum < 2 ^ 63) :
    Coupled (actions.foldl (perform e k) (opened e k ⟨markup, settings, none, none, none⟩)) :=
  ((inStep_opened _ e k markup settings).run e k actions (Nat.zero_add _).le).phase.coupled
    (Playback.steady_double ht)

/-- A descent on a plane, disturbed while it is played back. -/
theorem disturbed_descent_locked :
    let actions : List (Action Unit Float) :=
      [.type .startX "1", .type .startY "0", .press .animate [], .wait 16 3, .slide 40, .enter,
        .toggle .surface false]
    let w := actions.foldl (perform Engine.standard Conversions.standard)
      (opened Engine.standard Conversions.standard ⟨"x", .usual, none, none, none⟩)
    w.player.running = true ∧ w.player.host.timers.length = 1 ∧
      ∀ c ∈ Control.lockable, w.panel.controls.isEnabled c = false := by
  intro actions w
  have hrunning : w.player.running = true := by decide +kernel
  have hlocked := locked_while_running Engine.standard Conversions.standard "x" .usual actions (by decide)
  exact ⟨hrunning, hlocked.running_iff.1 hrunning, fun c hc =>
    (hlocked.disabled c hc).trans (congrArg (!·) hrunning)⟩

end FieldWalk.Window
