import FieldWalk.Proofs.Window.Exact
import FieldWalk.Proofs.Window.Layers
/-!
# The stage shows the session

Whatever is done in a window and whatever its clock fires, the actors on the stage are those that the
session asks for (`stage_mirrors_session`). The ball is where the player last told it to be, so a window
is followed together with the frame last told.
-/

namespace FieldWalk.Window

open Numeral
open Playback (Clocked)
open Scene (roles)
open Session (Engine)

variable {ε κ α : Type} [Scalar α]

/-! ## Following the frames -/

/-- A window and the frame that was last told of its path, the first one before any. -/
structure Followed (κ α : Type) where
  window : Window κ α
  last : Int := 0

namespace Followed

/-- The frames that are told when a timer fires are followed. -/
def clocked : Clocked (Followed κ α) where
  clock f := Window.clocked.clock f.window
  setClock c f := { f with window := Window.clocked.setClock c f.window }
  fired h time f := ⟨Window.clocked.fired h time f.window, (f.window.told time).getLastD f.last⟩

/-- Carries out an action. A walk that is asked for begins with the first frame again. -/
def perform (e : Engine ε α) (k : Conversions α) (f : Followed κ α) (a : Action κ α) : Followed κ α :=
  match a with
  | .wait ms times =>
    (List.range times).foldl (fun f _ => clocked.wait ms f)
      ⟨f.window.onPanel fun p => { p with report := {} }, f.last⟩
  | _ => ⟨f.window.perform e k a, if a.isWalk && f.window.admits a then 0 else f.last⟩

theorem perform_of_ne (e : Engine ε α) (k : Conversions α) (f : Followed κ α) {a : Action κ α}
    (hwait : ∀ ms times, a ≠ .wait ms times) : f.perform e k a =
      ⟨f.window.perform e k a, if a.isWalk && f.window.admits a then 0 else f.last⟩ := by
  cases a with
  | wait ms times => exact absurd rfl (hwait ms times)
  | _ => rfl

theorem wait_window (ms : Int) (f : Followed κ α) :
    (clocked.wait ms f).window = Window.clocked.wait ms f.window :=
  Clocked.wait_map clocked Window.clocked window (fun _ => rfl) (fun _ _ => rfl) (fun _ _ _ => rfl) ms f

/-- The window of a followed window does what the window does. -/
theorem perform_window (e : Engine ε α) (k : Conversions α) (f : Followed κ α) (a : Action κ α) :
    (f.perform e k a).window = f.window.perform e k a := by
  cases a with
  | wait ms times =>
    exact (List.foldl_hom window fun f _ => (wait_window ms f).symm).symm
  | _ => rfl

theorem run_window (e : Engine ε α) (k : Conversions α) (actions : List (Action κ α))
    (f : Followed κ α) :
    (actions.foldl (perform e k) f).window = actions.foldl (Window.perform e k) f.window :=
  (List.foldl_hom window fun f a => (f.perform_window e k a).symm).symm

end Followed

/-! ## Actions -/

/-- The usual markup gives a field, and the usual settings can be used as they are read back from the
controls. -/
structure Presentable (e : Engine ε α) (k : Conversions α) : Prop where
  field : ∃ f, (e.build usualMarkup).1 = .ok f
  settings : ((Controls.empty.load k Session.new).candidate .usual).validate = .ok ()

section
variable {N M : ℕ} {w : Window κ α} {i : Int}

/-- An untouched session is shown whatever is on the stage. -/
theorem Panel.Mirrors.renewed {e : Engine ε α} {k : Conversions α} (hp : Presentable e k)
    {p : Panel κ α} (h : p.Mirrors i) {q : Panel κ α} (hs : q.session = Session.new)
    (hst : q.stage = p.stage) {c : Controls α} (hc : q.controls = c.load k Session.new) :
    (q.update e k).Mirrors i := by
  obtain ⟨v, hv⟩ := h.cast
  rcases q.update_cases e k with ⟨m, st, f, g, -, -, -, -, hm⟩ | ⟨fault, hf, -⟩
  · exact hm _ i (hst ▸ hv)
  · have hnone : (q.attempt e).fault = none := by
      rw [Panel.attempt, hs, hc]
      exact (Session.update_fault_iff e _ _ _).2 ⟨hp.settings, hp.field⟩
    rw [hnone] at hf
    cases hf

theorem mirrors_stop (h : w.panel.Mirrors i) : w.stop.panel.Mirrors i := by
  rw [stop_panel]
  exact h.of_eq rfl rfl rfl

theorem mirrors_clear (h : w.panel.Mirrors i) : w.clear.panel.Mirrors i :=
  ((mirrors_stop h).dropPath rfl rfl i).of_eq rfl rfl rfl

theorem mirrors_close (h : w.panel.Mirrors i) : w.close.panel.Mirrors i := by
  obtain ⟨⟨v, hv⟩, htrail, hprofile, hindex, hcompiled⟩ := mirrors_stop h
  exact ⟨⟨v, hv.of_actors rfl rfl rfl⟩, htrail, hprofile, hindex, hcompiled⟩

theorem mirrors_update (e : Engine ε α) (k : Conversions α) (h : w.panel.Mirrors i) :
    (w.update e k).panel.Mirrors i :=
  (mirrors_stop h).update e k

theorem mirrors_renew {e : Engine ε α} {k : Conversions α} (hp : Presentable e k)
    (h : w.panel.Mirrors i) : (w.renew e k).panel.Mirrors i := by
  let q : Panel κ α := (w.stop.panel.take (Session.reset w.stop.panel.session)).onControls
    (·.load k Session.new)
  have hq : (w.renew e k).panel = ((w.stop.onPanel fun _ => q).stop.panel).update e k := rfl
  rw [hq, stop_panel]
  exact (mirrors_stop h).renewed (q := q.setLocked false) hp rfl rfl
    (c := { w.stop.panel.controls with locked := false }) rfl

/-- A walk that is refused leaves no path that it could belong to, and a new path begins with its first
waypoint. -/
theorem mirrors_animate (e : Engine ε α) (k : Conversions α) (hr : w.player.running = false)
    (h : w.panel.Mirrors i) : (w.animate e k).panel.Mirrors 0 := by
  rcases animate_cases e k hr with
    ⟨hn, ha⟩ | ⟨q, f, hs, hst, ha⟩ | ⟨q, t, hs, hst, hsnap, hlong, hshort, ha⟩
  · have hpath : ∀ t, w.panel.session.path ≠ some t := fun t ht => h.compiled (by simp [ht]) hn
    rw [ha]
    exact (h.unplaced hpath 0).of_eq rfl rfl rfl
  · rw [ha]
    exact h.lost hs hst k f 0
  · obtain ⟨hsession, hstage, hcontrols, -⟩ := replay_rest k (w.onPanel fun _ => q.traced t) hshort
    rw [ha]
    exact (h.traced hs hst hsnap hlong).of_eq hsession hstage (congrArg (·.profileOpen) hcontrols)

/-- Whatever is done, the stage shows the session; a walk begins with the first waypoint. -/
theorem mirrors_effect {e : Engine ε α} {k : Conversions α} (hp : Presentable e k) (hw : Phase N w)
    (hm : w.panel.Mirrors i) {b : Bool} {v : Window κ α} (he : Effect e k w b v) :
    v.panel.Mirrors (if b then 0 else i) := by
  cases he with
  | edited he => exact he.mirrors hm
  | updated => exact mirrors_update e k hm
  | walked hl => exact mirrors_animate e k (hw.idle_of_unlocked hl).running hm
  | cleared => exact mirrors_clear hm
  | renewed => exact mirrors_renew hp hm
  | closed => exact mirrors_close hm

/-- The firing of a pending timer moves the ball to the frame that it tells. -/
theorem mirrors_fired (hp : Phase N w) {h : Nat} (hpend : w.player.host.isPending h = true)
    (hN : w.player.host.now.natAbs ≤ N) (hm : w.panel.Mirrors i) :
    let w₀ := clocked.setClock (w.player.host.cancel h) w
    let now := w.player.host.now
    (clocked.fired h now w₀).panel.Mirrors ((w₀.told now).getLastD i) := by
  intro w₀ now
  cases hp with
  | idle hi =>
    rw [not_pending hi.timers] at hpend
    cases hpend
  | stuck hs =>
    rw [not_pending hs.timers] at hpend
    cases hpend
  | live t hl =>
    obtain ⟨-, ⟨htold, hq, -⟩ | ⟨j, hlow, hhigh, htold, hcases⟩⟩ := hl.fired hpend hN
    · rw [hq, htold]
      exact hm
    · have hj : ∀ t', w.panel.session.path = some t' → 0 ≤ j ∧ j < t'.length := by
        intro t' ht'
        cases hl.playing.path.symm.trans ht'
        exact ⟨hlow, hhigh⟩
      rw [htold]
      rcases hcases with ⟨hq, -⟩ | ⟨hq, -⟩
      · rw [hq]
        exact hm.hear hj
      · rw [hq]
        exact (hm.hear hj).of_eq rfl rfl rfl

end

/-! ## Runs -/

namespace Followed

/-- The window is in step, and its stage shows the session with the ball on the frame last told. -/
structure Faithful (N M : ℕ) (f : Followed κ α) : Prop where
  inStep : InStep N M f.window
  mirrors : f.window.panel.Mirrors f.last

section
variable {N M : ℕ} {f : Followed κ α}

theorem Faithful.wait (h : Faithful N M f) {ms : Int} (hN : M + ms.natAbs ≤ N) :
    Faithful N (M + ms.natAbs) (clocked.wait ms f) where
  inStep := by
    rw [wait_window]
    exact h.inStep.wait hN
  mirrors := by
    have hnow := h.inStep.now
    -- while timers fire the clock stands still
    refine (clocked.wait_kept (P := fun g => Phase N g.window ∧
      g.window.player.host.now = f.window.player.host.now + ms ∧ g.window.panel.Mirrors g.last) ms
      ⟨h.inStep.phase.advance ms, rfl, h.mirrors⟩ ?_).2.2
    rintro g n ⟨hg, htime, hm⟩ hpend
    have hlate : g.window.player.host.now.natAbs ≤ N := by omega
    obtain ⟨hg', htime', -⟩ := hg.fired hpend hlate
    exact ⟨hg', htime'.trans htime, mirrors_fired hg hpend hlate hm⟩

/-- What one action keeps. -/
theorem Faithful.perform {e : Engine ε α} {k : Conversions α} (hp : Presentable e k)
    (h : Faithful N M f) {a : Action κ α} (hN : M + a.time ≤ N) :
    Faithful N (M + a.time) (f.perform e k a) := by
  let w := f.window.onPanel fun p => { p with report := {} }
  have hw : InStep N M w := h.inStep.edited (.reported f.window.panel.visible {})
  have hm : w.panel.Mirrors f.last := h.mirrors.of_eq rfl rfl rfl
  by_cases hwait : ∃ ms times, a = .wait ms times
  · obtain ⟨ms, times, rfl⟩ := hwait
    have hg : Faithful N M ⟨w, f.last⟩ := ⟨hw, hm⟩
    exact foldl_wait_kept (fun _ _ hg => hg.wait) times hg hN
  · have hno : ∀ ms times, a ≠ .wait ms times := fun ms times ha => hwait ⟨ms, times, ha⟩
    refine ⟨?_, ?_⟩
    · rw [perform_window]
      exact h.inStep.perform e k hN
    · rw [perform_of_ne e k f hno]
      exact mirrors_effect hp hw.phase hm (effect_of_perform e k f.window hno)

/-- What every run of actions keeps. -/
theorem Faithful.run {e : Engine ε α} {k : Conversions α} (hp : Presentable e k)
    (actions : List (Action κ α)) (h : Faithful N M f) (hN : M + (actions.map Action.time).sum ≤ N) :
    Faithful N (M + (actions.map Action.time).sum) (actions.foldl (Followed.perform e k) f) :=
  foldl_kept (fun _ _ _ hg => hg.perform hp) actions h hN

end

end Followed

/-- A window is shown first with the surface of its session or with an empty stage. -/
theorem mirrors_opened (e : Engine ε α) (k : Conversions α) (markup : String) (settings : Settings α) :
    (opened e k ⟨markup, settings, none, none, none⟩ : Window κ α).panel.Mirrors 0 := by
  let s : Session α := ⟨markup, settings, none, none, none⟩
  let p : Panel κ α := { session := s, stage := .new, controls := Controls.empty.load k s }
  have hshows : p.stage.Shows (p.due settings.opacity 0) :=
    ⟨fun _ => none, Scene.Stage.holds_new, fun r => by cases r <;> rfl⟩
  have h : p.Mirrors 0 := ⟨⟨_, hshows⟩, nofun, rfl, nofun, fun hn => absurd rfl hn⟩
  exact (mirrors_update (w := ⟨Playback.Player.new {} p⟩) e k h).of_eq rfl rfl rfl

/-- A rejected update leaves the stage alone. -/
theorem rejected_stage {e : Engine ε α} (k : Conversions α) (w : Window κ α) {a : Action κ α}
    (ha : a = .enter ∨ ∃ inside, a = .press .update inside)
    (hf : (w.panel.attempt e).fault ≠ none) : (w.perform e k a).panel.stage = w.panel.stage := by
  let w₀ := w.onPanel fun p => { p with report := {} }
  have hact : w₀.act e k a = w₀.update e k := by
    rcases ha with rfl | ⟨inside, rfl⟩ <;> rfl
  have hstage : (w₀.update e k).panel.stage = w.panel.stage := by
    have hattempt : w₀.stop.panel.attempt e = w.panel.attempt e := by
      rw [stop_panel]
      rfl
    rcases w₀.stop.panel.update_cases e k with ⟨_, _, _, _, -, hn, -⟩ | ⟨fault, -, hs⟩
    · exact absurd (hattempt ▸ hn) hf
    · refine hs.stage.trans ?_
      rw [stop_panel]
      rfl
  have hperform : w.perform e k a = if w₀.admits a then w₀.act e k a else w₀ := rfl
  rw [hperform]
  split
  · rw [hact, hstage]
  · rfl

/-- After any actions on a window, where an untouched session can be presented, the actors on the stage
are in this order: the part of the session's surface within the range of heights, if there is any, with
the opacity of the settings; then, exactly if the session has a path, the line through its waypoints and
the ball on the waypoint last told of, the first one before any frame. Each is visible as the last toggle
of its layer says, and visible before any. The profile can be asked for exactly if there is a path, and an
update that is rejected leaves the stage as it is. -/
theorem stage_mirrors_session {e : Engine ε α} {k : Conversions α} (hp : Presentable e k)
    (markup : String) (settings : Settings α) (actions : List (Action κ α)) :
    let f := actions.foldl (Followed.perform e k) ⟨opened e k ⟨markup, settings, none, none, none⟩, 0⟩
    let p := f.window.panel
    f.window = actions.foldl (perform e k) (opened e k ⟨markup, settings, none, none, none⟩) ∧
      (∃ added, p.stage.plotter.actors.map (·.2) = roles.filterMap (p.due added f.last)) ∧
      (∀ r, p.stage.shown r = lastToggle r.layer actions) ∧
      (∀ t, p.session.path = some t → ∃ v, t.waypoints[f.last.toNat]? = some v) ∧
      p.controls.isEnabled (.button .profile) = p.session.path.isSome ∧
      ∀ a, (a = .enter ∨ ∃ inside, a = .press .update inside) → (p.attempt e).fault ≠ none →
        (f.window.perform e k a).panel.stage = p.stage := by
  intro f p
  have hwindow := Followed.run_window e k actions ⟨opened e k ⟨markup, settings, none, none, none⟩, 0⟩
  obtain ⟨-, hm⟩ : Followed.Faithful (actions.map Action.time).sum _ f :=
    Followed.Faithful.run (M := 0) hp actions ⟨inStep_opened _ e k markup settings,
      mirrors_opened e k markup settings⟩ (Nat.zero_add _).le
  obtain ⟨added, hshows⟩ := hm.cast
  refine ⟨hwindow, ⟨added, hshows.actors⟩, fun r => ?_, fun t ht => ?_, ?_,
    fun a ha hf => rejected_stage k f.window ha hf⟩
  · simp only [p, f, hwindow, shown_run, shown_opened]
    rfl
  · obtain ⟨hlow, hhigh⟩ := hm.index t ht
    have hlt : f.last.toNat < t.waypoints.length := by
      rw [Path.Trace.length] at hhigh
      omega
    exact ⟨_, List.getElem?_eq_getElem hlt⟩
  · rw [← hm.profile]
    simp [p, Controls.isEnabled, Control.isLockable]

theorem presentable_exact : Presentable Sheet.engine Conversions.exact where
  field := by
    have hflat : (Session.flatten usualMarkup).1 = "x^2+y^2-(1)/(2)*cos(2*x)" := by decide +kernel
    refine Sheet.build_engine (u := .usual) ?_
    rw [hflat]
    rfl
  settings := Session.eq_ok_of_isOk (by decide +kernel)

/-- In doubles the usual settings pass as they are read back, so the field is all that an engine owes. -/
theorem presentable_standard {ε : Type} {e : Engine ε Float} (h : ∃ f, (e.build usualMarkup).1 = .ok f) :
    Presentable e Conversions.standard :=
  ⟨h, Session.eq_ok_of_isOk (by decide +kernel)⟩

/-- A descent on a plane that has come to its third waypoint when the path is hidden: line and ball stand
there unseen. -/
theorem hidden_descent_mirrored :
    let actions : List (Action Unit ℚ) :=
      [.type .markup "x", .enter, .type .startX "1", .type .startY "0", .press .animate [], .wait 20 5,
        .slide 40, .toggle .path false, .enter]
    let f := actions.foldl (Followed.perform Sheet.engine Conversions.exact)
      ⟨opened Sheet.engine Conversions.exact Session.new, 0⟩
    let p := f.window.panel
    ∃ added t, p.session.path = some t ∧
      p.stage.plotter.actors.map (·.2) = (p.due added 2 .surface).toList ++
        [⟨.line t.waypoints, .real (Scalar.ofNat 1), false⟩,
          ⟨.ball t.waypoints[2]?, .real (Scalar.ofNat 1), false⟩] ∧
      p.stage.shown .surface = true ∧ p.controls.isEnabled (.button .profile) = true := by
  intro actions f p
  have hlast : f.last = 2 ∧ p.session.path.isSome = true := by decide +kernel
  obtain ⟨-, ⟨added, hactors⟩, hshown, -, hprofile, -⟩ :=
    stage_mirrors_session presentable_exact usualMarkup .usual actions
  obtain ⟨t, ht⟩ := Option.isSome_iff_exists.1 hlast.2
  have hline : p.stage.shown .line = false := hshown .line
  have hball : p.stage.shown .ball = false := hshown .ball
  have hdue : ∀ i, p.due added i .line = some ⟨.line t.waypoints, .real (Scalar.ofNat 1), false⟩ ∧
      p.due added i .ball = some ⟨.ball t.waypoints[i.toNat]?, .real (Scalar.ofNat 1), false⟩ := by
    intro i
    simp only [Panel.due, ht, hline, hball, Option.map_some, and_self]
  refine ⟨added, t, ht, ?_, hshown .surface, hprofile.trans hlast.2⟩
  replace hactors : p.stage.plotter.actors.map (·.2) = roles.filterMap (p.due added f.last) := hactors
  rw [hactors, hlast.1, roles, List.filterMap_cons, List.filterMap_cons, List.filterMap_cons,
    (hdue 2).1, (hdue 2).2]
  cases p.due added 2 .surface <;> rfl

end FieldWalk.Window
