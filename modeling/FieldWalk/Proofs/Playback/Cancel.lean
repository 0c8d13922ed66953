import FieldWalk.Proofs.Playback.Live
/-!
# Cancelling from a callback

A cancel from outside brings a player to rest. One that comes from the callback of a frame is
carried out in the middle of a tick, and the tick goes on behind it: before the last frame it asks
for the next tick all the same, and at the last frame it still tells the end. Such a cancel wins at
the last frame only, and only if nobody is told of the end.
-/

namespace FieldWalk.Playback

open Numeral

variable {η σ : Type} {H : Host η} {c : Callbacks ℚ σ}

namespace Player

/-! ## Cancels that answer a call -/

section Cancels

variable {p : Player ℚ η σ}

/-- A cancel changes nothing in a player that has been cancelled or stopped. -/
theorem cancelled_of_stopped (source : TickSource η) (hh : p.handle = none)
    (hr : p.running = false) : p.cancelled source = p := by
  cases p
  simp only at hh hr
  subst hh hr
  rfl

/-- Any number of cancels is one. -/
theorem foldl_cancelled (source : TickSource η) {ks : List (Command ℚ)}
    (hks : ∀ k ∈ ks, k = .cancel) (hne : ks ≠ []) :
    ks.foldl (obeyed source) p = p.cancelled source := by
  induction ks generalizing p with
  | nil => exact absurd rfl hne
  | cons k ks ih =>
    obtain ⟨hk, hrest⟩ := List.forall_mem_cons.1 hks
    have hcons : (k :: ks).foldl (obeyed source) p = ks.foldl (obeyed source) (p.cancelled source) := by
      rw [List.foldl_cons, hk]
      rfl
    by_cases hnil : ks = []
    · rw [hcons, hnil, List.foldl_nil]
    · rw [hcons, ih hrest hnil]
      exact cancelled_of_stopped source (cancelled_handle p source) (cancelled_running p source)

theorem pending_foldl (hs : H.Sound p.host) (hp : H.pending p.host = ∅) {ks : List (Command ℚ)}
    (hks : ∀ k ∈ ks, k = .cancel) : H.pending (ks.foldl (obeyed H.toTickSource) p).host = ∅ := by
  by_cases hnil : ks = []
  · rw [hnil, List.foldl_nil, hp]
  · rw [foldl_cancelled _ hks hnil, pending_cancelled hs, hp, Finset.empty_sdiff]

end Cancels

/-! ## The stored tick is the pending one -/

section Pending

variable {p : Player ℚ η (σ × List (Exchange ℚ))}

/-- No tick is pending once a frame has been shown. -/
theorem pending_shown (hc : c.FramesCancel) (hs : H.Sound p.host) (hp : H.pending p.host = ∅)
    (time : ℚ) : H.pending (p.shown H.toTickSource c time).host = ∅ := by
  unfold shown answered
  apply pending_foldl
  · simpa [told] using hs
  · simpa [told] using hp
  · exact hc _ _

/-- At an earlier frame than the last, one tick is pending again, whatever answered it. -/
theorem ticked_early (hc : c.FramesCancel) (hs : H.Sound p.host) (hp : H.pending p.host = ∅)
    {time : ℚ} (hl : ¬ p.count - 1 ≤ p.index time) :
    ∃ h, (p.ticked H.toTickSource c time).handle = some h ∧
      H.pending (p.ticked H.toTickSource c time).host = {h} := by
  have hs' := sound_shown (c := c) hs time
  unfold ticked
  rw [if_neg hl]
  refine ⟨_, rfl, ?_⟩
  show H.pending (H.request _).2 = {(H.request _).1}
  rw [H.pending_request hs', pending_shown hc hs hp time, insert_empty_eq]

/-- The last frame ends a replay; what answers the end leaves one live replay or none. -/
theorem ticked_last (hc : c.FramesCancel) (hs : H.Sound p.host) (hp : H.pending p.host = ∅)
    {time : ℚ} (hl : p.count - 1 ≤ p.index time) :
    OneLive H (p.ticked H.toTickSource c time) := by
  unfold ticked
  rw [if_pos hl]
  exact (oneLive_stopped (pending_shown hc hs hp time)).answered (sound_shown hs time) .finished

theorem pending_step (hv : c.Give Command.Valid) (hc : c.FramesCancel) (hf : Fit H p)
    (hp : H.pending p.host = p.handle.toFinset) (o : Operation ℚ) :
    H.pending (p.step H c o).host = (p.step H c o).handle.toFinset := by
  have h := step_outcome hv hf o
  generalize p.step H c o = q at h ⊢
  cases h with
  | obeyed => exact (oneLive_obeyed hf.sound hp.le _).pending
  | broken => exact (stored_opened hf.sound hp.le _ _).pending
  | refused | absent => exact hp
  | @ticked h time hh =>
    have hs : H.Sound (p.fired H h).host := H.sound_fire h hf.sound
    have he : H.pending (p.fired H h).host = ∅ := pending_fired hp hf.sound hh
    by_cases hl : (p.fired H h).count - 1 ≤ (p.fired H h).index time
    · exact (ticked_last hc hs he hl).pending
    · rcases ticked_early hc hs he hl with ⟨n, hn, hq⟩
      rw [hq, hn, Option.toFinset_some]

theorem pending_after (hv : c.Give Command.Valid) (hc : c.FramesCancel) (hf : Fit H p)
    (hp : H.pending p.host = p.handle.toFinset) (ops : List (Operation ℚ)) :
    H.pending (p.after H c ops).host = (p.after H c ops).handle.toFinset := by
  induction ops generalizing p with
  | nil => exact hp
  | cons o ops ih => exact ih (hf.step hv o) (pending_step hv hc hf hp o)

end Pending

/-! ## What a cancel from a frame comes to -/

/-- Nothing runs, no tick is pending, and nothing is heard before the next start. -/
structure AtRest (H : Host η) (c : Callbacks ℚ σ) (p : Player ℚ η (σ × List (Exchange ℚ))) :
    Prop where
  running : p.running = false
  pending : H.pending p.host = ∅
  silent : ∀ later, (∀ o ∈ later, ¬ o.Begins) → (p.after H c later).heard = p.heard

section Rest

variable {p : Player ℚ η (σ × List (Exchange ℚ))}

theorem OneLive.atRest (hp : OneLive H p) (hv : c.Give Command.Valid) (hf : Fit H p)
    (hr : p.running = false) : AtRest H c p where
  running := hr
  pending := hp.stored.empty_of_stopped hr
  silent _ hl := heard_of_empty hv hf (hp.stored.empty_of_stopped hr) hl

/-- A frame that was answered with a cancel is followed by a player that does not run. -/
theorem shown_of_cancel (hc : c.FramesCancel) {time : ℚ}
    (hk : .cancel ∈ p.orders c (.frame (p.index time))) (source : TickSource η) :
    (p.shown source c time).running = false := by
  have hne : (p.showing time).orders c (.frame (p.index time)) ≠ [] := by
    rw [showing_eq]
    exact List.ne_nil_of_mem hk
  have hall : ∀ k ∈ (p.showing time).orders c (.frame (p.index time)), k = .cancel := hc _ _
  unfold shown answered
  rw [foldl_cancelled source hall hne, cancelled_running]

/-- After a cancel at an earlier frame than the last the replay goes on: its next tick is pending,
and it will show a frame. -/
theorem cancel_early (hv : c.Give Command.Valid) (hc : c.FramesCancel) (hf : Fit H p)
    (hp : H.pending p.host = p.handle.toFinset) {o : Operation ℚ} {i : ℤ} {ks : List (Command ℚ)}
    {rest : List (Exchange ℚ)} (h : (p.step H c o).heard = p.heard ++ ⟨.frame i, ks⟩ :: rest)
    (hk : .cancel ∈ ks) (hi : i < p.count - 1) :
    rest = [] ∧ (p.step H c o).running = false ∧
      ∃ n, H.pending (p.step H c o).host = {n} ∧ ∀ time, ∃ j ks' more,
        ((p.step H c o).step H c (.tick n time)).heard =
          (p.step H c o).heard ++ ⟨.frame j, ks'⟩ :: more := by
  have hf' : Fit H (p.step H c o) := hf.step hv o
  rcases tick_of_heard hv hf h with ⟨m, time, hm, hq, rfl, rfl, hrest⟩
  have hs : H.Sound (p.fired H m).host := H.sound_fire m hf.sound
  have hl : ¬ (p.fired H m).count - 1 ≤ (p.fired H m).index time := not_le.2 hi
  have hrun : (p.step H c o).running = false := by
    rw [hq]
    unfold ticked
    rw [if_neg hl]
    exact shown_of_cancel (p := p.fired H m) hc hk _
  rcases ticked_early hc hs (pending_fired hp hf.sound hm) hl with ⟨n, -, hn⟩
  rw [← hq] at hn
  refine ⟨hrest.trans (if_neg hl), hrun, n, hn, ?_⟩
  intro time'
  have hmem : n ∈ H.pending (p.step H c o).host := by rw [hn]; exact Finset.mem_singleton_self n
  rw [step_tick hv hmem (hf'.interval ⟨n, hmem⟩), heard_ticked]
  exact ⟨_, _, _, rfl⟩

/-- After a cancel at the last frame the end is told all the same. -/
theorem cancel_late (hv : c.Give Command.Valid) (hc : c.FramesCancel) (hf : Fit H p)
    (hp : H.pending p.host = p.handle.toFinset) {o : Operation ℚ} {i : ℤ} {ks : List (Command ℚ)}
    {rest : List (Exchange ℚ)} (h : (p.step H c o).heard = p.heard ++ ⟨.frame i, ks⟩ :: rest)
    (hi : p.count - 1 ≤ i) :
    rest.map (·.event) = c.ending ∧ (c.finished = none → AtRest H c (p.step H c o)) := by
  have hf' : Fit H (p.step H c o) := hf.step hv o
  rcases tick_of_heard hv hf h with ⟨m, time, hm, hq, rfl, rfl, hrest⟩
  constructor
  · rw [hrest, if_pos hi, exchange_finished]
  · intro hnone
    have hl : (p.fired H m).count - 1 ≤ (p.fired H m).index time := hi
    have hs : H.Sound (p.fired H m).host := H.sound_fire m hf.sound
    have hlive := ticked_last hc hs (pending_fired hp hf.sound hm) hl
    have hrun : ((p.fired H m).ticked H.toTickSource c time).running = false := by
      unfold ticked
      rw [if_pos hl, answered_silent _ _ _ (by simp [orders, Callbacks.listener, Callbacks.at?, hnone])]
      rfl
    rw [← hq] at hlive hrun
    exact hlive.atRest hv hf' hrun

end Rest

end Player

/-- A cancel from outside always wins: it is not heard, and the player is at rest. A cancel that
answers a frame wins exactly if the frame is the last one and no callback is told of the end. At an
earlier frame the player has stopped running but its next tick is pending and will show a frame; at
the last frame the end is told all the same. -/
theorem cancel_wins_iff (H : Host η) (c : Callbacks ℚ σ) (hv : c.Give Command.Valid)
    (hc : c.FramesCancel) (s : σ) (before : List (Operation ℚ)) :
    let p := run H c s before
    let q := fun o => run H c s (before ++ [o])
    ((q (.order .cancel)).heard = p.heard ∧ Player.AtRest H c (q (.order .cancel))) ∧
    ∀ o i orders rest, (q o).heard = p.heard ++ ⟨.frame i, orders⟩ :: rest → .cancel ∈ orders →
      (rest = [] ∧ Player.AtRest H c (q o) ↔ p.count - 1 ≤ i ∧ c.finished = none) ∧
      (i < p.count - 1 → rest = [] ∧ (q o).running = false ∧ ∃ n, H.pending (q o).host = {n} ∧
        ∀ time, ∃ j orders' more, (run H c s (before ++ [o, .tick n time])).heard =
          (q o).heard ++ ⟨.frame j, orders'⟩ :: more) ∧
      (p.count - 1 ≤ i → rest.map (·.event) = c.ending) := by
  intro p q
  have hf : Player.Fit H p := fit_run hv s before
  have hp : H.pending p.host = p.handle.toFinset :=
    Player.pending_after hv hc (Player.fit_new _) (Player.oneLive_new _).pending before
  have happ : ∀ more, run H c s (before ++ more) = p.after H c more := run_append H c s before
  have hq : ∀ o, q o = p.step H c o := fun o => happ [o]
  constructor
  · have hcancel : q (.order .cancel) = p.cancelled H.toTickSource :=
      (hq _).trans (Player.step_order (k := .cancel) trivial)
    have hf' : Player.Fit H (q (.order .cancel)) := fit_run hv s _
    rw [hcancel] at hf' ⊢
    exact ⟨Player.heard_obeyed _ p .cancel,
      (Player.oneLive_cancelled hf.sound hp.le).atRest hv hf' (Player.cancelled_running p _)⟩
  · intro o i orders rest h hk
    rw [hq] at h ⊢
    have hearly := Player.cancel_early hv hc hf hp h hk
    have hlate := Player.cancel_late hv hc hf hp h
    refine ⟨⟨?_, ?_⟩, ?_, fun hi => (hlate hi).1⟩
    · rintro ⟨rfl, hrest⟩
      by_cases hi : p.count - 1 ≤ i
      · have hend := (hlate hi).1
        cases hfin : c.finished with
        | none => exact ⟨hi, rfl⟩
        | some f => simp [Callbacks.ending, hfin] at hend
      · rcases (hearly (not_le.1 hi)).2.2 with ⟨n, hn, -⟩
        have hnone := hrest.pending
        simp [hn] at hnone
    · rintro ⟨hi, hnone⟩
      have hend := (hlate hi).1
      refine ⟨?_, (hlate hi).2 hnone⟩
      simpa [Callbacks.ending, hnone] using hend
    · intro hi
      rcases hearly hi with ⟨hrest, hrun, n, hn, hnext⟩
      refine ⟨hrest, hrun, n, hn, ?_⟩
      intro time
      rw [happ]
      exact hnext time

/-- The last of three frames cancels, and nobody is told of the end. -/
theorem cancelled_at_last_frame :
    let c : Callbacks ℚ Unit := .atFrame 2 .cancel none
    let ops : List (Operation ℚ) := [.order (.start 3 (.int 10)), .tick 1 0]
    c.Give Command.Valid ∧ c.FramesCancel ∧
      (run TickDesk.host c () (ops ++ [.tick 2 250])).heard =
        [⟨.frame 0, []⟩, ⟨.frame 2, [.cancel]⟩] ∧
      Player.AtRest TickDesk.host c (run TickDesk.host c () (ops ++ [.tick 2 250])) := by
  intro c ops
  have hc : c.FramesCancel := by
    intro i s k hk
    simp only [c, Callbacks.atFrame] at hk
    split at hk
    · exact List.mem_singleton.1 hk
    · exact absurd hk List.not_mem_nil
  have hv : c.Give Command.Valid := by
    intro e f s hf k hk
    cases e with
    | frame i =>
      cases hf
      rw [hc i s k hk]
      trivial
    | finished => cases hf
  have hheard : (run TickDesk.host c () (ops ++ [.tick 2 250])).heard =
      (run TickDesk.host c () ops).heard ++ [⟨.frame 2, [.cancel]⟩] := by decide +kernel
  have hlast : (run TickDesk.host c () ops).count - 1 ≤ 2 := by decide +kernel
  refine ⟨hv, hc, by decide +kernel, ?_⟩
  exact ((((cancel_wins_iff TickDesk.host c hv hc () ops).2 _ 2 _ [] hheard (by simp)).1).2
    ⟨hlast, rfl⟩).2

/-- Thirty frames at ten a second, cancelled by the second: the player does not run, but its third
tick is pending and shows the third frame. Of two frames the last cancels, and the end is told. -/
theorem cancel_at_frame_goes_on :
    let c : Callbacks ℚ Unit := .atFrame 1 .cancel (some fun _ => ([], ()))
    let p := fun (count : ℤ) (more : List (Operation ℚ)) =>
      run TickDesk.host c () ([.order (.start count (.int 10)), .tick 1 0, .tick 2 100] ++ more)
    ((p 30 []).heard = [⟨.frame 0, []⟩, ⟨.frame 1, [.cancel]⟩] ∧ (p 30 []).running = false ∧
      TickDesk.host.pending (p 30 []).host = {3} ∧
      (p 30 [.tick 3 200]).heard = [⟨.frame 0, []⟩, ⟨.frame 1, [.cancel]⟩, ⟨.frame 2, []⟩]) ∧
    (p 2 []).heard = [⟨.frame 0, []⟩, ⟨.frame 1, [.cancel]⟩, ⟨.finished, []⟩] := by
  decide +kernel

end FieldWalk.Playback
