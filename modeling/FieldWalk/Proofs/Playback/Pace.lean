import FieldWalk.Proofs.Playback.Steps
import Mathlib.Algebra.Order.SuccPred.PartialSups
import Mathlib.Data.Nat.SuccPred
/-!
# The pace of a replay

A player never asks how long it has played; it adds up a debt of time and pays it in whole frames.
Frames shown and debt together make up the time since the first tick, and the debt stays below one
frame, so each frame is the one due at the latest time seen so far.
-/

namespace FieldWalk.Playback

open Numeral

variable {η σ : Type}

namespace Player

/-! ## Paying the debt -/

section Paid

variable (time : ℚ) (p : Player ℚ η σ)

theorem advanced_frame (n : ℤ) : (p.advanced n).frame = p.frame + max n 0 := by
  unfold advanced
  split
  · rename_i hn
    rw [max_eq_left (by omega)]
  · rename_i hn
    rw [max_eq_right (by omega), add_zero]

theorem advanced_debt (n : ℤ) :
    (p.advanced n).debt = p.debt - ((max n 0 : ℤ) : ℚ) * p.interval := by
  unfold advanced
  split
  · rename_i hn
    rw [max_eq_left (by omega)]
    rfl
  · rename_i hn
    rw [max_eq_right (by omega), Int.cast_zero, zero_mul, sub_zero]

/-- Nothing is lost when the debt is paid. -/
theorem paid_elapsed :
    (p.paid time).frame * p.interval + (p.paid time).debt =
      p.frame * p.interval + (p.debt + (time - p.last.getD time)) := by
  rw [paid, advanced_frame, advanced_debt]
  show ((p.frame + _ : ℤ) : ℚ) * p.interval +
    (p.debt + (time - p.last.getD time) - _ * p.interval) = _
  push_cast
  ring

/-- Less than a frame is owed. -/
theorem paid_debt_lt (h : 0 < p.interval) : (p.paid time).debt < p.interval := by
  rw [paid, advanced_debt]
  generalize (p.clocked time).debt = d
  show d - _ * p.interval < p.interval
  have hlt := Int.lt_floor_add_one (d / p.interval)
  have hmax : (⌊d / p.interval⌋ : ℚ) ≤ ((max ⌊d / p.interval⌋ 0 : ℤ) : ℚ) :=
    Int.cast_le.2 (le_max_left _ _)
  have hd : d < (((max ⌊d / p.interval⌋ 0 : ℤ) : ℚ) + 1) * p.interval :=
    (div_lt_iff₀ h).1 (by linarith)
  linarith

/-- The frame only moves on, to the one that is due. -/
theorem paid_frame (h : 0 < p.interval) :
    (p.paid time).frame =
      max p.frame
        ⌊(p.frame * p.interval + (p.debt + (time - p.last.getD time))) / p.interval⌋ := by
  rw [paid, advanced_frame, add_div, mul_div_cancel_right₀ _ h.ne', Int.floor_intCast_add]
  show p.frame + max ⌊(p.debt + (time - p.last.getD time)) / p.interval⌋ 0 = _
  omega

end Paid

/-- The frame that is due after the ticks up to the `k`-th, delivered at the times `t`. -/
def reach (fps : ℚ) (t : ℕ → ℚ) : ℕ → ℤ :=
  partialSups fun j => ⌊(t j - t 0) * fps / 1000⌋

/-- A player whose frame and debt make up the time from the first tick to the `k`-th. -/
structure Paced (count : ℤ) (fps : ℚ) (t : ℕ → ℚ) (k : ℕ) (p : Player ℚ η σ) : Prop where
  count : p.count = count
  interval : p.interval = 1000 / fps
  frame : p.frame = reach fps t k
  elapsed : p.frame * p.interval + p.debt = t k - t 0
  debt_lt : p.debt < p.interval
  last : p.last = some (t k)

theorem reach_zero (fps : ℚ) (t : ℕ → ℚ) : reach fps t 0 = 0 := by
  rw [reach, partialSups_zero, sub_self, zero_mul, zero_div, Int.floor_zero]

theorem reach_succ (fps : ℚ) (t : ℕ → ℚ) (k : ℕ) :
    reach fps t (k + 1) = max (reach fps t k) ⌊(t (k + 1) - t 0) * fps / 1000⌋ :=
  partialSups_add_one _ k

section Paced

variable {count : ℤ} {fps : ℚ} {t : ℕ → ℚ} {k : ℕ} {p : Player ℚ η σ}

theorem paced_paid (hfps : 0 < fps) (hc : p.count = count) (hi : p.interval = 1000 / fps)
    (he : p.frame * p.interval + (p.debt + (t k - p.last.getD (t k))) = t k - t 0)
    (hf : max p.frame ⌊(t k - t 0) * fps / 1000⌋ = reach fps t k) :
    Paced count fps t k (p.paid (t k)) := by
  have hpos : 0 < p.interval := hi ▸ div_pos (by norm_num) hfps
  have hframe := paid_frame (t k) p hpos
  have helapsed := paid_elapsed (t k) p
  have hdebt := paid_debt_lt (t k) p hpos
  rw [he] at hframe helapsed
  rw [hi, div_div_eq_mul_div, hf] at hframe
  rw [paid_eq]
  exact ⟨hc, hi, hframe, helapsed, hdebt, rfl⟩

/-- The first tick of a replay shows its first frame. -/
theorem paced_first (hfps : 0 < fps) (hc : p.count = count) (hi : p.interval = 1000 / fps)
    (hf : p.frame = 0) (hd : p.debt = 0) (hl : p.last = none) :
    Paced count fps t 0 (p.paid (t 0)) := by
  refine paced_paid hfps hc hi ?_ ?_
  · rw [hf, hd, hl, Option.getD_none, Int.cast_zero, zero_mul, zero_add, zero_add]
  · rw [hf, sub_self, zero_mul, zero_div, Int.floor_zero, max_self, reach_zero]

theorem Paced.next (hfps : 0 < fps) (hp : Paced count fps t k p) :
    Paced count fps t (k + 1) (p.paid (t (k + 1))) := by
  refine paced_paid hfps hp.count hp.interval ?_ ?_
  · rw [hp.last, Option.getD_some, ← add_assoc, hp.elapsed]
    ring
  · rw [hp.frame, reach_succ]

/-- The pace is not a matter of the host, the listener or the running mark. -/
theorem Paced.elsewhere (hp : Paced count fps t k p) (d : η) (a : σ) (h : Option ℕ) (r : Bool) :
    Paced count fps t k { p with host := d, audience := a, handle := h, running := r } :=
  ⟨hp.count, hp.interval, hp.frame, hp.elapsed, hp.debt_lt, hp.last⟩

theorem Paced.cancelled (hp : Paced count fps t k p) (source : TickSource η) :
    Paced count fps t k (p.cancelled source) := by
  unfold Player.cancelled
  split <;> exact hp.elsewhere _ _ _ _

theorem Paced.cancelledAll (hp : Paced count fps t k p) (source : TickSource η)
    {ks : List (Command ℚ)} (hks : ∀ o ∈ ks, o = .cancel) :
    Paced count fps t k (ks.foldl (obeyed source) p) := by
  induction ks generalizing p with
  | nil => exact hp
  | cons o ks ih =>
    obtain ⟨ho, hrest⟩ := List.forall_mem_cons.1 hks
    rw [List.foldl_cons, ho]
    exact ih (hp.cancelled source) hrest

theorem count_of_paced (hp : Paced count fps t k (p.paid (t k))) : p.count = count := by
  have h := hp.count
  rwa [paid_eq] at h

/-- The index shown is the one that is due, or the last one. -/
theorem index_of_paced (hcount : 1 ≤ count) (hp : Paced count fps t k (p.paid (t k))) :
    p.index (t k) = min (count - 1) (reach fps t k) := by
  unfold index
  rw [count_of_paced hp, hp.frame]
  split <;> omega

/-- No frame is cut off before the last one. -/
theorem showing_of_paced (hp : Paced count fps t k (p.paid (t k)))
    (hlt : reach fps t k < count - 1) : p.showing (t k) = p.paid (t k) := by
  have hi : p.index (t k) = (p.paid (t k)).frame := by
    unfold index
    rw [count_of_paced hp, hp.frame, if_neg (not_le.2 hlt)]
  rw [showing, hi]

end Paced

/-! ## One replay -/

/-- A tick of the host, whatever else it has done since the last one. -/
def delivered (source : TickSource η) (listener : Listener ℚ σ) (between : η → η) (time : ℚ) :
    Action ℚ η σ Unit := do
  modify fun p => { p with host := between p.host }
  tick source listener time

/-- A replay from its start through its first `k` ticks. -/
def replay (source : TickSource η) (listener : Listener ℚ σ) (count : ℤ) (fps : Number ℚ)
    (between : ℕ → η → η) (t : ℕ → ℚ) : ℕ → Action ℚ η σ Unit
  | 0 => start source count fps
  | k + 1 => do
    replay source listener count fps between t k
    delivered source listener (between k) (t k)

section Replay

variable (source : TickSource η) {c : Callbacks ℚ σ} {count : ℤ} {fps : ℚ} {t : ℕ → ℚ} {k : ℕ}
  {p : Player ℚ η (σ × List (Exchange ℚ))}

/-- A player that goes on after a tick keeps the pace, and it runs unless its frame was answered
with an order. -/
theorem tick_goes_on (hc : c.FramesCancel) (hcount : 1 ≤ count)
    (hpos : 0 < p.interval) (hp : Paced count fps t k (p.paid (t k)))
    (hlt : reach fps t k < count - 1) :
    ∃ r, (tick source c.listener (t k)).run p = .ok () r ∧ Paced count fps t k r ∧
      r.handle.isSome ∧ (p.running = true → (∀ i s, (c.frame i s).1 = []) → r.running = true) ∧
      r.heard = (p.shown source c (t k)).heard := by
  have hcancel : ∀ o ∈ (p.showing (t k)).orders c (.frame (p.index (t k))), o = .cancel := hc _ _
  have hnot : ¬ p.count - 1 ≤ p.index (t k) := by
    rw [index_of_paced hcount hp, count_of_paced hp]
    omega
  have hs : Paced count fps t k (p.shown source c (t k)) := by
    refine Paced.cancelledAll ?_ source hcancel
    rw [showing_of_paced hp hlt]
    exact hp.elsewhere _ _ _ _
  refine ⟨(p.shown source c (t k)).requested source, ?_, hs.elsewhere _ _ _ _, rfl, ?_, rfl⟩
  · rw [tick_shown source c (t k) p hpos fun o ho => hcancel o ho ▸ trivial, if_neg hnot]
    rfl
  · intro hr hsilent
    show (p.shown source c (t k)).running = true
    rw [shown_silent _ _ _ _ (hsilent _ _)]
    exact (showing_running _ _).trans hr

/-- A player that reaches the last index stops, and the end is told. -/
theorem tick_ends (hc : c.FramesCancel) (hcount : 1 ≤ count)
    (hpos : 0 < p.interval) (hp : Paced count fps t k (p.paid (t k)))
    (hle : count - 1 ≤ reach fps t k) :
    (tick source c.listener (t k)).run p =
      (emit source c.listener .finished).run (p.shown source c (t k)).stopped := by
  have hcancel : ∀ o ∈ (p.showing (t k)).orders c (.frame (p.index (t k))), o = .cancel := hc _ _
  have hlast : p.count - 1 ≤ p.index (t k) := by
    rw [index_of_paced hcount hp, count_of_paced hp]
    omega
  rw [tick_shown source c (t k) p hpos fun o ho => hcancel o ho ▸ trivial, if_pos hlast]
  rfl

theorem events_shown (hcount : 1 ≤ count) (hp : Paced count fps t k (p.paid (t k))) :
    (p.shown source c (t k)).events = p.events ++ [.frame (min (count - 1) (reach fps t k))] := by
  rw [events_append (heard_shown source c p (t k)), index_of_paced hcount hp]
  rfl

end Replay

/-- The indices shown by a replay up to its `k`-th tick. -/
def schedule (count : ℤ) (fps : ℚ) (t : ℕ → ℚ) (k : ℕ) : List Event :=
  (List.range k).map fun j => .frame (min (count - 1) (reach fps t j))

theorem schedule_succ (count : ℤ) (fps : ℚ) (t : ℕ → ℚ) (k : ℕ) :
    schedule count fps t (k + 1) =
      schedule count fps t k ++ [.frame (min (count - 1) (reach fps t k))] := by
  rw [schedule, List.range_succ, List.map_append]
  rfl

/-- A replay that has not reached its last index is ready for a tick at its pace. -/
theorem replay_run (source : TickSource η) {c : Callbacks ℚ σ} {count : ℤ} {fps : Number ℚ}
    {t : ℕ → ℚ} (hc : c.FramesCancel) (hcount : 1 ≤ count)
    (hstart : (Command.start count fps).Valid) (p : Player ℚ η (σ × List (Exchange ℚ)))
    (between : ℕ → η → η) (k : ℕ)
    (hk : ∀ j < k, reach fps.toScalar t j < count - 1) :
    ∃ q q' : Player ℚ η (σ × List (Exchange ℚ)),
      (replay source c.listener count fps between t k).run p = .ok () q ∧
      (delivered source c.listener (between k) (t k)).run q =
        (tick source c.listener (t k)).run q' ∧
      0 < q'.interval ∧ Paced count fps.toScalar t k (q'.paid (t k)) ∧
      ((∀ i s, (c.frame i s).1 = []) → q'.running = true) ∧
      q'.events = p.events ++ schedule count fps.toScalar t k := by
  have hfps := hstart.1
  have hpos : (0 : ℚ) < 1000 / fps.toScalar := div_pos (by norm_num) hfps
  induction k with
  | zero =>
    refine ⟨p.begun source count fps, _, start_run source p hstart, rfl, hpos,
      paced_first hfps rfl rfl rfl rfl rfl, fun _ => rfl, ?_⟩
    rw [schedule, List.range_zero, List.map_nil, List.append_nil, events, events]
    exact congrArg _ (heard_obeyed source p (.start count fps))
  | succ k ih =>
    obtain ⟨q, q', hrun, htick, hq, hp, hrunning, he⟩ := ih fun j hj => hk j (Nat.lt_succ_of_lt hj)
    obtain ⟨r, hr, hpaced, -, hrunning', hheard⟩ :=
      tick_goes_on source hc hcount hq hp (hk k k.lt_succ_self)
    -- whatever the host does next, the player it finds at the next tick is paced
    have hnext := (hpaced.elsewhere (between (k + 1) r.host) r.audience r.handle r.running).next hfps
    refine ⟨r, _, (bind_run hrun).trans (htick.trans hr), rfl, hpaced.interval ▸ hpos, hnext,
      fun hs => hrunning' (hrunning hs) hs, ?_⟩
    show r.events = _
    rw [events, hheard, ← events, events_shown source hcount hp, he, schedule_succ, List.append_assoc]

end Player

/-- Whatever was played before, and at whatever times the ticks of a replay come, each shows the
index that is due at the latest time so far, or the last one. The replay ends with the first tick
that reaches the last index: the player has stopped and is left to tell the end. Each tick before it
asks for the next, and frames shown and debt make up the time since the first tick. Cancels that
answer a frame do not disturb the pace; they only take the running mark away. With a count that is too long
to be written out no replay begins, and nothing is heard of the start. -/
theorem independent_of_frame_rate (source : TickSource η) (c : Callbacks ℚ σ)
    (hc : c.FramesCancel) (p : Player ℚ η (σ × List (Exchange ℚ)))
    (count : ℤ) (hcount : 1 ≤ count) (fps : Number ℚ) (hfps : 0 < fps.toScalar)
    (between : ℕ → η → η) (t : ℕ → ℚ) (k : ℕ)
    (hk : ∀ j < k, Player.reach fps.toScalar t j < count - 1) :
    (overlong count = true → ∃ q,
      (Player.start source count fps).run p = .error .tooLong q ∧ q.events = p.events) ∧
    (overlong count = false →
    ∃ q r, (Player.replay source c.listener count fps between t k).run p = .ok () q ∧
      r.events = p.events ++ (List.range (k + 1)).map
        (fun j => .frame (min (count - 1) (Player.reach fps.toScalar t j))) ∧
      (Player.reach fps.toScalar t k < count - 1 →
        (Player.delivered source c.listener (between k) (t k)).run q = .ok () r ∧
        r.handle.isSome ∧ ((∀ i s, (c.frame i s).1 = []) → r.running = true) ∧
        r.interval = 1000 / fps.toScalar ∧ r.frame * r.interval + r.debt = t k - t 0 ∧
        r.debt < r.interval) ∧
      (count - 1 ≤ Player.reach fps.toScalar t k →
        (Player.delivered source c.listener (between k) (t k)).run q =
          (Player.emit source c.listener .finished).run r ∧
        r.running = false ∧ r.handle = none)) := by
  refine ⟨fun hl => ⟨_, (Player.start_positive source p count hfps).trans (if_pos hl), ?_⟩,
    fun hl => ?_⟩
  · exact congrArg (List.map _) (Player.heard_obeyed source p (.start count fps))
  obtain ⟨q, q', hrun, htick, hq, hp, hrunning, he⟩ :=
    Player.replay_run source hc hcount ⟨hfps, hl⟩ p between k hk
  have hshown : (q'.shown source c (t k)).events =
      p.events ++ Player.schedule count fps.toScalar t (k + 1) := by
    rw [Player.events_shown source hcount hp, he, Player.schedule_succ, List.append_assoc]
  by_cases hlt : Player.reach fps.toScalar t k < count - 1
  · obtain ⟨r, hr, hpaced, hh, hrunning', hheard⟩ :=
      Player.tick_goes_on source hc hcount hq hp hlt
    refine ⟨q, r, hrun, ?_, fun _ => ⟨htick.trans hr, hh,
      fun hs => hrunning' (hrunning hs) hs, hpaced.interval, hpaced.elapsed, hpaced.debt_lt⟩,
      fun hle => absurd hlt (not_lt.2 hle)⟩
    rw [Player.events, hheard]
    exact hshown
  · exact ⟨q, (q'.shown source c (t k)).stopped, hrun, hshown, fun h => absurd h hlt,
      fun hle => ⟨htick.trans (Player.tick_ends source hc hcount hq hp hle), rfl, rfl⟩⟩

/-- Three frames at ten a second on a clock that steps back once. -/
theorem late_after_step_back :
    let t : ℕ → ℚ := fun j => [5, 135, 35, 265].getD j 0
    let reach := Player.reach ((.int 10 : Number ℚ).toScalar) t
    let c := Callbacks.silent
    c.FramesCancel ∧ (∀ j < 3, reach j < 3 - 1) ∧ 3 - 1 ≤ reach 3 ∧
      ∃ q r, (Player.replay TickDesk.source c.listener 3 (.int 10) (fun j => TickDesk.fire (j + 1))
          t 3).run (.new {} ((), [])) = .ok () q ∧
        r.events = [.frame 0, .frame 1, .frame 1, .frame 2] ∧
        (Player.delivered TickDesk.source c.listener (TickDesk.fire 4) 265).run q =
          (Player.emit TickDesk.source c.listener .finished).run r ∧ r.running = false := by
  intro t reach c
  have hc : c.FramesCancel := fun _ _ => nofun
  have hk : ∀ j < 3, reach j < 3 - 1 := by decide +kernel
  have hle : 3 - 1 ≤ reach 3 := by decide +kernel
  obtain ⟨q, r, hrun, he, -, hend⟩ := (independent_of_frame_rate TickDesk.source c hc
    (.new {} ((), [])) 3 (by decide) (.int 10) (by decide +kernel) (fun j => TickDesk.fire (j + 1)) t 3
    hk).2 (overlong_eq_false_of_lt (by decide))
  refine ⟨hc, hk, hle, q, r, hrun, he.trans ?_, (hend hle).1, (hend hle).2.1⟩
  decide +kernel

end FieldWalk.Playback
