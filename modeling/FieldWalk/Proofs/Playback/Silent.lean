import FieldWalk.Playback.Clock
import FieldWalk.Proofs.Playback.Run
/-!
# A player that is given no orders

Where the listener only listens, what a start and a tick leave behind can be written down, for any kind
of number: they go through if the arithmetic does. A clock that is waited on fires its timers one after
the other, so what each firing keeps is kept by the waiting.
-/

namespace FieldWalk.Playback

open Numeral

variable {α η σ : Type}

/-- The listener that takes note of an event and gives no orders. -/
def Listener.mute (hear : Event → σ → σ) : Listener α σ :=
  ⟨fun e a => ([], hear e a)⟩

namespace Player

section Cancelled

variable (p : Player α η σ) (source : TickSource η)

@[simp] theorem cancelled_handle : (p.cancelled source).handle = none := by
  unfold cancelled
  split
  · rfl
  · assumption

@[simp] theorem cancelled_running : (p.cancelled source).running = false := by
  unfold cancelled
  split <;> rfl

@[simp] theorem cancelled_interval : (p.cancelled source).interval = p.interval := by
  unfold cancelled
  split <;> rfl

@[simp] theorem cancelled_audience : (p.cancelled source).audience = p.audience := by
  unfold cancelled
  split <;> rfl

end Cancelled

/-- The index to be shown of a player that has paid its debt: the last one once it is reached. -/
def shownIndex (p : Player α η σ) : ℤ :=
  if p.count - 1 ≤ p.frame then max (p.count - 1) 0 else p.frame

theorem shownIndex_bounds {p : Player α η σ} (hc : 1 ≤ p.count) (hf : 0 ≤ p.frame) :
    0 ≤ p.shownIndex ∧ p.shownIndex < p.count := by
  unfold shownIndex
  split <;> omega

variable [Scalar α]

/-! ## Starting -/

/-- The player as a replay begins, with no tick asked for. -/
def rewound (source : TickSource η) (count : ℤ) (p : Player α η σ) : Player α η σ :=
  { p.cancelled source with
    frame := 0, debt := Scalar.ofNat 0, last := none, running := true, count }

/-- A start is refused for its rate, fails at the time of a frame or at a count that is too long, or asks
for the first tick. -/
theorem start_eq (source : TickSource η) (count : ℤ) (fps : Number α) (p : Player α η σ) :
    (start source count fps).run p =
      if fps.le (.int 0) then .error (refusal fps) p
      else match (intervalOf fps : Except (Fault α) α) with
        | .error f => .error f (p.rewound source count)
        | .ok v =>
          let q := { p.rewound source count with interval := v }
          if overlong count then .error .tooLong q else .ok () (q.requested source) := by
  simp only [start]
  cases fps.le (.int 0) with
  | true => rfl
  | false =>
    cases (intervalOf fps : Except (Fault α) α) with
    | error f => rfl
    | ok v => cases overlong count <;> rfl

/-! ## Ticks -/

/-- Taking over the time and paying for frames moves the frame forward, and changes no more than frame,
debt and time. -/
theorem advanced_clocked (time : α) (n : ℤ) (p : Player α η σ) :
    p.frame ≤ ((p.clocked time).advanced n).frame ∧
      (p.clocked time).advanced n =
        { p with
          frame := ((p.clocked time).advanced n).frame
          debt := ((p.clocked time).advanced n).debt
          last := some time } := by
  unfold advanced
  split
  · exact ⟨by simp only [clocked]; omega, rfl⟩
  · exact ⟨Int.le_refl _, rfl⟩

/-- A player that has paid its debt at the end of the tick: it has ended the replay or asked for the
next tick. -/
def passed (source : TickSource η) (hear : Event → σ → σ) (p : Player α η σ) : Player α η σ :=
  if p.count - 1 ≤ p.frame then
    { p with
      frame := p.shownIndex, handle := none, running := false
      audience := hear .finished (hear (.frame p.shownIndex) p.audience) }
  else ({ p with audience := hear (.frame p.shownIndex) p.audience }).requested source

/-- A tick fails where the whole frames in the debt cannot be counted, and goes through otherwise. -/
theorem tick_mute (source : TickSource η) (hear : Event → σ → σ) (time : α) (p : Player α η σ) :
    (tick source (.mute hear) time).run p =
      match (due (p.clocked time).interval (p.clocked time).debt : Except (Fault α) ℤ) with
      | .error f => .error f (p.clocked time)
      | .ok n => .ok () (((p.clocked time).advanced n).passed source hear) := by
  unfold tick
  rw [bind_run (a := modify (clocked time)) (q := p.clocked time) rfl,
    bind_run (a := get) (x := p.clocked time) (q := p.clocked time) rfl]
  cases (due (p.clocked time).interval (p.clocked time).debt : Except (Fault α) ℤ) with
  | error f => rfl
  | ok n =>
    dsimp only
    generalize hq : (p.clocked time).advanced n = q
    rw [bind_run (a := modify (advanced n)) (q := q) (by rw [← hq]; rfl),
      bind_run (a := get) (x := q) (q := q) rfl]
    by_cases hl : q.count - 1 ≤ q.frame
    · rw [if_pos hl, passed, if_pos hl, shownIndex, if_pos hl]
      rfl
    · rw [if_neg hl, passed, if_neg hl, shownIndex, if_neg hl]
      rfl

end Player

/-! ## Waiting -/

namespace Clocked

variable {τ : Type}

/-- What every firing keeps is kept by the waiting. -/
theorem wait_kept (k : Clocked σ) {P : σ → Prop} (ms : ℤ) {s : σ}
    (hs : P (k.setClock ((k.clock s).advance ms) s))
    (hfire : ∀ t h, P t → (k.clock t).isPending h = true →
      P (k.fired h (k.clock t).now (k.setClock ((k.clock t).cancel h) t))) :
    P (k.wait ms s) := by
  refine List.foldlRecOn _ k.fire hs fun t ht h _ => ?_
  dsimp only [fire]
  split
  · rename_i hp
    exact hfire t h ht hp
  · exact ht

/-- A view of the state that fires as the state does waits as it does. -/
theorem wait_map (k : Clocked σ) (l : Clocked τ) (f : σ → τ) (hclock : ∀ s, l.clock (f s) = k.clock s)
    (hset : ∀ c s, l.setClock c (f s) = f (k.setClock c s))
    (hfired : ∀ h t s, l.fired h t (f s) = f (k.fired h t s)) (ms : ℤ) (s : σ) :
    f (k.wait ms s) = l.wait ms (f s) := by
  have hfire : ∀ s h, l.fire (f s) h = f (k.fire s h) := by
    intro s h
    dsimp only [fire]
    rw [hclock, hset, hfired]
    split <;> rfl
  dsimp only [wait]
  rw [hclock, hset, hclock, List.foldl_hom f hfire]

end Clocked

end FieldWalk.Playback
