import FieldWalk.Proofs.Numeral.Exact
import FieldWalk.Proofs.Playback.Silent
import Mathlib.Tactic.FieldSimp
import Mathlib.Tactic.Ring
/-!
# What starting, cancelling and a tick do

On exact numbers a cancel, a start with a positive rate and a count that can be written out, and a tick
of a started player always go through. One equation says what each leaves behind, and later proofs use
these equations and never look at the actions again.
-/

namespace FieldWalk.Playback

open Numeral

variable {η σ : Type}

/-- An order that can be carried out: a rate is positive, a count not too long to be written out. -/
def Command.Valid : Command ℚ → Prop
  | .start count fps => 0 < fps.toScalar ∧ overlong count = false
  | .cancel => True

namespace Player

/-! ## Orders -/

section Orders

variable (source : TickSource η) (p : Player ℚ η σ)

/-- The player with a replay set up and its first tick not yet asked for. -/
def opened (count : ℤ) (fps : Number ℚ) : Player ℚ η σ :=
  { p.cancelled source with
    frame := 0, debt := 0, last := none, running := true, count, interval := 1000 / fps.toScalar }

/-- The player at the beginning of a replay. -/
def begun (count : ℤ) (fps : Number ℚ) : Player ℚ η σ :=
  (p.opened source count fps).requested source

/-- The player after an order that is carried out. -/
def obeyed : Command ℚ → Player ℚ η σ
  | .start count fps => p.begun source count fps
  | .cancel => p.cancelled source

theorem start_positive (count : ℤ) {fps : Number ℚ} (h : 0 < fps.toScalar) :
    (start source count fps).run p =
      if overlong count then .error .tooLong (p.opened source count fps)
      else .ok () (p.begun source count fps) := by
  have hle : fps.le (.int 0) = false := by
    rw [Bool.eq_false_iff, Ne, Exact.le_zero_iff]
    exact h.not_ge
  have hi : intervalOf fps = .ok (1000 / fps.toScalar) := by
    rw [intervalOf, Exact.toScalar?_eq, Exact.ofNat_eq]
    rfl
  have h0 : (Scalar.ofNat 0 : ℚ) = 0 := by rw [Exact.ofNat_eq, Nat.cast_zero]
  rw [start_eq, hle, hi, rewound, h0]
  rfl

theorem start_run {count : ℤ} {fps : Number ℚ} (h : (Command.start count fps).Valid) :
    (start source count fps).run p = .ok () (p.begun source count fps) := by
  rw [start_positive source p count h.1, h.2]
  rfl

/-- A rate that is not positive is refused before anything is done. -/
theorem start_refused (count : ℤ) {fps : Number ℚ} (h : fps.toScalar ≤ 0) :
    (start source count fps).run p = .error (refusal fps) p := by
  rw [start_eq, if_pos ((Exact.le_zero_iff fps).2 h)]

theorem obey_run {k : Command ℚ} (h : k.Valid) :
    (obey source k).run p = .ok () (p.obeyed source k) := by
  cases k with
  | start count fps => exact start_run source p h
  | cancel => rfl

theorem obeyAll_run {ks : List (Command ℚ)} (h : ∀ k ∈ ks, k.Valid) :
    (ks.forM (obey source)).run p = .ok () (ks.foldl (obeyed source) p) := by
  induction ks generalizing p with
  | nil => rfl
  | cons k ks ih =>
    obtain ⟨hk, hks⟩ := List.forall_mem_cons.1 h
    rw [List.foldl_cons, ← ih _ hks]
    exact bind_run (f := fun _ => ks.forM (obey source)) (obey_run source p hk)

end Orders

/-! ## Calls -/

section Calls

variable (source : TickSource η) (c : Callbacks ℚ σ) (p : Player ℚ η (σ × List (Exchange ℚ)))

/-- The player after a call, the orders that answered it carried out. -/
def answered (e : Event) : Player ℚ η (σ × List (Exchange ℚ)) :=
  (p.orders c e).foldl (obeyed source) (p.told c e)

theorem emit_run {e : Event} (h : ∀ k ∈ p.orders c e, k.Valid) :
    (emit source c.listener e).run p = .ok () (p.answered source c e) :=
  obeyAll_run source _ h

theorem answered_silent {e : Event} (h : p.orders c e = []) :
    p.answered source c e = p.told c e := by
  rw [answered, h]
  rfl

end Calls

/-! ## Ticks -/

section Ticks

variable (time : ℚ) (p : Player ℚ η σ)

/-- The player at a time, all whole frames in the debt paid. -/
def paid : Player ℚ η σ :=
  (p.clocked time).advanced ⌊(p.clocked time).debt / p.interval⌋

/-- The index shown at a time: the last one once it is reached. -/
def index : ℤ :=
  if p.count - 1 ≤ (p.paid time).frame then max (p.count - 1) 0 else (p.paid time).frame

/-- The player as it shows a frame at a time. -/
def showing : Player ℚ η σ :=
  { p.paid time with frame := p.index time }

/-- The player at the end of a replay. -/
def stopped : Player ℚ η σ :=
  { p with handle := none, running := false }

theorem lastIndex_le_index : p.count - 1 ≤ p.index time ↔ p.count - 1 ≤ (p.paid time).frame := by
  unfold index
  split
  · rename_i h
    exact iff_of_true (le_max_left _ _) h
  · exact Iff.rfl

theorem due_run {interval : ℚ} (h : 0 < interval) (debt : ℚ) :
    due interval debt = .ok ⌊debt / interval⌋ := by
  have hne : (Scalar.compareInt interval 0 == some Ordering.eq) = false := by
    show (some (compare interval ((0 : ℤ) : ℚ)) == some Ordering.eq) = false
    rw [Int.cast_zero, compare_gt_iff_gt.2 h]
    rfl
  rw [due, hne]
  rfl

theorem paid_eq : p.paid time =
    { p with frame := (p.paid time).frame, debt := (p.paid time).debt, last := some time } := by
  unfold paid advanced
  split <;> rfl

theorem showing_eq : p.showing time =
    { p with frame := p.index time, debt := (p.paid time).debt, last := some time } := by
  rw [showing, paid_eq]

@[simp] theorem showing_host : (p.showing time).host = p.host := by rw [showing_eq]

@[simp] theorem showing_running : (p.showing time).running = p.running := by rw [showing_eq]

/-- A tick shows a frame, and then it ends the replay or asks for the next tick. -/
theorem tick_run (source : TickSource η) (listener : Listener ℚ σ) (h : 0 < p.interval) :
    (tick source listener time).run p =
      (do
        emit source listener (.frame (p.index time))
        if p.count - 1 ≤ p.index time then
          modify stopped
          emit source listener .finished
        else modify (requested source) : Action ℚ η σ Unit).run (p.showing time) := by
  have hd : due (p.clocked time).interval (p.clocked time).debt =
      .ok ⌊(p.clocked time).debt / p.interval⌋ := due_run h _
  have hcount : (p.paid time).count = p.count := by rw [paid_eq]
  unfold tick
  rw [bind_run (a := modify (clocked time)) (q := p.clocked time) rfl,
    bind_run (a := get) (x := p.clocked time) (q := p.clocked time) rfl]
  simp only [hd]
  rw [bind_run (a := modify (advanced _)) (q := p.paid time) rfl,
    bind_run (a := get) (x := p.paid time) (q := p.paid time) rfl, hcount]
  by_cases hl : p.count - 1 ≤ (p.paid time).frame
  · have hi : p.index time = max (p.count - 1) 0 := if_pos hl
    rw [if_pos hl, if_pos ((lastIndex_le_index time p).2 hl), bind_run (q := p.showing time)]
    · rw [hi]
      rfl
    · rw [showing, hi]
      rfl
  · have hi : p.index time = (p.paid time).frame := if_neg hl
    rw [if_neg hl, if_neg (mt (lastIndex_le_index time p).1 hl), showing, hi]

end Ticks

section Ticked

variable (source : TickSource η) (c : Callbacks ℚ σ) (time : ℚ)
  (p : Player ℚ η (σ × List (Exchange ℚ)))

/-- The player once a frame has been shown. -/
def shown : Player ℚ η (σ × List (Exchange ℚ)) :=
  (p.showing time).answered source c (.frame (p.index time))

/-- The player after a tick. -/
def ticked : Player ℚ η (σ × List (Exchange ℚ)) :=
  if p.count - 1 ≤ p.index time then (p.shown source c time).stopped.answered source c .finished
  else (p.shown source c time).requested source

/-- A tick whose frame is answered with orders that can be carried out. -/
theorem tick_shown (hi : 0 < p.interval)
    (hk : ∀ k ∈ (p.showing time).orders c (.frame (p.index time)), k.Valid) :
    (tick source c.listener time).run p =
      (if p.count - 1 ≤ p.index time then do
        modify stopped
        emit source c.listener .finished
      else modify (requested source) :
        Action ℚ η (σ × List (Exchange ℚ)) Unit).run (p.shown source c time) := by
  rw [tick_run time p source _ hi]
  exact bind_run (emit_run source c _ hk)

theorem ticked_run (hc : c.Give Command.Valid) (h : 0 < p.interval) :
    (tick source c.listener time).run p = .ok () (p.ticked source c time) := by
  rw [tick_shown source c time p h (orders_of_give _ hc _), ticked]
  by_cases hl : p.count - 1 ≤ p.index time
  · rw [if_pos hl, if_pos hl,
      bind_run (a := modify stopped) (q := (p.shown source c time).stopped) rfl]
    exact emit_run source c _ (orders_of_give _ hc .finished)
  · rw [if_neg hl, if_neg hl]
    rfl

/-- A tick whose frame is answered with no order. -/
theorem shown_silent (hq : p.orders c (.frame (p.index time)) = []) :
    p.shown source c time = (p.showing time).told c (.frame (p.index time)) := by
  have ho : (p.showing time).orders c (.frame (p.index time)) = [] := by
    rw [showing_eq]
    exact hq
  exact answered_silent source c _ ho

end Ticked

end Player

end FieldWalk.Playback
