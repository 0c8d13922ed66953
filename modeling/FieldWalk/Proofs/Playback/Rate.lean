import FieldWalk.Proofs.Numeral.Quotient
import FieldWalk.Proofs.Playback.Silent
import Mathlib.Data.Finset.Option
/-!
# Frame rates that a replay can go on with

A start refuses a rate that is not positive before it has done anything. A rate that is not a number, an
infinite one and an integer beyond the doubles are not refused: the last fails with the replay half set
up, the others begin a replay whose first tick fails. At any rate a count that is too long to be written out
fails with all set up but the first tick. Each time the player is left running with no tick to wait for. At a
finite rate a tick fails exactly if the debt over the time of a frame overflows.
-/

namespace FieldWalk.Playback

open Numeral

variable {α η σ : Type}

namespace Player

/-! ## What fails in a row of actions -/

section
variable {β : Type} {p q r : Player α η σ} {a : Action α η σ β} {f : β → Action α η σ Unit}

theorem bind_error {e : Fault α} (h : a.run p = .error e q) : (a >>= f).run p = .error e q := by
  show EStateM.bind a f p = .error e q
  rw [EStateM.bind, show a p = _ from h]

theorem ok_of_bind {x : Unit} (h : (a >>= f).run p = .ok x r) :
    ∃ y q, a.run p = .ok y q ∧ (f y).run q = .ok x r := by
  cases ha : a.run p with
  | ok y q => exact ⟨y, q, rfl, bind_run ha ▸ h⟩
  | error e q =>
    rw [bind_error ha] at h
    cases h

end

/-! ## Players that are ready -/

section
variable {H : Host η} {hear : Event → σ → σ} {p : Player α η σ}

/-- The player with a tick taken out to fire. -/
def taken (H : Host η) (h : ℕ) (p : Player α η σ) : Player α η σ :=
  { p with host := H.fire h p.host }

/-- The player runs exactly if a tick is stored, and then that tick is pending. -/
structure Ready (H : Host η) (p : Player α η σ) : Prop where
  sound : H.Sound p.host
  running : p.running = p.handle.isSome
  pending : ∀ h ∈ p.handle, h ∈ H.pending p.host

/-- The player runs, and nothing is pending but what was pending before and not stored. -/
def Stuck (H : Host η) (before p : Player α η σ) : Prop :=
  p.running = true ∧ H.pending p.host = H.pending before.host \ before.handle.toFinset

theorem ready_requested (hs : H.Sound p.host) (hr : p.running = true) :
    Ready H (p.requested H.toTickSource) := by
  refine ⟨H.sound_request hs, hr, ?_⟩
  intro h hh
  cases hh
  show (H.request p.host).1 ∈ H.pending (H.request p.host).2
  rw [H.pending_request hs]
  exact Finset.mem_insert_self _ _

theorem ready_passed (hs : H.Sound p.host) (hr : p.running = true) :
    Ready H (p.passed H.toTickSource hear) := by
  unfold Player.passed
  split
  · exact ⟨hs, rfl, nofun⟩
  · exact ready_requested hs hr

theorem passed_interval (source : TickSource η) :
    (p.passed source hear).interval = p.interval := by
  unfold Player.passed
  split <;> rfl

theorem passed_of_last (source : TickSource η) (hl : p.count - 1 ≤ p.frame) :
    (p.passed source hear).handle = none := by
  unfold Player.passed
  rw [if_pos hl]

theorem passed_of_not_last (source : TickSource η) (hl : ¬ p.count - 1 ≤ p.frame) :
    (p.passed source hear).running = p.running ∧ (p.passed source hear).last = p.last ∧
      (p.passed source hear).debt = p.debt := by
  unfold Player.passed
  rw [if_neg hl]
  exact ⟨rfl, rfl, rfl⟩

end

variable [Scalar α] {H : Host η} {hear : Event → σ → σ} {p q : Player α η σ}

/-! ## Firing the stored tick -/

/-- The stored tick fires at a time; nothing happens if none is stored. -/
def fireStored (H : Host η) (l : Listener α σ) (time : α) : Action α η σ Unit := do
  let p ← get
  match p.handle with
  | none => pure ()
  | some h => (Operation.tick h time).perform H l

/-- The stored tick fires at one time after the other. -/
def fireAll (H : Host η) (l : Listener α σ) (times : List α) : Action α η σ Unit :=
  times.forM (fireStored H l)

theorem fireAll_cons (l : Listener α σ) (time : α) (times : List α) :
    fireAll H l (time :: times) = (do
      fireStored H l time
      fireAll H l times) := rfl

theorem fireStored_none {l : Listener α σ} (hh : p.handle = none) (time : α) :
    (fireStored H l time).run p = .ok () p := by
  unfold fireStored
  rw [bind_run (a := get) (x := p) (q := p) rfl, hh]
  rfl

/-- A player that has ended its replay is left alone. -/
theorem fireAll_none {l : Listener α σ} (hh : p.handle = none) (times : List α) :
    (fireAll H l times).run p = .ok () p := by
  induction times with
  | nil => rfl
  | cons time times ih => rw [fireAll_cons, bind_run (fireStored_none hh time), ih]

/-- A stored tick fires as a tick does. -/
theorem fireStored_some (hear : Event → σ → σ) {h : ℕ} (hh : p.handle = some h)
    (hp : h ∈ H.pending p.host) (time : α) :
    (fireStored H (.mute hear) time).run p =
      match (due p.interval (p.clocked time).debt : Except (Fault α) ℤ) with
      | .error f => .error f ((p.taken H h).clocked time)
      | .ok n => .ok () ((((p.taken H h).clocked time).advanced n).passed H.toTickSource hear) := by
  have htick : (fireStored H (.mute hear) time).run p =
      (tick H.toTickSource (.mute hear) time).run (p.taken H h) := by
    unfold fireStored Operation.perform
    rw [bind_run (a := get) (x := p) (q := p) rfl, hh]
    dsimp only
    rw [bind_run (a := get) (x := p) (q := p) rfl, if_pos hp]
    rfl
  rw [htick, tick_mute]
  rfl

/-- A stored tick fails if the frames in the debt cannot be counted, and not otherwise. -/
theorem Ready.fireStored_fails_iff (hp : Ready H p) (hear : Event → σ → σ) (time : α) :
    (∃ f q, (fireStored H (.mute hear) time).run p = .error f q) ↔ p.running = true ∧
      ¬ ∃ n, (due p.interval (p.clocked time).debt : Except (Fault α) ℤ) = .ok n := by
  rw [hp.running]
  cases hh : p.handle with
  | none =>
    rw [fireStored_none hh]
    exact iff_of_false (by rintro ⟨_, _, ⟨⟩⟩) (by simp)
  | some h =>
    rw [fireStored_some hear hh (hp.pending h hh)]
    cases (due p.interval (p.clocked time).debt : Except (Fault α) ℤ) with
    | error f => exact iff_of_true ⟨_, _, rfl⟩ ⟨rfl, nofun⟩
    | ok n => exact iff_of_false (by rintro ⟨_, _, ⟨⟩⟩) (by simp)

/-- A tick that goes through leaves the player ready for the next one. -/
theorem Ready.fired (hp : Ready H p) {time : α}
    (hq : (fireStored H (.mute hear) time).run p = .ok () q) :
    Ready H q ∧ q.interval = p.interval := by
  cases hh : p.handle with
  | none =>
    rw [fireStored_none hh] at hq
    cases hq
    exact ⟨hp, rfl⟩
  | some h =>
    rw [fireStored_some hear hh (hp.pending h hh)] at hq
    split at hq
    · cases hq
    · rename_i n _
      cases hq
      have hr : p.running = true := by rw [hp.running, hh]; rfl
      rw [passed_interval, (advanced_clocked time n (p.taken H h)).2]
      exact ⟨ready_passed (H.sound_fire h hp.sound) hr, rfl⟩

theorem Ready.firedAll {times : List α} (hp : Ready H p)
    (hq : (fireAll H (.mute hear) times).run p = .ok () q) :
    Ready H q ∧ q.interval = p.interval := by
  induction times generalizing p with
  | nil =>
    cases hq
    exact ⟨hp, rfl⟩
  | cons time times ih =>
    obtain ⟨_, r, hfirst, hrest⟩ := ok_of_bind hq
    obtain ⟨hr, hi⟩ := hp.fired hfirst
    obtain ⟨hq', hi'⟩ := ih hr hrest
    exact ⟨hq', hi'.trans hi⟩

/-! ## Starting -/

section
variable (count : ℤ) {fps : Number α} {v : α}

/-- The player set up for a replay at a rate, with no tick asked for. -/
def primed (source : TickSource η) (v : α) (p : Player α η σ) : Player α η σ :=
  { p.rewound source count with interval := Scalar.ofNat 1000 / v }

/-- The player at the beginning of a replay at a rate. -/
def setOff (source : TickSource η) (v : α) (p : Player α η σ) : Player α η σ :=
  (p.primed count source v).requested source

theorem start_refused_run (source : TickSource η) (hle : fps.le (.int 0) = true) :
    (start source count fps).run p = .error (refusal fps) p := by
  rw [start_eq, if_pos hle]

theorem start_beyond_run (source : TickSource η) (hle : fps.le (.int 0) = false)
    (hv : fps.toScalar? = none) :
    (start source count fps).run p = .error .rateBeyondRange (p.rewound source count) := by
  rw [start_eq, hle, intervalOf, hv]
  rfl

theorem start_rate_run (source : TickSource η) (hle : fps.le (.int 0) = false)
    (hv : fps.toScalar? = some v) :
    (start source count fps).run p =
      if overlong count then .error .tooLong (p.primed count source v)
      else .ok () (p.setOff count source v) := by
  rw [start_eq, hle, intervalOf, hv]
  rfl

theorem sound_rewound (hs : H.Sound p.host) :
    H.Sound (p.rewound H.toTickSource count).host := by
  show H.Sound (p.cancelled H.toTickSource).host
  unfold cancelled
  split
  · exact H.sound_cancel _ hs
  · exact hs

theorem pending_rewound (hs : H.Sound p.host) :
    H.pending (p.rewound H.toTickSource count).host = H.pending p.host \ p.handle.toFinset := by
  show H.pending (p.cancelled H.toTickSource).host = _
  unfold cancelled
  split
  · rename_i h hh
    rw [hh, Option.toFinset_some, Finset.sdiff_singleton_eq_erase]
    exact H.pending_cancel h hs
  · rename_i hh
    rw [hh, Option.toFinset_none, Finset.sdiff_empty]

theorem stuck_primed (hs : H.Sound p.host) : Stuck H p (p.primed count H.toTickSource v) :=
  ⟨rfl, pending_rewound count hs⟩

theorem ready_setOff (hs : H.Sound p.host) : Ready H (p.setOff count H.toTickSource v) :=
  ready_requested (p := p.primed count H.toTickSource v) (sound_rewound count hs) rfl

theorem setOff_running (source : TickSource η) : (p.setOff count source v).running = true := rfl

/-- A first tick that fails takes the one tick away that the player waits for. -/
theorem stuck_of_first_tick (hs : H.Sound p.host) {time : α} {f : Fault α}
    (hq : (fireStored H (.mute hear) time).run (p.setOff count H.toTickSource v) = .error f q) :
    Stuck H p q := by
  have hr := sound_rewound count hs
  have hpending : H.pending (p.setOff count H.toTickSource v).host =
      insert (H.request (p.rewound H.toTickSource count).host).1
        (H.pending (p.rewound H.toTickSource count).host) := H.pending_request hr
  rw [fireStored_some hear (p := p.setOff count H.toTickSource v) rfl
    ((ready_setOff count hs).pending _ rfl)] at hq
  split at hq
  · cases hq
    refine ⟨rfl, ?_⟩
    rw [← pending_rewound count hs, ← Finset.erase_insert (H.fresh hr), ← hpending]
    exact H.pending_fire _ (ready_setOff count hs).sound
  · cases hq

end

/-! ## Doubles -/

section
variable {v d : Float}

/-- The frames in a debt can be counted if the time of a frame is not zero and the quotient is finite. -/
theorem due_isOk_iff (interval debt : Float) :
    (∃ n, (due interval debt : Except (Fault Float) ℤ) = .ok n) ↔
      (∀ s, interval.toModel.unpack ≠ .zero s) ∧ (debt / interval).isFinite = true := by
  have hzero : (Scalar.compareInt interval 0 == some Ordering.eq) = true ↔
      ∃ s, interval.toModel.unpack = .zero s :=
    beq_iff_eq.trans (Double.compareDoubleInt_zero_iff interval)
  rw [← Double.floorDouble_isOk_iff, ← not_exists, ← hzero, due]
  split
  · rename_i h0
    exact iff_of_false nofun fun h => h.1 h0
  · rename_i h0
    show _ ↔ _ ∧ ∃ n, Scalar.floor (debt / interval) = .ok n
    cases Scalar.floor (debt / interval) with
    | ok n => exact iff_of_true ⟨n, rfl⟩ ⟨h0, n, rfl⟩
    | error e => exact iff_of_false nofun nofun

/-- At a finite rate nothing is due as long as no time has passed. -/
theorem due_nothing (hv : v.isFinite = true) (hd : d.toModel.unpack = .zero .positive) :
    (due (Scalar.ofNat 1000 / v) d : Except (Fault Float) ℤ) = .ok 0 := by
  obtain ⟨hnan, hzero⟩ := Double.thousand_div hv
  obtain ⟨s, hs⟩ := Double.zero_div_eq_zero hd hnan hzero
  have hfloor : Scalar.floor (d / (Scalar.ofNat 1000 / v)) = .ok 0 := Double.floorDouble_of_zero hs
  have hne : ¬ (Scalar.compareInt (Scalar.ofNat 1000 / v : Float) 0 == some Ordering.eq) = true := by
    intro h0
    obtain ⟨t, ht⟩ := (Double.compareDoubleInt_zero_iff _).1 (beq_iff_eq.1 h0)
    exact hzero t ht
  rw [due, if_neg hne, hfloor]

/-- At a rate that is not finite no debt can be counted in frames. -/
theorem not_due (hv : v.isFinite = false) (d : Float) :
    ¬ ∃ n, (due (Scalar.ofNat 1000 / v) d : Except (Fault Float) ℤ) = .ok n := by
  rw [due_isOk_iff]
  rintro ⟨hzero, hfin⟩
  rcases Double.thousand_div_not_finite hv with hnan | ⟨s, hs⟩
  · have hnan' := Double.isNaN_div_nan d hnan
    rw [((Double.isFinite_iff _).1 hfin).1] at hnan'
    cases hnan'
  · exact hzero s hs

end

section
variable {H : Host η} {p : Player Float η σ} {v t : Float}

/-- At a finite rate the first tick goes through. It ends a replay of one frame or less, and else it
leaves a replay with its time noted and nothing owed. -/
theorem first_tick (hs : H.Sound p.host) (hear : Event → σ → σ) (count : ℤ)
    (hv : v.isFinite = true) (ht : t.isFinite = true) : ∃ q,
      (fireStored H (.mute hear) t).run (p.setOff count H.toTickSource v) = .ok () q ∧
      (count ≤ 1 → q.handle = none) ∧
      (1 < count → q.running = true ∧ q.last = some t ∧ q.debt = Scalar.ofNat 0 + (t - t)) := by
  have hrun := fireStored_some hear (p := p.setOff count H.toTickSource v) rfl
    ((ready_setOff count hs).pending _ rfl) t
  have hdue : (due (p.setOff count H.toTickSource v).interval
      ((p.setOff count H.toTickSource v).clocked t).debt : Except (Fault Float) ℤ) = .ok 0 :=
    due_nothing hv (Double.zero_add_sub_self ht)
  rw [hdue] at hrun
  refine ⟨_, hrun, ?_, ?_⟩
  · intro hc
    exact passed_of_last _ (by show count - 1 ≤ 0; omega)
  · intro hc
    exact passed_of_not_last _ (by show ¬ count - 1 ≤ 0; omega)

/-- The lowest and the highest time. -/
def earliest : Float := -1.7976931348623157e308
def latest : Float := 1.7976931348623157e308

theorem finite_extremes : earliest.isFinite = true ∧ latest.isFinite = true := by
  decide +kernel

/-- From the lowest time to the highest more time passes than can be reckoned with. -/
theorem late_tick_fails {q : Player Float η σ} (hq : Ready H q) (hear : Event → σ → σ)
    (hr : q.running = true) (hl : q.last = some earliest)
    (hd : q.debt = Scalar.ofNat 0 + (earliest - earliest)) :
    ∃ f r, (fireStored H (.mute hear) latest).run q = .error f r := by
  rw [hq.fireStored_fails_iff, due_isOk_iff]
  have hdebt : (q.clocked latest).debt.isInf = true := by
    simp only [clocked, hl, hd]
    decide +kernel
  refine ⟨hr, ?_⟩
  rintro ⟨-, hfin⟩
  rw [Double.isFinite_div_of_isInf hdebt] at hfin
  cases hfin

end

end Player

/-! ## Starting at a rate -/

/-- A start with a rate either is refused and leaves the player as it was, or begins a replay of which
no tick at a finite time fails. -/
def Sturdy [Scalar α] (H : Host η) (hear : Event → σ → σ) (p : Player α η σ) (count : ℤ)
    (fps : Number α) : Prop :=
  match (Player.start H.toTickSource count fps).run p with
  | .error _ q => q = p
  | .ok _ q => q.running = true ∧ Player.Ready H q ∧ ∀ times : List α,
      (∀ t ∈ times, Scalar.isFinite t = true) →
        ∃ r, (Player.fireAll H (.mute hear) times).run q = .ok () r

section
open Player

variable {H : Host η} {p : Player Float η σ} {v : Float}

/-- At a finite rate a replay that is not over with its first tick does not stand all finite times. -/
theorem fireAll_setOff_iff (hs : H.Sound p.host) (hear : Event → σ → σ) (count : ℤ)
    (hv : v.isFinite = true) :
    (∀ times : List Float, (∀ t ∈ times, Scalar.isFinite t = true) →
      ∃ r, (fireAll H (.mute hear) times).run (p.setOff count H.toTickSource v) = .ok () r) ↔
    count ≤ 1 := by
  constructor
  · intro hall
    by_contra hc
    obtain ⟨q, hfirst, -, hmore⟩ := first_tick hs hear count hv finite_extremes.1
    obtain ⟨hr, hl, hd⟩ := hmore (by omega)
    obtain ⟨hq, -⟩ := (ready_setOff count hs).fired hfirst
    obtain ⟨f, r, hfail⟩ := late_tick_fails hq hear hr hl hd
    obtain ⟨r', hr'⟩ := hall [earliest, latest] (by
      intro t ht
      rcases List.mem_cons.1 ht with rfl | ht
      · exact finite_extremes.1
      · rw [List.mem_singleton.1 ht]
        exact finite_extremes.2)
    rw [fireAll_cons, bind_run hfirst, fireAll_cons, bind_error hfail] at hr'
    cases hr'
  · intro hc times htimes
    cases times with
    | nil => exact ⟨_, rfl⟩
    | cons t times =>
      obtain ⟨q, hfirst, hover, -⟩ :=
        first_tick hs hear count hv (htimes t List.mem_cons_self)
      exact ⟨q, by rw [fireAll_cons, bind_run hfirst, fireAll_none (hover hc)]⟩

/-- At a rate that is not finite the first tick fails, and the player waits for nothing. -/
theorem first_tick_sticks (hs : H.Sound p.host) (hear : Event → σ → σ) (count : ℤ)
    (hv : v.isFinite = false) (t : Float) :
    ∃ f q, (fireStored H (.mute hear) t).run (p.setOff count H.toTickSource v) = .error f q ∧
      Stuck H p q := by
  obtain ⟨f, q, hfail⟩ := ((ready_setOff count hs).fireStored_fails_iff hear t).2
    ⟨rfl, not_due hv _⟩
  exact ⟨f, q, hfail, stuck_of_first_tick count hs hfail⟩

/-- A start is sturdy in these cases: its rate is refused; its rate is an integer beyond the range, or its
count too long, and the player is already left as the start would leave it; or its rate is finite and the
first tick ends the replay. -/
theorem sturdy_iff (hs : H.Sound p.host) (hear : Event → σ → σ) (count : ℤ)
    (fps : Number Float) :
    Sturdy H hear p count fps ↔ fps.le (.int 0) = true ∨
      (fps.toScalar? = none ∧ p.rewound H.toTickSource count = p) ∨
      ∃ v ∈ fps.toScalar?, if overlong count then p.primed count H.toTickSource v = p
        else v.isFinite = true ∧ count ≤ 1 := by
  unfold Sturdy
  cases hle : fps.le (.int 0) with
  | true =>
    rw [start_refused_run count H.toTickSource hle]
    exact iff_of_true rfl (.inl rfl)
  | false =>
    cases hv : fps.toScalar? with
    | none =>
      rw [start_beyond_run count H.toTickSource hle hv]
      simp
    | some v =>
      rw [start_rate_run count H.toTickSource hle hv]
      cases hl : overlong count with
      | true => simp
      | false =>
        rw [if_neg Bool.false_ne_true]
        cases hfin : v.isFinite with
        | true =>
          have hiff := fireAll_setOff_iff hs hear count hfin
          simp [setOff_running, ready_setOff count hs, hfin, hiff]
        | false =>
          refine iff_of_false ?_ (by simp [hfin])
          rintro ⟨-, -, hall⟩
          obtain ⟨f, q, hfail, -⟩ := first_tick_sticks hs hear count hfin 0
          obtain ⟨r, hr⟩ := hall [0] (by
            intro t ht
            rw [List.mem_singleton.1 ht]
            decide)
          rw [fireAll_cons, bind_error hfail] at hr
          cases hr

/-- At a finite rate a tick fails exactly if the debt over the time of a frame is not finite. Until then
the player is ready. -/
theorem tick_fails_iff (hs : H.Sound p.host) (hear : Event → σ → σ) (count : ℤ)
    (hv : v.isFinite = true) {times : List Float} {q : Player Float η σ}
    (hq : (fireAll H (.mute hear) times).run (p.setOff count H.toTickSource v) = .ok () q) :
    Ready H q ∧ ∀ t, (∃ f r, (fireStored H (.mute hear) t).run q = .error f r) ↔
      q.running = true ∧ ((q.clocked t).debt / q.interval).isFinite = false := by
  obtain ⟨hready, hi⟩ := (ready_setOff count hs).firedAll hq
  have hzero : ∀ s, q.interval.toModel.unpack ≠ .zero s := by
    rw [hi]
    exact (Double.thousand_div hv).2
  refine ⟨hready, fun t => ?_⟩
  rw [hready.fireStored_fails_iff, due_isOk_iff, ← Bool.not_eq_true]
  simp [hzero]

/-- A start refuses a rate that is not positive and changes nothing. It fails half way at an integer beyond
the range of the doubles and, at any other rate, with a count that is too long to be written out; otherwise
it begins a replay, and at a rate that is infinite or not a number the first tick fails. All these leave the
player running with nothing to wait for. At a finite rate the first tick goes through, and a later one fails
exactly if the debt over the time of a frame overflows, which it does for some finite times unless the first
tick ends the replay. -/
theorem sturdy_iff_refused_or_over (H : Host η) (hear : Event → σ → σ) (p : Player Float η σ)
    (hs : H.Sound p.host) (count : ℤ) (fps : Number Float) :
    (Sturdy H hear p count fps ↔ fps.le (.int 0) = true ∨
      (fps.toScalar? = none ∧ p.rewound H.toTickSource count = p) ∨
      ∃ v ∈ fps.toScalar?, if overlong count then p.primed count H.toTickSource v = p
        else v.isFinite = true ∧ count ≤ 1) ∧
    (fps.le (.int 0) = true →
      (start H.toTickSource count fps).run p = .error (refusal fps) p) ∧
    (fps.le (.int 0) = false → fps.toScalar? = none → ∃ q,
      (start H.toTickSource count fps).run p = .error .rateBeyondRange q ∧ Stuck H p q) ∧
    (fps.le (.int 0) = false → fps.toScalar? ≠ none → overlong count = true → ∃ q,
      (start H.toTickSource count fps).run p = .error .tooLong q ∧ Stuck H p q) ∧
    (fps.le (.int 0) = false → ∀ v ∈ fps.toScalar?, overlong count = false → ∃ q,
      (start H.toTickSource count fps).run p = .ok () q ∧ q.running = true ∧ Ready H q ∧
      (v.isFinite = false → ∀ t, ∃ f r,
        (fireStored H (.mute hear) t).run q = .error f r ∧ Stuck H p r) ∧
      (v.isFinite = true →
        (∀ t, t.isFinite = true → ∃ r, (fireStored H (.mute hear) t).run q = .ok () r) ∧
        ∀ times r, (fireAll H (.mute hear) times).run q = .ok () r → Ready H r ∧
          ∀ t, (∃ f r', (fireStored H (.mute hear) t).run r = .error f r') ↔
            r.running = true ∧ ((r.clocked t).debt / r.interval).isFinite = false)) := by
  refine ⟨sturdy_iff hs hear count fps, start_refused_run count _, fun hle hv => ?_,
    fun hle hv hl => ?_, fun hle v hv hl => ?_⟩
  · exact ⟨_, start_beyond_run count _ hle hv, rfl, pending_rewound count hs⟩
  · obtain ⟨v, hv⟩ := Option.ne_none_iff_exists'.1 hv
    exact ⟨_, (start_rate_run count _ hle hv).trans (if_pos hl), stuck_primed count hs⟩
  · have hrun : (start H.toTickSource count fps).run p = .ok () (p.setOff count H.toTickSource v) :=
      (start_rate_run count _ hle hv).trans (if_neg (by rw [hl]; exact Bool.false_ne_true))
    refine ⟨_, hrun, rfl, ready_setOff count hs, fun hfin t => ?_,
      fun hfin => ⟨fun t ht => ?_, fun times r hr => ?_⟩⟩
    · exact first_tick_sticks hs hear count hfin t
    · obtain ⟨r, hr, -⟩ := first_tick hs hear count hfin ht
      exact ⟨r, hr⟩
    · exact tick_fails_iff hs hear count hfin hr

/-- A player that has begun to show thirty frames at ten a second. -/
def playing : Player Float TickDesk Unit :=
  (Player.new {} ()).left (start TickDesk.host.toTickSource 30 (.int 10))

theorem sound_playing : TickDesk.host.Sound playing.host := by
  show playing.host.pending.Nodup ∧ ∀ h ∈ playing.host.pending, h ≤ playing.host.issued
  decide +kernel

theorem huge_beyond_range : (Number.int (10 ^ 400) : Number Float).toScalar? = none := by
  rw [← Option.isNone_iff_eq_none]
  decide +kernel

/-- What becomes of the player at a rate beyond the range, at one without value, with a count that is too
long, and at a usual rate. -/
theorem playing_sturdy_or_stuck :
    TickDesk.host.Sound playing.host ∧
    (∃ q, (start TickDesk.host.toTickSource 30 (.int (10 ^ 400))).run playing =
      .error .rateBeyondRange q ∧ Stuck TickDesk.host playing q) ∧
    (∃ q f r, (start TickDesk.host.toTickSource 30 (.real Scalar.nan)).run playing = .ok () q ∧
      (fireStored TickDesk.host (.mute fun _ _ => ()) 0).run q = .error f r ∧
      Stuck TickDesk.host playing r) ∧
    (∃ q, (start TickDesk.host.toTickSource leastOverlong (.int 30)).run playing =
      .error .tooLong q ∧ Stuck TickDesk.host playing q) ∧
    Sturdy TickDesk.host (fun _ _ => ()) playing 1 (.real 10) := by
  have hsturdy := sturdy_iff_refused_or_over TickDesk.host (fun _ _ => ()) playing sound_playing
  have hnan : Float.isFinite (Scalar.nan : Float) = false := by decide +kernel
  refine ⟨sound_playing, (hsturdy 30 _).2.2.1 (by decide +kernel) huge_beyond_range, ?_, ?_, ?_⟩
  · obtain ⟨q, hq, -, -, hfail, -⟩ :=
      (hsturdy 30 (.real Scalar.nan)).2.2.2.2 (by decide +kernel) Scalar.nan rfl
        (overlong_eq_false_of_lt (by decide))
    obtain ⟨f, r, hr, hstuck⟩ := hfail hnan 0
    exact ⟨q, f, r, hq, hr, hstuck⟩
  · exact (hsturdy leastOverlong (.int 30)).2.2.2.1 (by decide +kernel)
      (Option.isSome_iff_ne_none.1 (by decide +kernel)) overlong_leastOverlong
  · have hshort : overlong 1 = false := overlong_eq_false_of_lt (by decide)
    exact (hsturdy 1 (.real 10)).1.2 (.inr (.inr ⟨10, rfl, by
      rw [hshort]
      exact ⟨by decide +kernel, le_rfl⟩⟩))

/-- A rate beyond the range fails half way, one without value at the first tick, and a count that is too long
before the first tick is asked for. The player is left running with no tick pending. -/
theorem playing_wedged :
    let q := playing.left (start TickDesk.host.toTickSource 30 (.int (10 ^ 400)))
    let r := (playing.left (start TickDesk.host.toTickSource 30 (.real Scalar.nan))).left
      (fireStored TickDesk.host (.mute fun _ _ => ()) 0)
    let s := playing.left (start TickDesk.host.toTickSource leastOverlong (.int 30))
    playing.running = true ∧ TickDesk.host.pending playing.host = {1} ∧
    q.running = true ∧ TickDesk.host.pending q.host = ∅ ∧
    r.running = true ∧ TickDesk.host.pending r.host = ∅ ∧
    s.running = true ∧ TickDesk.host.pending s.host = ∅ ∧
    ¬ Sturdy TickDesk.host (fun _ _ => ()) playing 30 (.int (10 ^ 400)) := by
  intro q r s
  refine ⟨?_, ?_, ?_, ?_, ?_, ?_, ?_, ?_, ?_⟩
  · decide +kernel
  · decide +kernel
  · decide +kernel
  · decide +kernel
  · decide +kernel
  · decide +kernel
  · decide +kernel
  · decide +kernel
  · have hle : (Number.int (10 ^ 400) : Number Float).le (.int 0) = false := by decide +kernel
    have hstored : playing.handle = some 1 := by decide +kernel
    unfold Sturdy
    rw [start_beyond_run 30 _ hle huge_beyond_range]
    intro (h : playing.rewound TickDesk.host.toTickSource 30 = playing)
    have hhandle := congrArg Player.handle h
    rw [hstored, rewound, cancelled_handle] at hhandle
    cases hhandle

end

end FieldWalk.Playback
