import FieldWalk.Proofs.Playback.Tick
import Mathlib.Data.Finset.Option
/-!
# The steps of a run

An operation carries out an order, is refused, fails half way at a count that is too long, finds no tick
pending, or fires a tick; a step is one of the five. Under each the host stays sound and the interval of a
started player positive, so no tick fails, and what was heard only grows. Without a pending tick nothing
is heard before the next replay begins.
-/

namespace FieldWalk.Playback

open Numeral

variable {η σ : Type} {H : Host η}

namespace Player

/-! ## Orders and the pending ticks -/

section Orders

variable (p : Player ℚ η σ) (source : TickSource η)

theorem obeyed_audience (k : Command ℚ) : (p.obeyed source k).audience = p.audience := by
  cases k with
  | start count fps => exact cancelled_audience p source
  | cancel => exact cancelled_audience p source

theorem obeyAll_audience (ks : List (Command ℚ)) :
    (ks.foldl (obeyed source) p).audience = p.audience := by
  induction ks generalizing p with
  | nil => rfl
  | cons k ks ih => rw [List.foldl_cons, ih, obeyed_audience]

end Orders

section Pending

variable {p : Player ℚ η σ}

theorem sound_cancelled (hs : H.Sound p.host) : H.Sound (p.cancelled H.toTickSource).host := by
  unfold cancelled
  split
  · exact H.sound_cancel _ hs
  · exact hs

theorem pending_cancelled (hs : H.Sound p.host) :
    H.pending (p.cancelled H.toTickSource).host = H.pending p.host \ p.handle.toFinset := by
  unfold cancelled
  split
  · rename_i h hh
    rw [hh, Option.toFinset_some, Finset.sdiff_singleton_eq_erase]
    exact H.pending_cancel h hs
  · rename_i hh
    rw [hh, Option.toFinset_none, Finset.sdiff_empty]

theorem sound_obeyed (hs : H.Sound p.host) (k : Command ℚ) :
    H.Sound (p.obeyed H.toTickSource k).host := by
  cases k with
  | start count fps => exact H.sound_request (sound_cancelled hs)
  | cancel => exact sound_cancelled hs

theorem sound_foldl (hs : H.Sound p.host) (ks : List (Command ℚ)) :
    H.Sound (ks.foldl (obeyed H.toTickSource) p).host := by
  induction ks generalizing p with
  | nil => exact hs
  | cons k ks ih => exact ih (sound_obeyed hs k)

end Pending

/-! ## Ticks never fail -/

/-- The host is sound and the interval positive, so that a tick goes through. -/
structure Going (H : Host η) (p : Player ℚ η σ) : Prop where
  sound : H.Sound p.host
  interval : 0 < p.interval

/-- The host is sound, and where a tick is pending the interval is positive. -/
structure Fit (H : Host η) (p : Player ℚ η σ) : Prop where
  sound : H.Sound p.host
  interval : (H.pending p.host).Nonempty → 0 < p.interval

theorem Going.fit {p : Player ℚ η σ} (hp : Going H p) : Fit H p :=
  ⟨hp.sound, fun _ => hp.interval⟩

theorem fit_new (s : σ) : Fit H (.new H.start s) where
  sound := H.sound_start
  interval h := absurd H.pending_start h.ne_empty

theorem going_opened {p : Player ℚ η σ} (hs : H.Sound p.host) (count : ℤ) {fps : Number ℚ}
    (h : 0 < fps.toScalar) : Going H (p.opened H.toTickSource count fps) :=
  ⟨sound_cancelled hs, div_pos (by norm_num) h⟩

theorem going_begun {p : Player ℚ η σ} (hs : H.Sound p.host) (count : ℤ) {fps : Number ℚ}
    (h : 0 < fps.toScalar) : Going H (p.begun H.toTickSource count fps) :=
  ⟨sound_obeyed hs (.start count fps), div_pos (by norm_num) h⟩

theorem Going.obeyed {p : Player ℚ η σ} (hp : Going H p) {k : Command ℚ} (hk : k.Valid) :
    Going H (p.obeyed H.toTickSource k) := by
  cases k with
  | start count fps => exact going_begun hp.sound count hk.1
  | cancel => exact ⟨sound_cancelled hp.sound, (cancelled_interval p _).symm ▸ hp.interval⟩

theorem Fit.obeyed {p : Player ℚ η σ} (hp : Fit H p) {k : Command ℚ} (hk : k.Valid) :
    Fit H (p.obeyed H.toTickSource k) := by
  cases k with
  | start count fps => exact (going_begun hp.sound count hk.1).fit
  | cancel =>
    refine ⟨sound_cancelled hp.sound, fun h => ?_⟩
    -- what is pending after a cancel was pending before it
    have hn : (H.pending p.host \ p.handle.toFinset).Nonempty := pending_cancelled hp.sound ▸ h
    exact (cancelled_interval p _).symm ▸ hp.interval (hn.mono Finset.sdiff_subset)

theorem Going.obeyAll {p : Player ℚ η σ} (hp : Going H p) {ks : List (Command ℚ)}
    (hks : ∀ k ∈ ks, k.Valid) : Going H (ks.foldl (Player.obeyed H.toTickSource) p) := by
  induction ks generalizing p with
  | nil => exact hp
  | cons k ks ih =>
    obtain ⟨hk, hks⟩ := List.forall_mem_cons.1 hks
    exact ih (hp.obeyed hk) hks

section Ticked

variable {c : Callbacks ℚ σ} {p : Player ℚ η (σ × List (Exchange ℚ))}

theorem Going.answered (hp : Going H p) (hc : c.Give Command.Valid) (e : Event) :
    Going H (p.answered H.toTickSource c e) := by
  have ht : Going H (p.told c e) := ⟨hp.sound, hp.interval⟩
  exact ht.obeyAll (p.orders_of_give hc e)

theorem Going.shown (hp : Going H p) (hc : c.Give Command.Valid) (time : ℚ) :
    Going H (p.shown H.toTickSource c time) := by
  have hs : Going H (p.showing time) := by
    rw [showing_eq]
    exact ⟨hp.sound, hp.interval⟩
  exact hs.answered hc _

theorem sound_shown (hs : H.Sound p.host) (time : ℚ) :
    H.Sound (p.shown H.toTickSource c time).host := by
  unfold Player.shown Player.answered
  apply sound_foldl
  simpa [told] using hs

theorem Going.ticked (hp : Going H p) (hc : c.Give Command.Valid) (time : ℚ) :
    Going H (p.ticked H.toTickSource c time) := by
  have hs := hp.shown hc time
  unfold Player.ticked
  split
  · have he : Going H (p.shown H.toTickSource c time).stopped := ⟨hs.sound, hs.interval⟩
    exact he.answered hc _
  · exact ⟨H.sound_request hs.sound, hs.interval⟩

end Ticked

/-! ## What is heard -/

section Heard

variable (source : TickSource η) (c : Callbacks ℚ σ) (p : Player ℚ η (σ × List (Exchange ℚ)))

theorem heard_obeyed (k : Command ℚ) : (p.obeyed source k).heard = p.heard :=
  congrArg Prod.snd (obeyed_audience p source k)

theorem heard_answered (e : Event) :
    (p.answered source c e).heard = p.heard ++ p.exchange c e := by
  rw [← heard_told]
  exact congrArg Prod.snd (obeyAll_audience _ source _)

theorem exchange_frame (i : ℤ) : p.exchange c (.frame i) = [⟨.frame i, p.orders c (.frame i)⟩] := rfl

theorem exchange_finished : (p.exchange c .finished).map (·.event) = c.ending := by
  unfold exchange Callbacks.ending
  show List.map _ (if c.finished.isSome = true then _ else _) = _
  split <;> rfl

theorem heard_shown (time : ℚ) :
    (p.shown source c time).heard =
      p.heard ++ [⟨.frame (p.index time), p.orders c (.frame (p.index time))⟩] := by
  rw [shown, heard_answered, exchange_frame, showing_eq]
  rfl

theorem heard_ticked (time : ℚ) :
    (p.ticked source c time).heard =
      p.heard ++ ⟨.frame (p.index time), p.orders c (.frame (p.index time))⟩ ::
        if p.count - 1 ≤ p.index time then (p.shown source c time).stopped.exchange c .finished
        else [] := by
  unfold ticked
  split
  · rw [heard_answered]
    show (p.shown source c time).heard ++ _ = _
    rw [heard_shown, List.append_assoc]
    rfl
  · exact heard_shown source c p time

end Heard

/-! ## Steps -/

/-- The player with a pending tick taken out to fire. -/
def fired (H : Host η) (h : ℕ) (p : Player ℚ η σ) : Player ℚ η σ :=
  { p with host := H.fire h p.host }

/-- What an operation can do to a player. -/
inductive Outcome (H : Host η) (c : Callbacks ℚ σ) (p : Player ℚ η (σ × List (Exchange ℚ))) :
    Operation ℚ → Player ℚ η (σ × List (Exchange ℚ)) → Prop where
  | obeyed {k : Command ℚ} (hk : k.Valid) : Outcome H c p (.order k) (p.obeyed H.toTickSource k)
  | refused {count : ℤ} {fps : Number ℚ} (h : fps.toScalar ≤ 0) :
      Outcome H c p (.order (.start count fps)) p
  | broken {count : ℤ} {fps : Number ℚ} (h : 0 < fps.toScalar) (hl : overlong count = true) :
      Outcome H c p (.order (.start count fps)) (p.opened H.toTickSource count fps)
  | absent {h : ℕ} {time : ℚ} (hh : h ∉ H.pending p.host) : Outcome H c p (.tick h time) p
  | ticked {h : ℕ} {time : ℚ} (hh : h ∈ H.pending p.host) (hi : 0 < p.interval) :
      Outcome H c p (.tick h time) ((p.fired H h).ticked H.toTickSource c time)

variable {c : Callbacks ℚ σ} {p : Player ℚ η (σ × List (Exchange ℚ))}

theorem perform_order {k : Command ℚ} (hk : k.Valid) :
    ((Operation.order k).perform H c.listener).run p = .ok () (p.obeyed H.toTickSource k) :=
  obey_run H.toTickSource p hk

theorem perform_refused (count : ℤ) {fps : Number ℚ} (h : fps.toScalar ≤ 0) :
    ((Operation.order (.start count fps)).perform H c.listener).run p = .error (refusal fps) p :=
  start_refused H.toTickSource p count h

/-- A start whose count is too long to be written out fails when it has set everything up but the first
tick. -/
theorem perform_broken {count : ℤ} {fps : Number ℚ} (h : 0 < fps.toScalar)
    (hl : overlong count = true) :
    ((Operation.order (.start count fps)).perform H c.listener).run p =
      .error .tooLong (p.opened H.toTickSource count fps) :=
  (start_positive H.toTickSource p count h).trans (if_pos hl)

theorem perform_absent {h : ℕ} (hh : h ∉ H.pending p.host) (time : ℚ) :
    ((Operation.tick h time).perform H c.listener).run p = .ok () p := by
  unfold Operation.perform
  rw [bind_run (a := get) (x := p) (q := p) rfl, if_neg hh]
  rfl

theorem perform_tick (hc : c.Give Command.Valid) {h : ℕ} (hh : h ∈ H.pending p.host)
    (hi : 0 < p.interval) (time : ℚ) :
    ((Operation.tick h time).perform H c.listener).run p =
      .ok () ((p.fired H h).ticked H.toTickSource c time) := by
  unfold Operation.perform
  rw [bind_run (a := get) (x := p) (q := p) rfl, if_pos hh]
  show (tick H.toTickSource c.listener time).run (p.fired H h) = _
  exact ticked_run H.toTickSource c time _ hc hi

theorem step_order {k : Command ℚ} (hk : k.Valid) :
    p.step H c (.order k) = p.obeyed H.toTickSource k := by
  rw [step, left, perform_order hk]

theorem step_tick (hc : c.Give Command.Valid) {h : ℕ} (hh : h ∈ H.pending p.host)
    (hi : 0 < p.interval) (time : ℚ) :
    p.step H c (.tick h time) = (p.fired H h).ticked H.toTickSource c time := by
  rw [step, left, perform_tick hc hh hi]

theorem step_outcome (hc : c.Give Command.Valid) (hp : Fit H p) (o : Operation ℚ) :
    Outcome H c p o (p.step H c o) := by
  cases o with
  | order k =>
    by_cases hk : k.Valid
    · rw [step_order hk]
      exact .obeyed hk
    · cases k with
      | cancel => exact absurd trivial hk
      | start count fps =>
        by_cases h : 0 < fps.toScalar
        · have hl : overlong count = true := Bool.eq_true_of_not_eq_false fun hl => hk ⟨h, hl⟩
          rw [step, left, perform_broken h hl]
          exact .broken h hl
        · rw [step, left, perform_refused count (not_lt.1 h)]
          exact .refused (not_lt.1 h)
  | tick h time =>
    by_cases hh : h ∈ H.pending p.host
    · have hi := hp.interval ⟨h, hh⟩
      rw [step_tick hc hh hi]
      exact .ticked hh hi
    · rw [step, left, perform_absent hh]
      exact .absent hh

/-- What is heard at an operation is nothing or what a tick shows. -/
theorem heard_step (hc : c.Give Command.Valid) (hp : Fit H p) (o : Operation ℚ) :
    (p.step H c o).heard = p.heard ∨
      ∃ h time, o = .tick h time ∧ h ∈ H.pending p.host ∧
        p.step H c o = (p.fired H h).ticked H.toTickSource c time := by
  have h := step_outcome hc hp o
  generalize p.step H c o = q at h ⊢
  cases h with
  | obeyed => exact .inl (heard_obeyed _ p _)
  | @broken count fps => exact .inl (heard_obeyed _ p (.start count fps))
  | refused | absent => exact .inl rfl
  | @ticked h time hh => exact .inr ⟨h, time, rfl, hh, rfl⟩

/-- An order is not heard. -/
theorem heard_order (hc : c.Give Command.Valid) (hp : Fit H p) (k : Command ℚ) :
    (p.step H c (.order k)).heard = p.heard := by
  obtain h | ⟨h, time, ho, -⟩ := heard_step hc hp (.order k)
  · exact h
  · cases ho

/-- An operation at which a frame is heard is a tick that shows it. -/
theorem tick_of_heard (hc : c.Give Command.Valid) (hp : Fit H p) {o : Operation ℚ} {i : ℤ}
    {ks : List (Command ℚ)} {rest : List (Exchange ℚ)}
    (h : (p.step H c o).heard = p.heard ++ ⟨.frame i, ks⟩ :: rest) :
    ∃ h time, h ∈ H.pending p.host ∧
      p.step H c o = (p.fired H h).ticked H.toTickSource c time ∧ i = (p.fired H h).index time ∧
      ks = p.orders c (.frame i) ∧
      rest = if p.count - 1 ≤ i then
        ((p.fired H h).shown H.toTickSource c time).stopped.exchange c .finished else [] := by
  obtain h0 | ⟨n, time, -, hn, hq⟩ := heard_step hc hp o
  · rw [h0] at h
    exact absurd (List.self_eq_append_right.1 h) (List.cons_ne_nil _ _)
  · rw [hq, heard_ticked] at h
    obtain ⟨hx, hrest⟩ := List.cons.inj (List.append_cancel_left h)
    injection hx with he hk
    injection he with hi
    subst hi
    exact ⟨n, time, hn, hq, rfl, hk.symm, hrest.symm⟩

theorem Fit.step (hc : c.Give Command.Valid) (hp : Fit H p) (o : Operation ℚ) :
    Fit H (p.step H c o) := by
  have h := step_outcome hc hp o
  generalize p.step H c o = q at h ⊢
  cases h with
  | obeyed hk => exact hp.obeyed hk
  | refused | absent => exact hp
  | broken h => exact (going_opened hp.sound _ h).fit
  | @ticked h time hh hi =>
    have hg : Going H (p.fired H h) := ⟨H.sound_fire h hp.sound, hi⟩
    exact (hg.ticked hc time).fit

/-- What an operation adds to what was heard. -/
theorem heard_grows (hc : c.Give Command.Valid) (hp : Fit H p) (o : Operation ℚ) :
    ∃ new, (p.step H c o).heard = p.heard ++ new := by
  rcases heard_step hc hp o with h | ⟨h, time, -, -, hq⟩
  · exact ⟨[], by rw [h, List.append_nil]⟩
  · exact ⟨_, by rw [hq, heard_ticked]; rfl⟩

theorem fit_after (hc : c.Give Command.Valid) (hp : Fit H p) (ops : List (Operation ℚ)) :
    Fit H (p.after H c ops) := by
  induction ops generalizing p with
  | nil => exact hp
  | cons o ops ih => exact ih (hp.step hc o)

theorem heard_after (hc : c.Give Command.Valid) (hp : Fit H p) (ops : List (Operation ℚ)) :
    ∃ new, (p.after H c ops).heard = p.heard ++ new := by
  induction ops generalizing p with
  | nil => exact ⟨[], by rw [after_nil, List.append_nil]⟩
  | cons o ops ih =>
    rcases heard_grows hc hp o with ⟨new, hnew⟩
    rcases ih (hp.step hc o) with ⟨more, hmore⟩
    exact ⟨new ++ more, by rw [after_cons, hmore, hnew, List.append_assoc]⟩

end Player

/-! ## Players without a tick -/

/-- The operation begins a replay. -/
def Operation.Begins : Operation ℚ → Prop
  | .order (.start count fps) => (Command.start count fps).Valid
  | _ => False

/-- The operation is a start that fails half way: its count is too long to be written out. -/
def Operation.Breaks : Operation ℚ → Prop
  | .order (.start count fps) => 0 < fps.toScalar ∧ overlong count = true
  | _ => False

namespace Player

variable {c : Callbacks ℚ σ} {p : Player ℚ η (σ × List (Exchange ℚ))}

theorem step_of_empty (hc : c.Give Command.Valid) (hp : Fit H p) (he : H.pending p.host = ∅)
    {o : Operation ℚ} (ho : ¬ o.Begins) :
    H.pending (p.step H c o).host = ∅ ∧ (p.step H c o).heard = p.heard := by
  have hcancelled : H.pending (p.cancelled H.toTickSource).host = ∅ := by
    rw [pending_cancelled hp.sound, he, Finset.empty_sdiff]
  have h := step_outcome hc hp o
  generalize p.step H c o = q at h
  cases h with
  | @obeyed k hk =>
    cases k with
    | start count fps => exact absurd hk ho
    | cancel => exact ⟨hcancelled, heard_obeyed _ p .cancel⟩
  | refused | absent => exact ⟨he, rfl⟩
  | @broken count fps => exact ⟨hcancelled, heard_obeyed _ p (.start count fps)⟩
  | ticked hh => exact absurd he (Finset.ne_empty_of_mem hh)

/-- Without a pending tick nothing is heard before the next replay begins. -/
theorem heard_of_empty (hc : c.Give Command.Valid) (hp : Fit H p) (he : H.pending p.host = ∅)
    {ops : List (Operation ℚ)} (ho : ∀ o ∈ ops, ¬ o.Begins) :
    (p.after H c ops).heard = p.heard := by
  induction ops generalizing p with
  | nil => rfl
  | cons o ops ih =>
    obtain ⟨ho, hops⟩ := List.forall_mem_cons.1 ho
    obtain ⟨he', hheard⟩ := step_of_empty hc hp he ho
    rw [after_cons, ih (hp.step hc o) he' hops, hheard]

end Player

theorem fit_run {c : Callbacks ℚ σ} (hc : c.Give Command.Valid) (s : σ) (ops : List (Operation ℚ)) :
    Player.Fit H (run H c s ops) :=
  Player.fit_after hc (Player.fit_new _) ops

end FieldWalk.Playback
