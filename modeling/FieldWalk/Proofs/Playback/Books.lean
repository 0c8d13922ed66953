import FieldWalk.Proofs.Playback.Restart
/-!
# The books of a player

A player, its host and its listener each keep a record of a replay. While the callbacks give no
orders the stored tick is the only one that can be pending, no tick is dropped that is not pending, and the
end is told once, with the last frame. A player that runs has a tick stored, but for one case: a start whose
count is too long to be written out fails before it has asked for the first tick. The books are in order
after every operation exactly if no such start is among them.
-/

namespace FieldWalk.Playback

open Numeral

variable {η σ : Type} {H : Host η} {c : Callbacks ℚ σ}

theorem Callbacks.Quiet.valid (hc : c.Quiet) : c.Give Command.Valid :=
  hc.mono fun _ => False.elim

namespace Player

theorem index_of_last {time : ℚ} {p : Player ℚ η σ} (h : p.count - 1 ≤ p.index time) :
    p.index time = max (p.count - 1) 0 :=
  if_pos ((lastIndex_le_index time p).1 h)

variable {p : Player ℚ η (σ × List (Exchange ℚ))}

theorem Stored.step (hp : Stored H p) (hc : c.Quiet) (hf : Fit H p) (o : Operation ℚ) :
    Stored H (p.step H c o) := by
  have h := step_outcome hc.valid hf o
  generalize p.step H c o = q at h ⊢
  cases h with
  | obeyed => exact (oneLive_obeyed hf.sound hp.pending.le _).stored
  | broken => exact stored_opened hf.sound hp.pending.le _ _
  | refused | absent => exact hp
  | ticked hh => exact (hp.ticked hf.sound hh (orders_of_quiet _ hc _)).stored

theorem stored_after (hp : Stored H p) (hc : c.Quiet) (hf : Fit H p) (ops : List (Operation ℚ)) :
    Stored H (p.after H c ops) := by
  induction ops generalizing p with
  | nil => exact hp
  | cons o ops ih => exact ih (hp.step hc hf o) (hf.step hc.valid o)

/-- Callbacks that give no orders answer no frame with one. -/
theorem framesSilent_step (hc : c.Quiet) (hf : Fit H p) (hp : FramesSilent p.heard)
    (o : Operation ℚ) : FramesSilent (p.step H c o).heard := by
  obtain h | ⟨h, time, -, -, hq⟩ := heard_step hc.valid hf o
  · rwa [h]
  · rw [hq, heard_ticked, framesSilent_append]
    exact ⟨hp, framesSilent_ticked.2 (orders_of_quiet _ hc _)⟩

theorem framesSilent_after (hc : c.Quiet) (hf : Fit H p) (hp : FramesSilent p.heard)
    (ops : List (Operation ℚ)) : FramesSilent (p.after H c ops).heard := by
  induction ops generalizing p with
  | nil => exact hp
  | cons o ops ih => exact ih (hf.step hc.valid o) (framesSilent_step hc hf hp o)

/-! ## What an operation is heard as -/

/-- An operation is heard as nothing, as a frame before the last one, or as the last frame with the
end, and then the player does not run any more. -/
theorem events_step (hc : c.Quiet) (hf : Fit H p) (o : Operation ℚ) :
    ∃ new, (p.step H c o).events = p.events ++ new ∧
      (new = [] ∨
        (∃ h time i, o = .tick h time ∧ i < p.count - 1 ∧ new = [.frame i]) ∨
        ∃ h time, o = .tick h time ∧ new = .frame (max (p.count - 1) 0) :: c.ending ∧
          (p.step H c o).running = false) := by
  have h := step_outcome hc.valid hf o
  generalize p.step H c o = q at h ⊢
  have hsame : q.heard = p.heard → q.events = p.events ++ [] := fun hq => by
    rw [List.append_nil, events, hq, events]
  cases h with
  | obeyed => exact ⟨[], hsame (heard_obeyed _ p _), .inl rfl⟩
  | @broken count fps => exact ⟨[], hsame (heard_obeyed _ p (.start count fps)), .inl rfl⟩
  | refused | absent => exact ⟨[], hsame rfl, .inl rfl⟩
  | @ticked h time =>
    refine ⟨_, events_append (heard_ticked H.toTickSource c (p.fired H h) time), .inr ?_⟩
    by_cases hl : p.count - 1 ≤ (p.fired H h).index time
    · refine .inr ⟨h, time, rfl, ?_, ?_⟩
      · rw [if_pos (by exact hl), List.map_cons, exchange_finished,
          index_of_last (p := p.fired H h) hl]
        rfl
      · rw [Player.ticked, if_pos (by exact hl), answered_silent _ _ _ (orders_of_quiet _ hc _)]
        rfl
    · refine .inl ⟨h, time, _, rfl, not_le.1 hl, ?_⟩
      rw [if_neg (by exact hl)]
      rfl

/-- At most the end of the replay whose tick is stored is told before the next one begins. -/
theorem finished_once (hc : c.Quiet) (hf : Fit H p) (hp : Stored H p) {later : List (Operation ℚ)}
    (hl : ∀ o ∈ later, ¬ o.Begins) :
    (p.after H c later).events.count .finished ≤
      p.events.count .finished + if p.handle.isSome then 1 else 0 := by
  induction later generalizing p with
  | nil => exact Nat.le_add_right _ _
  | cons o later ih =>
    cases hh : p.handle with
    | none =>
      rw [events, heard_of_empty hc.valid hf (hp.empty_of_none hh) hl]
      exact Nat.le_add_right _ _
    | some h =>
      have hp' := hp.step hc hf o
      have hq := ih (hf.step hc.valid o) hp' (List.forall_mem_cons.1 hl).2
      have hb : (if (p.step H c o).handle.isSome then 1 else 0) ≤ 1 := by split <;> omega
      rw [after_cons, Option.isSome_some, if_pos rfl]
      obtain ⟨new, he, h0 | ⟨-, -, i, -, -, h1⟩ | ⟨-, -, -, h1, hr⟩⟩ := events_step hc hf o
      · rw [he, h0, List.append_nil] at hq
        omega
      · have h2 : List.count Event.finished [.frame i] = 0 := List.count_eq_zero.2 (by simp)
        rw [he, h1, List.count_append, h2] at hq
        omega
      · have h2 : List.count Event.finished (.frame (max (p.count - 1) 0) :: c.ending) ≤ 1 := by
          unfold Callbacks.ending
          split <;> simp
        rw [he, h1, hp'.none_of_stopped hr, Option.isSome_none, if_neg Bool.false_ne_true,
          List.count_append] at hq
        omega

/-! ## What the host is told to drop -/

theorem strays_cancelled {p : Player ℚ (η × List ℕ) σ} (hp : Stored H.audited p) :
    (p.cancelled H.audited.toTickSource).host.2 = p.host.2 := by
  unfold cancelled
  split
  · rename_i h hh
    have hm : h ∈ H.pending p.host.1 := by
      rw [show H.pending p.host.1 = p.handle.toFinset from hp.pending, hh, Option.toFinset_some]
      exact Finset.mem_singleton_self h
    exact if_pos hm
  · rfl

theorem strays_step {p : Player ℚ (η × List ℕ) (σ × List (Exchange ℚ))} (hc : c.Quiet)
    (hf : Fit H.audited p) (hp : Stored H.audited p) (o : Operation ℚ) :
    (p.step H.audited c o).host.2 = p.host.2 := by
  have h := step_outcome hc.valid hf o
  generalize p.step H.audited c o = q at h ⊢
  cases h with
  | @obeyed k =>
    cases k with
    | start count fps => exact strays_cancelled hp
    | cancel => exact strays_cancelled hp
  | broken => exact strays_cancelled hp
  | refused | absent => rfl
  | @ticked h time =>
    have hs : ((p.fired H.audited h).shown H.audited.toTickSource c time).host.2 = p.host.2 := by
      rw [shown_silent _ _ _ _ (orders_of_quiet _ hc _)]
      exact congrArg (·.2) (showing_host time (p.fired H.audited h))
    unfold Player.ticked
    split
    · rw [answered_silent _ _ _ (orders_of_quiet _ hc _)]
      exact hs
    · exact hs

theorem strays_after {p : Player ℚ (η × List ℕ) (σ × List (Exchange ℚ))} (hc : c.Quiet)
    (hf : Fit H.audited p) (hp : Stored H.audited p) (ops : List (Operation ℚ)) :
    (p.after H.audited c ops).host.2 = p.host.2 := by
  induction ops generalizing p with
  | nil => rfl
  | cons o ops ih =>
    rw [after_cons, ih (hf.step hc.valid o) (hp.step hc hf o), strays_step hc hf hp o]

end Player

/-! ## Every run -/

theorem stored_run (hc : c.Quiet) (s : σ) (ops : List (Operation ℚ)) :
    Player.Stored H (run H c s ops) :=
  Player.stored_after (Player.oneLive_new _).stored hc (Player.fit_new _) ops

theorem framesSilent_run (hc : c.Quiet) (s : σ) (ops : List (Operation ℚ)) :
    FramesSilent (run H c s ops).heard := by
  refine Player.framesSilent_after hc (Player.fit_new _) ?_ ops
  intro x hx
  cases hx

/-- An operation that a caller may ask for: a rate is positive, a count not too long to be written out. -/
def Operation.Valid : Operation ℚ → Prop
  | .order k => k.Valid
  | .tick _ _ => True

theorem perform_ok_iff {p : Player ℚ η (σ × List (Exchange ℚ))} (hc : c.Quiet)
    (hf : Player.Fit H p) (o : Operation ℚ) :
    (∃ q, (o.perform H c.listener).run p = .ok () q) ↔ o.Valid := by
  cases o with
  | order k =>
    by_cases hk : k.Valid
    · exact iff_of_true ⟨_, Player.perform_order hk⟩ hk
    · refine iff_of_false ?_ hk
      rintro ⟨q, hq⟩
      cases k with
      | cancel => exact hk trivial
      | start count fps =>
        by_cases h : 0 < fps.toScalar
        · rw [Player.perform_broken h (Bool.eq_true_of_not_eq_false fun hl => hk ⟨h, hl⟩)] at hq
          cases hq
        · rw [Player.perform_refused count (not_lt.1 h)] at hq
          cases hq
  | tick h time =>
    refine iff_of_true ?_ trivial
    by_cases hh : h ∈ H.pending p.host
    · exact ⟨_, Player.perform_tick hc.valid hh (hf.interval ⟨h, hh⟩) time⟩
    · exact ⟨_, Player.perform_absent hh time⟩

end FieldWalk.Playback
