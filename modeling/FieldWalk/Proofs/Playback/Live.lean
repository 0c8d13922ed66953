import FieldWalk.Proofs.Playback.Steps
/-!
# One live replay

The player keeps one tick and the host keeps a set of them. They agree when the stored tick is the
only one pending and is stored exactly while the player runs. Orders bring this about from any state
in which no other tick is pending, and a tick keeps it unless its frame is answered with orders. A start
that fails half way leaves the player running with no tick stored; then the stored tick is still the only
one that can be pending.
-/

namespace FieldWalk.Playback.Player

open Numeral

variable {η σ : Type} {H : Host η}

/-- The stored tick is the only one pending, and one is stored exactly while the player runs. -/
structure OneLive (H : Host η) (p : Player ℚ η σ) : Prop where
  pending : H.pending p.host = p.handle.toFinset
  running : p.running = p.handle.isSome

theorem oneLive_new (s : σ) : OneLive H (.new H.start s : Player ℚ η σ) :=
  ⟨H.pending_start, rfl⟩

section

variable {p : Player ℚ η σ}

/-- The stored tick is the only one pending, and none is stored unless the player runs. -/
structure Stored (H : Host η) (p : Player ℚ η σ) : Prop where
  pending : H.pending p.host = p.handle.toFinset
  running : p.handle.isSome = true → p.running = true

theorem OneLive.stored (hp : OneLive H p) : Stored H p :=
  ⟨hp.pending, fun h => hp.running.trans h⟩

theorem Stored.none_of_stopped (hp : Stored H p) (hr : p.running = false) : p.handle = none := by
  rw [← Option.not_isSome_iff_eq_none]
  intro hh
  rw [hp.running hh] at hr
  cases hr

theorem Stored.empty_of_none (hp : Stored H p) (hh : p.handle = none) : H.pending p.host = ∅ := by
  rw [hp.pending, hh, Option.toFinset_none]

theorem Stored.empty_of_stopped (hp : Stored H p) (hr : p.running = false) :
    H.pending p.host = ∅ :=
  hp.empty_of_none (hp.none_of_stopped hr)

/-- The tick of a player is pending only while it runs. -/
theorem Stored.of_mem (hp : Stored H p) {h : ℕ} (hh : h ∈ H.pending p.host) :
    p.handle = some h ∧ p.running = true := by
  rw [hp.pending, Option.mem_toFinset, Option.mem_def] at hh
  exact ⟨hh, hp.running (by rw [hh]; rfl)⟩

/-- One replay is live or none, as it is seen from the player and from the host. -/
theorem oneLive_iff : OneLive H p ↔
    (p.running = true → ∃ h, p.handle = some h ∧ H.pending p.host = {h}) ∧
      (p.running = false → p.handle = none ∧ H.pending p.host = ∅) := by
  constructor
  · intro hp
    refine ⟨fun hr => ?_, fun hr => ?_⟩
    · obtain ⟨h, hh⟩ := Option.isSome_iff_exists.1 (hp.running ▸ hr)
      exact ⟨h, hh, by rw [hp.pending, hh, Option.toFinset_some]⟩
    · exact ⟨hp.stored.none_of_stopped hr, hp.stored.empty_of_stopped hr⟩
  · rintro ⟨hrun, hstop⟩
    cases hr : p.running with
    | true =>
      obtain ⟨h, hh, he⟩ := hrun hr
      exact ⟨by rw [he, hh, Option.toFinset_some], by rw [hr, hh]; rfl⟩
    | false =>
      obtain ⟨hh, he⟩ := hstop hr
      exact ⟨by rw [he, hh, Option.toFinset_none], by rw [hr, hh]; rfl⟩

/-- Once the stored tick, the only one pending, has fired, none is. -/
theorem pending_fired (hp : H.pending p.host = p.handle.toFinset) (hs : H.Sound p.host) {h : ℕ}
    (hh : h ∈ H.pending p.host) : H.pending (p.fired H h).host = ∅ := by
  have hstored : p.handle = some h := Option.mem_toFinset.1 (hp ▸ hh)
  show H.pending (H.fire h p.host) = ∅
  rw [H.pending_fire h hs, hp, hstored, Option.toFinset_some, Finset.erase_singleton]

theorem oneLive_cancelled (hs : H.Sound p.host) (hw : H.pending p.host ⊆ p.handle.toFinset) :
    OneLive H (p.cancelled H.toTickSource) where
  pending := by
    rw [pending_cancelled hs, cancelled_handle, Finset.sdiff_eq_empty_iff_subset.2 hw,
      Option.toFinset_none]
  running := by rw [cancelled_running, cancelled_handle, Option.isSome_none]

theorem oneLive_requested (hs : H.Sound p.host) (hp : H.pending p.host = ∅)
    (hr : p.running = true) : OneLive H (p.requested H.toTickSource) where
  pending := by
    show H.pending (H.request p.host).2 = {(H.request p.host).1}
    rw [H.pending_request hs, hp, insert_empty_eq]
  running := hr

theorem oneLive_stopped (hp : H.pending p.host = ∅) : OneLive H p.stopped := ⟨hp, rfl⟩

/-- An order leaves one live replay if no other tick than the stored one was pending. -/
theorem oneLive_obeyed (hs : H.Sound p.host) (hw : H.pending p.host ⊆ p.handle.toFinset)
    (k : Command ℚ) : OneLive H (p.obeyed H.toTickSource k) := by
  have hc := oneLive_cancelled hs hw
  cases k with
  | start count fps =>
    have he := hc.stored.empty_of_stopped (cancelled_running p _)
    exact oneLive_requested (p := p.opened H.toTickSource count fps) (sound_cancelled hs) he rfl
  | cancel => exact hc

/-- A start that fails half way leaves the player running with no tick. -/
theorem opened_unlive (hs : H.Sound p.host) (hw : H.pending p.host ⊆ p.handle.toFinset) (count : ℤ)
    (fps : Number ℚ) : let q := p.opened H.toTickSource count fps
    q.running = true ∧ q.handle = none ∧ H.pending q.host = ∅ :=
  ⟨rfl, cancelled_handle p _,
    (oneLive_cancelled hs hw).stored.empty_of_stopped (cancelled_running p _)⟩

theorem stored_opened (hs : H.Sound p.host) (hw : H.pending p.host ⊆ p.handle.toFinset) (count : ℤ)
    (fps : Number ℚ) : Stored H (p.opened H.toTickSource count fps) := by
  obtain ⟨hr, hh, he⟩ := opened_unlive hs hw count fps
  exact ⟨by rw [he, hh, Option.toFinset_none], fun _ => hr⟩

theorem not_oneLive_opened (source : TickSource η) (count : ℤ) (fps : Number ℚ) :
    ¬ OneLive H (p.opened source count fps) := by
  intro hp
  have hr := hp.running
  rw [show (p.opened source count fps).handle = none from cancelled_handle p source] at hr
  cases hr

theorem OneLive.obeyAll (hp : OneLive H p) (hs : H.Sound p.host) (ks : List (Command ℚ)) :
    OneLive H (ks.foldl (obeyed H.toTickSource) p) := by
  induction ks generalizing p with
  | nil => exact hp
  | cons k ks ih => exact ih (oneLive_obeyed hs hp.pending.le k) (sound_obeyed hs k)

/-- Orders, if there are any, leave one live replay or none. -/
theorem oneLive_foldl (hs : H.Sound p.host) (hw : H.pending p.host ⊆ p.handle.toFinset)
    {ks : List (Command ℚ)} (hne : ks ≠ []) : OneLive H (ks.foldl (obeyed H.toTickSource) p) := by
  cases ks with
  | nil => exact absurd rfl hne
  | cons k ks => exact (oneLive_obeyed hs hw k).obeyAll (sound_obeyed hs k) ks

end

section

variable {c : Callbacks ℚ σ} {p : Player ℚ η (σ × List (Exchange ℚ))}

theorem OneLive.answered (hp : OneLive H p) (hs : H.Sound p.host) (e : Event) :
    OneLive H (p.answered H.toTickSource c e) := by
  have ht : OneLive H (p.told c e) := ⟨hp.pending, hp.running⟩
  exact ht.obeyAll hs _

theorem Stored.ticked (hp : Stored H p) (hs : H.Sound p.host) {h : ℕ} (hh : h ∈ H.pending p.host)
    {time : ℚ} (hq : (p.fired H h).orders c (.frame ((p.fired H h).index time)) = []) :
    OneLive H ((p.fired H h).ticked H.toTickSource c time) := by
  have hhost : ((p.fired H h).shown H.toTickSource c time).host = (p.fired H h).host := by
    rw [shown_silent _ _ _ _ hq]
    exact showing_host time _
  have hrun : ((p.fired H h).shown H.toTickSource c time).running = true := by
    rw [shown_silent _ _ _ _ hq]
    exact (showing_running time _).trans (hp.of_mem hh).2
  have hs' : H.Sound ((p.fired H h).shown H.toTickSource c time).host :=
    sound_shown (H.sound_fire h hs) time
  have he : H.pending ((p.fired H h).shown H.toTickSource c time).host = ∅ := by
    rw [hhost]
    exact pending_fired hp.pending hs hh
  unfold Player.ticked
  split
  · exact (oneLive_stopped he).answered hs' .finished
  · exact oneLive_requested hs' he hrun

end

end FieldWalk.Playback.Player
