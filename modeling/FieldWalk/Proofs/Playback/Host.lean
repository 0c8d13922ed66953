import FieldWalk.Playback.Clock
import FieldWalk.Playback.Cue
import Mathlib.Data.Finset.Dedup
import Mathlib.Data.Finset.Basic
import Mathlib.Data.Finset.Lattice.Lemmas
/-!
# Hosts

What a source of ticks has to promise: it is seen through the set of the ticks that are pending, a
tick handed out is a new one of them, and one that is dropped or fired is no longer one. The desk
of numbered ticks and the clock of timers are hosts.
-/

namespace FieldWalk.Playback

/-- A source of ticks with its pending ticks. `Sound` holds of the states it can be in. -/
structure Host (η : Type) extends TickSource η where
  start : η
  /-- Takes out a pending tick to fire it. -/
  fire : ℕ → η → η
  pending : η → Finset ℕ
  Sound : η → Prop
  sound_start : Sound start
  pending_start : pending start = ∅
  sound_request : ∀ {d}, Sound d → Sound (request d).2
  fresh : ∀ {d}, Sound d → (request d).1 ∉ pending d
  pending_request : ∀ {d}, Sound d → pending (request d).2 = insert (request d).1 (pending d)
  sound_cancel : ∀ {d} (h : ℕ), Sound d → Sound (cancel h d)
  pending_cancel : ∀ {d} (h : ℕ), Sound d → pending (cancel h d) = (pending d).erase h
  sound_fire : ∀ {d} (h : ℕ), Sound d → Sound (fire h d)
  pending_fire : ∀ {d} (h : ℕ), Sound d → pending (fire h d) = (pending d).erase h

/-- A host that notes the ticks it was told to drop although they were not pending. -/
def Host.audited {η : Type} (H : Host η) : Host (η × List ℕ) where
  request d := ((H.request d.1).1, (H.request d.1).2, d.2)
  cancel h d := (H.cancel h d.1, if h ∈ H.pending d.1 then d.2 else d.2 ++ [h])
  start := (H.start, [])
  fire h d := (H.fire h d.1, d.2)
  pending d := H.pending d.1
  Sound d := H.Sound d.1
  sound_start := H.sound_start
  pending_start := H.pending_start
  sound_request := H.sound_request
  fresh := H.fresh
  pending_request := H.pending_request
  sound_cancel := H.sound_cancel
  pending_cancel := H.pending_cancel
  sound_fire := H.sound_fire
  pending_fire := H.pending_fire

theorem erase_toFinset {l : List ℕ} (hl : l.Nodup) (h : ℕ) :
    (l.erase h).toFinset = l.toFinset.erase h := by
  ext k
  simp [hl.mem_erase_iff]

/-- The desk as a host. -/
def TickDesk.host : Host TickDesk where
  toTickSource := source
  start := {}
  fire := fire
  pending d := d.pending.toFinset
  Sound d := d.pending.Nodup ∧ ∀ h ∈ d.pending, h ≤ d.issued
  sound_start := ⟨.nil, nofun⟩
  pending_start := rfl
  sound_request {d} hd := by
    refine ⟨List.nodup_append.2 ⟨hd.1, List.nodup_singleton _, ?_⟩, ?_⟩
    · intro k hk j hj
      have := hd.2 k hk
      obtain rfl := List.mem_singleton.1 hj
      omega
    · intro h hh
      show h ≤ d.issued + 1
      rcases List.mem_append.1 hh with hh | hh
      · exact Nat.le_succ_of_le (hd.2 h hh)
      · exact (List.mem_singleton.1 hh).le
  fresh {d} hd hh := by
    have := hd.2 _ (List.mem_toFinset.1 hh)
    exact Nat.not_succ_le_self _ this
  pending_request {d} _ := by
    show (d.pending ++ [d.issued + 1]).toFinset = insert (d.issued + 1) d.pending.toFinset
    rw [List.toFinset_append, Finset.union_comm, Finset.insert_eq]
    rfl
  sound_cancel h hd := ⟨hd.1.erase h, fun k hk => hd.2 k (List.mem_of_mem_erase hk)⟩
  pending_cancel h hd := erase_toFinset hd.1 h
  sound_fire h hd := ⟨hd.1.erase h, fun k hk => hd.2 k (List.mem_of_mem_erase hk)⟩
  pending_fire h hd := erase_toFinset hd.1 h

theorem filter_handles (ts : List Timer) (h : ℕ) :
    ((ts.filter (·.handle ≠ h)).map (·.handle)).toFinset =
      (ts.map (·.handle)).toFinset.erase h := by
  ext k
  simp only [List.mem_toFinset, List.mem_map, List.mem_filter, decide_eq_true_eq, Finset.mem_erase]
  constructor
  · rintro ⟨t, ⟨ht, hne⟩, rfl⟩
    exact ⟨hne, t, ht, rfl⟩
  · rintro ⟨hne, t, ht, rfl⟩
    exact ⟨t, ⟨ht, hne⟩, rfl⟩

/-- The clock as a host; a timer is taken out to fire as it is stopped. -/
def Clock.host : Host Clock where
  toTickSource := source
  start := {}
  fire := cancel
  pending c := (c.timers.map (·.handle)).toFinset
  Sound c := ∀ t ∈ c.timers, t.handle < c.started
  sound_start := nofun
  pending_start := rfl
  sound_request {c} hc t ht := by
    show t.handle < c.started + 1
    rcases List.mem_append.1 ht with ht | ht
    · exact Nat.lt_succ_of_lt (hc t ht)
    · obtain rfl := List.mem_singleton.1 ht
      exact Nat.lt_succ_self _
  fresh {c} hc hh := by
    obtain ⟨t, ht, he⟩ := List.mem_map.1 (List.mem_toFinset.1 hh)
    exact (hc t ht).ne he
  pending_request {c} _ := by
    show ((c.timers ++ [(⟨c.started, c.now + c.interval⟩ : Timer)]).map (·.handle)).toFinset =
      insert c.started (c.timers.map (·.handle)).toFinset
    rw [List.map_append, List.toFinset_append, Finset.union_comm, Finset.insert_eq]
    rfl
  sound_cancel h hc t ht := hc t (List.mem_of_mem_filter ht)
  pending_cancel h _ := filter_handles _ h
  sound_fire h hc t ht := hc t (List.mem_of_mem_filter ht)
  pending_fire h _ := filter_handles _ h

end FieldWalk.Playback
