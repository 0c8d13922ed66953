import FieldWalk.Proofs.Playback.Silent
import FieldWalk.Settings
/-!
# Arithmetic that a replay can rely on

A replay reckons with the time of a frame and with a debt of time. It goes on to its end if the time of
a frame can be computed for the rates on offer and the frames in a debt can always be counted (`Steady`).
-/

namespace FieldWalk.Playback

open Numeral

variable {α η σ : Type} [Scalar α]

/-- The frame rate is on offer. -/
def Offered (fps : Number α) : Prop :=
  (frameRates.any fun n => fps.eqInt n) = true

/-- The debts that a replay with a time of a frame can come to if its ticks fire no later than `N`
milliseconds before or after zero: each tick adds the time since the one before, and whole frames are
paid. -/
inductive Owed (N : ℕ) (interval : α) : α → Prop where
  | nothing : Owed N interval (Scalar.ofNat 0)
  | late {debt : α} {s t : ℤ} (hs : s.natAbs ≤ N) (ht : t.natAbs ≤ N) (h : Owed N interval debt) :
    Owed N interval (debt + (Scalar.ofDecimal t 0 - Scalar.ofDecimal s 0))
  | paid {debt : α} {n : ℤ} (hn : 1 ≤ n)
    (hd : (Player.due interval debt : Except (Fault α) ℤ) = .ok n) (h : Owed N interval debt) :
    Owed N interval (debt - (Scalar.ofInt? n).getD Scalar.nan * interval)

/-- Rates on offer are positive with a time of a frame, and the frames in a debt can be counted. -/
structure Steady (α : Type) [Scalar α] (N : ℕ) : Prop where
  positive : ∀ fps : Number α, Offered fps → fps.le (.int 0) = false
  interval : ∀ fps : Number α, Offered fps →
    ∃ v, (Player.intervalOf fps : Except (Fault α) α) = .ok v
  due : ∀ (fps : Number α) (v debt : α), Offered fps →
    (Player.intervalOf fps : Except (Fault α) α) = .ok v → Owed N v debt →
    ∃ n, (Player.due v debt : Except (Fault α) ℤ) = .ok n

/-- The player reckons with a rate on offer and with times within the limit. -/
structure Timely (N : ℕ) (p : Player α η σ) : Prop where
  rate : ∃ fps, Offered fps ∧ (Player.intervalOf fps : Except (Fault α) α) = .ok p.interval
  debt : Owed N p.interval p.debt
  last : ∀ v, p.last = some v → ∃ s : ℤ, s.natAbs ≤ N ∧ v = Scalar.ofDecimal s 0

section
variable {N : ℕ} {p : Player α η σ}

theorem timely_begun (source : TickSource η) (count : ℤ) {fps : Number α} (h : Offered fps) {v : α}
    (hv : (Player.intervalOf fps : Except (Fault α) α) = .ok v) (p : Player α η σ) :
    Timely N ({ p.rewound source count with interval := v }.requested source) :=
  ⟨⟨fps, h, hv⟩, .nothing, nofun⟩

theorem Timely.clocked {t : ℤ} (ht : t.natAbs ≤ N) (h : Timely N p) :
    Timely N (p.clocked (Scalar.ofDecimal t 0)) where
  rate := h.rate
  debt := by
    -- the first tick of a replay takes its own time for the one before
    have hl : ∃ s : ℤ, s.natAbs ≤ N ∧
        p.last.getD (Scalar.ofDecimal t 0) = Scalar.ofDecimal s 0 := by
      cases hl : p.last with
      | none => exact ⟨t, ht, rfl⟩
      | some v => exact h.last v hl
    obtain ⟨s, hs, hv⟩ := hl
    simp only [Player.clocked, hv]
    exact .late hs ht h.debt
  last v hv := by
    cases hv
    exact ⟨t, ht, rfl⟩

theorem Timely.advanced {n : ℤ} (h : Timely N p)
    (hd : (Player.due p.interval p.debt : Except (Fault α) ℤ) = .ok n) : Timely N (p.advanced n) := by
  unfold Player.advanced
  split
  · rename_i hn
    exact ⟨h.rate, .paid hn hd h.debt, h.last⟩
  · exact h

theorem Timely.passed (source : TickSource η) (hear : Event → σ → σ) (h : Timely N p) :
    Timely N (p.passed source hear) := by
  unfold Player.passed
  split <;> exact ⟨h.rate, h.debt, h.last⟩

theorem Timely.due (h : Timely N p) (hs : Steady α N) :
    ∃ n, (Player.due p.interval p.debt : Except (Fault α) ℤ) = .ok n := by
  obtain ⟨fps, hf, hv⟩ := h.rate
  exact hs.due fps _ _ hf hv h.debt

end

end FieldWalk.Playback
