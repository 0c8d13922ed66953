import FieldWalk.Proofs.Numeral.Exact
import FieldWalk.Proofs.Path.Course
import Mathlib.Tactic.LinearCombination
/-!
# Every step of a walk leads further down, or up

The ground may bend away from its tangent planes, but no faster than a paraboloid of a given bend. Then
a move of less than two over the bend, times the slopes, leads further in the direction of the walk
wherever the slopes are not both zero. A walk moves only where they are not both below its floor.
-/

namespace FieldWalk.Path

open Numeral

/-! ## Bent ground -/

namespace Ground

variable (ground : Ground Id ℚ)

/-- The height of a place. -/
def heightAt (x y : ℚ) : ℚ :=
  ground.height x y

/-- The two slopes of a place. -/
def slopesAt (x y : ℚ) : ℚ × ℚ :=
  ground.gradient x y

/-- The height of the tangent plane of a place, as far away from it as said. -/
def tangent (x y u v : ℚ) : ℚ :=
  ground.heightAt x y + ((ground.slopesAt x y).1 * u + (ground.slopesAt x y).2 * v)

/-- The ground rises above its tangent planes no more than a paraboloid of this bend. -/
def BentUp (bend : ℚ) : Prop :=
  ∀ x y u v, ground.heightAt (x + u) (y + v) ≤ ground.tangent x y u v + bend / 2 * (u ^ 2 + v ^ 2)

/-- The ground falls below its tangent planes no more than a paraboloid of this bend. -/
def BentDown (bend : ℚ) : Prop :=
  ∀ x y u v, ground.tangent x y u v - bend / 2 * (u ^ 2 + v ^ 2) ≤ ground.heightAt (x + u) (y + v)

end Ground

/-! ## Moves -/

section
variable {ground : Ground Id ℚ} {rules : Rules ℚ} {bend : ℚ}

theorem sign_eq (rules : Rules ℚ) : rules.sign = if rules.ascend then 1 else -1 := by
  have hup : (Scalar.ofNat 1 : ℚ) = 1 := by simp [Exact.ofNat_eq]
  have hdown : (Scalar.ofDecimal (-1) 0 : ℚ) = -1 := by
    show ((-1 : ℤ) : ℚ) * 10 ^ (0 : ℤ) = -1
    simp
  rw [Rules.sign, hup, hdown]

/-- The ground does not bend away from its tangent planes against the direction of the walk. -/
def Bent (ground : Ground Id ℚ) (rules : Rules ℚ) (bend : ℚ) : Prop :=
  ∀ x y u v, rules.sign * ground.tangent x y u v - bend / 2 * (u ^ 2 + v ^ 2) ≤
    rules.sign * ground.heightAt (x + u) (y + v)

theorem bent_of_bentUp (hd : rules.ascend = false) (h : ground.BentUp bend) :
    Bent ground rules bend := by
  intro x y u v
  rw [sign_eq, hd]
  have := h x y u v
  simp only [Bool.false_eq_true, if_false]
  linarith

theorem bent_of_bentDown (hd : rules.ascend = true) (h : ground.BentDown bend) :
    Bent ground rules bend := by
  intro x y u v
  rw [sign_eq, hd]
  have := h x y u v
  simp only [if_true]
  linarith

/-- Slopes that are not flat are not both zero. -/
theorem slopes_pos (hf : 0 < rules.floor) {x y : ℚ} (h : ¬ rules.Flat (ground.slopesAt x y)) :
    0 < (ground.slopesAt x y).1 ^ 2 + (ground.slopesAt x y).2 ^ 2 := by
  by_contra hle
  have h1 : (ground.slopesAt x y).1 = 0 := by nlinarith [sq_nonneg (ground.slopesAt x y).2]
  have h2 : (ground.slopesAt x y).2 = 0 := by nlinarith [sq_nonneg (ground.slopesAt x y).1]
  have hzero : Scalar.lt (Scalar.abs (0 : ℚ)) rules.floor = true := by
    show decide (|(0 : ℚ)| < rules.floor) = true
    simpa using hf
  exact h ⟨h1 ▸ hzero, h2 ▸ hzero⟩

/-- A move gains the squared slopes along the tangent plane, and the bend takes its part of them. -/
theorem Bent.gain_le (h : Bent ground rules bend) (p : Waypoint ℚ) :
    rules.rate * (1 - rules.rate * bend / 2) *
        ((ground.slopesAt p.x p.y).1 ^ 2 + (ground.slopesAt p.x p.y).2 ^ 2) ≤
      rules.sign * (ground.next rules p).z - rules.sign * ground.heightAt p.x p.y := by
  rcases hg : ground.slopesAt p.x p.y with ⟨a, b⟩
  have hs : rules.sign ^ 2 = 1 := by
    rw [sign_eq]
    split <;> norm_num
  have hb := h p.x p.y (rules.sign * rules.rate * a) (rules.sign * rules.rate * b)
  have htangent : rules.sign * ground.tangent p.x p.y (rules.sign * rules.rate * a)
      (rules.sign * rules.rate * b) =
      rules.sign * ground.heightAt p.x p.y + rules.rate * (a ^ 2 + b ^ 2) := by
    rw [Ground.tangent, hg]
    linear_combination (rules.rate * (a ^ 2 + b ^ 2)) * hs
  have hlength : (rules.sign * rules.rate * a) ^ 2 + (rules.sign * rules.rate * b) ^ 2 =
      rules.rate ^ 2 * (a ^ 2 + b ^ 2) := by
    linear_combination (rules.rate ^ 2 * (a ^ 2 + b ^ 2)) * hs
  have hnext : (ground.next rules p).z =
      ground.heightAt (p.x + rules.sign * rules.rate * a) (p.y + rules.sign * rules.rate * b) := by
    show ground.heightAt (p.x + rules.sign * rules.rate * (ground.slopesAt p.x p.y).1)
      (p.y + rules.sign * rules.rate * (ground.slopesAt p.x p.y).2) = _
    rw [hg]
  rw [htangent, hlength] at hb
  rw [hnext]
  linarith

/-- A move that is not too long leads further in the direction of the walk. -/
theorem Bent.gains (h : Bent ground rules bend) (hr : 0 < rules.rate) (hf : 0 < rules.floor)
    (hb : rules.rate * bend < 2) {p : Waypoint ℚ} (hu : ground.Usable rules p) :
    rules.sign * ground.heightAt p.x p.y < rules.sign * (ground.next rules p).z := by
  have hslopes := slopes_pos hf hu.2
  have hpart : 0 < 1 - rules.rate * bend / 2 := by linarith
  have hgain := h.gain_le p
  have hpos := mul_pos (mul_pos hr hpart) hslopes
  linarith

/-! ## Courses -/

section
variable {x y : ℚ} {ws : List (Waypoint ℚ)}

theorem Course.height (h : Course ground rules x y ws) : ∀ p ∈ ws, p.z = ground.heightAt p.x p.y := by
  induction ws using List.reverseRecOn with
  | nil => exact List.forall_mem_nil _
  | append_singleton ws p ih =>
    obtain ⟨hws, hdue, -, -⟩ := course_concat.1 h
    refine List.forall_mem_append.2 ⟨ih hws, List.forall_mem_singleton.2 ?_⟩
    cases hl : ws.getLast? with
    | none =>
      rw [Due, hl] at hdue
      rw [hdue]
      rfl
    | some q =>
      rw [((due_of_last hl).1 hdue).2]
      rfl

/-- Along a course every waypoint lies further in the direction of the walk than those before it. -/
theorem Course.gains (h : Course ground rules x y ws) (hbent : Bent ground rules bend)
    (hr : 0 < rules.rate) (hf : 0 < rules.floor) (hb : rules.rate * bend < 2) :
    ws.Pairwise fun p q => rules.sign * p.z < rules.sign * q.z := by
  have hchain : ws.IsChain fun p q => rules.sign * p.z < rules.sign * q.z := by
    refine h.moves.imp_of_mem_imp ?_
    rintro p q hp - ⟨hu, rfl⟩
    rw [h.height p hp]
    exact hbent.gains hr hf hb hu
  exact hchain.pairwise

end

end

/-- On ground that does not rise above its tangent planes faster than a paraboloid the waypoints of a
descent lie lower and lower, and on ground that does not fall below them faster the waypoints of an
ascent lie higher and higher, as long as the rate is less than two over the bend. It does not matter how
the steps are cut into pieces. -/
theorem descends_and_ascends (ground : Ground Id ℚ) (rules : Rules ℚ) (hr : 0 < rules.rate)
    (hf : 0 < rules.floor) (bend : ℚ) (hb : rules.rate * bend < 2) (x y : ℚ) (k : ℕ) :
    let w := Walk.run ground rules (Walk.steps ground rules k (.start x y))
    let heights := (Trace.ofWalk rules.ascend w).waypoints.map (·.z)
    (rules.ascend = false → ground.BentUp bend → heights.Pairwise (· > ·)) ∧
      (rules.ascend = true → ground.BentDown bend → heights.Pairwise (· < ·)) := by
  intro w heights
  have hw : w = Walk.steps ground rules (rules.budget.toNat + 1) (.start x y) :=
    Walk.run_steps ground rules x y k
  have hsound : Walk.Sound ground rules x y w := hw ▸ Walk.sound_start.steps _
  constructor
  · intro hd hbent
    have hgains := hsound.course.gains (bent_of_bentUp hd hbent) hr hf hb
    rw [sign_eq, hd] at hgains
    refine List.pairwise_map.2 (hgains.imp fun h => ?_)
    simpa using h
  · intro hd hbent
    have hgains := hsound.course.gains (bent_of_bentDown hd hbent) hr hf hb
    rw [sign_eq, hd] at hgains
    refine List.pairwise_map.2 (hgains.imp fun h => ?_)
    simpa using h

/-- A round bowl. -/
def bowl : Ground Id ℚ where
  height x y := x ^ 2 + y ^ 2
  gradient x y := (2 * x, 2 * y)

/-- Down the bowl, and up again along the same line. -/
theorem bowl_walked :
    let rules (ascend : Bool) : Rules ℚ := ⟨ascend, 1 / 10, 4, 1 / 10000⟩
    let w (ascend : Bool) : Walk ℚ := Walk.run bowl (rules ascend)
      (Walk.steps bowl (rules ascend) 2 (.start 3 4))
    let heights (ascend : Bool) := (Trace.ofWalk ascend (w ascend)).waypoints.map (·.z)
    (0 : ℚ) < 1 / 10 ∧ (0 : ℚ) < 1 / 10000 ∧ (1 / 10 * 2 : ℚ) < 2 ∧
      bowl.BentUp 2 ∧ bowl.BentDown 2 ∧ heights false = [25, 16, 256 / 25, 4096 / 625] ∧
      heights true = [25, 36, 1296 / 25, 46656 / 625] ∧
      (heights false).Pairwise (· > ·) ∧ (heights true).Pairwise (· < ·) := by
  intro rules w heights
  have hrate : (0 : ℚ) < 1 / 10 := by norm_num
  have hfloor : (0 : ℚ) < 1 / 10000 := by norm_num
  have hshort : (1 / 10 * 2 : ℚ) < 2 := by norm_num
  have hup : bowl.BentUp 2 := by
    intro x y u v
    simp only [Ground.tangent, Ground.heightAt, Ground.slopesAt, bowl]
    linarith
  have hdown : bowl.BentDown 2 := by
    intro x y u v
    simp only [Ground.tangent, Ground.heightAt, Ground.slopesAt, bowl]
    linarith [sq_nonneg u, sq_nonneg v]
  have hdescent := (descends_and_ascends bowl (rules false) hrate hfloor 2 hshort 3 4 2).1 rfl hup
  have hascent := (descends_and_ascends bowl (rules true) hrate hfloor 2 hshort 3 4 2).2 rfl hdown
  refine ⟨hrate, hfloor, hshort, hup, hdown, ?_, ?_, hdescent, hascent⟩
  · decide +kernel
  · decide +kernel

end FieldWalk.Path
