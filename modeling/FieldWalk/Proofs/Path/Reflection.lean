import FieldWalk.Proofs.Numeral.Signed
import FieldWalk.Proofs.Path.Course
/-!
# An ascent is a descent of the ground turned upside down

Turning the ground upside down changes the sign of its heights and slopes. A walk uphill then makes the
moves of a walk downhill, since its two changes of sign make up for each other, and no check of a walk
looks at a sign. Step for step the two walks stand at the same place.
-/

namespace FieldWalk.Path

open Numeral

variable {α : Type} [Scalar α]

/-! ## Upside down -/

/-- The point as high above zero as it was below. -/
def Waypoint.reflected (p : Waypoint α) : Waypoint α :=
  { p with z := -p.z }

/-- The ground upside down. What is not finite stays so. -/
def Ground.reflected (ground : Ground Id α) : Ground Id α where
  height x y := -(show α from ground.height x y)
  gradient x y :=
    let g : α × α := ground.gradient x y
    (-g.1, -g.2)

/-- The rules with uphill for downhill. -/
def Rules.reversed (rules : Rules α) : Rules α :=
  { rules with ascend := !rules.ascend }

namespace Walk

/-- The walk with its points upside down. -/
def reflected (w : Walk α) : Walk α :=
  { w with points := w.points.map Waypoint.reflected }

@[simp] theorem reflected_x (w : Walk α) : w.reflected.x = w.x := rfl
@[simp] theorem reflected_y (w : Walk α) : w.reflected.y = w.y := rfl
@[simp] theorem reflected_taken (w : Walk α) : w.reflected.taken = w.taken := rfl
@[simp] theorem reflected_reason (w : Walk α) : w.reflected.reason = w.reason := rfl

theorem reflected_finish (w : Walk α) (r : Reason) :
    (w.finish r).reflected = w.reflected.finish r := by
  simp [finish, reflected, length]

/-! ## Steps -/

theorem isFlat_reversed (h : Signed α) (rules : Rules α) (g : α × α) :
    isFlat rules.reversed (-g.1, -g.2) = isFlat rules g := by
  simp only [isFlat, h.abs_neg]
  rfl

/-- The sign of a slope and the one of the direction make up for each other. -/
theorem move_reversed (h : Signed α) (rules : Rules α) (g : α) :
    move rules.reversed (-g) = move rules g := by
  cases hd : rules.ascend <;>
    simp [move, Rules.reversed, hd, h.neg_one, h.neg_mul, h.mul_neg, h.neg_neg]

/-- Each check of a step has the same answer on both sides. -/
theorem step_reflected (h : Signed α) (ground : Ground Id α) (rules : Rules α) (w : Walk α) :
    w.reflected.step ground.reflected rules.reversed = (w.step ground rules).reflected := by
  simp only [step, bind, pure, Ground.reflected, h.isFinite_neg, isFlat_reversed h,
    move_reversed h, apply_ite reflected, reflected_finish, reflected_x, reflected_y,
    reflected_taken, reflected_reason]
  rfl

theorem steps_reflected (h : Signed α) (ground : Ground Id α) (rules : Rules α) (n : ℕ)
    (w : Walk α) :
    steps ground.reflected rules.reversed n w.reflected = (steps ground rules n w).reflected := by
  induction n generalizing w with
  | zero => rfl
  | succ n ih =>
    show steps ground.reflected rules.reversed n (w.reflected.step ground.reflected rules.reversed) =
      (steps ground rules n (w.step ground rules)).reflected
    rw [step_reflected h, ih]

theorem run_reflected (h : Signed α) (ground : Ground Id α) (rules : Rules α) (w : Walk α) :
    run ground.reflected rules.reversed w.reflected = (run ground rules w).reflected :=
  steps_reflected h ground rules _ w

end Walk

/-! ## Traces -/

namespace Trace

/-- The trace of a walk: a number of steps, then a run to the end. -/
def walked (ground : Ground Id α) (rules : Rules α) (x y : α) (k : ℕ) : Trace α :=
  .ofWalk rules.ascend (Walk.run ground rules (Walk.steps ground rules k (.start x y)))

/-- As many waypoints and the same reason; the waypoints lie at the same places, with opposite heights. -/
structure Mirrors (t u : Trace α) : Prop where
  length : t.length = u.length
  reason : t.reason = u.reason
  waypoints : List.Forall₂ (fun p q => p.x = q.x ∧ p.y = q.y ∧ p.z = -q.z) t.waypoints u.waypoints

theorem walked_reversed (h : Signed α) (ground : Ground Id α) (rules : Rules α) (x y : α) (k : ℕ) :
    (walked ground.reflected rules.reversed x y k).Mirrors (walked ground rules x y k) := by
  have hwalk : Walk.run ground.reflected rules.reversed
      (Walk.steps ground.reflected rules.reversed k (.start x y)) =
      (Walk.run ground rules (Walk.steps ground rules k (.start x y))).reflected := by
    rw [← Walk.run_reflected h, ← Walk.steps_reflected h]
    rfl
  have hpoints : (walked ground.reflected rules.reversed x y k).waypoints =
      (walked ground rules x y k).waypoints.map Waypoint.reflected := by
    rw [walked, hwalk]
    exact List.map_reverse.symm
  refine ⟨?_, ?_, ?_⟩
  · rw [length, length, hpoints, List.length_map]
  · rw [walked, hwalk]
    rfl
  · rw [hpoints, List.forall₂_map_left_iff, List.forall₂_same]
    exact fun p _ => ⟨rfl, rfl, rfl⟩

end Trace

/-- An ascent is mirrored by a descent of the ground turned upside down, whatever the start, rate, budget
and floor, and however the steps are cut into pieces. It holds in exact arithmetic with infinite and
undefined values, and with any rounding that is the same on both sides of zero. -/
theorem descent_mirrors_ascent (r : Rounding) (ground : Ground Id (Extended r))
    (rate floor : Extended r) (budget : ℤ) (x y : Extended r) (k : ℕ) :
    (Trace.walked ground.reflected ⟨false, rate, budget, floor⟩ x y k).Mirrors
      (Trace.walked ground ⟨true, rate, budget, floor⟩ x y k) :=
  Trace.walked_reversed (signed_extended r) ground ⟨true, rate, budget, floor⟩ x y k

/-- Doubles mirror each other as well, down to the last bit. -/
theorem doubles_mirror (ground : Ground Id Float) (rate floor : Float) (budget : ℤ) (x y : Float)
    (k : ℕ) :
    (Trace.walked ground.reflected ⟨false, rate, budget, floor⟩ x y k).Mirrors
      (Trace.walked ground ⟨true, rate, budget, floor⟩ x y k) :=
  Trace.walked_reversed signed_double ground ⟨true, rate, budget, floor⟩ x y k

end FieldWalk.Path
