import FieldWalk.Proofs.Field.Sample
import FieldWalk.Proofs.Numeral.Double
import FieldWalk.Proofs.Path.Course
/-!
# Walks over complex values

The height drawn for a complex value is its magnitude, which is no slope to follow. The slopes at a
point are not told from the value there, though: partial derivatives are asked for their own values,
and a difference of heights sees the magnitudes alone. So a walk stops at a complex value exactly if
one of the partial derivatives gives no real number there, or one of the differences no value.
-/

namespace FieldWalk.Field

open Numeral
open FieldWalk.Path (Ground Rules Walk Waypoint)

/-! ## Slopes without value -/

/-- The formula gives no real number that is finite. -/
def Formula.Slopeless (f : Formula Float) (x y : Float) : Prop :=
  ∀ v, f x y = some (.real v) → v.isFinite = false

/-- Two heights whose difference has no value. -/
def Gap (a b : Float) : Prop :=
  a.isNaN = true ∨ b.isNaN = true ∨ a.isInf = true ∧ a = b

theorem isNaN_nan : (Scalar.nan : Float).isNaN = true := by
  decide +kernel

theorem isNaN_finiteOrNan (v : Float) :
    (Scalar.finiteOrNan v).isNaN = true ↔ v.isFinite = false := by
  show (if v.isFinite then v else Scalar.nan).isNaN = true ↔ _
  split
  · rename_i h
    rw [((Double.isFinite_iff v).1 h).1, h]
    exact iff_of_false nofun nofun
  · rename_i h
    exact iff_of_true isNaN_nan (Bool.not_eq_true _ ▸ h)

theorem Formula.isNaN_slope (f : Formula Float) (x y : Float) :
    (f.sample Reading.slope x y).isNaN = true ↔ f.Slopeless x y := by
  unfold Formula.sample Formula.Slopeless
  cases f x y with
  | none => exact iff_of_true isNaN_nan nofun
  | some r =>
    cases r with
    | real v => exact (isNaN_finiteOrNan v).trans (by simp)
    | complex re im => exact iff_of_true isNaN_nan nofun

theorem isNaN_quotient (a b : Float) :
    ((a - b) / (Scalar.ofNat 2 * differenceStep)).isNaN = true ↔ Gap a b := by
  rw [Double.isNaN_div (by decide +kernel) (by decide +kernel), Double.isNaN_sub, Gap]

namespace Snapshot

variable (s : Snapshot Float) (x y : Float)

/-- One of the slopes has no value. -/
def Slopeless : Prop :=
  match s.slopes with
  | some (gx, gy) => gx.Slopeless x y ∨ gy.Slopeless x y
  | none =>
    Gap (s.evaluate (x + differenceStep) y) (s.evaluate (x - differenceStep) y) ∨
      Gap (s.evaluate x (y + differenceStep)) (s.evaluate x (y - differenceStep))

theorem isNaN_gradient :
    ((s.gradient x y).1.isNaN = true ∨ (s.gradient x y).2.isNaN = true) ↔ s.Slopeless x y := by
  unfold gradient Slopeless
  cases s.slopes with
  | none => exact or_congr (isNaN_quotient _ _) (isNaN_quotient _ _)
  | some g => exact or_congr (g.1.isNaN_slope x y) (g.2.isNaN_slope x y)

/-- The ground of a walk over the field. -/
def ground : Ground Id Float :=
  ⟨s.evaluate, s.gradient⟩

theorem sloped_iff (p : Waypoint Float) :
    s.ground.Sloped p ↔ ¬ s.Slopeless p.x p.y ∧
      (s.gradient p.x p.y).1.isInf = false ∧ (s.gradient p.x p.y).2.isInf = false := by
  have hfin : ∀ v : Float, Scalar.isFinite v = true ↔ v.isNaN = false ∧ v.isInf = false :=
    Double.isFinite_iff
  rw [← s.isNaN_gradient, Ground.Sloped, hfin, hfin]
  simp only [ground, not_or, Bool.not_eq_true]
  tauto

end Snapshot

/-! ## Walks -/

/-- A complex value is drawn at its magnitude. One of the slopes is not a number there exactly if the
field is slopeless, and then a walk that stands on the point ends with it. Otherwise the walk goes on
from the magnitude as from any height: unless the budget is spent, something is infinite or the
slopes are flat. -/
theorem complex_stops_iff (s : Snapshot Float) {x y re im : Float}
    (away : ¬ s.Central x y) (complex : s.height x y = some (.complex re im)) :
    let p : Waypoint Float := ⟨x, y, Scalar.finiteOrNan (hypotenuse re im)⟩
    let g := s.gradient x y
    ((g.1.isNaN = true ∨ g.2.isNaN = true) ↔ s.Slopeless x y) ∧
    ∀ (rules : Rules Float) (w : Walk Float), w.x = x → w.y = y → w.reason = none →
      let w' := w.step s.ground rules
      w'.points = (if (w.taken : ℤ) < rules.budget ∧ p.Finite then p :: w.points else w.points) ∧
      (w'.reason = none ↔ (w.taken : ℤ) < rules.budget ∧ p.Finite ∧ ¬ s.Slopeless x y ∧
        g.1.isInf = false ∧ g.2.isInf = false ∧ ¬ rules.Flat g) ∧
      (s.Slopeless x y →
        w'.reason ≠ none ∧ ∀ n, Walk.steps s.ground rules (n + 1) w = w') := by
  intro p g
  have hp : s.ground.sample x y = p := by
    show (⟨x, y, s.evaluate x y⟩ : Waypoint Float) = p
    rw [s.evaluate_eq, if_neg away, Formula.sample, complex]
    rfl
  refine ⟨s.isNaN_gradient x y, ?_⟩
  rintro rules w rfl rfl going w'
  have hon : w'.reason = none ↔ (w.taken : ℤ) < rules.budget ∧ p.Finite ∧
      ¬ s.Slopeless w.x w.y ∧ g.1.isInf = false ∧ g.2.isInf = false ∧ ¬ rules.Flat g := by
    rw [Walk.step_goes_on_iff going, hp, Ground.Usable, s.sloped_iff]
    simp only [and_assoc]
    rfl
  refine ⟨?_, hon, fun hs => ?_⟩
  · rw [Walk.step_points_eq going, hp]
  · have hended : w'.reason ≠ none := fun h => (hon.1 h).2.2.1 hs
    exact ⟨hended, Walk.steps_ended hended⟩

/-- The square root of the first coordinate. -/
def root : Formula Float := fun x _ =>
  some (if x < 0 then .complex 0 (Float.sqrt (-x)) else .real (Float.sqrt x))

theorem root_neg_one : root (-1) 0 = some (.complex 0 1) := by
  have hneg : (-1 : Float) < 0 := by decide +kernel
  have hsqrt : Float.sqrt (-(-1)) = 1 := by decide +kernel
  rw [root, if_pos hneg, hsqrt]

/-- The derivatives of the square root. -/
def rootSlopes : Formula Float × Formula Float :=
  (fun x _ => some (if x < 0 then .complex 0 (-0.5 / Float.sqrt (-x))
    else .real (0.5 / Float.sqrt x)), fun _ _ => some (.real 0))

/-- With its derivatives for slopes, no walk goes on from the root of minus one. -/
theorem root_of_negative_stops :
    let s : Snapshot Float := ⟨root, some rootSlopes, false, none, "sqrt((x))", "\\sqrt\x7bx\x7d"⟩
    (¬ s.Central (-1) 0 ∧ root (-1) 0 = some (.complex 0 1)) ∧ s.Slopeless (-1) 0 ∧
    ∀ rules n, (Walk.steps s.ground rules (n + 1) (.start (-1) 0)).reason ≠ none := by
  intro s
  have haway : ¬ s.Central (-1) 0 := fun h => Bool.false_ne_true h.1
  have hroot : root (-1) 0 = some (.complex 0 1) := root_neg_one
  obtain ⟨hnan, hwalk⟩ := complex_stops_iff s haway hroot
  have hs : s.Slopeless (-1) 0 := hnan.1 (.inl (by decide +kernel))
  refine ⟨⟨haway, hroot⟩, hs, fun rules n => ?_⟩
  obtain ⟨-, -, hstop⟩ := hwalk rules (.start (-1) 0) rfl rfl rfl
  rw [(hstop hs).2 n]
  exact (hstop hs).1

/-- Without derivatives a walk goes on from the root of minus one, down the magnitude; and with them
it goes on from a sum whose imaginary part is constant. -/
theorem magnitude_followed :
    let s : Snapshot Float := ⟨root, none, false, none, "sqrt((x))", "\\sqrt\x7bx\x7d"⟩
    let t : Snapshot Float := ⟨fun x _ => some (.complex x 1),
      some (fun _ _ => some (.real 1), fun _ _ => some (.real 0)), false, none, "x+sqrt((-1))",
      "x+\\sqrt\x7b-1\x7d"⟩
    (root (-1) 0 = some (.complex 0 1) ∧
      (s.gradient (-1) 0).1.isNaN = false ∧ (s.gradient (-1) 0).2.isNaN = false ∧
      (Walk.steps s.ground (.usual false) 2 (.start (-1) 0)).reason = none ∧
      (Walk.steps s.ground (.usual false) 2 (.start (-1) 0)).points.length = 2) ∧
    (t.height 1 0 = some (.complex 1 1) ∧
      (t.gradient 1 0).1.isNaN = false ∧ (t.gradient 1 0).2.isNaN = false ∧
      (Walk.steps t.ground (.usual false) 2 (.start 1 0)).reason = none ∧
      (Walk.steps t.ground (.usual false) 2 (.start 1 0)).points.length = 2) := by
  refine ⟨⟨root_neg_one, ?_, ?_, ?_, ?_⟩, rfl, ?_, ?_, ?_, ?_⟩ <;> decide +kernel

end FieldWalk.Field
