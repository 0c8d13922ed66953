import FieldWalk.Proofs.Field.Sample
import FieldWalk.Proofs.Numeral.Ranged
import FieldWalk.Surface.Grid
/-!
# Samples beyond the range of doubles

Two kinds of samples are not looked at before they are given out, the limit of a radial field and
the quotients of differences of heights. So these can be infinite, and nothing else can.
-/

namespace FieldWalk.Field

open Numeral
open Surface (Grid)

/-! ## Quotients of differences -/

/-- Two heights too far apart for a slope within the range. -/
def Steep : Ranged → Ranged → Prop
  | .finite p _, .finite q _ => largest * (2 / 10 ^ 6) < |p - q|
  | .infinite m, .infinite n => m ≠ n
  | .infinite _, .finite _ _ | .finite _ _, .infinite _ => True
  | .undefined, _ | _, .undefined => False

theorem two_steps_le : |(2 / 10 ^ 6 : ℚ)| ≤ largest := by decide +kernel

theorem two_steps_eq :
    (Scalar.ofNat 2 * differenceStep : Ranged) = .finite (2 / 10 ^ 6) two_steps_le := by
  decide +kernel

theorem infinite_quotient_iff (a b : Ranged) :
    ((a - b) / (Scalar.ofNat 2 * differenceStep)).Infinite ↔ Steep a b := by
  rw [two_steps_eq]
  cases a with
  | undefined => exact iff_of_false nofun id
  | finite p hp =>
    cases b with
    | undefined => exact iff_of_false nofun id
    | infinite n => exact iff_of_true (Ranged.infinite_div _ _) trivial
    | finite q hq =>
      rw [Ranged.sub_finite]
      exact Ranged.infinite_ofRat_div_iff _ (by norm_num) (by norm_num) _
  | infinite m =>
    cases b with
    | undefined => exact iff_of_false nofun id
    | finite q hq => exact iff_of_true (Ranged.infinite_div _ _) trivial
    | infinite n =>
      have hsub : Ranged.infinite m - .infinite n = if m = !n then .infinite m else .undefined := rfl
      by_cases h : m = n
      · rw [hsub, if_neg (by simp [h])]
        exact iff_of_false nofun (not_not.2 h)
      · rw [hsub, if_pos (Bool.eq_not.2 h)]
        exact iff_of_true (Ranged.infinite_div _ _) h

/-! ## Samples -/

theorem Proper.not_infinite {v : Ranged} (h : Proper v) : ¬ v.Infinite := by
  rintro ⟨n, rfl⟩
  rcases h with h | h <;> cases h

namespace Snapshot

variable (s : Snapshot Ranged) (x y : Ranged)

theorem infinite_evaluate_iff :
    (s.evaluate x y).Infinite ↔ s.Central x y ∧ ∃ v ∈ s.limit, v.Infinite := by
  rcases s.evaluate_cases x y with ⟨hc, hl⟩ | ⟨hn, hp⟩
  · simp [hc, hl]
  · refine iff_of_false hp.not_infinite ?_
    rintro ⟨hc, v, hv, -⟩
    rcases hn with hn | hn
    · exact hn hc
    · simp [hn] at hv

theorem infinite_gradient_iff :
    ((s.gradient x y).1.Infinite ↔ s.numeric = true ∧
      Steep (s.evaluate (x + differenceStep) y) (s.evaluate (x - differenceStep) y)) ∧
    ((s.gradient x y).2.Infinite ↔ s.numeric = true ∧
      Steep (s.evaluate x (y + differenceStep)) (s.evaluate x (y - differenceStep))) := by
  unfold gradient numeric
  cases s.slopes with
  | none => simp [numericGradient, infinite_quotient_iff]
  | some g =>
    have hproper := fun f : Formula Ranged => f.proper_sample Reading.proper_slope x y
    simp [(hproper g.1).not_infinite, (hproper g.2).not_infinite]

end Snapshot

/-- A height is infinite at the centre of a radial field with an infinite limit, and nowhere else; so
is a cell of a surface. A partial derivative never is, and a quotient of differences is where the
heights beside the point are too far apart. The limit of a number is infinite beyond the range. -/
theorem infinite_samples (s : Snapshot Ranged) (x y : Ranged) (xRange yRange : Ranged × Ranged)
    (n : ℕ) :
    let e := differenceStep
    let grid := Grid.sample s.evaluate xRange yRange n
    ((s.evaluate x y).Infinite ↔ s.Central x y ∧ ∃ v ∈ s.limit, v.Infinite) ∧
    ((s.gradient x y).1.Infinite ↔
      s.numeric = true ∧ Steep (s.evaluate (x + e) y) (s.evaluate (x - e) y)) ∧
    ((s.gradient x y).2.Infinite ↔
      s.numeric = true ∧ Steep (s.evaluate x (y + e)) (s.evaluate x (y - e))) ∧
    (∀ q, (Ranged.ofRat q).Infinite ↔ largest < |q|) ∧
    ((∃ row ∈ grid.z, ∃ v ∈ row, v.Infinite) ↔
      (∃ v ∈ s.limit, v.Infinite) ∧ ∃ y ∈ grid.ys, ∃ x ∈ grid.xs, s.Central x y) := by
  intro e grid
  refine ⟨s.infinite_evaluate_iff x y, (s.infinite_gradient_iff x y).1,
    (s.infinite_gradient_iff x y).2, Ranged.infinite_ofRat_iff, ?_⟩
  · show (∃ row ∈ grid.ys.map fun y => grid.xs.map fun x => s.evaluate x y,
      ∃ v ∈ row, v.Infinite) ↔ _
    simp only [List.mem_map, exists_exists_and_eq_and, s.infinite_evaluate_iff]
    constructor
    · rintro ⟨y, hy, x, hx, hc, hv⟩
      exact ⟨hv, y, hy, x, hx, hc⟩
    · rintro ⟨hv, y, hy, x, hx, hc⟩
      exact ⟨y, hy, x, hx, hc, hv⟩

/-- The distance from the origin and the number `10 ^ 309` have that number for their limit, whose
double is infinite and is the height at the origin. The heights `10 ^ 308 * x ^ 2` are finite beside
`x = 1`, and the quotient of their difference is infinite. -/
theorem limit_and_quotient_overflow :
    let s : Snapshot Ranged := ⟨fun x y => some (.real (Scalar.hypot x y + .ofRat (10 ^ 309))),
      some (fun x y => some (.real (x / Scalar.hypot x y)),
        fun x y => some (.real (y / Scalar.hypot x y))),
      true, some (.ofRat (10 ^ 309)), "sqrt((x^2+y^2))+10^(309)",
      "\\sqrt\x7bx^2+y^2\x7d+10^\x7b309\x7d"⟩
    let t : Snapshot Ranged := ⟨fun x _ => some (.real (.ofRat (10 ^ 308) * (x * x))), none, false,
      none, "10^(308)*x^2", "10^\x7b308\x7dx^2"⟩
    let side : Ranged × Ranged := (.ofRat (-1), .ofRat 1)
    (s.evaluate (.ofRat 0) (.ofRat 0)).Infinite ∧
    (∃ row ∈ (Grid.sample s.evaluate side side 3).z, ∃ v ∈ row, v.Infinite) ∧
    (t.gradient (.ofRat 1) (.ofRat 0)).1.Infinite := by
  refine ⟨?_, ?_, ?_⟩ <;> decide +kernel

/-- The quotient overflows with rounded numbers too. -/
example : ((⟨fun x _ => some (.real (1e308 * (x * x))), none, false, none, "10^(308)*x^2", ""⟩ :
    Snapshot Float).gradient 1 0).1.isInf = true := by
  decide +kernel

end FieldWalk.Field
