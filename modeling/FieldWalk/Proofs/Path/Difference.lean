import FieldWalk.Field.Snapshot
import FieldWalk.Proofs.Path.Reflection
import Mathlib.Algebra.MvPolynomial.PDeriv
import Mathlib.Data.Fin.VecNotation
import Mathlib.Tactic.FieldSimp
/-!
# Walks by differences of heights

A field without partial derivatives takes differences of heights for slopes. With nothing rounded these
are the slopes of every polynomial of degree at most two. A walk asks for slopes at finite places only, so
on such a field it goes the same way with and without the partial derivatives.
-/

/-! ## Central differences -/

namespace FieldWalk.Field

open Numeral MvPolynomial

section
variable {σ : Type} [Fintype σ] [DecidableEq σ] {p : MvPolynomial σ ℚ} {i : σ}

/-- A term at a point that is moved along one axis. -/
theorem eval_update_monomial (m : σ →₀ ℕ) (a : ℚ) (v : σ → ℚ) (i : σ) (t : ℚ) :
    eval (Function.update v i t) (monomial m a) =
      a * (t ^ m i * ∏ j ∈ Finset.univ \ {i}, v j ^ m j) := by
  have hupdate : (fun j => Function.update v i t j ^ m j) =
      Function.update (fun j => v j ^ m j) i (t ^ m i) :=
    funext fun j => Function.apply_update (fun j x => x ^ m j) v i t j
  rw [eval_monomial, Finsupp.prod_pow, hupdate, Finset.prod_update_of_mem (Finset.mem_univ i)]

theorem eval_pderiv_monomial (m : σ →₀ ℕ) (a : ℚ) (v : σ → ℚ) (i : σ) :
    eval v (pderiv i (monomial m a)) =
      a * (m i * v i ^ (m i - 1) * ∏ j ∈ Finset.univ \ {i}, v j ^ m j) := by
  -- lowering one exponent leaves the others as they are
  have hrest : ∏ j ∈ Finset.univ \ {i}, v j ^ (m - Finsupp.single i 1 : σ →₀ ℕ) j =
      ∏ j ∈ Finset.univ \ {i}, v j ^ m j := by
    refine Finset.prod_congr rfl fun j hj => ?_
    have hij : i ≠ j := by
      rintro rfl
      simp at hj
    rw [Finsupp.tsub_apply, Finsupp.single_eq_of_ne' hij, Nat.sub_zero]
  have hat := eval_update_monomial (m - Finsupp.single i 1) (a * m i) v i (v i)
  rw [Function.update_eq_self, hrest, Finsupp.tsub_apply, Finsupp.single_eq_same] at hat
  rw [pderiv_monomial, hat]
  ring

/-- For a polynomial of degree at most two along an axis the difference of the heights on both sides,
over the way between them, is the slope. -/
theorem central_difference (hp : p.degreeOf i ≤ 2) (v : σ → ℚ) {h : ℚ} (hh : h ≠ 0) :
    (eval (Function.update v i (v i + h)) p - eval (Function.update v i (v i - h)) p) / (2 * h) =
      eval v (pderiv i p) := by
  have hterm : ∀ m ∈ p.support,
      (eval (Function.update v i (v i + h)) (monomial m (coeff m p)) -
        eval (Function.update v i (v i - h)) (monomial m (coeff m p))) / (2 * h) =
      eval v (pderiv i (monomial m (coeff m p))) := by
    intro m hm
    have hle : m i ≤ 2 := (monomial_le_degreeOf i hm).trans hp
    rw [eval_update_monomial, eval_update_monomial, eval_pderiv_monomial]
    generalize ∏ j ∈ Finset.univ \ {i}, v j ^ m j = rest
    generalize m i = e at hle
    interval_cases e
    · simp
    · field_simp
      ring
    · field_simp
      ring
  rw [p.as_sum]
  simp only [map_sum, ← Finset.sum_sub_distrib, Finset.sum_div]
  exact Finset.sum_congr rfl hterm

end

/-! ## Exact samples -/

/-- A rational number, where there are infinite ones beside it. -/
def exactly (q : ℚ) : Extended .exact :=
  .finite q rfl

section
variable (p q : ℚ)

theorem exactly_add : exactly p + exactly q = exactly (p + q) :=
  Extended.ofRat_of_some rfl

theorem exactly_sub : exactly p - exactly q = exactly (p - q) := by
  rw [sub_eq_add_neg p q]
  exact exactly_add p (-q)

theorem exactly_mul : exactly p * exactly q = exactly (p * q) :=
  Extended.ofRat_of_some rfl

variable {q} in
theorem exactly_div (hq : q ≠ 0) : exactly p / exactly q = exactly (p / q) :=
  (if_neg hq).trans (Extended.ofRat_of_some rfl)

end

theorem exists_exactly {v : Extended .exact} (h : Scalar.isFinite v = true) : ∃ q, v = exactly q := by
  cases v with
  | finite q hq => exact ⟨q, rfl⟩
  | infinite | undefined => cases h

theorem differenceStep_eq : (differenceStep : Extended .exact) = exactly (1 / 10 ^ 6) := by
  decide +kernel

theorem ofNat_exactly (n : ℕ) : (Scalar.ofNat n : Extended .exact) = exactly n := by
  have hdecimal : (((n : ℤ) : ℚ) * 10 ^ (0 : ℤ)) = n := by simp
  show Extended.ofRat .exact (((n : ℤ) : ℚ) * 10 ^ (0 : ℤ)) = exactly n
  rw [hdecimal]
  exact Extended.ofRat_of_some rfl

/-- A formula that gives the values of a polynomial in two variables at all finite places. -/
def Computes (f : Formula (Extended .exact)) (p : MvPolynomial (Fin 2) ℚ) : Prop :=
  ∀ x y, f (exactly x) (exactly y) = some (.real (exactly (eval ![x, y] p)))

theorem Computes.sample {f : Formula (Extended .exact)} {p : MvPolynomial (Fin 2) ℚ}
    (h : Computes f p) {decode : Reading (Extended .exact) → Extended .exact}
    (hd : ∀ q, decode (.real (exactly q)) = exactly q) (x y : ℚ) :
    f.sample decode (exactly x) (exactly y) = exactly (eval ![x, y] p) := by
  rw [Formula.sample, h]
  exact hd _

/-- A field, not a radial one, that has a polynomial for its heights and the partial derivatives of the
polynomial for its slopes. -/
structure IsPolynomial (s : Snapshot (Extended .exact)) (p : MvPolynomial (Fin 2) ℚ) : Prop where
  radial : s.radial = false
  height : Computes s.height p
  slopes : ∃ gx gy, s.slopes = some (gx, gy) ∧ Computes gx (pderiv 0 p) ∧ Computes gy (pderiv 1 p)

namespace Snapshot

/-- The field without its partial derivatives. -/
def withoutSlopes {α : Type} (s : Snapshot α) : Snapshot α :=
  { s with slopes := none }

variable {s : Snapshot (Extended .exact)} {p : MvPolynomial (Fin 2) ℚ}

theorem evaluate_polynomial (h : IsPolynomial s p) (x y : ℚ) :
    s.evaluate (exactly x) (exactly y) = exactly (eval ![x, y] p) := by
  unfold evaluate
  rw [h.radial]
  exact h.height.sample (fun _ => rfl) x y

theorem gradient_polynomial (h : IsPolynomial s p) (x y : ℚ) :
    s.gradient (exactly x) (exactly y) =
      (exactly (eval ![x, y] (pderiv 0 p)), exactly (eval ![x, y] (pderiv 1 p))) := by
  obtain ⟨gx, gy, hs, hx, hy⟩ := h.slopes
  unfold gradient
  rw [hs]
  exact Prod.ext (hx.sample (fun _ => rfl) x y) (hy.sample (fun _ => rfl) x y)

/-- At a finite place the differences are the partial derivatives. -/
theorem numericGradient_polynomial (h : IsPolynomial s p) (hp : p.totalDegree ≤ 2) (x y : ℚ) :
    s.numericGradient (exactly x) (exactly y) =
      (exactly (eval ![x, y] (pderiv 0 p)), exactly (eval ![x, y] (pderiv 1 p))) := by
  have hstep : (1 / 10 ^ 6 : ℚ) ≠ 0 := by norm_num
  have hway : 2 * (1 / 10 ^ 6 : ℚ) ≠ 0 := by norm_num
  have hdegree : ∀ i, p.degreeOf i ≤ 2 := fun i => (p.degreeOf_le_totalDegree i).trans hp
  have hx : ∀ t, Function.update ![x, y] 0 t = ![t, y] := fun t => by
    ext j
    fin_cases j <;> rfl
  have hy : ∀ t, Function.update ![x, y] 1 t = ![x, t] := fun t => by
    ext j
    fin_cases j <;> rfl
  have hdx := central_difference (hdegree 0) ![x, y] hstep
  have hdy := central_difference (hdegree 1) ![x, y] hstep
  rw [hx, hx] at hdx
  rw [hy, hy] at hdy
  simp only [numericGradient, differenceStep_eq, ofNat_exactly, Nat.cast_ofNat, exactly_add,
    exactly_sub, exactly_mul, evaluate_polynomial h, exactly_div _ hway]
  exact congrArg₂ (fun a b => (exactly a, exactly b)) hdx hdy

end Snapshot

end FieldWalk.Field

/-! ## Walks -/

namespace FieldWalk.Path

open Numeral
open FieldWalk.Field (Snapshot)

section
variable {α : Type} [Scalar α] {ground other : Ground Id α}

/-- The same heights, and the same slopes at all finite places. -/
structure Ground.Agrees (ground other : Ground Id α) : Prop where
  height : ∀ x y, ground.height x y = other.height x y
  gradient : ∀ x y, Scalar.isFinite x = true → Scalar.isFinite y = true →
    ground.gradient x y = other.gradient x y

namespace Walk

/-- A step asks for slopes only after it has checked the place. -/
theorem step_agrees (h : ground.Agrees other) (rules : Rules α) (w : Walk α) :
    w.step ground rules = w.step other rules := by
  by_cases hfin : (Scalar.isFinite w.x && Scalar.isFinite w.y) = true
  · have hg := Bool.and_eq_true_iff.1 hfin
    simp only [step, bind, h.height, h.gradient _ _ hg.1 hg.2]
  · have hstop : ∀ z : α, (!(Scalar.isFinite w.x && Scalar.isFinite w.y && Scalar.isFinite z)) = true := by
      intro z
      rw [Bool.not_eq_true] at hfin
      rw [hfin]
      rfl
    simp only [step, bind, hstop, if_true]

theorem steps_agrees (h : ground.Agrees other) (rules : Rules α) (n : ℕ) (w : Walk α) :
    steps ground rules n w = steps other rules n w := by
  induction n generalizing w with
  | zero => rfl
  | succ n ih =>
    show steps ground rules n (w.step ground rules) = steps other rules n (w.step other rules)
    rw [step_agrees h, ih]

end Walk

theorem Trace.walked_agrees (h : ground.Agrees other) (rules : Rules α) (x y : α) (k : ℕ) :
    walked ground rules x y k = walked other rules x y k := by
  unfold walked Walk.run
  rw [Walk.steps_agrees h, Walk.steps_agrees h]

end

/-- The ground of a field. -/
def Ground.ofField {α : Type} [Scalar α] (s : Snapshot α) : Ground Id α :=
  ⟨s.evaluate, s.gradient⟩

theorem agrees_withoutSlopes {s : Snapshot (Extended .exact)} {p : MvPolynomial (Fin 2) ℚ}
    (h : Field.IsPolynomial s p) (hp : p.totalDegree ≤ 2) :
    (Ground.ofField s.withoutSlopes).Agrees (.ofField s) := by
  refine ⟨fun _ _ => rfl, fun x y hx hy => ?_⟩
  obtain ⟨x, rfl⟩ := Field.exists_exactly hx
  obtain ⟨y, rfl⟩ := Field.exists_exactly hy
  exact (Snapshot.numericGradient_polynomial h hp x y).trans (Snapshot.gradient_polynomial h x y).symm

/-- On a polynomial of degree at most two a walk by differences of heights is the walk by the partial
derivatives: the same waypoints and the same reason, whatever the start, direction, rate, budget and
floor, and however the steps are cut into pieces. Nothing is rounded. -/
theorem differences_walk_alike (p : MvPolynomial (Fin 2) ℚ) (hp : p.totalDegree ≤ 2)
    (s : Snapshot (Extended .exact)) (hs : Field.IsPolynomial s p) (rules : Rules (Extended .exact))
    (x y : Extended .exact) (k : ℕ) :
    Trace.walked (.ofField s.withoutSlopes) rules x y k = Trace.walked (.ofField s) rules x y k :=
  Trace.walked_agrees (agrees_withoutSlopes hs hp) rules x y k

/-- The heights `x ^ 2 + 3 * y` with their partial derivatives. -/
def tiltedTrough : Snapshot (Extended .exact) where
  height x y := some (.real (x * x + Scalar.ofNat 3 * y))
  slopes := some (fun x _ => some (.real (Scalar.ofNat 2 * x)),
    fun _ _ => some (.real (Scalar.ofNat 3)))
  radial := false
  limit := none
  flat := "x^2+3*y"
  markup := "x^2+3y"

/-- Three points downhill. -/
theorem trough_walked_alike :
    let p : MvPolynomial (Fin 2) ℚ := .X 0 ^ 2 + .C 3 * .X 1
    let rules : Rules (Extended .exact) := { Rules.usual false with budget := 3 }
    let x := Field.exactly (3 / 2)
    let y := Field.exactly (-2)
    let t := Trace.walked (.ofField tiltedTrough.withoutSlopes) rules x y 1
    p.totalDegree ≤ 2 ∧ Field.IsPolynomial tiltedTrough p ∧
      t = Trace.walked (.ofField tiltedTrough) rules x y 1 ∧
      t.length = 3 ∧ t.reason = .budgetSpent := by
  intro p rules x y t
  have hp : p.totalDegree ≤ 2 := by
    refine (MvPolynomial.totalDegree_add _ _).trans (max_le ?_ ?_)
    · exact (MvPolynomial.totalDegree_X_pow _ _).le
    · refine (MvPolynomial.totalDegree_mul _ _).trans ?_
      rw [MvPolynomial.totalDegree_C, MvPolynomial.totalDegree_X]
      norm_num
  have hs : Field.IsPolynomial tiltedTrough p := by
    refine ⟨rfl, fun x y => ?_, _, _, rfl, fun x y => ?_, fun x y => ?_⟩
    · simp [tiltedTrough, p, Field.ofNat_exactly, Field.exactly_mul, Field.exactly_add, pow_two]
    · simp [p, Field.ofNat_exactly, Field.exactly_mul, MvPolynomial.pderiv_X]
    · simp [p, Field.ofNat_exactly, MvPolynomial.pderiv_X]
  exact ⟨hp, hs, differences_walk_alike p hp tiltedTrough hs rules x y 1, by decide +kernel,
    by decide +kernel⟩

end FieldWalk.Path
