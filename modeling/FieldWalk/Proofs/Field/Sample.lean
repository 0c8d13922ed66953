import FieldWalk.Field.Snapshot
/-!
# What a sample can be

A value of a formula is let through if it is finite and replaced otherwise. The limit of a radial
field is the one height that is not a value of its formula.
-/

namespace FieldWalk.Field

open Numeral

variable {α : Type} [Scalar α]

/-- A finite number, or the value of what is undefined. -/
def Proper (v : α) : Prop :=
  Scalar.isFinite v = true ∨ v = Scalar.nan

theorem proper_finiteOrNan (v : α) : Proper (Scalar.finiteOrNan v) := by
  unfold Scalar.finiteOrNan
  split
  · exact .inl ‹_›
  · exact .inr rfl

theorem Reading.proper_height (r : Reading α) : Proper r.height := by
  cases r <;> exact proper_finiteOrNan _

theorem Reading.proper_slope (r : Reading α) : Proper r.slope := by
  cases r with
  | real v => exact proper_finiteOrNan v
  | complex re im => exact .inr rfl

theorem Formula.proper_sample (f : Formula α) {decode : Reading α → α}
    (h : ∀ r, Proper (decode r)) (x y : α) : Proper (f.sample decode x y) := by
  unfold Formula.sample
  split
  · exact h _
  · exact .inr rfl

namespace Snapshot

variable (s : Snapshot α) (x y : α)

/-- The point lies where a radial field is not sampled. -/
def Central : Prop :=
  s.radial = true ∧ Scalar.lt (Scalar.hypot x y) singularityRadius = true

instance : Decidable (s.Central x y) :=
  inferInstanceAs (Decidable (_ ∧ _))

theorem evaluate_eq : s.evaluate x y =
    if s.Central x y then
      s.limit.getD (s.height.sample Reading.height singularityRadius (Scalar.ofNat 0))
    else s.height.sample Reading.height x y := by
  simp only [evaluate, Central, Bool.and_eq_true]
  cases s.limit <;> rfl

/-- A height is the limit at the centre of a radial field, or proper. -/
theorem evaluate_cases :
    (s.Central x y ∧ s.limit = some (s.evaluate x y)) ∨
    ((¬ s.Central x y ∨ s.limit = none) ∧ Proper (s.evaluate x y)) := by
  have hsample := fun x y => s.height.proper_sample Reading.proper_height x y
  rw [evaluate_eq]
  by_cases hc : s.Central x y
  · cases hl : s.limit with
    | none => exact .inr ⟨.inr rfl, by simpa [hc] using hsample _ _⟩
    | some v => exact .inl ⟨hc, by simp [hc]⟩
  · exact .inr ⟨.inl hc, by simpa [hc] using hsample x y⟩

end Snapshot

end FieldWalk.Field
