import FieldWalk.Path.Walk
/-!
# A path starts where the walk was sent off

A step records the point where the walker stands or nothing, and only moves after it has recorded.
So the first waypoint is the start point, and a path is determined by the ground, its direction and
its own first waypoint.
-/

namespace FieldWalk.Path

open Numeral

variable {α : Type} [Scalar α]

namespace Walk

/-- A step stays and records nothing, or it records the point where the walker stands. -/
theorem step_points (ground : Ground Id α) (rules : Rules α) (w : Walk α) :
    ((w.step ground rules).points = w.points ∧ (w.step ground rules).x = w.x ∧
      (w.step ground rules).y = w.y) ∨
    ∃ z, (w.step ground rules).points = ⟨w.x, w.y, z⟩ :: w.points := by
  unfold step
  split
  · exact .inl ⟨rfl, rfl, rfl⟩
  · split
    · exact .inl ⟨rfl, rfl, rfl⟩
    · simp only [bind, pure]
      split
      · exact .inl ⟨rfl, rfl, rfl⟩
      · right
        refine ⟨ground.height w.x w.y, ?_⟩
        split
        · rfl
        · split <;> rfl

/-- The walker still stands at `(x, y)` with nothing recorded, or the first record is of `(x, y)`. -/
def From (x y : α) (w : Walk α) : Prop :=
  (w.points = [] ∧ w.x = x ∧ w.y = y) ∨ ∃ z, w.points.getLast? = some ⟨x, y, z⟩

theorem from_step (ground : Ground Id α) (rules : Rules α) {x y : α} {w : Walk α} (h : From x y w) :
    From x y (w.step ground rules) := by
  -- points are recorded at the front, so only the first record decides what is last
  rcases step_points ground rules w with ⟨hp, hx, hy⟩ | ⟨z, hp⟩
  · simpa only [From, hp, hx, hy] using h
  · right
    rcases h with ⟨h0, rfl, rfl⟩ | ⟨z0, h0⟩
    · exact ⟨z, by simp [hp, h0]⟩
    · exact ⟨z0, by simp [hp, List.getLast?_cons, h0]⟩

theorem from_steps (ground : Ground Id α) (rules : Rules α) {x y : α} (n : Nat) {w : Walk α}
    (h : From x y w) : From x y (steps ground rules n w) := by
  induction n generalizing w with
  | zero => exact h
  | succ n ih => exact ih (from_step ground rules h)

end Walk

/-- The first waypoint of a path lies at its start point. -/
theorem trace_head (ground : Ground Id α) (ascend : Bool) (x y : α) :
    (trace ground ascend x y).waypoints = [] ∨
      ∃ z, (trace ground ascend x y).waypoints.head? = some ⟨x, y, z⟩ := by
  have h : Walk.From x y (Walk.run ground (.usual ascend) (.start x y)) :=
    Walk.from_steps ground _ _ (.inl ⟨rfl, rfl, rfl⟩)
  rcases h with ⟨h, -, -⟩ | ⟨z, h⟩
  · exact .inl (by simp [trace, Trace.ofWalk, h])
  · exact .inr ⟨z, by simp [trace, Trace.ofWalk, h]⟩

/-- A path that succeeded is the one from its own first waypoint in its own direction. -/
theorem trace_of_head (ground : Ground Id α) (ascend : Bool) (x y : α)
    (h : (trace ground ascend x y).succeeded = true) :
    ∃ p, (trace ground ascend x y).waypoints.head? = some p ∧
      trace ground ascend x y = trace ground (trace ground ascend x y).ascend p.x p.y := by
  rcases trace_head ground ascend x y with h0 | ⟨z, hz⟩
  · simp [Trace.succeeded, Trace.length, h0] at h
  · exact ⟨⟨x, y, z⟩, hz, rfl⟩

end FieldWalk.Path
