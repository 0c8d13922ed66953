import FieldWalk.Path.Walk
import Mathlib.Data.List.Chain
import Mathlib.Data.Int.Order.Basic
/-!
# What a walk records, and why it ends

The rules of a walk say which points may follow each other, so they determine a longest list of
waypoints. A walk records exactly that list, however its steps are cut into pieces, and its reason
can be read off the list alone.
-/

namespace FieldWalk.Path

open Numeral

variable {α : Type} [Scalar α]

/-! ## Courses -/

/-- Neither the place nor the height is infinite or without value. -/
def Waypoint.Finite (p : Waypoint α) : Prop :=
  Scalar.isFinite p.x = true ∧ Scalar.isFinite p.y = true ∧ Scalar.isFinite p.z = true

instance (p : Waypoint α) : Decidable p.Finite :=
  inferInstanceAs (Decidable (_ ∧ _ ∧ _))

namespace Rules

variable (rules : Rules α)

/-- Uphill or downhill, as a factor. -/
def sign : α :=
  if rules.ascend then Scalar.ofNat 1 else Scalar.ofDecimal (-1) 0

/-- Both slopes lie below the floor. -/
def Flat (g : α × α) : Prop :=
  Scalar.lt (Scalar.abs g.1) rules.floor = true ∧ Scalar.lt (Scalar.abs g.2) rules.floor = true

end Rules

namespace Ground

variable (ground : Ground Id α) (rules : Rules α)

/-- The point of the ground above a place. -/
def sample (x y : α) : Waypoint α :=
  ⟨x, y, ground.height x y⟩

/-- Both slopes at a waypoint are finite. -/
def Sloped (p : Waypoint α) : Prop :=
  Scalar.isFinite (ground.gradient p.x p.y).1 = true ∧
    Scalar.isFinite (ground.gradient p.x p.y).2 = true

/-- The slopes at a waypoint are finite and not flat. -/
def Usable (p : Waypoint α) : Prop :=
  ground.Sloped p ∧ ¬ rules.Flat (ground.gradient p.x p.y)

/-- The point one move along the slopes of a waypoint. -/
def next (p : Waypoint α) : Waypoint α :=
  ground.sample (p.x + rules.sign * rules.rate * (ground.gradient p.x p.y).1)
    (p.y + rules.sign * rules.rate * (ground.gradient p.x p.y).2)

end Ground

/-- Waypoints as the rules have them: the first lies above the start, each of the others one move
along usable slopes behind the one before it, all are finite, and the budget allows as many. -/
structure Course (ground : Ground Id α) (rules : Rules α) (x y : α) (ws : List (Waypoint α)) :
    Prop where
  first : ∀ p ∈ ws.head?, p = ground.sample x y
  moves : ws.IsChain fun p q => ground.Usable rules p ∧ q = ground.next rules p
  finite : ∀ p ∈ ws, p.Finite
  length_le : (ws.length : ℤ) ≤ max rules.budget 0

/-- The point that has to come behind the waypoints: the one above the start, or the one a move
behind the last waypoint, if its slopes are usable. -/
def Due (ground : Ground Id α) (rules : Rules α) (x y : α) (ws : List (Waypoint α))
    (p : Waypoint α) : Prop :=
  match ws.getLast? with
  | none => p = ground.sample x y
  | some q => ground.Usable rules q ∧ p = ground.next rules q

section Course

variable {ground : Ground Id α} {rules : Rules α} {x y : α} {ws vs : List (Waypoint α)}
  {p q : Waypoint α}

theorem due_of_last (h : q ∈ ws.getLast?) :
    Due ground rules x y ws p ↔ ground.Usable rules q ∧ p = ground.next rules q := by
  rw [Due, Option.mem_def.1 h]

theorem Due.unique (hp : Due ground rules x y ws p) (hq : Due ground rules x y ws q) : p = q := by
  cases hl : ws.getLast? with
  | none =>
    rw [Due, hl] at hp hq
    exact hp.trans hq.symm
  | some a => exact ((due_of_last hl).1 hp).2.trans ((due_of_last hl).1 hq).2.symm

theorem course_nil : Course ground rules x y [] :=
  ⟨nofun, List.isChain_nil, nofun, le_max_right _ _⟩

/-- A course goes on with the point that is due, as long as it is finite and the budget lasts. -/
theorem course_concat :
    Course ground rules x y (ws ++ [p]) ↔
      Course ground rules x y ws ∧ Due ground rules x y ws p ∧ p.Finite ∧
        (ws.length : ℤ) < rules.budget := by
  have hlen : ((ws ++ [p]).length : ℤ) = ws.length + 1 := by simp
  constructor
  · intro h
    have hl := h.length_le
    rw [hlen] at hl
    obtain ⟨hchain, -, hlink⟩ := List.isChain_append.1 h.moves
    refine ⟨⟨?_, hchain, fun q hq => h.finite q (by simp [hq]), by omega⟩, ?_,
      h.finite p (by simp), by omega⟩
    · intro q hq
      exact h.first q (by simp [List.head?_append, Option.mem_def.1 hq])
    · cases hlast : ws.getLast? with
      | none =>
        rw [List.getLast?_eq_none_iff] at hlast
        subst hlast
        exact h.first p rfl
      | some q => exact (due_of_last hlast).2 (hlink q hlast p rfl)
  · rintro ⟨h, hdue, hfin, hl⟩
    refine ⟨?_, ?_, ?_, by omega⟩
    · intro q hq
      cases ws with
      | nil =>
        cases hq
        exact hdue
      | cons a ws => exact h.first q hq
    · refine List.isChain_append.2 ⟨h.moves, List.isChain_singleton p, ?_⟩
      intro q hq p' hp'
      cases hp'
      exact (due_of_last hq).1 hdue
    · intro q hq
      rcases List.mem_append.1 hq with hq | hq
      · exact h.finite q hq
      · rwa [List.mem_singleton.1 hq]

theorem Course.of_prefix (h : Course ground rules x y ws) (hv : vs <+: ws) :
    Course ground rules x y vs := by
  obtain ⟨us, rfl⟩ := hv
  induction us using List.reverseRecOn with
  | nil => rwa [List.append_nil] at h
  | append_singleton us q ih =>
    rw [← List.append_assoc] at h
    exact ih (course_concat.1 h).1

/-- The courses are the beginnings of one that cannot go on. -/
theorem course_iff_prefix (h : Course ground rules x y ws)
    (hmax : ∀ p, ¬ Course ground rules x y (ws ++ [p])) :
    Course ground rules x y vs ↔ vs <+: ws := by
  refine ⟨fun hv => ?_, h.of_prefix⟩
  induction vs using List.reverseRecOn with
  | nil => exact List.nil_prefix
  | append_singleton vs p ih =>
    obtain ⟨us, rfl⟩ := ih (course_concat.1 hv).1
    -- the point behind a beginning is the one that is due there, in both courses
    cases us with
    | nil =>
      rw [List.append_nil] at hmax
      exact absurd hv (hmax p)
    | cons q us =>
      have hq : Course ground rules x y (vs ++ [q]) :=
        h.of_prefix (by simp [List.prefix_append_right_inj])
      have hpq : p = q := (course_concat.1 hv).2.1.unique (course_concat.1 hq).2.1
      rw [hpq]
      simp [List.prefix_append_right_inj]

end Course

/-! ## Reasons -/

/-- What a reason says of the waypoints. -/
def Reason.Holds (ground : Ground Id α) (rules : Rules α) (ws : List (Waypoint α)) : Reason → Prop
  | tooShort => ws.length < 2
  | flat => 2 ≤ ws.length ∧ ∃ p ∈ ws.getLast?, ground.Sloped p ∧ ¬ ground.Usable rules p
  | notFinite => 2 ≤ ws.length ∧ ∃ p ∈ ws.getLast?, ¬ ground.Sloped p ∨
      (ground.Usable rules p ∧ (ws.length : ℤ) < rules.budget ∧ ¬ (ground.next rules p).Finite)
  | budgetSpent =>
    2 ≤ ws.length ∧ (ws.length : ℤ) = rules.budget ∧ ∃ p ∈ ws.getLast?, ground.Usable rules p

/-- Why a course does not go on. -/
inductive Stop (ground : Ground Id α) (rules : Rules α) (x y : α) (ws : List (Waypoint α)) :
    Reason → Prop
  | spent {p : Waypoint α} (due : Due ground rules x y ws p) (budget : rules.budget ≤ ws.length) :
    Stop ground rules x y ws .budgetSpent
  | lost {p : Waypoint α} (due : Due ground rules x y ws p) (budget : (ws.length : ℤ) < rules.budget)
    (infinite : ¬ p.Finite) : Stop ground rules x y ws .notFinite
  | steep {p : Waypoint α} (last : p ∈ ws.getLast?) (infinite : ¬ ground.Sloped p) :
    Stop ground rules x y ws .notFinite
  | level {p : Waypoint α} (last : p ∈ ws.getLast?) (sloped : ground.Sloped p)
    (flat : rules.Flat (ground.gradient p.x p.y)) : Stop ground rules x y ws .flat

section Reason

variable {ground : Ground Id α} {rules : Rules α} {x y : α} {ws : List (Waypoint α)}

theorem Reason.Holds.unique {r r' : Reason} (h : r.Holds ground rules ws)
    (h' : r'.Holds ground rules ws) : r = r' := by
  -- they speak of the same waypoint, the last, and no two of them can hold of one
  cases hl : ws.getLast? with
  | none =>
    rw [List.getLast?_eq_none_iff] at hl
    subst hl
    cases r <;> cases r' <;> simp_all [Holds]
  | some p =>
    cases r <;> cases r' <;> simp only [Holds, hl, Option.mem_def, Option.some.injEq,
      exists_eq_left', Ground.Usable] at h h' <;> grind

theorem Stop.maximal {r : Reason} (h : Stop ground rules x y ws r) (p : Waypoint α) :
    ¬ Course ground rules x y (ws ++ [p]) := by
  intro hc
  obtain ⟨-, hdue, hfin, hl⟩ := course_concat.1 hc
  cases h with
  | spent _ hb => omega
  | lost hq _ hinf => exact hinf (hq.unique hdue ▸ hfin)
  | steep hq hinf => exact hinf ((due_of_last hq).1 hdue).1.1
  | level hq _ hflat => exact ((due_of_last hq).1 hdue).1.2 hflat

/-- The reason of a stop holds, unless the waypoints are too few. -/
theorem Stop.holds {r : Reason} (h : Stop ground rules x y ws r) (hc : Course ground rules x y ws) :
    (if ws.length < 2 then Reason.tooShort else r).Holds ground rules ws := by
  split
  · assumption
  · rename_i hlen
    have hle := hc.length_le
    obtain ⟨q, hq⟩ : ∃ q, q ∈ ws.getLast? := by
      cases hl : ws.getLast? with
      | none =>
        rw [List.getLast?_eq_none_iff] at hl
        simp [hl] at hlen
      | some q => exact ⟨q, rfl⟩
    cases h with
    | spent hdue hb => exact ⟨by omega, by omega, q, hq, ((due_of_last hq).1 hdue).1⟩
    | lost hdue hb hinf =>
      obtain ⟨hu, rfl⟩ := (due_of_last hq).1 hdue
      exact ⟨by omega, q, hq, .inr ⟨hu, hb, hinf⟩⟩
    | steep hp hinf => exact ⟨by omega, _, hp, .inl hinf⟩
    | level hp hs hflat => exact ⟨by omega, _, hp, hs, fun hu => hu.2 hflat⟩

end Reason

/-! ## Steps -/

namespace Walk

variable {ground : Ground Id α} {rules : Rules α} {x y : α}

theorem finite_iff (p : Waypoint α) :
    p.Finite ↔ (Scalar.isFinite p.x && Scalar.isFinite p.y && Scalar.isFinite p.z) = true := by
  simp [Waypoint.Finite, and_assoc]

theorem sloped_iff (ground : Ground Id α) (p : Waypoint α) :
    ground.Sloped p ↔ (Scalar.isFinite (ground.gradient p.x p.y).1 &&
      Scalar.isFinite (ground.gradient p.x p.y).2) = true := by
  simp [Ground.Sloped]

theorem isFlat_iff (rules : Rules α) (g : α × α) : isFlat rules g = true ↔ rules.Flat g := by
  simp [isFlat, Rules.Flat]

/-- A walk with the point where the walker stands recorded. -/
def recorded (ground : Ground Id α) (w : Walk α) : Walk α :=
  { w with taken := w.taken + 1, points := ground.sample w.x w.y :: w.points }

/-- What a step can do. -/
inductive Outcome (ground : Ground Id α) (rules : Rules α) (w : Walk α) : Walk α → Prop
  | ended (going : w.reason ≠ none) : Outcome ground rules w w
  | spent (going : w.reason = none) (budget : rules.budget ≤ w.taken) :
    Outcome ground rules w (w.finish .budgetSpent)
  | lost (going : w.reason = none) (budget : (w.taken : ℤ) < rules.budget)
    (infinite : ¬ (ground.sample w.x w.y).Finite) :
    Outcome ground rules w ({ w with taken := w.taken + 1 }.finish .notFinite)
  | steep (going : w.reason = none) (budget : (w.taken : ℤ) < rules.budget)
    (finite : (ground.sample w.x w.y).Finite) (infinite : ¬ ground.Sloped (ground.sample w.x w.y)) :
    Outcome ground rules w ((w.recorded ground).finish .notFinite)
  | level (going : w.reason = none) (budget : (w.taken : ℤ) < rules.budget)
    (finite : (ground.sample w.x w.y).Finite) (sloped : ground.Sloped (ground.sample w.x w.y))
    (flat : rules.Flat (ground.gradient w.x w.y)) :
    Outcome ground rules w ((w.recorded ground).finish .flat)
  | moved (going : w.reason = none) (budget : (w.taken : ℤ) < rules.budget)
    (finite : (ground.sample w.x w.y).Finite) (usable : ground.Usable rules (ground.sample w.x w.y)) :
    Outcome ground rules w
      { w.recorded ground with
        x := (ground.next rules (ground.sample w.x w.y)).x
        y := (ground.next rules (ground.sample w.x w.y)).y }

theorem step_outcome (ground : Ground Id α) (rules : Rules α) (w : Walk α) :
    Outcome ground rules w (w.step ground rules) := by
  unfold step
  split
  · rename_i h
    exact .ended (by rintro h0; simp [h0] at h)
  · rename_i h
    have h0 : w.reason = none := by simpa using h
    split
    · exact .spent h0 ‹_›
    · rename_i hb
      rw [not_le] at hb
      simp only [bind, pure]
      have hfin := finite_iff (ground.sample w.x w.y)
      have hslope := sloped_iff ground (ground.sample w.x w.y)
      split
      · rename_i hf
        rw [Bool.not_eq_true', ← Bool.not_eq_true] at hf
        exact .lost h0 hb (mt hfin.1 hf)
      · rename_i hf
        rw [Bool.not_eq_true', Bool.not_eq_false] at hf
        replace hf := hfin.2 hf
        split
        · rename_i hs
          rw [Bool.not_eq_true', ← Bool.not_eq_true] at hs
          exact .steep h0 hb hf (mt hslope.1 hs)
        · rename_i hs
          rw [Bool.not_eq_true', Bool.not_eq_false] at hs
          replace hs := hslope.2 hs
          split
          · rename_i hflat
            exact .level h0 hb hf hs ((isFlat_iff rules _).1 hflat)
          · rename_i hflat
            exact .moved h0 hb hf ⟨hs, fun h => hflat ((isFlat_iff rules _).2 h)⟩

/-- A step goes on where the point is finite and its slopes are usable, as the budget allows. -/
theorem step_goes_on_iff {w : Walk α} (going : w.reason = none) :
    (w.step ground rules).reason = none ↔ (w.taken : ℤ) < rules.budget ∧
      (ground.sample w.x w.y).Finite ∧ ground.Usable rules (ground.sample w.x w.y) := by
  have ho := step_outcome ground rules w
  generalize w.step ground rules = w' at ho ⊢
  cases ho with
  | ended h => exact absurd going h
  | spent _ hb => simp [finish, hb]
  | lost _ _ hf => simp [finish, hf]
  | steep _ _ _ hs => simp [finish, Ground.Usable, hs]
  | level _ _ _ _ hflat => simp [finish, Ground.Usable, Ground.sample, hflat]
  | moved _ hb hf hu => simp [recorded, going, hb, hf, hu]

/-- A step of a walk under way records the point if it is finite and the budget allows. -/
theorem step_points_eq {w : Walk α} (going : w.reason = none) :
    (w.step ground rules).points =
      if (w.taken : ℤ) < rules.budget ∧ (ground.sample w.x w.y).Finite then
        ground.sample w.x w.y :: w.points
      else w.points := by
  have ho := step_outcome ground rules w
  generalize w.step ground rules = w' at ho ⊢
  cases ho with
  | ended h => exact absurd going h
  | spent _ hb => exact (if_neg fun h => absurd h.1 (not_lt.2 hb)).symm
  | lost _ _ hf => exact (if_neg fun h => hf h.2).symm
  | steep _ hb hf | level _ hb hf | moved _ hb hf => exact (if_pos ⟨hb, hf⟩).symm

/-- What holds of a walk at any time: its waypoints are a course, a walker under way stands where
the next point is due, and one that has ended has a stop for its reason. -/
structure Sound (ground : Ground Id α) (rules : Rules α) (x y : α) (w : Walk α) : Prop where
  course : Course ground rules x y w.points.reverse
  due : w.reason = none → Due ground rules x y w.points.reverse (ground.sample w.x w.y)
  taken : w.reason = none → w.taken = w.points.length
  stop : ∀ r ∈ w.reason, ∃ r', Stop ground rules x y w.points.reverse r' ∧
    r = if w.points.length < 2 then .tooShort else r'

theorem sound_start : Sound ground rules x y (start x y) :=
  ⟨course_nil, fun _ => rfl, fun _ => rfl, nofun⟩

theorem sound_finish {w : Walk α} {r : Reason} (hc : Course ground rules x y w.points.reverse)
    (hs : Stop ground rules x y w.points.reverse r) : Sound ground rules x y (w.finish r) := by
  refine ⟨hc, nofun, nofun, ?_⟩
  intro r' hr'
  cases hr'
  exact ⟨r, hs, rfl⟩

theorem Sound.step {w : Walk α} (h : Sound ground rules x y w) :
    Sound ground rules x y (w.step ground rules) := by
  have ho := step_outcome ground rules w
  generalize w.step ground rules = w' at ho
  have hlen : w.points.reverse.length = w.points.length := List.length_reverse
  -- a point that is due and finite is recorded, whatever becomes of the walk at its slopes
  have hrec : w.reason = none → (w.taken : ℤ) < rules.budget →
      (ground.sample w.x w.y).Finite → Course ground rules x y (w.recorded ground).points.reverse := by
    intro h0 hb hf
    rw [recorded, List.reverse_cons]
    exact course_concat.2 ⟨h.course, h.due h0, hf, by rw [hlen, ← h.taken h0]; exact hb⟩
  have hlast : ground.sample w.x w.y ∈ (w.recorded ground).points.reverse.getLast? := by
    simp [recorded]
  cases ho with
  | ended => exact h
  | spent h0 hb =>
    exact sound_finish h.course (.spent (h.due h0) (by rw [hlen, ← h.taken h0]; exact hb))
  | lost h0 hb hf =>
    exact sound_finish h.course (.lost (h.due h0) (by rw [hlen, ← h.taken h0]; exact hb) hf)
  | steep h0 hb hf hs => exact sound_finish (hrec h0 hb hf) (.steep hlast hs)
  | level h0 hb hf hs hflat => exact sound_finish (hrec h0 hb hf) (.level hlast hs hflat)
  | moved h0 hb hf hu =>
    refine ⟨hrec h0 hb hf, fun _ => (due_of_last hlast).2 ⟨hu, rfl⟩, fun _ => ?_, ?_⟩
    · simp [recorded, h.taken h0]
    · intro r hr
      simp [recorded, h0] at hr

theorem Sound.steps (n : ℕ) {w : Walk α} (h : Sound ground rules x y w) :
    Sound ground rules x y (steps ground rules n w) := by
  induction n generalizing w with
  | zero => exact h
  | succ n ih => exact ih h.step

/-! ## Runs -/

theorem steps_add (m n : ℕ) (w : Walk α) :
    steps ground rules (m + n) w = steps ground rules n (steps ground rules m w) := by
  induction m generalizing w with
  | zero => rw [Nat.zero_add]; rfl
  | succ m ih =>
    rw [Nat.succ_add]
    exact ih _

/-- A walk that has ended stays as it is. -/
theorem steps_ended {w : Walk α} (h : w.reason ≠ none) (n : ℕ) : steps ground rules n w = w := by
  induction n with
  | zero => rfl
  | succ n ih =>
    have hstep : w.step ground rules = w := by
      have ho := step_outcome ground rules w
      generalize w.step ground rules = w' at ho
      cases ho with
      | ended => rfl
      | spent h0 | lost h0 | steep h0 | level h0 | moved h0 => exact absurd h0 h
    show steps ground rules n (w.step ground rules) = w
    rw [hstep, ih]

/-- Each step of a walk under way counts. -/
theorem step_taken {w : Walk α} (h : (w.step ground rules).reason = none) :
    w.reason = none ∧ (w.step ground rules).taken = w.taken + 1 := by
  have ho := step_outcome ground rules w
  generalize w.step ground rules = w' at ho h
  cases ho with
  | ended h0 => exact absurd h h0
  | spent | lost | steep | level => cases h
  | moved h0 => exact ⟨h0, rfl⟩

theorem steps_taken (n : ℕ) {w : Walk α} (h : (steps ground rules n w).reason = none) :
    w.reason = none ∧ (steps ground rules n w).taken = w.taken + n := by
  induction n generalizing w with
  | zero => exact ⟨h, rfl⟩
  | succ n ih =>
    obtain ⟨h0, ht⟩ := ih h
    obtain ⟨h1, ht'⟩ := step_taken h0
    refine ⟨h1, ht.trans ?_⟩
    rw [ht']
    omega

/-- The budget, and one step more, ends every walk. -/
theorem ended_after_budget (ground : Ground Id α) (rules : Rules α) (x y : α) :
    (steps ground rules (rules.budget.toNat + 1) (start x y)).reason ≠ none := by
  intro h
  have hs : Sound ground rules x y (steps ground rules (rules.budget.toNat + 1) (start x y)) :=
    sound_start.steps _
  have hl := hs.course.length_le
  rw [List.length_reverse, ← hs.taken h, (steps_taken _ h).2] at hl
  simp only [start] at hl
  omega

/-- However many steps are made before, a run ends like that many steps in a row. -/
theorem run_steps (ground : Ground Id α) (rules : Rules α) (x y : α) (k : ℕ) :
    run ground rules (steps ground rules k (start x y)) =
      steps ground rules (rules.budget.toNat + 1) (start x y) := by
  by_cases h : (steps ground rules k (start x y)).reason = none
  · have ht := (steps_taken k h).2
    have hk : k ≤ rules.budget.toNat + 1 := by
      by_contra hlt
      have hk : k = rules.budget.toNat + 1 + (k - (rules.budget.toNat + 1)) := by omega
      rw [hk, steps_add, steps_ended (ended_after_budget ground rules x y)] at h
      exact ended_after_budget ground rules x y h
    have htaken : (steps ground rules k (start x y)).taken = k := by
      rw [ht]
      exact Nat.zero_add k
    rw [run, htaken, ← steps_add]
    congr 1
    omega
  · have hm : ∀ n, steps ground rules (k + n) (start x y) = steps ground rules k (start x y) := by
      intro n
      rw [steps_add, steps_ended h]
    have hb : ∀ n, steps ground rules (rules.budget.toNat + 1 + n) (start x y) =
        steps ground rules (rules.budget.toNat + 1) (start x y) := by
      intro n
      rw [steps_add, steps_ended (ended_after_budget ground rules x y)]
    rw [run, steps_ended h, ← hm (rules.budget.toNat + 1), ← hb k, Nat.add_comm]

/-- No more points are recorded than the budget allows. -/
theorem length_run_le (ground : Ground Id α) (rules : Rules α) (x y : α) :
    ((run ground rules (start x y)).length : ℤ) ≤ max rules.budget 0 := by
  have hs : Sound ground rules x y (run ground rules (start x y)) := sound_start.steps _
  have hl := hs.course.length_le
  rwa [List.length_reverse] at hl

end Walk

/-- A path under the usual rules has no more waypoints than the usual budget. -/
theorem length_trace_le (ground : Ground Id α) (ascend : Bool) (x y : α) :
    (trace ground ascend x y).length ≤ 250 := by
  have hl := Walk.length_run_le ground (.usual ascend) x y
  have hlen : (trace ground ascend x y).length =
      (Walk.run ground (.usual ascend) (.start x y)).length := by
    rw [trace, Trace.length, Trace.ofWalk, List.length_reverse, Walk.length]
  rw [← hlen] at hl
  generalize (trace ground ascend x y).length = n at hl ⊢
  exact Int.ofNat_le.1 hl

/-- A walk ends within its budget and one step more, and however many steps are made before its
run, the outcome is the same. What it records is the longest course: the courses are the beginnings
of its waypoints. Its reason holds of the waypoints, and no other does; too few of them is the one
reason of a walk that did not succeed. -/
theorem records_longest_course (ground : Ground Id α) (rules : Rules α) (x y : α) (k : ℕ) :
    let w := Walk.run ground rules (Walk.steps ground rules k (.start x y))
    let t := Trace.ofWalk rules.ascend w
    (∀ n, Walk.steps ground rules (rules.budget.toNat + 1 + n) (.start x y) = w) ∧
    w.reason = some t.reason ∧
    (∀ ws, Course ground rules x y ws ↔ ws <+: t.waypoints) ∧
    (∀ r, t.reason = r ↔ r.Holds ground rules t.waypoints) ∧
    (t.succeeded = false ↔ t.reason = .tooShort) := by
  intro w t
  have hw : w = Walk.steps ground rules (rules.budget.toNat + 1) (.start x y) :=
    Walk.run_steps ground rules x y k
  have hended : w.reason ≠ none := hw ▸ Walk.ended_after_budget ground rules x y
  have hs : Walk.Sound ground rules x y w := hw ▸ Walk.sound_start.steps _
  have hreason : w.reason = some t.reason := by
    obtain ⟨r, hr⟩ := Option.ne_none_iff_exists'.1 hended
    show w.reason = some (w.reason.getD .tooShort)
    rw [hr]
    rfl
  obtain ⟨r, hstop, hr⟩ := hs.stop t.reason hreason
  have hholds : t.reason.Holds ground rules t.waypoints := by
    rw [hr, ← List.length_reverse]
    exact hstop.holds hs.course
  have hiff : ∀ r, t.reason = r ↔ r.Holds ground rules t.waypoints :=
    fun r => ⟨fun h => h ▸ hholds, fun h => hholds.unique h⟩
  refine ⟨fun n => ?_, hreason, fun ws => course_iff_prefix hs.course hstop.maximal, hiff, ?_⟩
  · rw [hw, Walk.steps_add, Walk.steps_ended (Walk.ended_after_budget ground rules x y)]
  · rw [hiff]
    show decide (2 ≤ t.waypoints.length) = false ↔ t.waypoints.length < 2
    rw [decide_eq_false_iff_not, not_le]

end FieldWalk.Path
