import FieldWalk.Scene.Stage
import Mathlib.Logic.Function.Basic
/-!
# Who is on the stage

The plotter only knows a list of numbered actors, and the stage remembers the numbers of three of them.
`Holds` says that these three, as far as they are there, are all the actors there are. Each operation of
the stage has one lemma that says what it makes of them.
-/

namespace FieldWalk.Scene

open Numeral
open FieldWalk.Path (Waypoint)
open Surface (Grid Mesh)

/-- The parts that can be played, in the order in which they come on. -/
inductive Role where
  | surface | line | ball
deriving DecidableEq

/-- The layer that a part belongs to. -/
def Role.layer : Role → Layer
  | .surface => .surface
  | .line | .ball => .path

/-- All parts. -/
def roles : List Role :=
  [.surface, .line, .ball]

/-- Who plays each part, with the number of the actor. -/
abbrev Cast (α : Type) := Role → Option (Nat × Actor α)

namespace Cast

variable {α : Type}

/-- All actors in order. -/
def all (c : Cast α) : List (Nat × Actor α) :=
  roles.filterMap c

/-- A part is given to an actor. -/
def give (c : Cast α) (r : Role) (a : Nat × Actor α) : Cast α :=
  Function.update c r (some a)

/-- A part is played by nobody. -/
def drop (c : Cast α) (r : Role) : Cast α :=
  Function.update c r none

/-- The actor of a part changes. -/
def alter (c : Cast α) (r : Role) (f : Actor α → Actor α) : Cast α :=
  Function.update c r ((c r).map fun a => (a.1, f a.2))

end Cast

variable {κ α : Type}

/-! ## The plotter -/

/-- The actors of the plotter are those of the cast, under numbers of their own. -/
structure Plotter.Holds (p : Plotter κ α) (c : Cast α) : Prop where
  actors : p.actors = c.all
  distinct : ∀ r r' a a', c r = some a → c r' = some a' → a.1 = a'.1 → r = r'
  fresh : ∀ r a, c r = some a → a.1 < p.added

namespace Plotter.Holds

variable {p : Plotter κ α} {c : Cast α}

theorem change (h : p.Holds c) {r : Role} {n : Nat} (hn : (c r).map (·.1) = some n)
    (f : Actor α → Actor α) : (p.change n f).Holds (c.alter r f) := by
  obtain ⟨⟨n, a⟩, ha, rfl⟩ := Option.map_eq_some_iff.1 hn
  have hat : ∀ r', c.alter r f r' =
      (c r').map fun b => if b.1 = n then (b.1, f b.2) else b := by
    intro r'
    by_cases hr : r' = r
    · subst hr
      simp [Cast.alter, ha]
    · rw [Cast.alter, Function.update_of_ne hr]
      cases hb : c r' with
      | none => rfl
      | some b =>
        have hne : b.1 ≠ n := fun he => hr (h.distinct r' r b _ hb ha he)
        simp [hne]
  refine ⟨?_, ?_, ?_⟩
  · rw [Plotter.change, h.actors, Cast.all, Cast.all, List.map_filterMap]
    exact congrArg (roles.filterMap ·) (funext fun r' => (hat r').symm)
  · intro r₁ r₂ a₁ a₂ h₁ h₂ he
    rw [hat] at h₁ h₂
    obtain ⟨b₁, hb₁, rfl⟩ := Option.map_eq_some_iff.1 h₁
    obtain ⟨b₂, hb₂, rfl⟩ := Option.map_eq_some_iff.1 h₂
    refine h.distinct r₁ r₂ b₁ b₂ hb₁ hb₂ ?_
    split at he <;> split at he <;> exact he
  · intro r₁ a₁ h₁
    rw [hat] at h₁
    obtain ⟨b₁, hb₁, rfl⟩ := Option.map_eq_some_iff.1 h₁
    have := h.fresh r₁ b₁ hb₁
    split <;> exact this

theorem remove (h : p.Holds c) {r : Role} {n : Nat} (hn : (c r).map (·.1) = some n) :
    (p.remove n).Holds (c.drop r) := by
  obtain ⟨⟨n, a⟩, ha, rfl⟩ := Option.map_eq_some_iff.1 hn
  have hat : ∀ r', c.drop r r' = (c r').filter fun b => b.1 ≠ n := by
    intro r'
    by_cases hr : r' = r
    · subst hr
      simp [Cast.drop, ha, Option.filter]
    · rw [Cast.drop, Function.update_of_ne hr]
      cases hb : c r' with
      | none => rfl
      | some b =>
        have hne : b.1 ≠ n := fun he => hr (h.distinct r' r b _ hb ha he)
        simp [hne, Option.filter]
  have hsub : ∀ r' b, c.drop r r' = some b → c r' = some b := by
    intro r' b hb
    rw [hat] at hb
    exact (Option.filter_eq_some_iff.1 hb).1
  refine ⟨?_, ?_, fun r₁ a₁ h₁ => h.fresh r₁ a₁ (hsub r₁ a₁ h₁)⟩
  · rw [Plotter.remove, h.actors, Cast.all, Cast.all, List.filter_filterMap]
    exact congrArg (roles.filterMap ·) (funext fun r' => (hat r').symm)
  · exact fun r₁ r₂ a₁ a₂ h₁ h₂ he =>
      h.distinct r₁ r₂ a₁ a₂ (hsub r₁ a₁ h₁) (hsub r₂ a₂ h₂) he

/-- A change of a part that nobody plays does nothing. -/
theorem changePart (h : p.Holds c) (r : Role) (f : Actor α → Actor α) :
    (((c r).map (·.1)).elim p (p.change · f)).Holds (c.alter r f) := by
  cases ha : c r with
  | none =>
    have hsame : (c r).map (fun a => (a.1, f a.2)) = c r := by rw [ha]; rfl
    rw [Cast.alter, hsame, Function.update_eq_self]
    exact h
  | some a => exact h.change (by rw [ha]; rfl) f

theorem removePart (h : p.Holds c) (r : Role) :
    (((c r).map (·.1)).elim p p.remove).Holds (c.drop r) := by
  cases ha : c r with
  | none =>
    have hsame : c.drop r = c := by rw [Cast.drop, ← ha, Function.update_eq_self]
    rw [hsame]
    exact h
  | some a => exact h.remove (by rw [ha]; rfl)

/-- An actor comes on behind all others. -/
theorem add [Scalar α] (h : p.Holds c) (f : Figure α) {r : Role}
    (hr : ∀ r', c r' ≠ none → roles.idxOf r' < roles.idxOf r) :
    (p.add f).2.Holds (c.give r (p.added, ⟨f, f.opacity, true⟩)) := by
  -- the new actor or one from before
  have hat : ∀ r' b, c.give r (p.added, ⟨f, f.opacity, true⟩) r' = some b →
      r' = r ∧ b = (p.added, ⟨f, f.opacity, true⟩) ∨ r' ≠ r ∧ c r' = some b := by
    intro r' b hb
    by_cases he : r' = r
    · subst he
      rw [Cast.give, Function.update_self] at hb
      exact .inl ⟨rfl, (Option.some.inj hb).symm⟩
    · rw [Cast.give, Function.update_of_ne he] at hb
      exact .inr ⟨he, hb⟩
  have hnone : ∀ r', roles.idxOf r ≤ roles.idxOf r' → c r' = none := by
    intro r' hle
    by_contra hne
    exact absurd (hr r' hne) (by omega)
  refine ⟨?_, ?_, ?_⟩
  · rw [Plotter.add, h.actors]
    cases r with
    | surface =>
      have hs := hnone .surface (by decide)
      have hl := hnone .line (by decide)
      have hb := hnone .ball (by decide)
      simp [Cast.all, Cast.give, roles, hs, hl, hb]
    | line =>
      have hl := hnone .line (by decide)
      have hb := hnone .ball (by decide)
      cases hs : c .surface <;> simp [Cast.all, Cast.give, roles, hs, hl, hb]
    | ball =>
      have hb := hnone .ball (by decide)
      cases hs : c .surface <;> cases hl : c .line <;>
        simp [Cast.all, Cast.give, roles, hs, hl, hb]
  · intro r₁ r₂ a₁ a₂ h₁ h₂ he
    rcases hat r₁ a₁ h₁ with ⟨rfl, rfl⟩ | ⟨hr₁, hc₁⟩ <;>
      rcases hat r₂ a₂ h₂ with ⟨rfl, rfl⟩ | ⟨hr₂, hc₂⟩
    · rfl
    · exact absurd he.symm (Nat.ne_of_lt (h.fresh r₂ a₂ hc₂))
    · exact absurd he (Nat.ne_of_lt (h.fresh r₁ a₁ hc₁))
    · exact h.distinct r₁ r₂ a₁ a₂ hc₁ hc₂ he
  · intro r₁ a₁ h₁
    rcases hat r₁ a₁ h₁ with ⟨-, rfl⟩ | ⟨-, hc₁⟩
    · exact Nat.lt_succ_self _
    · exact Nat.lt_succ_of_lt (h.fresh r₁ a₁ hc₁)

end Plotter.Holds

/-! ## The stage -/

namespace Stage

/-- The number that the stage remembers for a part. -/
def number (s : Stage κ α) : Role → Option Nat
  | .surface => s.surface
  | .line => s.line
  | .ball => s.ball

/-- The actors on the stage are those of the cast, and it remembers their numbers. -/
structure Holds (s : Stage κ α) (c : Cast α) : Prop where
  plotter : s.plotter.Holds c
  number : ∀ r, s.number r = (c r).map (·.1)

theorem holds_new [Scalar α] : (Stage.new : Stage κ α).Holds fun _ => none where
  plotter := ⟨rfl, fun _ _ _ _ h => (nomatch h), fun _ _ h => (nomatch h)⟩
  number r := by cases r <;> rfl

namespace Holds

variable {s : Stage κ α} {c : Cast α}

/-- What is said of camera, scale and axes does not matter, nor what is to be seen. -/
theorem of_actors (h : s.Holds c) {t : Stage κ α} (ha : t.plotter.actors = s.plotter.actors)
    (hd : t.plotter.added = s.plotter.added) (hn : t.number = s.number) : t.Holds c where
  plotter := ⟨ha.trans h.plotter.actors, h.plotter.distinct, fun r a ht => by
    rw [hd]
    exact h.plotter.fresh r a ht⟩
  number r := by rw [hn, h.number]

theorem change (h : s.Holds c) (r : Role) (f : Actor α → Actor α) :
    (s.change (s.number r) f).Holds (c.alter r f) where
  plotter := by
    rw [Stage.change, Stage.on, h.number r]
    exact h.plotter.changePart r f
  number r' := by
    have hn : (s.change (s.number r) f).number r' = s.number r' := by cases r' <;> rfl
    rw [hn, h.number r']
    by_cases hr : r' = r
    · subst hr
      simp [Cast.alter, Function.comp_def]
    · rw [Cast.alter, Function.update_of_ne hr]

/-- The path goes off. -/
theorem dropPath (h : s.Holds c) : s.dropPath.Holds ((c.drop .line).drop .ball) where
  plotter := by
    have hl := h.plotter.removePart .line
    have hb := hl.removePart .ball
    have hline : s.line = (c .line).map (·.1) := h.number .line
    have hball : s.ball = ((c.drop .line) .ball).map (·.1) := h.number .ball
    rw [← hline] at hl hb
    rw [← hball] at hb
    exact hb
  number r := by
    cases r with
    | surface => exact h.number .surface
    | line | ball => rfl

/-- The surface goes off, and a new one comes on where nothing else is. -/
theorem addSurface [Scalar α] (h : s.Holds fun _ => none) (m : Mesh α) (st : Settings α) :
    (s.addSurface m st).Holds (Cast.give (fun _ => none) .surface
      (s.plotter.added, ⟨.surface m (st.range .z) st.opacity, st.opacity, true⟩)) where
  plotter := h.plotter.add _ fun r hr => absurd rfl hr
  number r := by
    cases r with
    | surface => rfl
    | line => exact h.number .line
    | ball => exact h.number .ball

end Holds

/-! ## What is seen -/

/-- Whether the layer of a part is shown. -/
def shown (s : Stage κ α) : Role → Bool
  | .surface => s.surfaceShown
  | .line | .ball => s.pathShown

/-- The actors on the stage, each in its part. -/
def Shows (s : Stage κ α) (x : Role → Option (Actor α)) : Prop :=
  ∃ c, s.Holds c ∧ ∀ r, (c r).map (·.2) = x r

namespace Shows

variable {s : Stage κ α} {x : Role → Option (Actor α)}

theorem actors (h : s.Shows x) : s.plotter.actors.map (·.2) = roles.filterMap x := by
  obtain ⟨c, hc, hx⟩ := h
  rw [hc.plotter.actors, Cast.all, List.map_filterMap]
  exact congrArg (roles.filterMap ·) (funext hx)

theorem congr (h : s.Shows x) {y : Role → Option (Actor α)} (hy : ∀ r, x r = y r) : s.Shows y :=
  funext hy ▸ h

theorem of_actors (h : s.Shows x) {t : Stage κ α} (ha : t.plotter.actors = s.plotter.actors)
    (hd : t.plotter.added = s.plotter.added) (hn : t.number = s.number) : t.Shows x := by
  obtain ⟨c, hc, hx⟩ := h
  exact ⟨c, hc.of_actors ha hd hn, hx⟩

theorem change (h : s.Shows x) (r : Role) (f : Actor α → Actor α) :
    (s.change (s.number r) f).Shows (Function.update x r ((x r).map f)) := by
  obtain ⟨c, hc, hx⟩ := h
  refine ⟨_, hc.change r f, fun r' => ?_⟩
  by_cases hr : r' = r
  · subst hr
    rw [Cast.alter, Function.update_self, Function.update_self, ← hx, Option.map_map, Option.map_map]
    rfl
  · rw [Cast.alter, Function.update_of_ne hr, Function.update_of_ne hr, hx]

theorem dropPath (h : s.Shows x) : s.dropPath.Shows
    fun | .surface => x .surface | .line | .ball => none := by
  obtain ⟨c, hc, hx⟩ := h
  refine ⟨_, hc.dropPath, fun r => ?_⟩
  cases r with
  | surface => exact hx .surface
  | line | ball => rfl

/-- Every actor is as visible as its layer. -/
theorem applyLayers (h : s.Shows x) :
    s.applyLayers.Shows fun r => (x r).map fun a => { a with visible := s.shown r } := by
  have hs := ((h.change .surface fun a => { a with visible := s.surfaceShown }).change .line
    fun a => { a with visible := s.pathShown }).change .ball fun a => { a with visible := s.pathShown }
  refine Shows.congr hs fun r => ?_
  cases r <;> rfl

theorem number_isSome (h : s.Shows x) (r : Role) : (s.number r).isSome = (x r).isSome := by
  obtain ⟨c, hc, hx⟩ := h
  rw [hc.number, ← hx, Option.isSome_map, Option.isSome_map]

theorem render (h : s.Shows x) : s.render.Shows x :=
  h.of_actors rfl rfl rfl

theorem applyStretch (h : s.Shows x) : s.applyStretch.Shows x :=
  h.of_actors rfl rfl rfl

theorem frame (h : s.Shows x) (saved : Option (Camera κ)) : (s.frame saved).Shows x := by
  cases saved <;> exact h.of_actors rfl rfl rfl

/-- Scale, axes and camera are set up around the actors. -/
theorem setUp (h : s.Shows x) (stretch : α) (ends : List (Number α)) (saved : Option (Camera κ)) :
    (((({ s with stretch } : Stage κ α).applyStretch.on fun p =>
      { p with bounds := some ends }).applyLayers.frame saved).render).Shows fun r =>
        (x r).map fun a => { a with visible := s.shown r } := by
  have hb : (({ s with stretch } : Stage κ α).applyStretch.on fun p =>
      { p with bounds := some ends }).Shows x :=
    h.of_actors rfl rfl rfl
  exact (hb.applyLayers.frame saved).render

/-- A change of a part, drawn if somebody plays it. -/
theorem changePart (h : s.Shows x) (r : Role) (f : Actor α → Actor α) :
    (if (s.number r).isSome then (s.change (s.number r) f).render else s).Shows
      (Function.update x r ((x r).map f)) := by
  split
  · exact (h.change r f).render
  · rename_i hn
    rw [h.number_isSome, Option.not_isSome_iff_eq_none] at hn
    have hsame : (x r).map f = x r := by rw [hn]; rfl
    rw [hsame, Function.update_eq_self]
    exact h

/-! ## Operations -/

theorem setOpacity (h : s.Shows x) (v : Number α) : (s.setOpacity v).Shows
    fun | .surface => (x .surface).map fun a => { a with opacity := v } | r => x r :=
  Shows.congr (h.changePart .surface fun a => { a with opacity := v }) fun r => by
    cases r <;> rfl

theorem moveBall (h : s.Shows x) (i : Int) : (s.moveBall i).Shows
    fun
      | .ball => (x .ball).map fun a => { a with figure := .ball (waypoint? s.trail i) }
      | r => x r :=
  Shows.congr (h.changePart .ball fun a => { a with figure := .ball (waypoint? s.trail i) })
    fun r => by cases r <;> rfl

theorem toggle (h : s.Shows x) (hv : ∀ r, ∀ a ∈ x r, a.visible = s.shown r) (layer : Layer)
    (shown : Bool) : (s.toggle layer shown).Shows fun r =>
      (x r).map fun a => { a with visible := (s.toggle layer shown).shown r } := by
  -- a layer that is shown so already is not applied again
  have hsame : s.Shows fun r => (x r).map fun a => { a with visible := s.shown r } := by
    refine h.congr fun r => ?_
    cases hx : x r with
    | none => rfl
    | some a => rw [Option.map_some, ← hv r a hx]
  have hset : ∀ t : Stage κ α, t.plotter = s.plotter → t.number = s.number →
      t.applyLayers.render.Shows fun r => (x r).map fun a => { a with visible := t.shown r } := by
    intro t hp hn
    have ht : t.Shows x := h.of_actors (by rw [hp]) (by rw [hp]) hn
    exact ht.applyLayers.render
  unfold Stage.toggle
  cases layer with
  | surface =>
    dsimp only
    split
    · exact hsame
    · exact hset { s with surfaceShown := shown } rfl rfl
  | path =>
    dsimp only
    split
    · exact hsame
    · exact hset { s with pathShown := shown } rfl rfl

variable [Scalar α]

/-- A path comes on in front of the surface, with the ball on its first waypoint. -/
theorem showPath (h : s.Shows x) (ps : List (Waypoint α)) : (s.showPath ps).Shows fun
    | .surface => (x .surface).map fun a => { a with visible := s.surfaceShown }
    | .line => some ⟨.line ps, .real (Scalar.ofNat 1), s.pathShown⟩
    | .ball => some ⟨.ball ps.head?, .real (Scalar.ofNat 1), s.pathShown⟩ := by
  obtain ⟨c, hc, hx⟩ := h.dropPath
  have hline : c .line = none := Option.map_eq_none_iff.1 (hx .line)
  have hball : c .ball = none := Option.map_eq_none_iff.1 (hx .ball)
  have hl := hc.plotter.add (.line ps) (r := .line) fun r hr => by
    cases r with
    | surface => decide
    | line => exact absurd hline hr
    | ball => exact absurd hball hr
  have hb := hl.add (.ball ps.head?) (r := .ball) fun r hr => by
    cases r with
    | surface | line => decide
    | ball => exact absurd hball hr
  -- the two actors and their numbers, before the layers are applied
  have hplaced : ({ s.dropPath with
      plotter := ((s.dropPath.plotter.add (.line ps)).2.add (.ball ps.head?)).2
      line := some s.dropPath.plotter.added
      ball := some (s.dropPath.plotter.add (.line ps)).2.added
      trail := ps } : Stage κ α).Shows fun
        | .surface => x .surface
        | .line => some ⟨.line ps, .real (Scalar.ofNat 1), true⟩
        | .ball => some ⟨.ball ps.head?, .real (Scalar.ofNat 1), true⟩ := by
    refine ⟨_, ⟨hb, fun r => ?_⟩, fun r => ?_⟩
    · cases r with
      | surface => exact hc.number .surface
      | line | ball => rfl
    · cases r with
      | surface => exact hx .surface
      | line | ball => rfl
  refine Shows.congr hplaced.applyStretch.applyLayers.render fun r => ?_
  cases r <;> rfl

/-- A surface comes on in place of everything else, if any of it is within the range of heights. -/
theorem showSurface (h : s.Shows x) (g : Grid α) (st : Settings α) : (s.showSurface g st).1.Shows fun
    | .surface => (Mesh.ofGrid? g st.zMin st.zMax).map fun m =>
      ⟨.surface m (st.range .z) st.opacity, st.opacity, s.surfaceShown⟩
    | .line | .ball => none := by
  obtain ⟨c, hc, hx⟩ := h.dropPath
  have hbare : ({ s.dropPath.remove s.surface with surface := none } : Stage κ α).Holds fun _ => none := by
    have hp := hc.plotter.removePart .surface
    have hn : s.surface = (c .surface).map (·.1) := hc.number .surface
    have hnone : c.drop .surface = fun _ => none := by
      funext r
      cases r with
      | surface => rfl
      | line => exact Option.map_eq_none_iff.1 (hx .line)
      | ball => exact Option.map_eq_none_iff.1 (hx .ball)
    rw [← hn, hnone] at hp
    exact ⟨hp, fun r => by cases r <;> rfl⟩
  have hdressed : ∀ bare : Stage κ α, bare.Holds (fun _ => none) → bare.surfaceShown = s.surfaceShown →
      let dressed := (Mesh.ofGrid? g st.zMin st.zMax).elim bare (bare.addSurface · st)
      dressed.surfaceShown = s.surfaceShown ∧ dressed.Shows fun
        | .surface => (Mesh.ofGrid? g st.zMin st.zMax).map fun m =>
          ⟨.surface m (st.range .z) st.opacity, st.opacity, true⟩
        | .line | .ball => none := by
    intro bare hbare hshown
    cases Mesh.ofGrid? g st.zMin st.zMax with
    | none => exact ⟨hshown, _, hbare, fun r => by cases r <;> rfl⟩
    | some m => exact ⟨hshown, _, hbare.addSurface m st, fun r => by cases r <;> rfl⟩
  obtain ⟨hshown, hx⟩ := hdressed _ hbare rfl
  have hset := hx.setUp (equalStretch st) (axisEnds st) (if s.framed then s.plotter.camera else none)
  refine Shows.congr hset fun r => ?_
  cases r with
  | surface =>
    simp only [Stage.shown, hshown]
    cases Mesh.ofGrid? g st.zMin st.zMax <;> rfl
  | line | ball => rfl

end Shows

/-! ## Waypoints and layers -/

section
variable (s : Stage κ α)

theorem setOpacity_rest (v : Number α) :
    (s.setOpacity v).trail = s.trail ∧ (s.setOpacity v).shown = s.shown := by
  unfold setOpacity
  split <;> exact ⟨rfl, rfl⟩

theorem moveBall_rest (i : Int) :
    (s.moveBall i).trail = s.trail ∧ (s.moveBall i).shown = s.shown := by
  unfold moveBall
  split <;> exact ⟨rfl, rfl⟩

theorem toggle_trail (layer : Layer) (shown : Bool) : (s.toggle layer shown).trail = s.trail := by
  unfold toggle
  cases layer <;> dsimp only <;> split <;> rfl

/-- A toggle sets the parts of its layer. -/
theorem toggle_shown (layer : Layer) (v : Bool) (r : Role) :
    (s.toggle layer v).shown r = if layer = r.layer then v else s.shown r := by
  unfold toggle
  cases layer <;> dsimp only <;> split <;> rename_i h <;> cases r <;> first | exact h | rfl

theorem showSurface_rest [Scalar α] (g : Grid α) (st : Settings α) :
    (s.showSurface g st).1.trail = [] ∧ (s.showSurface g st).1.shown = s.shown := by
  unfold showSurface frame
  cases Mesh.ofGrid? g st.zMin st.zMax <;> dsimp only <;> split <;> exact ⟨rfl, rfl⟩

end

end Stage

end FieldWalk.Scene
