import FieldWalk.Proofs.Session.History
import FieldWalk.Proofs.Window.Exact
/-!
# Updating without compiling

Where the markup is the one that is compiled, an update of the panel only samples the surface anew. In
a session that was worked on in any way this comes to the same as compiling the markup again, and all
that the panel could tell apart are the records of the compilation (`resampling_unobservable`).
-/

namespace FieldWalk.Session

open FieldWalk.Field (Snapshot)
open Numeral

variable {ε α : Type} [Scalar α]

/-- With the field of its own markup a session resamples as it updates, but for the records of the
compilation. -/
theorem resample_eq_update {e : Engine ε α} {s : Session α} {f : Snapshot α}
    (hf : s.snapshot = some f) (hb : (e.build s.markup).1 = .ok f) (c : Option (Settings α)) :
    (s.resample c).session = (s.update e s.markup c).session ∧
      (s.resample c).fault = (s.update e s.markup c).fault ∧
      ∃ r, (s.update e s.markup c).records = r ++ (s.resample c).records ∧
        (r = [] ∨ r = (e.build s.markup).2) := by
  cases hv : (c.getD s.settings).validate with
  | error x =>
    simp only [resample, update, hv, refuse]
    exact ⟨trivial, trivial, [], rfl, .inl rfl⟩
  | ok _ =>
    obtain ⟨g, hg, -⟩ := sampled_of_validate f hv
    simp only [resample, update, hv, hf, hb, hg]
    exact ⟨trivial, trivial, (e.build s.markup).2, rfl, .inr rfl⟩

end FieldWalk.Session

namespace FieldWalk.Window

open Numeral
open Session (Engine History Operation Step)

variable {ε κ α : Type} [Scalar α]

namespace Panel

/-- The panel after an update as it was answered by the session. -/
def concluded (k : Conversions α) (p : Panel κ α) (t : Step α) : Panel κ α :=
  match t.fault with
  | some f => rejected k (p.take t) f
  | none => (p.take t).accepted

theorem update_eq (e : Engine ε α) (k : Conversions α) (p : Panel κ α) :
    p.update e k = p.concluded k (p.attempt e) :=
  rfl

/-- An update that compiles the markup even if it is compiled. -/
def recompiled (e : Engine ε α) (k : Conversions α) (p : Panel κ α) : Panel κ α :=
  p.concluded k
    (p.session.update e p.controls.markup (some (p.controls.candidate p.session.settings)))

/-- Of two answers with one session and one fault the longer records are noted before the update. -/
theorem concluded_congr (k : Conversions α) (p : Panel κ α) {t u : Step α} {r : List Journal.Record}
    (hs : t.session = u.session) (hf : t.fault = u.fault) (hr : u.records = r ++ t.records) :
    p.concluded k u = (p.note r).concluded k t := by
  have htake : p.take u = (p.note r).take t := by
    simp only [take, note, hs, hr, List.append_assoc]
  rw [concluded, concluded, htake, hf]

/-- On the field of its own markup a panel updates as if it compiled the markup again, but for records
that are noted before. -/
theorem recompiled_eq {e : Engine ε α} (k : Conversions α) {p : Panel κ α} {f : Field.Snapshot α}
    (hf : p.session.snapshot = some f) (hb : (e.build p.session.markup).1 = .ok f) :
    ∃ r, p.recompiled e k = (p.note r).update e k ∧
      (r = [] ∨ r = (e.build p.session.markup).2) := by
  have hattempt : ∀ r, (p.note r).attempt e = p.attempt e := fun _ => rfl
  by_cases hm : p.controls.markup = p.session.markup
  · obtain ⟨hs, hfault, r, hr, hcases⟩ :=
      Session.resample_eq_update hf hb (some (p.controls.candidate p.session.settings))
    have hchoice : p.attempt e =
        p.session.resample (some (p.controls.candidate p.session.settings)) := by
      simp [attempt, hf, hm]
    refine ⟨r, ?_, hcases⟩
    rw [update_eq, hattempt, hchoice, recompiled, hm, concluded_congr k p hs hfault hr]
  · have hchoice : p.attempt e =
        p.session.update e p.controls.markup (some (p.controls.candidate p.session.settings)) := by
      simp [attempt, hm]
    refine ⟨[], ?_, .inl rfl⟩
    rw [update_eq, hattempt, hchoice, recompiled]
    exact concluded_congr k p rfl rfl rfl

end Panel

/-- In a session with a field, after any operations, a resampling with new settings and an update of
the same markup with them are refused with one fault or carried out alike; a refusal leaves the session
as it was, a success leaves no path. So it makes no difference to a panel on such a session whether an
update compiles its markup again, except for the records of the compilation, noted before all others. -/
theorem resampling_unobservable (e : Engine ε α) (k : Conversions α) (ops : List (Operation α))
    (c : Option (Settings α)) (h : (History.run e ops).session.snapshot ≠ none) :
    let s := (History.run e ops).session
    (s.resample c).fault = (s.update e s.markup c).fault ∧
      (s.resample c).session = (s.update e s.markup c).session ∧
      ((s.resample c).fault ≠ none → (s.resample c).session = s) ∧
      ((s.resample c).fault = none → (s.resample c).session.path = none) ∧
      ∀ p : Panel κ α, p.session = s → ∃ r, p.recompiled e k = (p.note r).update e k ∧
        (r = [] ∨ r = (e.build s.markup).2) := by
  intro s
  obtain ⟨f, hf⟩ := Option.ne_none_iff_exists'.1 h
  have hb : (e.build s.markup).1 = .ok f := (Session.consistent_run e ops).built f hf
  obtain ⟨hsession, hfault, -⟩ := Session.resample_eq_update hf hb c
  refine ⟨hfault, hsession, fun hn => ?_, fun hn => ?_, ?_⟩
  · rcases Session.resample_cases s c with ⟨_, _, -, -, -, ht, -⟩ | ⟨_, -, hs, -⟩
    · exact absurd ht hn
    · exact hs
  · rcases Session.resample_cases s c with ⟨_, _, -, -, -, -, hs⟩ | ⟨_, ht, -⟩
    · rw [hs]
    · rw [ht] at hn
      cases hn
  · intro p hp
    rw [← hp] at hb ⊢
    exact Panel.recompiled_eq k (hp ▸ hf) hb

/-- A plane whose markup was once spoiled and whose settings were edited. -/
theorem plane_resampled :
    let ops : List (Operation ℚ) :=
      [.update "x" none, .update "x+" none, .assign (.low .x (.int (-9))), .assign (.ascend true)]
    let s := (History.run Sheet.engine ops).session
    s.snapshot ≠ none ∧ s.markup = "x" ∧
      (s.resample none).session = (s.update Sheet.engine s.markup none).session := by
  intro ops s
  have hs : s.snapshot.isSome = true ∧ s.markup = "x" := by decide +kernel
  have hn : s.snapshot ≠ none := Option.isSome_iff_ne_none.1 hs.1
  exact ⟨hn, hs.2,
    (resampling_unobservable (κ := Unit) Sheet.engine Conversions.exact ops none hn).2.1⟩

end FieldWalk.Window
