import FieldWalk.Proofs.Numeral.Value
import FieldWalk.Session.StartPoint
import FieldWalk.Settings
/-!
# Refusals that have a wording

What is entered for a start point or a setting is used or refused, and the user can be told why. The
exception are integers that are too large to be turned into a double, or into text: where the first
check that fails comes upon one of these, the fault has no wording. Everything else is judged by the
exact values that the integers and doubles stand for.
-/

namespace FieldWalk

open Numeral

/-! ## Start points -/

namespace Session

/-- An integer was entered that is not rounded to a finite double. -/
def Entry.Huge : Entry → Prop
  | number v => v.Huge
  | text _ | truth _ | other => False

/-- There is a start point with finite coordinates, or a fault that has a wording. -/
def Settled (x y : Entry) : Prop :=
  (∃ a b, startPoint x y = .ok (a, b) ∧ a.isFinite = true ∧ b.isFinite = true) ∨
    ∃ fault m, startPoint x y = .error fault ∧ fault.message? = some m

theorem read_eq_beyondRange_iff (e : Entry) : e.read = .error .beyondRange ↔ e.Huge := by
  cases e with
  | number v =>
    show _ ↔ v.Huge
    rw [← Number.toScalar?_eq_none_iff]
    cases h : v.toScalar? <;> simp [Entry.read, h]
  | text s =>
    refine iff_of_false ?_ id
    cases h : double? s <;> simp [Entry.read, h]
  | truth | other => exact iff_of_false nofun id

/-- The outcome of the two entries: the second one is read if the first one can be. -/
theorem startPoint_cases (x y : Entry) :
    (∃ a b, startPoint x y = .ok (a, b) ∧ a.isFinite = true ∧ b.isFinite = true) ∨
    (∃ a b, x.read = .ok a ∧ y.read = .ok b ∧ startPoint x y = .error .notFinite) ∨
    (∃ fault, startPoint x y = .error fault ∧
      (x.read = .error fault ∨ (∃ a, x.read = .ok a) ∧ y.read = .error fault)) := by
  cases hx : x.read with
  | error fault => exact .inr (.inr ⟨fault, by simp [startPoint, hx, bind, Except.bind], .inl rfl⟩)
  | ok a =>
    cases hy : y.read with
    | error fault =>
      exact .inr (.inr ⟨fault, by simp [startPoint, hx, hy, bind, Except.bind], .inr ⟨⟨a, rfl⟩, rfl⟩⟩)
    | ok b =>
      by_cases hfinite : a.isFinite = true ∧ b.isFinite = true
      · refine .inl ⟨a, b, ?_, hfinite⟩
        simp [startPoint, hx, hy, hfinite, bind, Except.bind, pure, Except.pure]
      · refine .inr (.inl ⟨a, b, rfl, rfl, ?_⟩)
        simp [startPoint, hx, hy, hfinite, bind, Except.bind, throw, throwThe, MonadExceptOf.throw]

/-- Which fault lacks a wording is decided where the entries are read. -/
theorem settled_iff (x y : Entry) :
    Settled x y ↔ ¬ (x.Huge ∨ (∃ a, x.read = .ok a) ∧ y.Huge) := by
  rw [← read_eq_beyondRange_iff, ← read_eq_beyondRange_iff, Settled]
  rcases startPoint_cases x y with h | ⟨a, b, hx, hy, h⟩ | ⟨fault, h, hread⟩
  · refine iff_of_true (.inl h) ?_
    obtain ⟨a, b, h, -⟩ := h
    rintro (hx | ⟨⟨v, hx⟩, hy⟩)
    · simp [startPoint, hx, bind, Except.bind] at h
    · simp [startPoint, hx, hy, bind, Except.bind] at h
  · exact iff_of_true (.inr ⟨_, _, h, rfl⟩) (by simp [hx, hy])
  · by_cases hf : fault = .beyondRange
    · subst hf
      exact iff_of_false (by simp [h, StartFault.message?]) (not_not.2 hread)
    · obtain ⟨m, hm⟩ : ∃ m, fault.message? = some m := by
        cases fault with
        | malformed | notFinite => exact ⟨_, rfl⟩
        | beyondRange => exact absurd rfl hf
      refine iff_of_true (.inr ⟨fault, m, h, hm⟩) ?_
      rcases hread with hx | ⟨⟨a, hx⟩, hy⟩ <;> simp_all

end Session

/-! ## Settings -/

namespace Settings

/-- The settings that can be used: finite ranges that are not empty, an opacity from zero to one and a
frame rate on offer. -/
structure Usable (s : Settings Float) : Prop where
  range : ∀ axis, ∃ p q, (s.range axis).1.value? = some p ∧ (s.range axis).2.value? = some q ∧ p < q
  opacity : ∃ p, s.opacity.value? = some p ∧ 0 ≤ p ∧ p ≤ 1
  rate : ∃ n ∈ frameRates, s.fps.value? = some (n : ℚ)

/-- Usable settings pass, and others are rejected with a fault that has a wording. -/
def Judged (s : Settings Float) : Prop :=
  s.validate = .ok () ∧ s.Usable ∨
    ∃ fault m, s.validate = .error fault ∧ fault.message? = some m ∧ ¬ s.Usable

/-- The range is in order, and no integer in it is too large. -/
def Spanned (s : Settings Float) (axis : Axis) : Prop :=
  ¬ (s.range axis).1.Huge ∧ ¬ (s.range axis).2.Huge ∧
    ∃ p q, (s.range axis).1.value? = some p ∧ (s.range axis).2.value? = some q ∧ p < q

/-- The axes that are checked before. -/
def before : Axis → List Axis
  | .x => []
  | .y => [.x]
  | .z => [.x, .y]

/-- The first check that fails comes upon an integer that is too large. -/
inductive Escapes (s : Settings Float) : Prop
  | low (axis : Axis) (ordered : ∀ a ∈ before axis, s.Spanned a) (huge : (s.range axis).1.Huge)
  | high (axis : Axis) (ordered : ∀ a ∈ before axis, s.Spanned a) (p : ℚ)
      (finite : (s.range axis).1.value? = some p) (huge : (s.range axis).2.Huge)
  | opacity (ordered : ∀ a, s.Spanned a) (huge : s.opacity.Huge)
  | rate (ordered : ∀ a, s.Spanned a) (inside : ∃ p, s.opacity.value? = some p ∧ 0 ≤ p ∧ p ≤ 1)
      (long : tooLong s.fps = true)

variable (s : Settings Float)

/-- What a check finds: `P` where it passes, `Q` where it fails without a wording. -/
inductive Verdict (P Q : Prop) : Except (SettingsFault Float) Unit → Prop
  | passed (holds : P) (rest : ¬ Q) : Verdict P Q (.ok ())
  | worded {fault : SettingsFault Float} {m : String} (wording : fault.message? = some m)
      (fails : ¬ P) (rest : ¬ Q) : Verdict P Q (.error fault)
  | unworded {fault : SettingsFault Float} (wording : fault.message? = none)
      (fails : ¬ P) (holds : Q) : Verdict P Q (.error fault)

theorem Verdict.holds {P Q : Prop} {r : Except (SettingsFault Float) Unit} (h : Verdict P Q r)
    (hr : r = .ok ()) : P := by
  cases h with
  | passed holds rest => exact holds
  | worded | unworded => cases hr

/-- A check is made if the one before it passes. -/
theorem Verdict.bind {P Q P' Q' : Prop} {r r' : Except (SettingsFault Float) Unit}
    (h : Verdict P Q r) (h' : Verdict P' Q' r') :
    Verdict (P ∧ P') (Q ∨ P ∧ Q') (r >>= fun _ => r') := by
  cases h with
  | worded wording fails rest => exact .worded wording (fun hp => fails hp.1) (by tauto)
  | unworded wording fails holds => exact .unworded wording (fun hp => fails hp.1) (.inl holds)
  | passed holds rest =>
    cases h' with
    | passed holds' rest' => exact .passed ⟨holds, holds'⟩ (by tauto)
    | worded wording fails rest' => exact .worded wording (fun hp => fails hp.2) (by tauto)
    | unworded wording fails holds' => exact .unworded wording (fun hp => fails hp.2) (.inr ⟨holds, holds'⟩)

theorem verdict_checkRange (axis : Axis) : Verdict (s.Spanned axis)
    ((s.range axis).1.Huge ∨ (∃ p, (s.range axis).1.value? = some p) ∧ (s.range axis).2.Huge)
    (s.checkRange axis) := by
  have hhuge := Number.toScalar?_eq_none_iff
  simp only [checkRange, Spanned, ← hhuge]
  generalize (s.range axis).1 = low
  generalize (s.range axis).2 = high
  cases hlow : low.toScalar? with
  | none => exact .unworded rfl (fun h => h.1 rfl) (.inl rfl)
  | some v =>
    have hv := Number.isFinite_iff hlow
    by_cases hfinite : Scalar.isFinite v = true
    · obtain ⟨p, hp⟩ := hv.1 hfinite
      dsimp only
      rw [if_pos hfinite]
      cases hhigh : high.toScalar? with
      | none => exact .unworded rfl (fun h => h.2.1 rfl) (.inr ⟨⟨p, hp⟩, rfl⟩)
      | some w =>
        have hw := Number.isFinite_iff hhigh
        have hrest : ¬ (some v = none ∨ (∃ p, low.value? = some p) ∧ some w = none) := by simp
        by_cases hfinite' : Scalar.isFinite w = true
        · obtain ⟨q, hq⟩ := hw.1 hfinite'
          have hle := Number.le_iff hq hp
          dsimp only
          rw [if_pos hfinite']
          by_cases hqp : high.le low = true
          · rw [if_pos hqp]
            refine .worded rfl ?_ hrest
            rintro ⟨-, -, p', q', hp', hq', hlt⟩
            cases hp.symm.trans hp'
            cases hq.symm.trans hq'
            exact hlt.not_ge (hle.1 hqp)
          · rw [if_neg hqp]
            exact .passed ⟨nofun, nofun, p, q, hp, hq, not_le.1 (mt hle.2 hqp)⟩ hrest
        · dsimp only
          rw [if_neg hfinite']
          refine .worded rfl ?_ hrest
          rintro ⟨-, -, p', q', -, hq', -⟩
          exact hfinite' (hw.2 ⟨q', hq'⟩)
    · have hnone : ¬ ∃ p, low.value? = some p := mt hv.2 hfinite
      dsimp only
      rw [if_neg hfinite]
      refine .worded rfl ?_ (by simp [hnone])
      rintro ⟨-, -, p', q', hp', -⟩
      exact hnone ⟨p', hp'⟩

/-- An integer that is too large for a double is not between zero and one. -/
theorem not_between_of_huge {a : Number Float} (h : a.Huge) :
    ¬ ∃ p, a.value? = some p ∧ 0 ≤ p ∧ p ≤ 1 := by
  cases a with
  | real v => exact h.elim
  | int n =>
    have hone : 1 < 2 ^ 1024 - 2 ^ 970 := by decide +kernel
    rintro ⟨p, hp, h0, h1⟩
    cases hp
    have hn0 : 0 ≤ n := by exact_mod_cast h0
    have hn1 : n ≤ 1 := by exact_mod_cast h1
    have hlarge := hone.trans_le h
    omega

theorem not_offered_of_tooLong {a : Number Float} (h : tooLong a = true) :
    ¬ ∃ n ∈ frameRates, a.value? = some (n : ℚ) := by
  cases a with
  | real v => cases h
  | int m =>
    have hrates : ∀ n ∈ frameRates, n < 10 ^ 4 := by decide
    rintro ⟨n, hn, hvalue⟩
    have hm : m = n := by exact_mod_cast Option.some.inj hvalue
    have hshort : overlong m = false := overlong_eq_false_of_lt (by simpa [hm] using hrates n hn)
    rw [tooLong, hshort] at h
    cases h

theorem verdict_checkOpacity : Verdict (∃ p, s.opacity.value? = some p ∧ 0 ≤ p ∧ p ≤ 1)
    s.opacity.Huge s.checkOpacity := by
  have hbetween := Number.between_iff s.opacity 0 1
  rw [Int.cast_zero, Int.cast_one] at hbetween
  rw [← hbetween, checkOpacity]
  by_cases hin : ((Number.int 0).le s.opacity && s.opacity.le (.int 1)) = true
  · rw [if_pos hin]
    exact .passed hin fun hhuge => not_between_of_huge hhuge (hbetween.1 hin)
  · rw [if_neg hin, ← Number.toScalar?_eq_none_iff]
    cases hopacity : s.opacity.toScalar? with
    | none => exact .unworded rfl hin rfl
    | some v => exact .worded rfl hin nofun

theorem verdict_checkRate : Verdict (∃ n ∈ frameRates, s.fps.value? = some (n : ℚ))
    (tooLong s.fps = true) s.checkRate := by
  have hoffered : (frameRates.any fun n => s.fps.eqInt n) = true ↔
      ∃ n ∈ frameRates, s.fps.value? = some (n : ℚ) := by
    simp only [List.any_eq_true, Number.eqInt_iff, Int.cast_natCast]
  rw [← hoffered, checkRate]
  by_cases hany : (frameRates.any fun n => s.fps.eqInt n) = true
  · rw [if_pos hany]
    exact .passed hany fun hlong => not_offered_of_tooLong hlong (hoffered.1 hany)
  · rw [if_neg hany]
    by_cases hlong : tooLong s.fps = true
    · rw [if_pos hlong]
      exact .unworded rfl hany hlong
    · rw [if_neg hlong]
      exact .worded rfl hany hlong

theorem forall_axis_iff {P : Axis → Prop} : (∀ a, P a) ↔ P .x ∧ P .y ∧ P .z :=
  ⟨fun h => ⟨h .x, h .y, h .z⟩, fun h a => by cases a <;> simp only [h]⟩

theorem Verdict.congr {P Q P' Q' : Prop} {r : Except (SettingsFault Float) Unit}
    (h : Verdict P Q r) (hP : P ↔ P') (hQ : Q ↔ Q') : Verdict P' Q' r := by
  rwa [← hP, ← hQ]

/-- The checks in the order in which they are made. -/
theorem verdict_validate : Verdict
    ((∀ a, s.Spanned a) ∧ (∃ p, s.opacity.value? = some p ∧ 0 ≤ p ∧ p ≤ 1) ∧
      ∃ n ∈ frameRates, s.fps.value? = some (n : ℚ))
    s.Escapes s.validate := by
  have h : Verdict _ _ s.validate := (s.verdict_checkRange .x).bind ((s.verdict_checkRange .y).bind
    ((s.verdict_checkRange .z).bind (s.verdict_checkOpacity.bind s.verdict_checkRate)))
  refine h.congr (by rw [forall_axis_iff, and_assoc, and_assoc]) ⟨?_, ?_⟩
  · rintro ((hlow | ⟨⟨p, hp⟩, hhigh⟩) | ⟨hx, (hlow | ⟨⟨p, hp⟩, hhigh⟩) | ⟨hy,
      (hlow | ⟨⟨p, hp⟩, hhigh⟩) | ⟨hz, hopacity⟩⟩⟩)
    · exact .low .x (by simp [before]) hlow
    · exact .high .x (by simp [before]) p hp hhigh
    · exact .low .y (by simp [before, hx]) hlow
    · exact .high .y (by simp [before, hx]) p hp hhigh
    · exact .low .z (by simp [before, hx, hy]) hlow
    · exact .high .z (by simp [before, hx, hy]) p hp hhigh
    · rcases hopacity with hopacity | ⟨hin, hlong⟩
      · exact .opacity (forall_axis_iff.2 ⟨hx, hy, hz⟩) hopacity
      · exact .rate (forall_axis_iff.2 ⟨hx, hy, hz⟩) hin hlong
  · rintro (⟨axis, hbefore, hlow⟩ | ⟨axis, hbefore, p, hp, hhigh⟩ | ⟨hall, hopacity⟩ |
      ⟨hall, hin, hlong⟩)
    · cases axis <;> simp_all [before]
    · cases axis <;> simp_all [before]
    · simp [hall, hopacity]
    · simp [hall, hin, hlong]

/-- Usable settings pass unless an integer in their ranges is too large. -/
theorem Usable.spanned_or_escapes {s : Settings Float} (h : s.Usable) :
    (∀ a, s.Spanned a) ∨ s.Escapes := by
  have hrange : ∀ axis, (∀ a ∈ before axis, s.Spanned a) → s.Spanned axis ∨ s.Escapes := by
    intro axis hbefore
    obtain ⟨p, q, hp, hq, hpq⟩ := h.range axis
    by_cases hlow : (s.range axis).1.Huge
    · exact .inr (.low axis hbefore hlow)
    by_cases hhigh : (s.range axis).2.Huge
    · exact .inr (.high axis hbefore p hp hhigh)
    · exact .inl ⟨hlow, hhigh, p, q, hp, hq, hpq⟩
  rcases hrange .x (by simp [before]) with hx | hesc
  · rcases hrange .y (by simp [before, hx]) with hy | hesc
    · rcases hrange .z (by simp [before, hx, hy]) with hz | hesc
      · exact .inl (forall_axis_iff.2 ⟨hx, hy, hz⟩)
      · exact .inr hesc
    · exact .inr hesc
  · exact .inr hesc

theorem judged_iff : s.Judged ↔ ¬ s.Escapes := by
  have h := s.verdict_validate
  unfold Judged
  cases hv : s.validate with
  | ok u =>
    rw [hv] at h
    cases h with
    | passed holds rest =>
      have hranges : ∀ axis, _ := fun axis => (holds.1 axis).2.2
      exact iff_of_true (.inl ⟨rfl, hranges, holds.2.1, holds.2.2⟩) rest
  | error fault =>
    rw [hv] at h
    cases h with
    | worded wording fails rest =>
      refine iff_of_true (.inr ⟨fault, _, rfl, wording, fun hu => ?_⟩) rest
      exact hu.spanned_or_escapes.elim (fun hall => fails ⟨hall, hu.opacity, hu.rate⟩) rest
    | unworded wording fails holds =>
      refine iff_of_false ?_ (not_not.2 holds)
      rintro (⟨hok, -⟩ | ⟨fault', m, hfault, hm, -⟩)
      · cases hok
      · cases hfault
        rw [wording] at hm
        cases hm

end Settings

/-! ## What escapes -/

/-- Whatever is entered for a start point is used or refused with a wording, and so are the settings,
exactly if no integer is too large where it is read: for a coordinate, a bound or the opacity, one that
is not rounded to a finite double; for the frame rate, one with more digits than are written out. -/
theorem refusals_worded_iff (x y : Session.Entry) (s : Settings Float) :
    (Session.Settled x y ↔ ¬ (x.Huge ∨ (∃ a, x.read = .ok a) ∧ y.Huge)) ∧
      (s.Judged ↔ ¬ s.Escapes) :=
  ⟨Session.settled_iff x y, s.judged_iff⟩

/-- A coordinate or an opacity with four hundred zeros is refused without a wording. -/
theorem huge_integers_not_worded :
    ¬ Session.Settled (.number (.int (10 ^ 400))) (.number (.int 0)) ∧
      ¬ ({ Settings.usual with opacity := .int (10 ^ 400) } : Settings Float).Judged := by
  have hhuge : (Number.int (10 ^ 400)).Huge := by
    show 2 ^ 1024 - 2 ^ 970 ≤ ((10 : ℤ) ^ 400).natAbs
    decide +kernel
  rw [Session.settled_iff, Settings.judged_iff, not_not, not_not]
  refine ⟨.inl hhuge, .opacity (fun axis => ?_) hhuge⟩
  have hok : (Settings.checkRange { Settings.usual with opacity := .int (10 ^ 400) } axis :
      Except (SettingsFault Float) Unit) = .ok () := by
    cases axis <;> rfl
  exact (Settings.verdict_checkRange _ axis).holds hok

end FieldWalk
