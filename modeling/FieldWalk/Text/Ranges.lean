/-! Sets of characters given by ranges of code points. -/

namespace FieldWalk.Text

/-- What holds of each character of a text is decided one after the other. -/
instance (priority := high) decidableEach (s : List Char) (p : Char → Prop) [DecidablePred p] :
    Decidable (∀ c ∈ s, p c) :=
  List.decidableBAll p s

/-- A set of code points as a list of ranges, both ends included. -/
abbrev Ranges := List (Nat × Nat)

namespace Ranges

/-- Membership of a character. -/
def contains (rs : Ranges) (c : Char) : Bool :=
  rs.any fun r => r.1 ≤ c.toNat && c.toNat ≤ r.2

theorem contains_iff (rs : Ranges) (c : Char) :
    rs.contains c = true ↔ ∃ r ∈ rs, r.1 ≤ c.toNat ∧ c.toNat ≤ r.2 := by
  simp [contains]

/-- The letters of the basic Latin alphabet. -/
def latin : Ranges :=
  [(65, 90), (97, 122)]

theorem isAlpha_eq (c : Char) : c.isAlpha = latin.contains c := by
  have hc : c.isAlpha = (decide (65 ≤ c.toNat ∧ c.toNat ≤ 90) ||
    (decide (97 ≤ c.toNat) && decide (c.toNat ≤ 122))) := rfl
  rw [hc, Bool.eq_iff_iff, contains_iff]
  simp [latin]

/-- No range of the one list meets a range of the other. -/
def disjoint (rs ss : Ranges) : Bool :=
  rs.all fun r => ss.all fun s => r.2 < s.1 || s.2 < r.1

/-- Lists of ranges that do not meet have no character in common. -/
theorem not_contains_of_disjoint {rs ss : Ranges} (h : disjoint rs ss = true) {c : Char}
    (hr : rs.contains c = true) : ss.contains c = false := by
  rw [contains_iff] at hr
  obtain ⟨r, hr, h1, h2⟩ := hr
  rw [Bool.eq_false_iff, Ne, contains_iff]
  rintro ⟨s, hs, h3, h4⟩
  simp only [disjoint, List.all_eq_true, Bool.or_eq_true, decide_eq_true_eq] at h
  have := h r hr s hs
  omega

end Ranges

end FieldWalk.Text
