import FieldWalk.Markup.Group
/-!
# Text that a group reader passes over

A text is neutral for a pair of delimiters if reading a group runs over it without ending in it or
changing its depth. Neutral texts are closed under concatenation and under putting them between the
two delimiters, and a group with neutral content ends at its own closer.
-/

namespace FieldWalk.Markup

/-- Inside a group of these delimiters the text is all content and leaves the depth as it is. -/
def Neutral (o k : Char) (s : List Char) : Prop :=
  ∀ depth rest, splitGroup o k (depth + 1) (s ++ rest) =
    (s ++ (splitGroup o k (depth + 1) rest).1, (splitGroup o k (depth + 1) rest).2)

section
variable {o k : Char}

theorem neutral_nil : Neutral o k [] :=
  fun _ _ => rfl

theorem neutral_append {s t : List Char} (hs : Neutral o k s) (ht : Neutral o k t) :
    Neutral o k (s ++ t) := by
  intro depth rest
  rw [List.append_assoc, hs, ht, List.append_assoc]

theorem neutral_char {c : Char} (ho : c ≠ o) (hk : c ≠ k) : Neutral o k [c] := by
  intro depth rest
  simp [splitGroup, ho, hk]

theorem neutral_group (hok : o ≠ k) {s : List Char} (hs : Neutral o k s) :
    Neutral o k (o :: s ++ [k]) := by
  intro depth rest
  simp [splitGroup, hs (depth + 1), hok.symm]

/-- A group with neutral content ends at its closer. -/
theorem splitGroup_neutral (hok : o ≠ k) {s : List Char} (hs : Neutral o k s) (rest : List Char) :
    splitGroup o k 1 (s ++ k :: rest) = (s, rest) := by
  rw [hs 0]
  simp [splitGroup, hok.symm]

end

theorem group?_braces {s : List Char} (hs : Neutral '{' '}' s) (rest : List Char) :
    group? ('{' :: s ++ '}' :: rest) = some (s, rest) := by
  simp [group?, closerOf?, splitGroup_neutral (by decide) hs]

theorem group?_parens {s : List Char} (hs : Neutral '(' ')' s) (rest : List Char) :
    group? ('(' :: s ++ ')' :: rest) = some (s, rest) := by
  simp [group?, closerOf?, splitGroup_neutral (by decide) hs]

/-- A text is neutral for both kinds of delimiters. -/
structure Balanced (s : List Char) : Prop where
  braces : Neutral '{' '}' s
  parens : Neutral '(' ')' s

theorem balanced_nil : Balanced [] :=
  ⟨neutral_nil, neutral_nil⟩

theorem balanced_append {s t : List Char} (hs : Balanced s) (ht : Balanced t) :
    Balanced (s ++ t) :=
  ⟨neutral_append hs.braces ht.braces, neutral_append hs.parens ht.parens⟩

theorem balanced_cons {c : Char} (hc : c ∉ ['{', '}', '(', ')']) {s : List Char}
    (hs : Balanced s) : Balanced (c :: s) := by
  simp only [List.mem_cons, List.not_mem_nil, or_false, not_or] at hc
  obtain ⟨h1, h2, h3, h4⟩ := hc
  exact ⟨neutral_append (neutral_char h1 h2) hs.braces,
    neutral_append (neutral_char h3 h4) hs.parens⟩

/-- A text without delimiters. -/
theorem balanced_of_free {s : List Char} (h : ∀ c ∈ s, c ∉ ['{', '}', '(', ')']) : Balanced s := by
  induction s with
  | nil => exact balanced_nil
  | cons c s ih => exact balanced_cons (h c (by simp)) (ih fun d hd => h d (by simp [hd]))

theorem balanced_braces {s : List Char} (hs : Balanced s) : Balanced ('{' :: s ++ ['}']) where
  braces := neutral_group (by decide) hs.braces
  parens := neutral_append
    (neutral_append (s := ['{']) (neutral_char (by decide) (by decide)) hs.parens)
    (neutral_char (by decide) (by decide))

theorem balanced_parens {s : List Char} (hs : Balanced s) : Balanced ('(' :: s ++ [')']) where
  braces := neutral_append
    (neutral_append (s := ['(']) (neutral_char (by decide) (by decide)) hs.braces)
    (neutral_char (by decide) (by decide))
  parens := neutral_group (by decide) hs.parens

end FieldWalk.Markup
