import FieldWalk.Proofs.Markup.Nesting
/-!
# Text without commands

Without an escape only braces and blanks are translated. The translator does not go character by
character: it cuts out groups, looking at one kind of delimiter at a time, and puts their flat texts
between parentheses. Where the delimiters of both kinds nest, the closer it finds is the partner of the
opener, so nothing but the shape of the braces changes.
-/

namespace FieldWalk.Markup

open Text

/-! ## Rounded braces -/

/-- A brace as the parenthesis of its side. -/
def rounded (c : Char) : Char :=
  if c = '{' then '(' else if c = '}' then ')' else c

theorem rounded_eq_self {c : Char} (h : c ∉ ['{', '}', '(', ')']) : rounded c = c := by
  simp only [List.mem_cons, List.not_mem_nil, or_false, not_or] at h
  rw [rounded, if_neg h.1, if_neg h.2.1]

theorem rounded_rounded (c : Char) : rounded (rounded c) = rounded c := by
  by_cases ho : c = '{'
  · rw [ho]
    decide
  · by_cases hk : c = '}'
    · rw [hk]
      decide
    · simp [rounded, ho, hk]

theorem rounded_ne_escape {c : Char} (h : c ≠ '\\') : rounded c ≠ '\\' := by
  unfold rounded
  split
  · decide
  · split
    · decide
    · exact h

/-- Delimiters of either kind become parentheses, and none of them is blank. -/
theorem rounded_delimiters {o k : Char} (h : closerOf? o = some k) :
    rounded o = '(' ∧ rounded k = ')' ∧ isBlank o = false ∧ isBlank k = false := by
  rcases closerOf?_cases h with ⟨rfl, rfl⟩ | ⟨rfl, rfl⟩ <;> decide

theorem Nested.rounded {s : List Char} (h : Nested s) : Nested (s.map rounded) := by
  induction h with
  | nil => exact .nil
  | char hc _ ih =>
    rw [List.map_cons, rounded_eq_self hc]
    exact .char hc ih
  | group ho _ _ ihs iht =>
    obtain ⟨hopen, hclose, -⟩ := rounded_delimiters ho
    rw [List.map_append, List.map_cons, List.map_cons, hopen, hclose]
    exact .group rfl ihs iht

/-! ## Flat text -/

theorem paren_append (a b : List Char) :
    Flat.paren ⟨a, []⟩ ++ ⟨b, []⟩ = (⟨'(' :: (a ++ ')' :: b), []⟩ : Flat) := by
  have htext : ('(' :: a ++ [')']) ++ b = '(' :: (a ++ ')' :: b) := by simp
  exact congrArg (Flat.mk · []) htext

/-- Blanks are left out, braces are rounded, and there is nothing to warn of. -/
theorem flatten_plain {s : List Char} (h : Nested s) (he : '\\' ∉ s) :
    flatten s = ⟨(s.filter (!isBlank ·)).map rounded, []⟩ := by
  induction h with
  | nil =>
    rw [flatten_nil]
    rfl
  | @char c s hc _ ih =>
    simp only [List.mem_cons, not_or] at he
    have hopen : closerOf? c = none := by
      simp only [List.mem_cons, List.not_mem_nil, or_false, not_or] at hc
      exact closerOf?_eq_none hc.1 hc.2.2.1
    rw [flatten_char (Ne.symm he.1) hopen, ih he.2]
    by_cases hb : isBlank c = true
    · simp [hb]
    · rw [if_neg hb, List.filter_cons_of_pos (by simpa using hb), List.map_cons, rounded_eq_self hc]
      rfl
  | @group o k s t ho hs _ ihs iht =>
    simp only [List.cons_append, List.mem_cons, List.mem_append, not_or] at he
    obtain ⟨hopen, hclose, hbo, hbk⟩ := rounded_delimiters ho
    -- the group that is read is the one that the nesting has here
    have hg : group? (o :: (s ++ k :: t)) = some (s, t) := group?_balanced ho hs.balanced t
    have hflat : flatten (o :: (s ++ k :: t)) = (flatten s).paren ++ flatten t := flatten_group hg
    rw [List.cons_append, hflat, ihs he.2.1, iht he.2.2.2, List.filter_cons_of_pos (by simp [hbo]),
      List.filter_append, List.filter_cons_of_pos (by simp [hbk]), List.map_cons, List.map_append,
      List.map_cons, hopen, hclose, paren_append]

theorem flatten_flatten_plain {s : List Char} (h : Nested s) (he : '\\' ∉ s) :
    flatten (flatten s).text = flatten s := by
  have hblank : ∀ c ∈ (flatten s).text, isBlank c = false := unblank_flatten s
  rw [flatten_plain h he] at hblank ⊢
  have hn : Nested ((s.filter (!isBlank ·)).map rounded) := (h.filter (by decide)).rounded
  have he' : '\\' ∉ (s.filter (!isBlank ·)).map rounded := by
    intro hm
    obtain ⟨c, hc, hr⟩ := List.mem_map.1 hm
    have hne : c ≠ '\\' := fun h => he (h ▸ List.mem_of_mem_filter hc)
    exact rounded_ne_escape hne hr
  have hkept : ((s.filter (!isBlank ·)).map rounded).filter (!isBlank ·) =
      (s.filter (!isBlank ·)).map rounded :=
    List.filter_eq_self.2 fun c hc => by simp [hblank c hc]
  have hround : rounded ∘ rounded = rounded := funext rounded_rounded
  rw [flatten_plain hn he', hkept, List.map_map, hround]

/-- Where delimiters nest and nothing is escaped, the flat text is the markup with its blanks left out
and its braces rounded, every other character in its place. Translated once more it stays as it is. -/
theorem plain_text_passes (markup : String) (hn : Nested markup.toList) (he : '\\' ∉ markup.toList) :
    translate markup =
        (String.ofList ((markup.toList.filter (!isBlank ·)).map rounded), []) ∧
      translate (translate markup).1 = translate markup := by
  have hflat := flatten_plain hn he
  refine ⟨by rw [translate, hflat], ?_⟩
  have hagain := flatten_flatten_plain hn he
  unfold translate
  rw [String.toList_ofList, hagain]

/-- Groups of both kinds in each other, with a bracket that is never closed. -/
theorem mixed_groups_pass :
    let markup := "\x7b[x + (y^\x7b 2\x7d)\x7d!"
    Nested markup.toList ∧ '\\' ∉ markup.toList ∧ translate markup = ("([x+(y^(2)))!", []) ∧
      translate "([x+(y^(2)))!" = translate markup := by
  intro markup
  have hfree : ∀ {s : List Char}, (∀ c ∈ s, c ∉ ['{', '}', '(', ')']) → Nested s := fun h => by
    simpa using nested_append_of_free h .nil
  have hpower : Nested "y^\x7b 2\x7d".toList :=
    nested_append_of_free (s := ['y', '^']) (by decide)
      (.group (o := '{') (k := '}') (s := [' ', '2']) rfl (hfree (by decide)) .nil)
  have hsum : Nested "[x + (y^\x7b 2\x7d)".toList :=
    nested_append_of_free (s := "[x + ".toList) (by decide) (.group (o := '(') rfl hpower .nil)
  have hn : Nested markup.toList := by
    have hsplit : markup.toList = '{' :: "[x + (y^\x7b 2\x7d)".toList ++ ['}', '!'] := by decide
    rw [hsplit]
    exact .group rfl hsum (hfree (by decide))
  have he : '\\' ∉ markup.toList := by decide
  obtain ⟨hflat, hagain⟩ := plain_text_passes markup hn he
  have htext : translate markup = ("([x+(y^(2)))!", []) := by
    rw [hflat]
    decide +kernel
  rw [htext] at hagain
  exact ⟨hn, he, htext, hagain.trans htext.symm⟩

end FieldWalk.Markup
