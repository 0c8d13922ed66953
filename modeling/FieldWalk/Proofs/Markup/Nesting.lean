import FieldWalk.Proofs.Markup.Seam
import Mathlib.Data.List.Chain
import Mathlib.Data.List.Infix
/-!
# Parentheses of flat text

The translator writes parentheses in pairs. It copies single ones only where a delimiter of the markup
is escaped or has no partner, and whole names of operators. So the parentheses of the flat text nest
whenever the delimiters of the markup do and none of them is escaped.
-/

namespace FieldWalk.Markup

open Text

/-! ## Nested parentheses -/

/-- No parenthesis is closed before it is opened, and each one is closed. -/
structure Matched (s : List Char) : Prop where
  opened : ∀ p, p <+: s → p.count ')' ≤ p.count '('
  closed : s.count '(' = s.count ')'

theorem Matched.append {s t : List Char} (hs : Matched s) (ht : Matched t) : Matched (s ++ t) where
  opened p hp := by
    rcases List.prefix_or_prefix_of_prefix hp (List.prefix_append s t) with hp' | ⟨q, rfl⟩
    · exact hs.opened p hp'
    · have hq := ht.opened q ((List.prefix_append_right_inj s).1 hp)
      rw [List.count_append, List.count_append, hs.closed]
      omega
  closed := by rw [List.count_append, List.count_append, hs.closed, ht.closed]

theorem matched_of_free {s : List Char} (h : ∀ c ∈ s, c ∉ ['(', ')']) : Matched s := by
  have hcount : ∀ p : List Char, p <+: s → ∀ c ∈ ['(', ')'], p.count c = 0 := fun p hp c hc =>
    List.count_eq_zero.2 fun hm => h c (hp.subset hm) hc
  refine ⟨fun p hp => ?_, ?_⟩
  · rw [hcount p hp ')' (by decide)]
    exact Nat.zero_le _
  · rw [hcount s (List.prefix_refl s) '(' (by decide), hcount s (List.prefix_refl s) ')' (by decide)]

theorem Matched.paren {s : List Char} (h : Matched s) : Matched ('(' :: s ++ [')']) where
  opened p hp := by
    rcases List.prefix_concat_iff.1 hp with rfl | hp
    · simp [h.closed]
    · rcases List.prefix_cons_iff.1 hp with rfl | ⟨q, rfl, hq⟩
      · exact Nat.le_refl 0
      · have := h.opened q hq
        simp
        omega
  closed := by simp [h.closed]

/-- Among the delimiters of nested text the parentheses are matched. -/
theorem Nested.matched {s : List Char} (h : Nested s) : Matched s := by
  induction h with
  | nil => exact matched_of_free (List.forall_mem_nil _)
  | @char c s hc _ ih =>
    have hfree : Matched [c] := matched_of_free (List.forall_mem_singleton.2 fun hm => hc (by simp_all))
    exact hfree.append ih
  | @group o k s t ho _ _ ihs iht =>
    have hgroup : Matched (o :: s ++ [k]) := by
      rcases closerOf?_cases ho with ⟨rfl, rfl⟩ | ⟨rfl, rfl⟩
      · have hopen : Matched ['{'] := matched_of_free (by decide)
        have hclose : Matched ['}'] := matched_of_free (by decide)
        exact (hopen.append ihs).append hclose
      · exact ihs.paren
    have := hgroup.append iht
    rwa [List.append_assoc] at this

theorem nested_append_of_free {s t : List Char} (hs : ∀ c ∈ s, c ∉ ['{', '}', '(', ')'])
    (ht : Nested t) : Nested (s ++ t) := by
  induction s with
  | nil => exact ht
  | cons c s ih =>
    obtain ⟨hc, hs⟩ := List.forall_mem_cons.1 hs
    exact .char hc (ih hs)

/-- Leaving out characters that are no delimiters keeps a text nested. -/
theorem Nested.filter {s : List Char} (h : Nested s) {p : Char → Bool}
    (hp : ∀ c ∈ ['{', '}', '(', ')'], p c = true) : Nested (s.filter p) := by
  induction h with
  | nil => exact .nil
  | @char c s hc _ ih =>
    by_cases hpc : p c = true
    · rw [List.filter_cons_of_pos hpc]
      exact .char hc ih
    · rwa [List.filter_cons_of_neg hpc]
  | @group o k s t ho _ _ ihs iht =>
    have hok : p o = true ∧ p k = true := by
      rcases closerOf?_cases ho with ⟨rfl, rfl⟩ | ⟨rfl, rfl⟩ <;>
        exact ⟨hp _ (by decide), hp _ (by decide)⟩
    rw [List.cons_append, List.filter_cons_of_pos hok.1, List.filter_append,
      List.filter_cons_of_pos hok.2]
    exact .group ho ihs iht

/-! ## Orderly markup -/

/-- The delimiters nest, none of them is escaped, and there is no index of a root. -/
structure Orderly (s : List Char) : Prop where
  nested : Nested s
  escape : s.IsChain fun a b => a = '\\' → b ∉ ['{', '}', '(', ')']
  bracket : '[' ∉ s

/-- Nested text begins with a plain character or a group. -/
theorem Nested.cons_cases {c : Char} {s : List Char} (h : Nested (c :: s)) :
    (c ∉ ['{', '}', '(', ')'] ∧ Nested s) ∨
      ∃ k content rest, closerOf? c = some k ∧ s = content ++ k :: rest ∧ Nested content ∧
        Nested rest := by
  generalize hx : c :: s = x at h
  cases h with
  | nil => cases hx
  | char hc hs =>
    cases hx
    exact .inl ⟨hc, hs⟩
  | group ho hs ht =>
    cases hx
    exact .inr ⟨_, _, _, ho, rfl, hs, ht⟩

theorem Nested.tail {c : Char} {s : List Char} (h : Nested (c :: s)) (hc : c ∉ ['{', '}', '(', ')']) :
    Nested s := by
  rcases h.cons_cases with ⟨-, hs⟩ | ⟨k, content, rest, ho, -⟩
  · exact hs
  · rcases closerOf?_cases ho with ⟨rfl, -⟩ | ⟨rfl, -⟩ <;> exact absurd (by decide) hc

namespace Orderly

theorem of_infix {s u : List Char} (h : Orderly s) (hu : u <:+: s) (hn : Nested u) : Orderly u where
  nested := hn
  escape := h.escape.infix hu
  bracket hb := h.bracket (hu.subset hb)

theorem tail {c : Char} {s : List Char} (h : Orderly (c :: s)) (hc : c ∉ ['{', '}', '(', ')']) :
    Orderly s :=
  h.of_infix (List.suffix_cons c s).isInfix (h.nested.tail hc)

/-- No delimiter stands behind an escape. -/
theorem escaped {d : Char} {s : List Char} (h : Orderly ('\\' :: d :: s)) :
    d ∉ ['{', '}', '(', ')'] :=
  (List.isChain_cons_cons.1 h.escape).1 rfl

theorem group {s content rest : List Char} (h : Orderly s) (hg : group? s = some (content, rest)) :
    Orderly content ∧ Orderly rest := by
  cases s with
  | nil => cases hg
  | cons c s =>
    rcases h.nested.cons_cases with ⟨hc, -⟩ | ⟨k, a, r, ho, rfl, ha, hr⟩
    · simp only [List.mem_cons, List.not_mem_nil, or_false, not_or] at hc
      rw [group?_eq_none (closerOf?_eq_none hc.1 hc.2.2.1)] at hg
      cases hg
    · have hg' := group?_balanced ho ha.balanced r
      rw [List.cons_append, hg] at hg'
      cases hg'
      exact ⟨h.of_infix ⟨[c], k :: rest, by simp⟩ ha, h.of_infix ⟨c :: content ++ [k], [], by simp⟩ hr⟩

/-- What opens no group is no delimiter. -/
theorem not_delimiter {c : Char} {s : List Char} (h : Orderly (c :: s)) (hg : group? (c :: s) = none) :
    c ∉ ['{', '}', '(', ')'] := by
  rcases h.nested.cons_cases with ⟨hc, -⟩ | ⟨k, a, r, ho, rfl, ha, -⟩
  · exact hc
  · have hg' := group?_balanced ho ha.balanced r
    rw [List.cons_append, hg] at hg'
    cases hg'

theorem dropWhile {s : List Char} (h : Orderly s) {p : Char → Bool}
    (hp : ∀ c ∈ ['{', '}', '(', ')'], p c = false) : Orderly (s.dropWhile p) := by
  induction s with
  | nil => exact h
  | cons c s ih =>
    by_cases hc : p c = true
    · rw [List.dropWhile_cons_of_pos hc]
      exact ih (h.tail fun hm => by simp [hp c hm] at hc)
    · rwa [List.dropWhile_cons_of_neg hc]

theorem argument {s content rest : List Char} (h : Orderly s)
    (ha : argument? s = some (content, rest)) : Orderly content ∧ Orderly rest :=
  (h.dropWhile (by decide)).group ha

theorem rootIndex {s : List Char} (h : Orderly s) : rootIndex? s = none :=
  rootIndex?_eq_none fun hm =>
    h.bracket ((List.dropWhile_suffix isBlank).subset (List.mem_of_mem_head? hm))

end Orderly

/-- What holds of all parts of a construct. -/
def Construct.Each (P : List Char → Prop) : Construct → Prop
  | fraction a b r => P a ∧ P b ∧ P r
  | halfFraction a r | root a r | name a r => P a ∧ P r
  | indexedRoot i a r => P i ∧ P a ∧ P r
  | bare => True

theorem Orderly.parts {s : List Char} (h : Orderly s) {x : Construct} (hx : x.Read s) :
    x.Each Orderly := by
  cases hx with
  | fraction ha hb =>
    obtain ⟨hn, hr⟩ := h.argument ha
    exact ⟨hn, hr.argument hb⟩
  | halfFraction ha | root ha | name ha => exact h.argument ha
  | indexedRoot hi =>
    rw [h.rootIndex] at hi
    cases hi
  | bare => trivial

/-! ## Flat text -/

theorem matched_bareText {w : List Char} (hw : ∀ c ∈ w, isLetter c = true) :
    Matched ((Command.ofWord (String.ofList w)).bareText (String.ofList w)).text := by
  have hall : ∀ c ∈ ['(', ')'], isLetter c = false ∧ c ≠ '*' := by decide
  refine matched_of_free fun c hc hm => ?_
  rcases bareText_letters hw c hc with hl | rfl
  · rw [(hall c hm).1] at hl
    cases hl
  · exact (hall _ hm).2 rfl

/-- The flat text of orderly markup has its parentheses in pairs, nested. -/
theorem matched_flatten {s : List Char} (h : Orderly s) : Matched (flatten s).text := by
  have hslash : Matched ['/'] := matched_of_free (by decide)
  -- what a command reads stands behind its word and is orderly as that is
  have hparts : ∀ {cs : List Char}, Orderly ('\\' :: cs) →
      ((Command.ofWord (String.ofList (cs.takeWhile isLetter))).arguments
        (cs.dropWhile isLetter)).Each Orderly :=
    fun h => ((h.tail (by decide)).dropWhile (by decide)).parts (arguments_read _ _)
  fun_induction flatten s with
  | case1 => exact matched_of_free (List.forall_mem_nil _)
  | case2 r _ _ ih => exact absurd (by decide) h.escaped
  | case3 r _ _ ih => exact absurd (by decide) h.escaped
  | case4 d r _ _ _ _ ih => exact ih ((h.tail (by decide)).tail h.escaped)
  | case5 => exact matched_of_free (List.forall_mem_nil _)
  | case6 cs _ _ _ _ _ a b r hc iha ihb ihr =>
    obtain ⟨ha, hb, hr⟩ : (Construct.fraction a b r).Each Orderly := hc ▸ hparts h
    exact (((iha ha).paren.append hslash).append (ihb hb).paren).append (ihr hr)
  | case7 cs _ _ _ _ _ a r hc iha ihr =>
    obtain ⟨ha, hr⟩ : (Construct.halfFraction a r).Each Orderly := hc ▸ hparts h
    exact ((iha ha).paren.append hslash).append (ihr hr)
  | case8 cs _ _ _ _ _ a r hc iha ihr =>
    obtain ⟨ha, hr⟩ : (Construct.root a r).Each Orderly := hc ▸ hparts h
    have hroot : Matched "sqrt".toList := matched_of_free (by decide)
    have := (hroot.append (iha ha).paren.paren).append (ihr hr)
    simpa [Flat.lit, Flat.paren, Flat.char] using this
  | case9 cs _ _ _ _ _ i a r hc iha ihi ihr =>
    obtain ⟨hi, ha, hr⟩ : (Construct.indexedRoot i a r).Each Orderly := hc ▸ hparts h
    have hpower : Matched ['^'] := matched_of_free (by decide)
    have hone : Matched ['1', '/'] := matched_of_free (by decide)
    have := (((iha ha).paren.append hpower).append (hone.append (ihi hi).paren).paren).append (ihr hr)
    simpa [Flat.lit, Flat.paren, Flat.char] using this
  | case10 cs _ _ _ _ _ a r hc ihr =>
    obtain ⟨ha, hr⟩ : (Construct.name a r).Each Orderly := hc ▸ hparts h
    exact (ha.nested.filter (by decide)).matched.append (ihr hr)
  | case11 cs _ rest _ _ _ _ ihr =>
    have hletters : ∀ c ∈ cs.takeWhile isLetter, isLetter c = true := fun c hc =>
      List.all_eq_true.1 List.all_takeWhile c hc
    have hrest : Orderly rest := (h.tail (by decide)).dropWhile (by decide)
    exact (matched_bareText hletters).append (ihr hrest)
  | case12 c cs _ content r hg ih ihr =>
    obtain ⟨hcontent, hr⟩ := h.group hg
    exact (ih hcontent).paren.append (ihr hr)
  | case13 c cs _ hg hb ih => exact ih (h.tail (h.not_delimiter hg))
  | case14 c cs _ hg hb ih =>
    have hc := h.not_delimiter hg
    have hchar : Matched [c] := matched_of_free (List.forall_mem_singleton.2 fun hm => hc (by simp_all))
    exact hchar.append (ih (h.tail hc))

/-- Where delimiters nest, none of them is escaped and no bracket opens, the parentheses of the flat
text nest, whatever is unknown, missing or left over in the markup. -/
theorem parentheses_nest (markup : String) (hn : Nested markup.toList)
    (he : markup.toList.IsChain fun a b => a = '\\' → b ∉ ['{', '}', '(', ')'])
    (hb : '[' ∉ markup.toList) :
    (∀ p, p <+: (translate markup).1.toList → p.count ')' ≤ p.count '(') ∧
      (translate markup).1.toList.count '(' = (translate markup).1.toList.count ')' := by
  have h : Matched (translate markup).1.toList := by
    rw [translate, String.toList_ofList]
    exact matched_flatten ⟨hn, he, hb⟩
  exact ⟨h.opened, h.closed⟩

/-- A fraction without its denominator, a word that is no command, a root of nothing, and the name of an
operator with its argument in it. -/
theorem incomplete_commands_nest :
    let markup := "\\frac\x7b(x)\\foo\x7d\\sqrt+\\operatorname\x7bf (y)\x7d"
    Nested markup.toList ∧
      (markup.toList.IsChain fun a b => a = '\\' → b ∉ ['{', '}', '(', ')']) ∧
      '[' ∉ markup.toList ∧ (translate markup).1 = "((x)foo)/sqrt+f(y)" ∧
      (∀ p, p <+: "((x)foo)/sqrt+f(y)".toList → p.count ')' ≤ p.count '(') ∧
      "((x)foo)/sqrt+f(y)".toList.count '(' = "((x)foo)/sqrt+f(y)".toList.count ')' := by
  intro markup
  have hfree : ∀ {s : List Char}, (∀ c ∈ s, c ∉ ['{', '}', '(', ')']) → Nested s := fun h => by
    simpa using nested_append_of_free h .nil
  have hx : Nested "(x)\\foo".toList :=
    .group (o := '(') (k := ')') (s := ['x']) (t := "\\foo".toList) rfl (hfree (by decide))
      (hfree (by decide))
  have hy : Nested "f (y)".toList :=
    nested_append_of_free (s := ['f', ' ']) (by decide)
      (.group (o := '(') (k := ')') (s := ['y']) rfl (hfree (by decide)) .nil)
  have hn : Nested markup.toList := by
    have hsplit : markup.toList = "\\frac".toList ++ ('{' :: "(x)\\foo".toList ++
        '}' :: ("\\sqrt+\\operatorname".toList ++ ('{' :: "f (y)".toList ++ ['}']))) := by decide
    rw [hsplit]
    exact nested_append_of_free (by decide) (.group rfl hx
      (nested_append_of_free (by decide) (.group rfl hy .nil)))
  have he : markup.toList.IsChain fun a b => a = '\\' → b ∉ ['{', '}', '(', ')'] := by decide
  have hb : '[' ∉ markup.toList := by decide
  have hflat : (translate markup).1 = "((x)foo)/sqrt+f(y)" := by decide +kernel
  have hnest := parentheses_nest markup hn he hb
  rw [hflat] at hnest
  exact ⟨hn, he, hb, hflat, hnest⟩

end FieldWalk.Markup
