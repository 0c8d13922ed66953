import FieldWalk.Proofs.Formula.Fixed
import FieldWalk.Proofs.Markup.Seam
import FieldWalk.Session.Engine
/-!
# Formulas divided by an operator

Markup behind an operator is translated on its own, whatever is missing in it, and so is the markup
before it if its delimiters nest (`divided_by_operator`). The same holds of the text with every product
written, as long as no star meets the operator.
-/

namespace FieldWalk.Formula

open Text Token

/-! ## Stars at the ends of a text -/

theorem lexeme_legible {t : Token} (h : t.Lexeme) : t.legible.Lexeme := by
  cases t with
  | ident name =>
    obtain ⟨c, w, rfl, hc, hw⟩ := h
    rw [legible]
    split
    · exact ⟨c, w, rfl, hc, hw⟩
    · -- the first letter of a name is never dropped
      rename_i hu
      have hne : c ≠ '_' := fun he => hu (he ▸ List.mem_cons_self ..)
      have hk : isKept c = true := by
        simp only [isNameStart, Bool.or_eq_true, beq_iff_eq, hne, false_or] at hc
        simp [isKept, hc]
      rw [List.filter_cons_of_pos hk]
      exact ⟨c, w.filter isKept, rfl, hc, fun d hd => hw d (List.mem_filter.1 hd).1⟩
  | number digits => exact h
  | symbol c => exact h

theorem eq_star_of_legible {t : Token} : t.legible = star ↔ t = star := by
  cases t <;> simp [legible, Token.star]

section
variable {s : List Char}

theorem lexeme_map_legible : ∀ t ∈ (tokenize s).map legible, t.Lexeme :=
  List.forall_mem_map.2 fun t ht => lexeme_legible (lexeme_tokenize s t ht)

variable (hb : ∀ c ∈ s, isBlank c = false)
include hb

theorem head?_factors : (factors s).head? = some star ↔ s.head? = some '*' := by
  have hparts : ∀ t ∈ factors s, t.Lexeme := fun t ht => (part_factors s t ht).1
  rw [← head?_joinTokens hparts, joinTokens_factors, head?_joinTokens lexeme_map_legible,
    List.head?_map, Option.map_eq_some_iff]
  simp only [eq_star_of_legible, exists_eq_right]
  rw [← head?_joinTokens (lexeme_tokenize s), joinTokens_of_unblank hb]

theorem getLast?_factors : (factors s).getLast? = some star ↔ s.getLast? = some '*' := by
  have hparts : ∀ t ∈ factors s, t.Lexeme := fun t ht => (part_factors s t ht).1
  rw [← getLast?_joinTokens hparts, joinTokens_factors, getLast?_joinTokens lexeme_map_legible,
    List.getLast?_map, Option.map_eq_some_iff]
  simp only [eq_star_of_legible, exists_eq_right]
  rw [← getLast?_joinTokens (lexeme_tokenize s), joinTokens_of_unblank hb]

end

/-! ## Products on both sides of an operator -/

theorem getLast?_mergeStars (ts : List Token) : (mergeStars ts).getLast? = ts.getLast? := by
  fun_induction mergeStars ts with
  | case1 a b r h ih => rw [ih, List.getLast?_cons_cons]
  | case2 a b r h ih =>
    have hne : mergeStars (b :: r) ≠ [] := fun he => by
      have hh := head?_mergeStars (b :: r)
      rw [he] at hh
      cases hh
    obtain ⟨d, u, hu⟩ := List.exists_cons_of_ne_nil hne
    rw [hu, List.getLast?_cons_cons, ← hu, ih, List.getLast?_cons_cons]
  | case3 ts _ => rfl

theorem getLast?_settle (ts : List Token) : (settle ts).getLast? = ts.getLast? := by
  rw [settle, getLast?_mergeStars, getLast?_insertProducts]

theorem head?_settle (ts : List Token) : (settle ts).head? = ts.head? := by
  rw [settle, head?_mergeStars, head?_insertProducts]

theorem getLast?_dropWhile_star {ts : List Token} (h : ts.getLast? ≠ some star) :
    (ts.dropWhile (· == star)).getLast? ≠ some star := by
  intro hl
  obtain ⟨us, hus⟩ := List.dropWhile_suffix (l := ts) (· == star)
  rw [← hus, List.getLast?_append, hl] at h
  exact h rfl

/-- Nothing is trimmed at an end without a star. -/
theorem trimStars_operator {c : Token} (hc : c ≠ star) {as bs : List Token}
    (ha : as.getLast? ≠ some star) (hb : bs.head? ≠ some star) :
    trimStars (as ++ c :: bs) = trimStars as ++ c :: trimStars bs := by
  have hl : trimStars as = as.dropWhile (· == star) := by
    rw [trimStars, dropWhile_star, List.reverse_reverse]
    rw [List.head?_reverse]
    exact getLast?_dropWhile_star ha
  have hr : trimStars bs = (bs.reverse.dropWhile (· == star)).reverse := by
    rw [trimStars, dropWhile_star hb]
  rw [trimStars_append hc, hl, hr]

section
variable {c : Char} (hc : c ∈ ['+', '-', '/'])
include hc

theorem explicitProducts_operator {as bs : List Token} (ha : as.getLast? ≠ some star)
    (hb : bs.head? ≠ some star) :
    explicitProducts (as ++ symbol c :: bs) =
      explicitProducts as ++ symbol c :: explicitProducts bs := by
  have hall : ∀ c ∈ ['+', '-', '/'], c ∈ ['+', '-', '/', '^'] ∧ symbol c ≠ star := by decide
  obtain ⟨hm, hs⟩ := hall c hc
  have heq : ∀ ts, explicitProducts ts = trimStars (settle ts) := explicitProducts_eq
  rw [heq, heq, heq, settle_operator hm,
    trimStars_operator hs (by rwa [getLast?_settle]) (by rwa [head?_settle])]

/-- Products are written on both sides of an operator alone, unless a star meets it. -/
theorem normalize_operator {s t : List Char} (hs : ∀ c ∈ s, isBlank c = false)
    (ht : ∀ c ∈ t, isBlank c = false) (hl : s.getLast? ≠ some '*') (hh : t.head? ≠ some '*') :
    normalize (s ++ c :: t) = normalize s ++ c :: normalize t := by
  have hm : c ∈ marks := by
    have hall : ∀ c ∈ ['+', '-', '/'], c ∈ marks := by decide
    exact hall c hc
  rw [normalize, factors_append_mark (isMark_of_mem hm),
    explicitProducts_operator hc ((getLast?_factors hs).not.2 hl) ((head?_factors ht).not.2 hh),
    joinTokens_append, joinTokens_cons]
  rfl

end

end FieldWalk.Formula

namespace FieldWalk.Markup

open Text

/-- Markup whose delimiters nest, without an index of a root and without a last escape, is translated
independently of an operator behind it and of what stands behind the operator: the flat texts are joined
by the operator and the warnings follow each other. With every product written the texts are joined in
the same way if the operator is none itself and meets none. -/
theorem divided_by_operator (a b : String) (c : Char) (hn : Nested a.toList) (hb : '[' ∉ a.toList)
    (he : a.toList.getLast? ≠ some '\\') (hc : c ∈ operators) :
    (translate (a.push c ++ b)).1 = (translate a).1.push c ++ (translate b).1 ∧
      (translate (a.push c ++ b)).2 = (translate a).2 ++ (translate b).2 ∧
      (c ≠ '*' → (translate a).1.toList.getLast? ≠ some '*' →
        (translate b).1.toList.head? ≠ some '*' →
        (Session.flatten (a.push c ++ b)).1 =
          (Session.flatten a).1.push c ++ (Session.flatten b).1) := by
  have hlist : (a.push c ++ b).toList = a.toList ++ c :: b.toList := by simp
  have hflat : flatten (a.push c ++ b).toList =
      flatten a.toList ++ (Flat.char c ++ flatten b.toList) := by
    rw [hlist]
    exact flatten_operator hc b.toList ⟨hn.ends, hb, he⟩
  have htext : (translate (a.push c ++ b)).1 = (translate a).1.push c ++ (translate b).1 := by
    apply String.toList_injective
    rw [translate, hflat]
    simp [translate, Flat.char]
  refine ⟨htext, congrArg Flat.warnings hflat, fun hstar hl hh => ?_⟩
  have hc' : c ∈ ['+', '-', '/'] := by
    simp only [operators, List.mem_cons, List.not_mem_nil, or_false] at hc ⊢
    tauto
  have hclean : ∀ s : String, ∀ d ∈ (translate s).1.toList, isBlank d = false := by
    intro s d hd
    rw [translate, String.toList_ofList] at hd
    exact unblank_flatten s.toList d hd
  have hnormal := Formula.normalize_operator hc' (hclean a) (hclean b) hl hh
  have hfst : ∀ s : String, (Session.flatten s).1 =
      String.ofList (Formula.normalize (translate s).1.toList) := fun _ => rfl
  apply String.toList_injective
  rw [hfst, hfst, hfst, htext]
  simp [hnormal]

/-- A fraction without its denominator before the operator, a root without its end behind it. -/
theorem cut_off_commands_divided :
    Nested "\\frac\x7bx\x7d".toList ∧
      (translate "\\frac\x7bx\x7d+\\sqrt\x7b(y").1 = "(x)/+sqrt(((y)))" ∧
      (translate "\\frac\x7bx\x7d+\\sqrt\x7b(y").2 = [.noDenominator "frac"] ∧
      (Session.flatten "\\frac\x7bx\x7d+\\sqrt\x7b(y").1 = "(x)/+sqrt(((y)))" := by
  have hn : Nested "\\frac\x7bx\x7d".toList := by
    have hx : Nested ['\x7b', 'x', '\x7d'] :=
      .group (o := '\x7b') (k := '\x7d') (s := ['x']) (t := []) rfl (.char (by decide) .nil) .nil
    exact .char (by decide) (.char (by decide) (.char (by decide) (.char (by decide)
      (.char (by decide) hx))))
  have ha : translate "\\frac\x7bx\x7d" = ("(x)/", [.noDenominator "frac"]) := by decide +kernel
  have hb : translate "\\sqrt\x7b(y" = ("sqrt(((y)))", []) := by decide +kernel
  have ha' : (Session.flatten "\\frac\x7bx\x7d").1 = "(x)/" := by decide +kernel
  have hb' : (Session.flatten "\\sqrt\x7b(y").1 = "sqrt(((y)))" := by decide +kernel
  obtain ⟨htext, hwarnings, hproducts⟩ :=
    divided_by_operator "\\frac\x7bx\x7d" "\\sqrt\x7b(y" '+' hn (by decide) (by decide) (by decide)
  have hflat := hproducts (by decide) (by rw [ha]; decide) (by rw [hb]; decide)
  rw [ha, hb] at htext hwarnings
  rw [ha', hb'] at hflat
  exact ⟨hn, htext, hwarnings, hflat⟩

end FieldWalk.Markup
