import FieldWalk.Proofs.Formula.Lexemes
import FieldWalk.Proofs.Formula.Products
/-!
# What normalization keeps

Stars apart, the passes over the tokens keep each of them in its place. What is lost is lost where a
name is cut: it keeps its Latin letters and digits alone. So up to blanks and stars a text is kept
exactly if each name in it has an underscore or no other characters than these.
-/

namespace FieldWalk.Formula

open Text Token

/-! ## Stars -/

/-- The tokens that are not stars. -/
def starless (ts : List Token) : List Token :=
  ts.filter (· != star)

theorem starless_append (ts us : List Token) : starless (ts ++ us) = starless ts ++ starless us :=
  List.filter_append ts us

theorem starless_cons {t : Token} (ht : t ≠ star) (ts : List Token) :
    starless (t :: ts) = t :: starless ts :=
  List.filter_cons_of_pos (by simpa using ht)

theorem starless_star (ts : List Token) : starless (star :: ts) = starless ts :=
  List.filter_cons_of_neg (by simp)

theorem starless_reverse (ts : List Token) : starless ts.reverse = (starless ts).reverse :=
  List.filter_reverse

theorem starless_linkHead (a : Token) (ts : List Token) : starless (linkHead a ts) = [] := by
  cases ts with
  | nil => rfl
  | cons b ts => by_cases h : impliesProduct a b = true <;> simp [linkHead, link, h, starless]

theorem starless_insertProducts (ts : List Token) : starless (insertProducts ts) = starless ts := by
  induction ts with
  | nil => rfl
  | cons a ts ih =>
    rw [insertProducts_cons, starless_append, ih, ← List.singleton_append, starless_append,
      starless_linkHead, List.append_nil, ← starless_append, List.singleton_append]

theorem starless_mergeStars (ts : List Token) : starless (mergeStars ts) = starless ts := by
  fun_induction mergeStars ts with
  | case1 a b r h ih => rw [ih, h.1, starless_star]
  | case2 a b r h ih =>
    rw [← List.singleton_append, starless_append, ih, ← starless_append, List.singleton_append]
  | case3 ts _ => rfl

theorem starless_dropWhile (ts : List Token) : starless (ts.dropWhile (· == star)) = starless ts := by
  induction ts with
  | nil => rfl
  | cons a ts ih =>
    by_cases ha : a = star
    · subst ha
      rw [List.dropWhile_cons_of_pos (by simp), ih, starless_star]
    · rw [List.dropWhile_cons_of_neg (by simpa using ha)]

/-- Stars are placed and left out, the other tokens stay as they are. -/
theorem starless_explicitProducts (ts : List Token) :
    starless (explicitProducts ts) = starless ts := by
  rw [explicitProducts_eq, collapseProducts, trimStars, starless_reverse, starless_dropWhile,
    ← starless_reverse, List.reverse_reverse, starless_dropWhile, starless_mergeStars,
    starless_insertProducts]

/-- Every token of a normalized text is a part or a star. -/
theorem mem_explicitProducts {ts : List Token} {t : Token} (h : t ∈ explicitProducts ts) :
    t = star ∨ t ∈ ts := by
  by_cases ht : t = star
  · exact .inl ht
  · have hmem : t ∈ starless (explicitProducts ts) := List.mem_filter.2 ⟨h, by simpa using ht⟩
    rw [starless_explicitProducts] at hmem
    exact .inr (List.mem_filter.1 hmem).1

/-! ## Bare texts -/

/-- A text without its blanks and stars. -/
def bare (s : List Char) : List Char :=
  s.filter fun c => c != '*' && !isBlank c

theorem bare_append (s t : List Char) : bare (s ++ t) = bare s ++ bare t :=
  List.filter_append s t

theorem bare_eq_self {s : List Char} (h : ∀ c ∈ s, isWordChar c = true) : bare s = s := by
  have hstar : isWordChar '*' = false := (isMark_of_mem (by decide)).word
  rw [bare, List.filter_eq_self]
  intro c hc
  have hne : c ≠ '*' := by
    rintro rfl
    rw [h _ hc] at hstar
    cases hstar
  simp [hne, isBlank_of_isWordChar (h c hc)]

theorem bare_filter_blank (s : List Char) : bare (s.filter fun c => !isBlank c) = bare s := by
  rw [bare, bare, List.filter_filter]
  congr 1
  funext c
  cases isBlank c <;> simp

/-- Stars are bare of text. -/
theorem bare_joinTokens (ts : List Token) : bare (joinTokens ts) = bare (joinTokens (starless ts)) := by
  induction ts with
  | nil => rfl
  | cons t ts ih =>
    rw [joinTokens_cons, bare_append, ih]
    by_cases ht : t = star
    · subst ht
      rw [starless_star]
      rfl
    · rw [starless_cons ht, joinTokens_cons, bare_append]

/-! ## Cut names -/

/-- What is left of a token when the names are cut. -/
def Token.legible : Token → Token
  | ident name => ident (if '_' ∈ name then name else name.filter isKept)
  | t => t

theorem joinTokens_splitIdentifier (name : List Char) :
    joinTokens (splitIdentifier name) = (ident name).legible.text := by
  have hwhole : joinTokens [ident name] = name := List.append_nil name
  rw [splitIdentifier, legible, text]
  by_cases hu : '_' ∈ name
  · rw [if_pos hu, if_pos (by simp [hu]), hwhole]
  · rw [if_neg hu]
    by_cases hk : name ∈ knownNames
    · have hl : name.filter isKept = name :=
        List.filter_eq_self.2 fun c hc => by simp [isKept, known_letters hk c hc]
      rw [if_pos (by simp [hk]), hwhole, hl]
    · rw [if_neg (by simp [hu, hk]), joinTokens_splitPieces]

theorem joinTokens_factors (s : List Char) :
    joinTokens (factors s) = joinTokens ((tokenize s).map legible) := by
  rw [factors]
  induction tokenize s with
  | nil => rfl
  | cons t ts ih =>
    rw [List.flatMap_cons, joinTokens_append, ih, List.map_cons, joinTokens_cons]
    cases t with
    | ident name => rw [joinTokens_splitIdentifier]
    | number digits => exact congrArg (· ++ _) (List.append_nil _)
    | symbol c => exact congrArg (· ++ _) (List.append_nil _)

theorem bare_normalize_factors (s : List Char) : bare (normalize s) = bare (joinTokens (factors s)) := by
  rw [normalize, bare_joinTokens, starless_explicitProducts, ← bare_joinTokens]

theorem legible_sublist (t : Token) : t.legible.text.Sublist t.text := by
  cases t with
  | ident name =>
    rw [legible]
    split
    · exact List.Sublist.refl name
    · exact List.filter_sublist
  | number digits => exact List.Sublist.refl digits
  | symbol c => exact List.Sublist.refl [c]

theorem legible_eq_iff {name : List Char} :
    (ident name).legible = ident name ↔ '_' ∈ name ∨ ∀ c ∈ name, isKept c = true := by
  rw [legible]
  by_cases hu : '_' ∈ name
  · simp [hu]
  · simp [hu, List.filter_eq_self]

/-- Parts of texts that join to the same as these are all of them. -/
theorem append_eq_of_sublist {α : Type} {s s' t t' : List α} (hs : s.Sublist s') (ht : t.Sublist t')
    (h : s ++ t = s' ++ t') : s = s' ∧ t = t' := by
  have hlen := congrArg List.length h
  rw [List.length_append, List.length_append] at hlen
  have h1 := hs.length_le
  have h2 := ht.length_le
  exact ⟨hs.eq_of_length (by omega), ht.eq_of_length (by omega)⟩

theorem joinTokens_legible_sublist (ts : List Token) :
    (joinTokens (ts.map legible)).Sublist (joinTokens ts) := by
  induction ts with
  | nil => exact List.Sublist.refl []
  | cons t ts ih =>
    rw [List.map_cons, joinTokens_cons, joinTokens_cons]
    exact (legible_sublist t).append ih

theorem legible_of_bare {t : Token} (ht : t.Lexeme) (h : bare t.legible.text = bare t.text) :
    t.legible = t := by
  cases t with
  | ident name =>
    have hsub := legible_sublist (ident name)
    have hkept := bare_eq_self fun c hc => ht.word c (hsub.subset hc)
    exact congrArg ident (hkept.symm.trans (h.trans (bare_eq_self ht.word)))
  | number digits => rfl
  | symbol c => rfl

/-- Nothing is lost exactly if every token stays as it is. -/
theorem bare_legible_eq_iff {ts : List Token} (hl : ∀ t ∈ ts, t.Lexeme) :
    bare (joinTokens (ts.map legible)) = bare (joinTokens ts) ↔ ∀ t ∈ ts, t.legible = t := by
  refine ⟨?_, fun h => by rw [List.map_congr_left h, List.map_id']⟩
  induction ts with
  | nil => exact fun _ => nofun
  | cons t ts ih =>
    intro h
    obtain ⟨ht, hts⟩ := List.forall_mem_cons.1 hl
    rw [List.map_cons, joinTokens_cons, joinTokens_cons, bare_append, bare_append] at h
    obtain ⟨h1, h2⟩ := append_eq_of_sublist ((legible_sublist t).filter _)
      ((joinTokens_legible_sublist ts).filter _) h
    exact List.forall_mem_cons.2 ⟨legible_of_bare ht h1, ih hts h2⟩

theorem bare_joinTokens_tokenize (s : List Char) : bare (joinTokens (tokenize s)) = bare s := by
  rw [joinTokens_tokenize, bare_filter_blank]

/-- The text is kept exactly if no token of it is cut short. -/
theorem bare_factors_eq_iff (s : List Char) :
    bare (joinTokens (factors s)) = bare s ↔ ∀ t ∈ tokenize s, t.legible = t := by
  rw [joinTokens_factors, ← bare_joinTokens_tokenize s, bare_legible_eq_iff (lexeme_tokenize s)]

theorem forall_legible_iff {ts : List Token} :
    (∀ t ∈ ts, t.legible = t) ↔
      ∀ name, ident name ∈ ts → '_' ∈ name ∨ ∀ c ∈ name, isKept c = true := by
  refine ⟨fun h name hn => legible_eq_iff.1 (h _ hn), fun h t ht => ?_⟩
  cases t with
  | ident name => exact legible_eq_iff.2 (h name ht)
  | number digits => rfl
  | symbol c => rfl

/-- Up to blanks and stars a normalized text is the text with its names cut to what is legible in
them. That is the whole text exactly if each name has an underscore or consists of Latin letters
and decimal digits. -/
theorem bare_normalize (s : List Char) :
    bare (normalize s) = bare (joinTokens ((tokenize s).map legible)) ∧
      (bare (normalize s) = bare s ↔
        ∀ name, ident name ∈ tokenize s → '_' ∈ name ∨ ∀ c ∈ name, isKept c = true) := by
  have hfactors := bare_normalize_factors s
  constructor
  · rw [hfactors, joinTokens_factors]
  · rw [hfactors, bare_factors_eq_iff, forall_legible_iff]

/-- A raised two that stands in a name is lost. -/
theorem superscript_lost :
    normalize "x²+y²".toList = "x+y".toList ∧
      bare (normalize "x²+y²".toList) ≠ bare "x²+y²".toList := by
  decide +kernel

end FieldWalk.Formula
