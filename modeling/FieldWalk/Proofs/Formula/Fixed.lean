import FieldWalk.Proofs.Formula.Kept
/-!
# Texts that normalization leaves alone

A text is its own normal form exactly if it has no blank, no star at an end or next to another, no
name that is cut and no implied product. Every normalized text is free of blanks and of such stars, so
normalizing again changes it only where its tokens are not read back: at a point that belongs to no
number and at a word character that begins no name.
-/

namespace FieldWalk.Formula

open Text Token

/-! ## Merged and trimmed stars -/

theorem head?_mergeStars (ts : List Token) : (mergeStars ts).head? = ts.head? := by
  fun_induction mergeStars ts with
  | case1 a b r h ih => rw [ih, h.1, h.2]; rfl
  | case2 a b r h ih => rfl
  | case3 ts _ => rfl

/-- Merging stars keeps what holds of neighbours, for it makes no new ones. -/
theorem isChain_mergeStars {R : Token → Token → Prop} {ts : List Token} (h : ts.IsChain R) :
    (mergeStars ts).IsChain R := by
  fun_induction mergeStars ts with
  | case1 a b r hs ih => exact ih h.tail
  | case2 a b r hs ih =>
    obtain ⟨hab, hr⟩ := List.isChain_cons_cons.1 h
    refine List.isChain_cons.2 ⟨?_, ih hr⟩
    intro c hc
    rw [head?_mergeStars] at hc
    cases hc
    exact hab
  | case3 ts _ => exact h

theorem apart_mergeStars (ts : List Token) :
    (mergeStars ts).IsChain fun a b => a = star → b ≠ star := by
  fun_induction mergeStars ts with
  | case1 a b r h ih => exact ih
  | case2 a b r h ih =>
    refine List.isChain_cons.2 ⟨?_, ih⟩
    intro c hc ha hstar
    rw [head?_mergeStars] at hc
    cases hc
    exact h ⟨ha, hstar⟩
  | case3 ts hts =>
    cases ts with
    | nil => exact List.isChain_nil
    | cons a ts =>
      cases ts with
      | nil => exact List.isChain_singleton a
      | cons b r => exact absurd rfl (hts a b r)

theorem head?_dropWhile_star (ts : List Token) : (ts.dropWhile (· == star)).head? ≠ some star := by
  intro h
  have := List.head?_dropWhile_not (· == star) ts
  rw [h] at this
  cases this

theorem trimStars_isPrefix (ts : List Token) : trimStars ts <+: ts.dropWhile (· == star) := by
  rw [trimStars, ← List.reverse_suffix, List.reverse_reverse]
  exact List.dropWhile_suffix _

theorem trimStars_isInfix (ts : List Token) : trimStars ts <:+: ts :=
  (trimStars_isPrefix ts).isInfix.trans (List.dropWhile_suffix _).isInfix

theorem tidy_collapseProducts (ts : List Token) : Tidy star (collapseProducts ts) := by
  refine ⟨?_, ?_, List.IsChain.infix (apart_mergeStars ts) (trimStars_isInfix _)⟩
  · -- what is trimmed at the end leaves the front as it is, unless nothing remains
    obtain ⟨us, hus⟩ := trimStars_isPrefix (mergeStars ts)
    have hd := head?_dropWhile_star (mergeStars ts)
    rw [← hus] at hd
    rw [collapseProducts]
    intro h
    rw [List.head?_append, h] at hd
    exact hd rfl
  · rw [collapseProducts, trimStars, List.getLast?_reverse]
    exact head?_dropWhile_star _

/-! ## Implied products -/

/-- No product is implied between neighbours. -/
def Explicit (ts : List Token) : Prop :=
  ts.IsChain fun a b => impliesProduct a b = false

theorem linkHead_cases (a : Token) (ts : List Token) :
    linkHead a ts = [] ∧ (∀ b ∈ ts.head?, impliesProduct a b = false) ∨
      linkHead a ts = [star] ∧ ∃ b, ts.head? = some b ∧ impliesProduct a b = true := by
  cases ts with
  | nil => exact .inl ⟨rfl, nofun⟩
  | cons b ts => by_cases h : impliesProduct a b = true <;> simp [linkHead, link, h]

theorem Explicit.insertProducts {ts : List Token} (h : Explicit ts) : insertProducts ts = ts := by
  induction ts with
  | nil => rfl
  | cons a ts ih =>
    obtain ⟨ha, hts⟩ := List.isChain_cons.1 h
    rcases linkHead_cases a ts with ⟨hl, -⟩ | ⟨-, b, hb, hab⟩
    · rw [insertProducts_cons, hl, ih hts]
      rfl
    · rw [ha b hb] at hab
      cases hab

theorem head?_insertProducts (ts : List Token) : (insertProducts ts).head? = ts.head? := by
  cases ts with
  | nil => rfl
  | cons a ts => rw [insertProducts_cons]; rfl

theorem explicit_insertProducts (ts : List Token) : Explicit (insertProducts ts) := by
  induction ts with
  | nil => exact List.isChain_nil
  | cons a ts ih =>
    have hstar : ∀ b, impliesProduct star b = false := fun _ => rfl
    have hstar' : ∀ a, impliesProduct a star = false := fun a => by simp [impliesProduct, startsOperand]
    rw [insertProducts_cons, List.cons_append]
    rcases linkHead_cases a ts with ⟨h, hb⟩ | ⟨h, -⟩
    · rw [h, List.nil_append]
      exact List.isChain_cons.2 ⟨by rwa [head?_insertProducts], ih⟩
    · rw [h, List.singleton_append]
      exact List.isChain_cons_cons.2 ⟨hstar' a, List.isChain_cons.2 ⟨fun b _ => hstar b, ih⟩⟩

theorem explicit_explicitProducts (ts : List Token) : Explicit (explicitProducts ts) := by
  rw [explicitProducts_eq]
  exact List.IsChain.infix (isChain_mergeStars (explicit_insertProducts ts)) (trimStars_isInfix _)

theorem tidy_explicitProducts (ts : List Token) : Tidy star (explicitProducts ts) := by
  rw [explicitProducts_eq]
  exact tidy_collapseProducts _

theorem getLast?_insertProducts (ts : List Token) : (insertProducts ts).getLast? = ts.getLast? := by
  rcases List.eq_nil_or_concat' ts with rfl | ⟨as, b, rfl⟩
  · rfl
  · have hb : insertProducts [b] = [b] := rfl
    rw [insertProducts_append, hb, List.getLast?_concat, List.getLast?_concat]

theorem ne_star_of_impliesProduct {a b : Token} (h : impliesProduct a b = true) :
    a ≠ star ∧ b ≠ star := by
  constructor
  · rintro rfl
    cases h
  · rintro rfl
    simp [impliesProduct, startsOperand] at h

/-- Where a product is implied there is room for a star. -/
theorem Tidy.insertProducts {ts : List Token} (h : Tidy star ts) : Tidy star (insertProducts ts) := by
  have hapart : ∀ ts : List Token, (ts.IsChain fun a b => a = star → b ≠ star) →
      (Formula.insertProducts ts).IsChain fun a b => a = star → b ≠ star := by
    intro ts hts
    induction ts with
    | nil => exact List.isChain_nil
    | cons a ts ih =>
      obtain ⟨ha, hts⟩ := List.isChain_cons.1 hts
      rw [insertProducts_cons, List.cons_append]
      rcases linkHead_cases a ts with ⟨hl, -⟩ | ⟨hl, b, hb, hab⟩
      · rw [hl, List.nil_append]
        exact List.isChain_cons.2 ⟨by rwa [head?_insertProducts], ih hts⟩
      · obtain ⟨hna, hnb⟩ := ne_star_of_impliesProduct hab
        rw [hl, List.singleton_append]
        refine List.isChain_cons_cons.2 ⟨fun hs => absurd hs hna, List.isChain_cons.2 ⟨?_, ih hts⟩⟩
        intro c hc _
        rw [head?_insertProducts, hb] at hc
        cases hc
        exact hnb
  exact ⟨by rw [head?_insertProducts]; exact h.head, by rw [getLast?_insertProducts]; exact h.last,
    hapart ts h.apart⟩

theorem Tidy.explicitProducts {ts : List Token} (h : Tidy star ts) :
    explicitProducts ts = Formula.insertProducts ts := by
  rw [explicitProducts_eq, h.insertProducts.collapse]

/-- An inserted star shows in the text. -/
theorem explicit_of_joinTokens {ts : List Token}
    (h : joinTokens (insertProducts ts) = joinTokens ts) : Explicit ts := by
  have hsub : ∀ ts : List Token, (joinTokens ts).Sublist (joinTokens (insertProducts ts)) := by
    intro ts
    induction ts with
    | nil => exact List.Sublist.refl []
    | cons a ts ih =>
      rw [insertProducts_cons, joinTokens_cons, List.cons_append, joinTokens_cons, joinTokens_append]
      exact (List.Sublist.refl _).append (ih.trans (List.sublist_append_right _ _))
  induction ts with
  | nil => exact List.isChain_nil
  | cons a ts ih =>
    rw [insertProducts_cons, List.cons_append, joinTokens_cons, joinTokens_cons,
      List.append_cancel_left_eq, joinTokens_append] at h
    obtain ⟨hl, hts⟩ := append_eq_of_sublist (List.nil_sublist _) (hsub ts) h.symm
    rcases linkHead_cases a ts with ⟨-, hb⟩ | ⟨hstar, -⟩
    · exact List.isChain_cons.2 ⟨hb, ih hts.symm⟩
    · rw [hstar] at hl
      cases hl

/-! ## Texts of tidy tokens -/

/-- A mark is in no token but its own. -/
theorem Token.Lexeme.eq_symbol {t : Token} (ht : t.Lexeme) {c : Char} (hc : IsMark c)
    (h : c ∈ t.text) : t = symbol c := by
  cases t with
  | ident name => exact absurd (ht.word c h) (by rw [hc.word]; nofun)
  | number digits =>
    rcases ht.digit_or_point c h with hd | hp
    · exact absurd hd (by rw [hc.digit]; nofun)
    · exact absurd hp hc.point
  | symbol d => exact congrArg symbol (List.mem_singleton.1 h).symm

theorem Token.Lexeme.star_notMem {t : Token} (ht : t.Lexeme) (hne : t ≠ star) : '*' ∉ t.text :=
  fun h => hne (ht.eq_symbol (isMark_of_mem (by decide)) h)

theorem apart_text {t : Token} (ht : t.Lexeme) : t.text.IsChain fun c d => c = '*' → d ≠ '*' := by
  by_cases hs : t = star
  · subst hs
    exact List.isChain_singleton '*'
  · refine (List.pairwise_of_forall_mem_list fun c hc d _ he => ?_).isChain
    exact absurd (he ▸ hc) (ht.star_notMem hs)

theorem head?_joinTokens {ts : List Token} (hl : ∀ t ∈ ts, t.Lexeme) :
    (joinTokens ts).head? = some '*' ↔ ts.head? = some star := by
  cases ts with
  | nil => simp [joinTokens]
  | cons t ts =>
    have ht := hl t (by simp)
    rw [head?_joinTokens_cons ht]
    refine ⟨fun h => ?_, fun h => by cases h; rfl⟩
    by_contra hs
    exact ht.star_notMem (fun he => hs (congrArg some he)) (List.mem_of_mem_head? h)

theorem getLast?_joinTokens_concat {t : Token} (ht : t.Lexeme) (ts : List Token) :
    (joinTokens (ts ++ [t])).getLast? = t.text.getLast? := by
  obtain ⟨c, w, h⟩ := List.exists_cons_of_ne_nil ht.text_ne_nil
  rw [joinTokens_concat, List.getLast?_append, h, List.getLast?_cons]
  rfl

theorem getLast?_joinTokens {ts : List Token} (hl : ∀ t ∈ ts, t.Lexeme) :
    (joinTokens ts).getLast? = some '*' ↔ ts.getLast? = some star := by
  rcases List.eq_nil_or_concat' ts with rfl | ⟨us, t, rfl⟩
  · simp [joinTokens]
  · have ht := hl t (by simp)
    rw [getLast?_joinTokens_concat ht, List.getLast?_concat]
    refine ⟨fun h => ?_, fun h => by cases h; rfl⟩
    by_contra hs
    exact ht.star_notMem (fun he => hs (congrArg some he)) (List.mem_of_getLast? h)

theorem apart_joinTokens {ts : List Token} (hl : ∀ t ∈ ts, t.Lexeme) :
    ((joinTokens ts).IsChain fun c d => c = '*' → d ≠ '*') ↔
      ts.IsChain fun a b => a = star → b ≠ star := by
  induction ts with
  | nil => simp [joinTokens]
  | cons t ts ih =>
    obtain ⟨ht, hts⟩ := List.forall_mem_cons.1 hl
    have hmeet : (∀ c ∈ t.text.getLast?, ∀ d ∈ (joinTokens ts).head?, c = '*' → d ≠ '*') ↔
        ∀ u ∈ ts.head?, t = star → u ≠ star := by
      constructor
      · rintro h u hu rfl rfl
        exact h '*' rfl '*' ((head?_joinTokens hts).2 hu) rfl rfl
      · rintro h c hc d hd rfl rfl
        have hs : t = star := by
          by_contra hs
          exact ht.star_notMem hs (List.mem_of_getLast? hc)
        exact h star ((head?_joinTokens hts).1 hd) hs rfl
    rw [joinTokens_cons, List.isChain_append, ih hts, List.isChain_cons, hmeet]
    exact ⟨fun h => ⟨h.2.2, h.2.1⟩, fun h => ⟨apart_text ht, h.2, h.1⟩⟩

theorem tidy_joinTokens {ts : List Token} (hl : ∀ t ∈ ts, t.Lexeme) :
    Tidy '*' (joinTokens ts) ↔ Tidy star ts :=
  ⟨fun h => ⟨fun hs => h.head ((head?_joinTokens hl).2 hs),
      fun hs => h.last ((getLast?_joinTokens hl).2 hs), (apart_joinTokens hl).1 h.apart⟩,
    fun h => ⟨fun hs => h.head ((head?_joinTokens hl).1 hs),
      fun hs => h.last ((getLast?_joinTokens hl).1 hs), (apart_joinTokens hl).2 h.apart⟩⟩

/-! ## Normal forms -/

theorem lexeme_explicitProducts (s : List Char) : ∀ t ∈ explicitProducts (factors s), t.Lexeme := by
  intro t ht
  rcases mem_explicitProducts ht with rfl | ht
  · exact ⟨by decide, by decide, by decide⟩
  · exact (part_factors s t ht).1

theorem blank_normalize (s : List Char) : ∀ c ∈ normalize s, isBlank c = false := by
  intro c hc
  obtain ⟨t, ht, hct⟩ := List.mem_flatMap.1 hc
  exact (lexeme_explicitProducts s t ht).not_blank c hct

theorem tidy_normalize (s : List Char) : Tidy '*' (normalize s) :=
  (tidy_joinTokens (lexeme_explicitProducts s)).2 (tidy_explicitProducts _)

theorem joinTokens_of_unblank {s : List Char} (h : ∀ c ∈ s, isBlank c = false) :
    joinTokens (tokenize s) = s := by
  rw [joinTokens_tokenize, List.filter_eq_self]
  intro c hc
  rw [h c hc]
  rfl

/-- Only next to a symbol no product is implied. -/
theorem symbol_of_not_implied {a b : Token} (h : impliesProduct a b = false) :
    (∃ c, a = symbol c) ∨ ∃ c, b = symbol c := by
  cases a with
  | symbol c => exact .inl ⟨c, rfl⟩
  | ident | number =>
    cases b with
    | symbol c => exact .inr ⟨c, rfl⟩
    | ident | number => cases h

theorem splitIdentifier_isInfix {s name : List Char} (h : ident name ∈ tokenize s) :
    splitIdentifier name <:+: factors s := by
  obtain ⟨as, bs, hs⟩ := List.append_of_mem h
  rw [factors, hs, List.flatMap_append, List.flatMap_cons, ← List.append_assoc]
  exact ⟨_, _, rfl⟩

/-- Between the parts of a name a product is implied, so a name without one has one part. -/
theorem uncut_of_explicit {name : List Char} (hl : (ident name).Lexeme)
    (hk : (ident name).legible = ident name) (he : Explicit (splitIdentifier name)) :
    Uncut (ident name) := by
  have hj : joinTokens (splitIdentifier name) = name := by
    rw [joinTokens_splitIdentifier, hk]
    rfl
  have hsymbol : ∀ t ∈ splitIdentifier name, ∀ c, t ≠ symbol c :=
    fun t => not_symbol_of_mem_splitIdentifier
  have hpart := part_splitIdentifier hl
  rw [Uncut]
  generalize splitIdentifier name = ts at hj hsymbol hpart he
  cases ts with
  | nil => exact absurd hj.symm hl.text_ne_nil
  | cons t ts =>
    obtain ⟨ht, hts⟩ := List.forall_mem_cons.1 hsymbol
    cases ts with
    | cons u us =>
      rcases symbol_of_not_implied (List.isChain_cons_cons.1 he).1 with ⟨c, rfl⟩ | ⟨c, rfl⟩
      · exact absurd rfl (ht c)
      · exact absurd rfl ((List.forall_mem_cons.1 hts).1 c)
    | nil =>
      rw [joinTokens_cons, joinTokens, List.flatMap_nil, List.append_nil] at hj
      cases t with
      | ident n => rw [text] at hj; rw [hj]
      | symbol c => exact absurd rfl (ht c)
      | number digits =>
        -- a number does not begin like a name
        obtain ⟨c, w, hc, hstart, -⟩ := hl
        rw [text, hc] at hj
        have hdigit := (hpart _ (List.mem_singleton.2 rfl)).1.digit_or_point c (by simp [hj])
        rcases hdigit with hd | rfl
        · rw [isNameStart_of_isDigit hd] at hstart
          cases hstart
        · cases hstart

/-- The texts that are their own normal form. -/
theorem normalize_eq_self_iff (s : List Char) :
    normalize s = s ↔ (∀ c ∈ s, isBlank c = false) ∧ Tidy '*' s ∧
      (∀ t ∈ tokenize s, Uncut t) ∧ Explicit (tokenize s) := by
  constructor
  · intro h
    have hb : ∀ c ∈ s, isBlank c = false := by
      rw [← h]
      exact blank_normalize s
    have ht : Tidy '*' s := by
      rw [← h]
      exact tidy_normalize s
    -- nothing of a name is lost, so its parts make it up
    have hkept : ∀ t ∈ tokenize s, t.legible = t := by
      have := bare_normalize_factors s
      rw [h] at this
      exact (bare_factors_eq_iff s).1 this.symm
    have hj : joinTokens (factors s) = s := by
      rw [joinTokens_factors, List.map_congr_left hkept, List.map_id', joinTokens_of_unblank hb]
    have htidy : Tidy star (factors s) :=
      (tidy_joinTokens fun t ht => (part_factors s t ht).1).1 (by rwa [hj])
    have he : Explicit (factors s) := by
      refine explicit_of_joinTokens ?_
      rw [← htidy.explicitProducts]
      exact h.trans hj.symm
    have hu : ∀ t ∈ tokenize s, Uncut t := by
      intro t hmem
      cases t with
      | ident name =>
        have hname := List.IsChain.infix he (splitIdentifier_isInfix hmem)
        exact uncut_of_explicit (lexeme_tokenize s _ hmem) (hkept _ hmem) hname
      | number digits => trivial
      | symbol c => trivial
    refine ⟨hb, ht, hu, ?_⟩
    rwa [factors_of_uncut hu] at he
  · rintro ⟨hb, ht, hu, he⟩
    have hj := joinTokens_of_unblank hb
    have htidy : Tidy star (tokenize s) := (tidy_joinTokens (lexeme_tokenize s)).1 (by rwa [hj])
    rw [normalize, factors_of_uncut hu, htidy.explicitProducts, he.insertProducts, hj]

/-! ## Normalizing again -/

/-- A token that is read back wherever no product is implied: not a lone point and not a word
character that begins no name. -/
def Token.Plain : Token → Prop
  | symbol c => c ≠ '.' ∧ isWordChar c = false
  | _ => True

instance : DecidablePred Token.Plain
  | .symbol c => inferInstanceAs (Decidable (c ≠ '.' ∧ isWordChar c = false))
  | .ident _ | .number _ => inferInstanceAs (Decidable True)

theorem endsBefore_of_plain {a b : Token} (hb : b.Lexeme) (hpa : a.Plain) (hpb : b.Plain)
    (h : impliesProduct a b = false) : a.EndsBefore b.text := by
  rcases symbol_of_not_implied h with ⟨c, rfl⟩ | ⟨d, rfl⟩
  · exact fun hc => absurd hc hpa.1
  · cases a with
    | symbol c => exact fun hc => absurd hc hpa.1
    | ident name =>
      intro c hc
      cases hc
      exact hpb.2
    | number digits =>
      refine ⟨fun c hc => ?_, fun hd => absurd (Option.some.inj hd) hpb.1⟩
      cases hc
      exact hb.2.2

/-- Plain tokens without an implied product are read back from their text. -/
theorem tokenize_of_explicit {ts : List Token} (hl : ∀ t ∈ ts, t.Lexeme) (hp : ∀ t ∈ ts, t.Plain)
    (he : Explicit ts) : tokenize (joinTokens ts) = ts := by
  refine tokenize_joinTokens hl ?_
  induction ts with
  | nil => exact List.isChain_nil
  | cons a ts ih =>
    obtain ⟨ha, he⟩ := List.isChain_cons.1 he
    obtain ⟨hpa, hp⟩ := List.forall_mem_cons.1 hp
    have hl := (List.forall_mem_cons.1 hl).2
    refine List.isChain_cons.2 ⟨fun b hb => ?_, ih hl hp he⟩
    have hmem := List.mem_of_mem_head? hb
    exact endsBefore_of_plain (hl b hmem) hpa (hp b hmem) (ha b hb)

theorem plain_explicitProducts {s : List Char} (h : ∀ t ∈ tokenize s, t.Plain) :
    ∀ t ∈ explicitProducts (factors s), t.Plain := by
  intro t ht
  rcases mem_explicitProducts ht with rfl | ht
  · exact ⟨by decide, by decide⟩
  · cases t with
    | symbol c => exact h _ (symbol_mem_factors ht)
    | ident name => trivial
    | number digits => trivial

theorem uncut_explicitProducts (s : List Char) : ∀ t ∈ explicitProducts (factors s), Uncut t := by
  intro t ht
  rcases mem_explicitProducts ht with rfl | ht
  · trivial
  · exact (part_factors s t ht).2

/-- Normalizing again changes nothing exactly if the normalized text is read as names that are not
cut and without an implied product. It is read so whenever the tokens of the text are plain. -/
theorem normalize_normalize_iff (s : List Char) :
    (normalize (normalize s) = normalize s ↔
      (∀ t ∈ tokenize (normalize s), Uncut t) ∧ Explicit (tokenize (normalize s))) ∧
    ((∀ t ∈ tokenize s, t.Plain) → normalize (normalize s) = normalize s) := by
  have hiff : normalize (normalize s) = normalize s ↔
      (∀ t ∈ tokenize (normalize s), Uncut t) ∧ Explicit (tokenize (normalize s)) :=
    (normalize_eq_self_iff _).trans
      ⟨fun h => h.2.2, fun h => ⟨blank_normalize s, tidy_normalize s, h⟩⟩
  refine ⟨hiff, fun hp => hiff.2 ?_⟩
  have he := explicit_explicitProducts (factors s)
  have hback : tokenize (normalize s) = explicitProducts (factors s) :=
    tokenize_of_explicit (lexeme_explicitProducts s) (plain_explicitProducts hp) he
  rw [hback]
  exact ⟨uncut_explicitProducts s, he⟩

theorem spaced_normalized_once :
    (∀ t ∈ tokenize "2x sin(y) .5".toList, t.Plain) ∧
      normalize "2x sin(y) .5".toList = "2*x*sin(y)*.5".toList ∧
      normalize (normalize "2x sin(y) .5".toList) = normalize "2x sin(y) .5".toList := by
  have hp : ∀ t ∈ tokenize "2x sin(y) .5".toList, t.Plain := by decide +kernel
  exact ⟨hp, by decide +kernel, (normalize_normalize_iff _).2 hp⟩

/-- A lone point is taken for the end of the number before it, which then asks for a product. -/
theorem lone_point_changes_again :
    normalize "x2.y".toList = "x*2.y".toList ∧
      normalize (normalize "x2.y".toList) = "x*2.*y".toList ∧
      normalize (normalize "x2.y".toList) ≠ normalize "x2.y".toList := by
  decide +kernel

end FieldWalk.Formula
