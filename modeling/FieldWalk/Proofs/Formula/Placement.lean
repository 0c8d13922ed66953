import FieldWalk.Proofs.Formula.Fixed
/-!
# Where the stars stand

Whether a star stands between two tokens depends on these two and on whether stars stood there
before, not on how many. A star is left over of a run of them, or comes where an operand meets the
next one; none remains at either end. So of the passes over the tokens the one that ends the
exponents could be left out.
-/

namespace FieldWalk.Formula

open Token

/-! ## Meeting operands -/

/-- An operand ends with the first token and another starts with the second. Of a function name and
the parenthesis of its argument neither is an operand by itself. -/
structure Meet (a b : Token) : Prop where
  ends : (∃ name, a = ident name) ∨ (∃ digits, a = number digits) ∨ a = symbol ')'
  starts : (∃ name, b = ident name) ∨ (∃ digits, b = number digits) ∨ b = symbol '('
  noCall : ∀ name ∈ functionNames, a = ident name → b ≠ symbol '('

theorem endsOperand_iff (a : Token) : a.endsOperand = true ↔
    (∃ name, a = ident name) ∨ (∃ digits, a = number digits) ∨ a = symbol ')' := by
  cases a <;> simp [endsOperand]

theorem startsOperand_iff (b : Token) : b.startsOperand = true ↔
    (∃ name, b = ident name) ∨ (∃ digits, b = number digits) ∨ b = symbol '(' := by
  cases b <;> simp [startsOperand]

theorem not_isCall_iff (a b : Token) :
    isCall a b = false ↔ ∀ name ∈ functionNames, a = ident name → b ≠ symbol '(' := by
  rw [← Bool.not_eq_true, not_iff_comm]
  cases a <;> cases b <;> simp [isCall]

/-- A product is implied where operands meet. -/
theorem impliesProduct_iff (a b : Token) : impliesProduct a b = true ↔ Meet a b := by
  rw [impliesProduct, Bool.and_eq_true, Bool.and_eq_true, Bool.not_eq_true', endsOperand_iff,
    startsOperand_iff, not_isCall_iff]
  constructor
  · rintro ⟨⟨hends, hstarts⟩, hcall⟩
    exact ⟨hends, hstarts, hcall⟩
  · intro h
    exact ⟨⟨h.ends, h.starts⟩, h.noCall⟩

instance : DecidableRel Meet :=
  fun a b => decidable_of_iff _ (impliesProduct_iff a b)

/-! ## Between two tokens -/

/-- What comes between two tokens in place of a run of stars. -/
def between (run : List Token) (a b : Token) : List Token :=
  if run ≠ [] ∨ Meet a b then [star] else []

theorem eq_star_of_starless {run : List Token} (h : starless run = []) : ∀ t ∈ run, t = star := by
  simpa [starless] using h

/-- A run of stars has one star of each merged run. -/
theorem mergeStars_run {run : List Token} (h : starless run = []) :
    mergeStars run = if run = [] then [] else [star] := by
  have hall := eq_star_of_starless h
  fun_induction mergeStars run with
  | case1 a b r hs ih =>
    rw [ih (by rwa [hs.1, starless_star] at h) (fun t ht => hall t (by simp_all)), if_neg (by simp),
      if_neg (by simp)]
  | case2 a b r hs ih => exact absurd ⟨hall a (by simp), hall b (by simp)⟩ hs
  | case3 ts hts =>
    cases ts with
    | nil => rfl
    | cons a ts =>
      cases ts with
      | nil => rw [hall a (by simp)]; rfl
      | cons b r => exact absurd rfl (hts a b r)

theorem insertProducts_run {run : List Token} (h : starless run = []) : insertProducts run = run := by
  have hall := eq_star_of_starless h
  refine Explicit.insertProducts (List.Pairwise.isChain ?_)
  refine List.pairwise_of_forall_mem_list fun a ha b _ => ?_
  rw [hall a ha]
  rfl

/-- Next to a star no product is implied. -/
theorem linkLast_run {run : List Token} (h : starless run = []) (b : Token) : linkLast run b = [] := by
  cases hl : run.getLast? with
  | none => rw [linkLast, hl]; rfl
  | some t =>
    rw [eq_star_of_starless h t (List.mem_of_getLast? hl)] at hl
    rw [linkLast, hl]
    rfl

/-- The stars between two tokens, those put in and those merged. -/
theorem mergeStars_between {run : List Token} {a b : Token} (hrun : starless run = [])
    (hb : b ≠ star) (qs : List Token) :
    mergeStars (linkHead a (run ++ b :: qs) ++ insertProducts (run ++ b :: qs)) =
      between run a b ++ b :: mergeStars (linkHead b qs ++ insertProducts qs) := by
  by_cases hne : run = []
  · subst hne
    have hlink : mergeStars (link a b) = between [] a b := by
      by_cases h : impliesProduct a b = true
      · rw [link, if_pos h, between, if_pos (.inr ((impliesProduct_iff a b).1 h))]
        rfl
      · have hmeet : ¬ Meet a b := fun hm => h ((impliesProduct_iff a b).2 hm)
        rw [link, if_neg h, between, if_neg (by simp [hmeet])]
        rfl
    rw [List.nil_append, insertProducts_cons, List.cons_append, mergeStars_append hb, ← hlink]
    rfl
  · have hlink : linkHead a (run ++ b :: qs) = [] := by
      obtain ⟨t, us, rfl⟩ := List.exists_cons_of_ne_nil hne
      rw [eq_star_of_starless hrun t (by simp)]
      simp [linkHead, link, impliesProduct, startsOperand]
    rw [hlink, List.nil_append, insertProducts_append, linkLast_run hrun, insertProducts_run hrun,
      List.append_nil, insertProducts_cons, List.cons_append, mergeStars_append hb,
      mergeStars_run hrun, if_neg hne, between, if_pos (.inl hne)]

/-- The stars between two tokens do not depend on what stands before and behind these. -/
theorem explicitProducts_between {run : List Token} {a b : Token} (ha : a ≠ star) (hb : b ≠ star)
    (hrun : starless run = []) (ps qs : List Token) :
    ∃ ps' qs', explicitProducts (ps ++ a :: (run ++ b :: qs)) =
        ps' ++ a :: (between run a b ++ b :: qs') ∧
      starless ps' = starless ps ∧ starless qs' = starless qs := by
  have hlast : starless (linkLast ps a) = [] := by
    cases h : ps.getLast? with
    | none => rw [linkLast, h]; rfl
    | some c => rw [linkLast, h]; exact starless_linkHead c [a]
  refine ⟨(mergeStars (insertProducts ps ++ linkLast ps a)).dropWhile (· == star),
    ((mergeStars (linkHead b qs ++ insertProducts qs)).reverse.dropWhile (· == star)).reverse,
    ?_, ?_, ?_⟩
  · rw [explicitProducts_eq, collapseProducts, insertProducts_append, insertProducts_cons,
      List.cons_append, mergeStars_append ha, mergeStars_between hrun hb, trimStars_append ha,
      List.reverse_append, List.reverse_cons, List.append_assoc, List.singleton_append,
      dropWhile_star_append hb]
    simp
  · rw [starless_dropWhile, starless_mergeStars, starless_append, hlast, starless_insertProducts,
      List.append_nil]
  · rw [starless_reverse, starless_dropWhile, starless_reverse, List.reverse_reverse,
      starless_mergeStars, starless_append, starless_linkHead, starless_insertProducts,
      List.nil_append]

/-! ## In a text -/

/-- No two stars stand next to each other in the text of tidy tokens. -/
theorem not_isInfix_joinTokens {ts : List Token} (hl : ∀ t ∈ ts, t.Lexeme) :
    ¬ ['*', '*'] <:+: joinTokens (explicitProducts ts) := by
  intro h
  have hmem : ∀ t ∈ explicitProducts ts, t.Lexeme := by
    intro t ht
    rcases mem_explicitProducts ht with rfl | ht
    · exact ⟨by decide, by decide, by decide⟩
    · exact hl t ht
  have hapart := ((tidy_joinTokens hmem).2 (tidy_explicitProducts ts)).apart
  have hstars := hapart.infix h
  exact (List.isChain_cons_cons.1 hstars).1 rfl rfl

/-- Every product is written once and in its place. Stars apart, the tokens stay as they are. Between
two that follow each other there is one star if there were stars before or if operands meet there,
and none otherwise; there is none at the ends. Ending the exponents first makes no difference, and the
text of what a text is cut into has no two stars in a row. -/
theorem products_in_place (ts : List Token) :
    starless (explicitProducts ts) = starless ts ∧
    (∀ ps a run b qs, ts = ps ++ a :: (run ++ b :: qs) → a ≠ star → b ≠ star → starless run = [] →
      ∃ ps' qs', explicitProducts ts = ps' ++ a :: (between run a b ++ b :: qs') ∧
        starless ps' = starless ps ∧ starless qs' = starless qs) ∧
    ((explicitProducts ts).head? ≠ some star ∧ (explicitProducts ts).getLast? ≠ some star) ∧
    explicitProducts ts = collapseProducts (insertProducts ts) ∧
    (∀ s, ts = tokenize s ∨ ts = factors s → ¬ ['*', '*'] <:+: joinTokens (explicitProducts ts)) := by
  have htidy := tidy_explicitProducts ts
  refine ⟨starless_explicitProducts ts, ?_, ⟨htidy.head, htidy.last⟩, explicitProducts_eq ts, ?_⟩
  · rintro ps a run b qs rfl ha hb hrun
    exact explicitProducts_between ha hb hrun ps qs
  · rintro s (rfl | rfl)
    · exact not_isInfix_joinTokens (lexeme_tokenize s)
    · exact not_isInfix_joinTokens fun t ht => (part_factors s t ht).1

/-- Of two stars one is left, and a name that is no function is multiplied by the group behind it. -/
theorem doubled_star_in_place :
    let ts := [number ['2'], star, star, ident ['x'], symbol '^', ident ['y'], symbol '(',
      number ['3'], symbol ')']
    ts = factors "2**x^y(3)".toList ∧
      starless [star, star] = [] ∧ number ['2'] ≠ star ∧ ident ['x'] ≠ star ∧
      (∃ ps qs, explicitProducts ts = ps ++ number ['2'] :: ([star] ++ ident ['x'] :: qs) ∧
        starless ps = [] ∧ starless qs = ts.drop 4) ∧
      (∃ ps qs, explicitProducts ts = ps ++ ident ['y'] :: ([star] ++ symbol '(' :: qs) ∧
        starless ps = starless (ts.take 5) ∧ starless qs = ts.drop 7) ∧
      ¬ ['*', '*'] <:+: joinTokens (explicitProducts ts) := by
  intro ts
  have hts : ts = factors "2**x^y(3)".toList := by decide +kernel
  obtain ⟨-, hplace, -, -, htext⟩ := products_in_place ts
  exact ⟨hts, rfl, nofun, nofun, hplace [] _ [star, star] _ _ rfl nofun nofun rfl,
    hplace (ts.take 5) _ [] _ _ rfl nofun nofun rfl, htext _ (.inr hts)⟩

end FieldWalk.Formula
