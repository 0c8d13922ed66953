import FieldWalk.Proofs.Formula.Fixed
import FieldWalk.Proofs.Notation.Exact
/-!
# Decimals behind names

A name takes in the digits that follow it, up to the point. So a decimal right behind letters falls
into two numbers, and their product is taken. Blanks between would keep the decimal whole, but the
translator drops them.
-/

namespace FieldWalk.Notation

open Formula Markup Text Formula.Token

/-! ## Products with a number -/

/-- Names and numbers, one at least. -/
structure Operands (ts : List Token) : Prop where
  ne_nil : ts ≠ []
  operand : ∀ t ∈ ts, (∃ name, t = ident name) ∨ ∃ digits, t = number digits

namespace Operands

theorem concat {ts : List Token} (h : Operands ts) (digits : List Char) :
    Operands (ts ++ [number digits]) where
  ne_nil := by simp
  operand := List.forall_mem_append.2
    ⟨h.operand, List.forall_mem_singleton.2 (.inr ⟨digits, rfl⟩)⟩

theorem star_notMem {ts : List Token} (h : Operands ts) : star ∉ ts := by
  intro hs
  rcases h.operand star hs with ⟨_, hn⟩ | ⟨_, hn⟩ <;> cases hn

/-- A number behind operands is multiplied. -/
theorem linkLast {ts : List Token} (h : Operands ts) (digits : List Char) :
    linkLast ts (number digits) = [star] := by
  obtain ⟨t, ht⟩ := Option.ne_none_iff_exists'.1 (mt List.getLast?_eq_none_iff.1 h.ne_nil)
  rw [Formula.linkLast, ht]
  rcases h.operand t (List.mem_of_getLast? ht) with ⟨name, rfl⟩ | ⟨digits', rfl⟩ <;> rfl

theorem explicitProducts_concat {ts : List Token} (h : Operands ts) (digits : List Char) :
    explicitProducts (ts ++ [number digits]) = explicitProducts ts ++ [star, number digits] := by
  rw [(tidy_of_notMem (h.concat digits).star_notMem).explicitProducts,
    (tidy_of_notMem h.star_notMem).explicitProducts, insertProducts_append, h.linkLast digits,
    List.append_assoc]
  rfl

/-- The text of operands and a number, with the products written. -/
theorem text_concat {ts : List Token} (h : Operands ts) (digits : List Char) :
    joinTokens (explicitProducts (ts ++ [number digits])) =
      joinTokens (explicitProducts ts) ++ '*' :: digits := by
  rw [h.explicitProducts_concat digits, joinTokens_append]
  simp [joinTokens, Token.text]

end Operands

theorem operands_splitLetters {u : List Char} (hu : u ≠ []) : Operands (splitLetters u) where
  ne_nil := by
    obtain ⟨c, u, rfl⟩ := List.exists_cons_of_ne_nil hu
    rw [splitLetters]
    exact List.cons_ne_nil _ _
  operand := by
    fun_induction splitLetters u with
    | case1 => exact List.forall_mem_nil _
    | case2 c cs n ih =>
      refine List.forall_mem_cons.2 ⟨.inl ⟨_, rfl⟩, ?_⟩
      by_cases hd : (c :: cs).drop n = []
      · rw [hd, splitLetters_nil]
        exact List.forall_mem_nil _
      · exact ih hd

/-! ## Letters and digits -/

theorem Digits.text_word (n : Digits) :
    ∀ c ∈ n.text, isWordChar c = true ∧ c.isAlpha = false ∧ c ≠ '_' := by
  have hall : ∀ c ∈ numerals, c ≠ '.' → isWordChar c = true ∧ c.isAlpha = false ∧ c ≠ '_' := by decide
  intro c hc
  refine hall c (n.text_numerals c hc) ?_
  rintro rfl
  exact absurd (n.text_digits '.' hc) (by decide)

/-- Digits behind letters are cut off the name as a number. -/
theorem splitIdentifier_digits {u : List Char} (hu : ∀ c ∈ u, c.isAlpha = true) (n : Digits) :
    splitIdentifier (u ++ n.text) = splitLetters u ++ [number n.text] := by
  obtain ⟨d, ds, hn⟩ : ∃ d ds, n.text = d :: ds := ⟨_, _, rfl⟩
  have hword := n.text_word
  have hdigits := n.text_digits
  rw [hn] at hword hdigits ⊢
  obtain ⟨-, hd, -⟩ := hword d (List.mem_cons_self ..)
  have hknown : u ++ d :: ds ∉ knownNames := fun h => by
    have := known_letters h d (by simp)
    rw [hd] at this
    cases this
  have hline : '_' ∉ u ++ d :: ds := fun h => by
    rcases List.mem_append.1 h with h | h
    · exact absurd (hu _ h) (by decide)
    · exact (hword _ h).2.2 rfl
  have hnumber : splitPieces (d :: ds) = [number (d :: ds)] := by
    obtain ⟨hd', hds⟩ := List.forall_mem_cons.1 hdigits
    rw [splitPieces, if_neg (by simp [hd]), if_pos hd', List.takeWhile_eq_self_iff.2 hds,
      List.dropWhile_eq_nil_iff.2 hds, splitPieces]
  rw [splitIdentifier, if_neg (by simp [hknown, hline])]
  cases u with
  | nil => rw [List.nil_append, hnumber, splitLetters_nil, List.nil_append]
  | cons c u =>
    obtain ⟨hc, hu⟩ := List.forall_mem_cons.1 hu
    obtain ⟨ht, hr⟩ := takeWhile_append_stop hu hd ds
    rw [List.cons_append, splitPieces, if_pos hc, ht, hr, hnumber]

/-- A run of letters is one name, with the digits behind it if there are any. -/
theorem tokenize_letters {u w rest : List Char} (hu : u ≠ []) (hl : ∀ c ∈ u, c.isAlpha = true)
    (hw : ∀ c ∈ w, isWordChar c = true) (hr : NoWord rest) :
    tokenize (u ++ w ++ rest) = ident (u ++ w) :: tokenize rest := by
  obtain ⟨c, u, rfl⟩ := List.exists_cons_of_ne_nil hu
  obtain ⟨hc, hl⟩ := List.forall_mem_cons.1 hl
  have hb : isBlank c = false := isBlank_of_isWordChar (isWordChar_of_isAlpha hc)
  have hs : isNameStart c = true := by simp [isNameStart, hc]
  exact tokenize_word hb hs
    (List.forall_mem_append.2 ⟨fun d hd => isWordChar_of_isAlpha (hl d hd), hw⟩) hr

theorem tokenize_blanks {g : List Char} (hg : ∀ c ∈ g, isBlank c = true) (s : List Char) :
    tokenize (g ++ s) = tokenize s := by
  induction g with
  | nil => rfl
  | cons c g ih =>
    obtain ⟨hc, hg⟩ := List.forall_mem_cons.1 hg
    rw [List.cons_append, tokenize, if_pos hc, ih hg]

theorem numberEnds_nil : NumberEnds [] :=
  nofun

/-- The digits behind a point are a number with it. -/
theorem tokenize_fraction (f : Digits) : tokenize ('.' :: f.text) = [number ('.' :: f.text)] := by
  have hp : Pointed ('.' :: f.text) := ⟨[], f.text, rfl, List.cons_ne_nil _ _, f.text_digits⟩
  have h := number?_pointed hp numberEnds_nil.noDigit
  rw [List.append_nil] at h
  rw [tokenize_number (by decide) (by decide) h, tokenize_nil]

/-! ## Decimals -/

theorem normalize_letters {u : List Char} (hl : ∀ c ∈ u, c.isAlpha = true) :
    normalize u = joinTokens (explicitProducts (splitLetters u)) := by
  have h := factors_letters hl markFirst_nil
  rw [List.append_nil, factors_nil, List.append_nil] at h
  rw [Formula.normalize, h]

section
variable {u : List Char} (hu : u ≠ []) (hl : ∀ c ∈ u, c.isAlpha = true) (n f : Digits)
include hu hl

/-- Right behind letters a decimal becomes the product of two numbers. -/
theorem normalize_letters_decimal :
    normalize (u ++ (Literal.decimal n f).text) =
      normalize u ++ '*' :: (n.text ++ '*' :: '.' :: f.text) := by
  have hpoint : NoWord ('.' :: f.text) := by
    intro c hc
    cases hc
    decide
  have htokens : tokenize (u ++ (Literal.decimal n f).text) =
      [ident (u ++ n.text), number ('.' :: f.text)] := by
    rw [Literal.text, ← List.append_assoc,
      tokenize_letters hu hl (fun c hc => (n.text_word c hc).1) hpoint, tokenize_fraction]
  have hfactors : factors (u ++ (Literal.decimal n f).text) =
      splitLetters u ++ [number n.text] ++ [number ('.' :: f.text)] := by
    rw [factors, htokens]
    simp [splitIdentifier_digits hl n]
  have hops := operands_splitLetters hu
  rw [Formula.normalize, hfactors, (hops.concat n.text).text_concat, hops.text_concat, normalize_letters hl]
  simp

/-- Behind letters and a blank a decimal stays one number. -/
theorem normalize_letters_blank_decimal {g : List Char} (hg : ∀ c ∈ g, isBlank c = true)
    (hne : g ≠ []) :
    normalize (u ++ g ++ (Literal.decimal n f).text) =
      normalize u ++ '*' :: (Literal.decimal n f).text := by
  have hblank : NoWord (g ++ (Literal.decimal n f).text) := by
    obtain ⟨b, g, rfl⟩ := List.exists_cons_of_ne_nil hne
    intro c hc
    cases hc
    exact isWordChar_of_isBlank (hg b (List.mem_cons_self ..))
  have hnumber := tokenize_literal (.decimal n f) numberEnds_nil
  rw [List.append_nil, tokenize_nil] at hnumber
  have htokens : tokenize (u ++ g ++ (Literal.decimal n f).text) =
      [ident u, number (Literal.decimal n f).text] := by
    have h := tokenize_letters hu hl (List.forall_mem_nil _) hblank
    rw [List.append_nil] at h
    rw [List.append_assoc, h, tokenize_blanks hg, hnumber]
  have hfactors : factors (u ++ g ++ (Literal.decimal n f).text) =
      splitLetters u ++ [number (Literal.decimal n f).text] := by
    rw [factors, htokens]
    simp [splitIdentifier_letters hl]
  rw [Formula.normalize, hfactors, (operands_splitLetters hu).text_concat, normalize_letters hl]

end

theorem isLiteral_of_isAlpha {c : Char} (h : c.isAlpha = true) : IsLiteral c := by
  have hall : ∀ c ∈ ['\\', '{', '}', '(', ')', '[', ']'], c.isAlpha = false := by decide
  refine ⟨fun hm => ?_, isBlank_of_isWordChar (isWordChar_of_isAlpha h)⟩
  rw [hall c hm] at h
  cases h

/-- Letters, blanks and a number are read without the blanks. -/
theorem piece_spaced {u g : List Char} (hl : ∀ c ∈ u, c.isAlpha = true)
    (hg : ∀ c ∈ g, isBlank c = true) (n : Literal) : Piece (u ++ g ++ n.text) (u ++ n.text) := by
  have hletters : ∀ c ∈ u, IsLiteral c := fun c hc => isLiteral_of_isAlpha (hl c hc)
  have hclosed := (closed_literals hletters).append (closed_blanks hg)
  rw [List.append_nil] at hclosed
  refine ⟨balanced_append (balanced_append ?_ ?_) (piece_literal n).balanced,
    hclosed.append_reads (piece_literal n).reads⟩
  · exact balanced_of_free fun c hc => (hletters c hc).free
  · exact balanced_of_free (blank_free hg)

/-- A decimal right behind letters is torn: its whole part is one factor, the point with its digits
another. It stays whole exactly if blanks stand between, and markup never leads there, for the
translator drops these. -/
theorem decimal_whole_iff_apart {u g : List Char} (hu : u ≠ []) (hl : ∀ c ∈ u, c.isAlpha = true)
    (n f : Digits) (hg : ∀ c ∈ g, isBlank c = true) :
    normalize (u ++ (Literal.decimal n f).text) =
        normalize u ++ '*' :: (n.text ++ '*' :: '.' :: f.text) ∧
      (normalize (u ++ g ++ (Literal.decimal n f).text) =
        normalize u ++ '*' :: (Literal.decimal n f).text ↔ g ≠ []) ∧
      (Session.flatten (String.ofList (u ++ g ++ (Literal.decimal n f).text))).1 =
        String.ofList (normalize (u ++ (Literal.decimal n f).text)) := by
  refine ⟨normalize_letters_decimal hu hl n f, ⟨?_, normalize_letters_blank_decimal hu hl n f hg⟩, ?_⟩
  · rintro h rfl
    rw [List.append_nil, normalize_letters_decimal hu hl n f, Literal.text] at h
    simp at h
  · rw [flatten_piece (piece_spaced hl hg (.decimal n f))]

/-- A decimal with two digits before its point and two blanks before it. -/
theorem decimal_behind_sine :
    let n : Digits := ⟨1, [2]⟩
    let f : Digits := ⟨0, [5]⟩
    let u := "sinx".toList
    let g := [' ', '\t']
    u ≠ [] ∧ (∀ c ∈ u, c.isAlpha = true) ∧ (∀ c ∈ g, isBlank c = true) ∧
      (Literal.decimal n f).text = "12.05".toList ∧ normalize u = "sin*x".toList ∧
      normalize (u ++ (Literal.decimal n f).text) = "sin*x*12*.05".toList ∧
      normalize (u ++ g ++ (Literal.decimal n f).text) = "sin*x*12.05".toList ∧
      (Session.flatten "sinx \t12.05").1 = "sin*x*12*.05" := by
  intro n f u g
  have hu : u ≠ [] := by decide
  have hl : ∀ c ∈ u, c.isAlpha = true := by decide
  have hg : ∀ c ∈ g, isBlank c = true := by decide
  have hdecimal : (Literal.decimal n f).text = "12.05".toList := by decide
  have hletters : normalize u = "sin*x".toList := by decide +kernel
  obtain ⟨htorn, hwhole, hmarkup⟩ := decimal_whole_iff_apart hu hl n f hg
  rw [hletters] at htorn hwhole
  refine ⟨hu, hl, hg, hdecimal, hletters, htorn, hwhole.2 (by decide), ?_⟩
  rw [htorn] at hmarkup
  exact hmarkup

/-- The two and a half behind a letter becomes two times one half. -/
theorem decimal_torn :
    normalize "x2.5".toList = "x*2*.5".toList ∧
      normalize "x2.5".toList ≠ normalize "x".toList ++ '*' :: "2.5".toList ∧
      (Session.flatten "x 2.5").1 = "x*2*.5" := by
  decide +kernel

end FieldWalk.Notation
