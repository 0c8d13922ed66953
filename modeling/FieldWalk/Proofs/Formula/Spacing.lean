import FieldWalk.Proofs.Formula.Lexemes
/-!
# Tokens and the blanks between them

The lexer looks for the next token, leaves out blanks on the way and reads each token as far as it goes
on. So its tokens are the only ones that a text can be read as, nothing but blanks is lost between them,
and it makes no difference how many blanks stand there: put apart by single blanks, the tokens of a text
are read again as they are.
-/

namespace FieldWalk.Formula

open Text Token

/-! ## Reading a text -/

/-- The text consists of the tokens in their order and blanks, and no token goes on in what follows
it. -/
inductive ReadAs : List Char → List Token → Prop where
  | nil : ReadAs [] []
  | blank {c : Char} {s : List Char} {ts : List Token} (hc : isBlank c = true) (h : ReadAs s ts) :
    ReadAs (c :: s) ts
  | token {t : Token} {s : List Char} {ts : List Token} (ht : t.Lexeme) (he : t.EndsBefore s)
    (h : ReadAs s ts) : ReadAs (t.text ++ s) (t :: ts)

theorem ReadAs.tokenize_eq {s : List Char} {ts : List Token} (h : ReadAs s ts) : tokenize s = ts := by
  induction h with
  | nil => exact tokenize_nil
  | blank hc _ ih => rw [tokenize, if_pos hc, ih]
  | token ht he _ ih => rw [tokenize_text ht he, ih]

/-- A number that is read ends before what is left. -/
theorem endsBefore_number {s digits rest : List Char} (h : number? s = some (digits, rest)) :
    (number digits).EndsBefore rest := by
  rcases (number?_eq_some h).2 with ⟨-, hr⟩ | ⟨⟨ds, fs, rfl, -⟩, hr⟩
  · exact ⟨hr.noDigit, fun hp => absurd rfl (hr '.' hp).2⟩
  · exact ⟨hr, fun _ => by simp⟩

/-- A point that begins no number has no digit behind it. -/
theorem noDigit_of_point {s : List Char} (h : number? ('.' :: s) = none) : NoDigit s := by
  have hpoint : isDigit '.' = false := by decide
  have hd : ('.' :: s).dropWhile isDigit = '.' :: s := by simp [hpoint]
  rw [number?_point hd] at h
  have hnil : s.takeWhile isDigit = [] := by simpa [hpoint] using h
  rw [← List.takeWhile_append_dropWhile (p := isDigit) (l := s), hnil]
  exact noDigit_dropWhile s

theorem readAs_tokenize (s : List Char) : ReadAs s (tokenize s) := by
  have hl := lexeme_tokenize s
  fun_induction tokenize s with
  | case1 => exact .nil
  | case2 c cs hb ih => exact .blank hb (ih hl)
  | case3 c cs hb hn ih =>
    obtain ⟨ht, hl⟩ := List.forall_mem_cons.1 hl
    have hread : ReadAs ((c :: cs.takeWhile isWordChar) ++ cs.dropWhile isWordChar) _ :=
      .token ht (noWord_dropWhile cs) (ih hl)
    rwa [List.cons_append, List.takeWhile_append_dropWhile] at hread
  | case4 c cs hb hn digits rest h ih =>
    obtain ⟨ht, hl⟩ := List.forall_mem_cons.1 hl
    rw [(number?_eq_some h).1]
    exact .token ht (endsBefore_number h) (ih hl)
  | case5 c cs hb hn h ih =>
    obtain ⟨ht, hl⟩ := List.forall_mem_cons.1 hl
    refine .token ht ?_ (ih hl)
    rintro rfl
    exact noDigit_of_point h

/-- The tokens of a text are the only ones that it can be read as. -/
theorem tokenize_eq_iff {s : List Char} {ts : List Token} : tokenize s = ts ↔ ReadAs s ts :=
  ⟨fun h => h ▸ readAs_tokenize s, ReadAs.tokenize_eq⟩

/-! ## Tokens set apart -/

theorem endsBefore_blank {b : Char} (hb : isBlank b = true) (t : Token) (s : List Char) :
    t.EndsBefore (b :: s) := by
  have hp : b ≠ '.' := by
    rintro rfl
    revert hb
    decide
  cases t <;> simp [EndsBefore, NoWord, NoDigit, isWordChar_of_isBlank hb, isDigit_of_isBlank hb, hp]

theorem readAs_intercalate {b : Char} (hb : isBlank b = true) {ts : List Token}
    (hl : ∀ t ∈ ts, t.Lexeme) : ReadAs ([b].intercalate (ts.map text)) ts := by
  induction ts with
  | nil => exact .nil
  | cons t ts ih =>
    obtain ⟨ht, hts⟩ := List.forall_mem_cons.1 hl
    cases ts with
    | nil =>
      have hread : ReadAs (t.text ++ []) [t] := .token ht (endsBefore_nil t) .nil
      rw [List.append_nil] at hread
      rwa [List.map_singleton, List.intercalate_singleton]
    | cons u us =>
      rw [List.map_cons, List.map_cons, List.intercalate_cons_cons, List.append_assoc]
      exact .token ht (endsBefore_blank hb t _) (.blank hb (ih hts))

/-- The tokens of a text are neither empty nor do they hold blanks, and together they are the text
without its blanks. Single blanks between them leave them as they are. No other tokens make up the text
with each of them read as far as it goes. -/
theorem tokens_lossless_stable (s : List Char) :
    (∀ t ∈ tokenize s, t.text ≠ [] ∧ ∀ c ∈ t.text, isBlank c = false) ∧
      joinTokens (tokenize s) = s.filter (!isBlank ·) ∧
      tokenize ([' '].intercalate ((tokenize s).map text)) = tokenize s ∧
      ∀ ts, tokenize s = ts ↔ ReadAs s ts := by
  have hl := lexeme_tokenize s
  refine ⟨fun t ht => ⟨(hl t ht).text_ne_nil, (hl t ht).not_blank⟩, joinTokens_tokenize s, ?_,
    fun _ => tokenize_eq_iff⟩
  exact (readAs_intercalate (by decide) hl).tokenize_eq

/-- Two numbers in each other's points, a name with foreign digits, a letter that begins no name. -/
theorem points_read_apart :
    let s := "2..5 x²٣ é.".toList
    let apart := "2. .5 x²٣ é .".toList
    tokenize s = [number "2.".toList, number ".5".toList, ident "x²٣".toList, symbol 'é', symbol '.'] ∧
      joinTokens (tokenize s) = "2..5x²٣é.".toList ∧ tokenize apart = tokenize s := by
  intro s apart
  have htokens : tokenize s =
      [number "2.".toList, number ".5".toList, ident "x²٣".toList, symbol 'é', symbol '.'] := by
    decide +kernel
  obtain ⟨-, hjoin, happart, -⟩ := tokens_lossless_stable s
  have hspaced : [' '].intercalate ((tokenize s).map text) = apart := by
    rw [htokens]
    decide
  rw [hspaced] at happart
  exact ⟨htokens, hjoin.trans (by decide), happart⟩

end FieldWalk.Formula
