import FieldWalk.Formula.Identifier
import FieldWalk.Formula.Product
/-!
# Tokens of a glued text

A mark is a character that is a token by itself wherever it stands: parentheses and operators are
marks. A text falls apart at each of its marks, so the tokens of a text that is put together around
marks are put together in the same way. Between marks only a number may stand before a name.
-/

namespace FieldWalk.Formula

open Text

/-! ## Marks -/

/-- A character that no name or number can contain. -/
structure IsMark (c : Char) : Prop where
  blank : isBlank c = false
  word : isWordChar c = false
  digit : isDigit c = false
  point : c ≠ '.'

/-- The marks of formulas. -/
def marks : List Char :=
  ['(', ')', '+', '-', '*', '/', '^']

theorem isMark_of_mem {c : Char} (h : c ∈ marks) : IsMark c := by
  have hall : ∀ c ∈ marks, isBlank c = false ∧ isWordChar c = false ∧ isDigit c = false ∧ c ≠ '.' := by
    decide
  obtain ⟨h1, h2, h3, h4⟩ := hall c h
  exact ⟨h1, h2, h3, h4⟩

/-- What may follow a name or a number: nothing, or a mark. -/
def MarkFirst (s : List Char) : Prop :=
  ∀ c ∈ s.head?, IsMark c

theorem markFirst_nil : MarkFirst [] :=
  nofun

theorem markFirst_cons {c : Char} (h : IsMark c) (s : List Char) : MarkFirst (c :: s) := by
  intro d hd
  cases hd
  exact h

theorem toNat_lt_of_isAlpha {c : Char} (h : c.isAlpha = true) : c.toNat < 128 := by
  rw [Ranges.isAlpha_eq, Ranges.contains_iff] at h
  obtain ⟨r, hr, -, hc⟩ := h
  have hall : ∀ r ∈ Ranges.latin, r.2 < 128 := by decide
  exact Nat.lt_of_le_of_lt hc (hall r hr)

theorem isWordChar_of_isAlpha {c : Char} (h : c.isAlpha = true) : isWordChar c = true := by
  simp [isWordChar, isLetter, toNat_lt_of_isAlpha h, h]

theorem isNameStart_eq_false {c : Char} (h : isWordChar c = false) : isNameStart c = false := by
  rw [Bool.eq_false_iff] at h ⊢
  intro hc
  simp only [isNameStart, Bool.or_eq_true] at hc
  rcases hc with hc | hc
  · exact h (by simp [isWordChar, hc])
  · exact h (isWordChar_of_isAlpha hc)

theorem takeWhile_stop {α : Type} {p : α → Bool} {c : α} (hc : p c = false) (s rest : List α) :
    (s ++ c :: rest).takeWhile p = s.takeWhile p ∧
      (s ++ c :: rest).dropWhile p = s.dropWhile p ++ c :: rest := by
  induction s with
  | nil => simp [hc]
  | cons d s ih =>
    by_cases hd : p d = true
    · simp [hd, ih]
    · simp [hd]

theorem number?_point {s r : List Char} (h : s.dropWhile isDigit = '.' :: r) :
    number? s = if (s.takeWhile isDigit).isEmpty && (r.takeWhile isDigit).isEmpty then none
      else some (s.takeWhile isDigit ++ '.' :: r.takeWhile isDigit, r.dropWhile isDigit) := by
  simp only [number?, h]

theorem number?_whole {s : List Char} (h : (s.dropWhile isDigit).head? ≠ some '.') :
    number? s = if (s.takeWhile isDigit).isEmpty then none
      else some (s.takeWhile isDigit, s.dropWhile isDigit) := by
  simp only [number?]
  split
  · rename_i r hr
    rw [hr] at h
    exact absurd rfl h
  · rfl

theorem number?_stop {c : Char} (hc : isDigit c = false) (hp : c ≠ '.') (s rest : List Char) :
    number? (s ++ c :: rest) = (number? s).map fun r => (r.1, r.2 ++ c :: rest) := by
  obtain ⟨ht, hd⟩ := takeWhile_stop hc s rest
  by_cases hpoint : (s.dropWhile isDigit).head? = some '.'
  · obtain ⟨r, hr⟩ := List.head?_eq_some_iff.1 hpoint
    obtain ⟨ht', hd'⟩ := takeWhile_stop hc r rest
    rw [hr, List.cons_append] at hd
    rw [number?_point hr, number?_point hd, ht, ht', hd']
    split <;> simp
  · have hpoint' : ((s ++ c :: rest).dropWhile isDigit).head? ≠ some '.' := by
      rw [hd]
      cases hs : s.dropWhile isDigit with
      | nil => simpa using hp
      | cons d r => simpa [hs] using hpoint
    rw [number?_whole hpoint, number?_whole hpoint', ht, hd]
    split <;> simp

theorem number?_mark {c : Char} (hc : IsMark c) (s rest : List Char) :
    number? (s ++ c :: rest) = (number? s).map fun r => (r.1, r.2 ++ c :: rest) :=
  number?_stop hc.digit hc.point s rest

theorem tokenize_nil : tokenize [] = [] := by
  rw [tokenize]

theorem tokenize_mark {c : Char} (hc : IsMark c) (rest : List Char) :
    tokenize (c :: rest) = .symbol c :: tokenize rest := by
  have hn : number? (c :: rest) = none := by
    have := number?_mark hc [] rest
    simpa [number?] using this
  rw [tokenize, hc.blank, isNameStart_eq_false hc.word]
  simp only [Bool.false_eq_true, if_false]
  split
  · rename_i h
    rw [hn] at h
    cases h
  · rfl

/-- A text falls apart at a mark. -/
theorem tokenize_append_mark {c : Char} (hc : IsMark c) (s rest : List Char) :
    tokenize (s ++ c :: rest) = tokenize s ++ .symbol c :: tokenize rest := by
  -- a mark ends the word or number before it, so each step reads the same token as without it
  fun_induction tokenize s with
  | case1 => exact tokenize_mark hc rest
  | case2 d s hb ih => rw [List.cons_append, tokenize, if_pos hb, ih]
  | case3 d s hb hn ih =>
    obtain ⟨ht, hd⟩ := takeWhile_stop hc.word s rest
    rw [List.cons_append, tokenize, if_neg hb, if_pos hn, ht, hd, ih, List.cons_append]
  | case4 d s hb hn digits r h ih =>
    have h' := number?_mark hc (d :: s) rest
    rw [h] at h'
    rw [List.cons_append, tokenize, if_neg hb, if_neg hn, List.cons_append, ← ih]
    split
    · rename_i h''
      rw [← List.cons_append, h'] at h''
      cases h''
      rfl
    · rename_i h''
      rw [← List.cons_append, h'] at h''
      cases h''
  | case5 d s hb hn h ih =>
    have h' := number?_mark hc (d :: s) rest
    rw [h] at h'
    rw [List.cons_append, tokenize, if_neg hb, if_neg hn, List.cons_append, ← ih]
    split
    · rename_i h''
      rw [← List.cons_append, h'] at h''
      cases h''
    · rfl

/-! ## Names and numbers -/

/-- No word character comes first. -/
def NoWord (s : List Char) : Prop :=
  ∀ c ∈ s.head?, isWordChar c = false

theorem MarkFirst.noWord {s : List Char} (h : MarkFirst s) : NoWord s :=
  fun c hc => (h c hc).word

theorem tokenize_word {c : Char} (hb : isBlank c = false) (hc : isNameStart c = true)
    {w rest : List Char} (hw : ∀ d ∈ w, isWordChar d = true) (hr : NoWord rest) :
    tokenize (c :: w ++ rest) = .ident (c :: w) :: tokenize rest := by
  have hs : (w ++ rest).takeWhile isWordChar = w ∧ (w ++ rest).dropWhile isWordChar = rest := by
    rw [List.takeWhile_append_of_pos hw, List.dropWhile_append_of_pos hw]
    cases rest with
    | nil => simp
    | cons d rest => simp [hr d rfl]
  rw [List.cons_append, tokenize, hb, hc, hs.1, hs.2]
  rfl

theorem tokenize_number {c : Char} (hb : isBlank c = false) (hc : isNameStart c = false)
    {s digits rest : List Char} (h : number? (c :: s) = some (digits, rest)) :
    tokenize (c :: s) = .number digits :: tokenize rest := by
  rw [tokenize, hb, hc]
  simp only [Bool.false_eq_true, if_false]
  split
  · rename_i h'
    rw [h] at h'
    cases h'
    rfl
  · rename_i h'
    rw [h] at h'
    cases h'

/-- No digit comes first. -/
def NoDigit (s : List Char) : Prop :=
  ∀ c ∈ s.head?, isDigit c = false

/-- What may follow a number. -/
def NumberEnds (s : List Char) : Prop :=
  ∀ c ∈ s.head?, isDigit c = false ∧ c ≠ '.'

theorem NumberEnds.noDigit {s : List Char} (h : NumberEnds s) : NoDigit s :=
  fun c hc => (h c hc).1

theorem MarkFirst.numberEnds {s : List Char} (h : MarkFirst s) : NumberEnds s :=
  fun c hc => ⟨(h c hc).digit, (h c hc).point⟩

theorem takeWhile_digits {ds rest : List Char} (hd : ∀ d ∈ ds, isDigit d = true)
    (hr : NoDigit rest) :
    (ds ++ rest).takeWhile isDigit = ds ∧ (ds ++ rest).dropWhile isDigit = rest := by
  rw [List.takeWhile_append_of_pos hd, List.dropWhile_append_of_pos hd]
  cases rest with
  | nil => simp
  | cons c rest => simp [hr c rfl]

/-- Decimal digits, one at least. -/
def Whole (s : List Char) : Prop :=
  s ≠ [] ∧ ∀ c ∈ s, isDigit c = true

/-- Decimal digits around a point, one at least. -/
def Pointed (s : List Char) : Prop :=
  ∃ ds fs, s = ds ++ '.' :: fs ∧ ds ++ fs ≠ [] ∧ ∀ c ∈ ds ++ fs, isDigit c = true

theorem number?_digits {digits rest : List Char} (h : Whole digits) (hr : NumberEnds rest) :
    number? (digits ++ rest) = some (digits, rest) := by
  obtain ⟨ht, hs⟩ := takeWhile_digits h.2 hr.noDigit
  have hp : ((digits ++ rest).dropWhile isDigit).head? ≠ some '.' := by
    rw [hs]
    exact fun hd => (hr '.' hd).2 rfl
  rw [number?_whole hp, ht, hs]
  simp [h.1]

theorem number?_pointed {digits rest : List Char} (h : Pointed digits) (hr : NoDigit rest) :
    number? (digits ++ rest) = some (digits, rest) := by
  obtain ⟨ds, fs, rfl, hne, hd⟩ := h
  obtain ⟨hds, hfs⟩ := List.forall_mem_append.1 hd
  have hpoint : NoDigit ('.' :: (fs ++ rest)) := by
    intro c hc
    cases hc
    decide
  obtain ⟨ht, hs⟩ := takeWhile_digits hds hpoint
  obtain ⟨ht', hs'⟩ := takeWhile_digits hfs hr
  rw [List.append_assoc, List.cons_append, number?_point hs, ht, ht', hs']
  rw [if_neg]
  simpa using hne

/-! ## Factors -/

theorem factors_nil : factors [] = [] := by
  rw [factors, tokenize_nil]
  rfl

theorem factors_append_mark {c : Char} (hc : IsMark c) (s rest : List Char) :
    factors (s ++ c :: rest) = factors s ++ .symbol c :: factors rest := by
  simp [factors, tokenize_append_mark hc]

/-- The token is not a name that is cut. -/
def Uncut : Token → Prop
  | .ident name => splitIdentifier name = [.ident name]
  | _ => True

theorem factors_of_uncut {s : List Char} (h : ∀ t ∈ tokenize s, Uncut t) :
    factors s = tokenize s := by
  rw [factors]
  generalize tokenize s = ts at h
  induction ts with
  | nil => rfl
  | cons t ts ih =>
    rw [List.flatMap_cons, ih fun t ht => h t (by simp [ht])]
    have ht : Uncut t := h t (by simp)
    cases t with
    | ident name =>
      show splitIdentifier name ++ ts = _
      rw [ht]
      rfl
    | number digits => rfl
    | symbol c => rfl

theorem splitIdentifier_known {w : List Char} (h : w ∈ knownNames) :
    splitIdentifier w = [.ident w] := by
  simp [splitIdentifier, h]

theorem splitIdentifier_letter {c : Char} (h : c.isAlpha = true) :
    splitIdentifier [c] = [.ident [c]] := by
  have hl : min longestName [c].length = 1 := rfl
  have hn : nameLength [c] = 1 := by
    rw [nameLength, hl]
    rfl
  unfold splitIdentifier
  split
  · rfl
  · simp [splitPieces, splitLetters, h, hn]

/-! ## Texts of tokens -/

/-- Tokens in parentheses. -/
def parenTokens (ts : List Token) : List Token :=
  .symbol '(' :: ts ++ [.symbol ')']

theorem joinTokens_append (ts us : List Token) :
    joinTokens (ts ++ us) = joinTokens ts ++ joinTokens us := by
  simp [joinTokens]

theorem joinTokens_cons (t : Token) (ts : List Token) :
    joinTokens (t :: ts) = t.text ++ joinTokens ts := by
  simp [joinTokens]

theorem joinTokens_concat (ts : List Token) (t : Token) :
    joinTokens (ts ++ [t]) = joinTokens ts ++ t.text := by
  simp [joinTokens]

end FieldWalk.Formula
