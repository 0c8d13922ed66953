import FieldWalk.Proofs.Formula.Lexing
import FieldWalk.Proofs.Markup.Flat
import Mathlib.Data.List.Chain
import Mathlib.Data.List.TakeWhile
/-!
# Lexemes and the names in them

The lexer leaves out blanks and nothing else, and each token it makes is read again from its own text
wherever the text behind it does not go on with it. A name is cut at the longest known name from the
left; every part is one that is not cut again.
-/

namespace FieldWalk.Formula

open Text

/-! ## Characters -/

theorem isWordChar_of_isBlank {c : Char} (h : isBlank c = true) : isWordChar c = false := by
  have hd : Ranges.disjoint blankRanges numeralRanges = true := by decide +kernel
  have hn : isNumeral c = false := Ranges.not_contains_of_disjoint hd h
  have hu : c ≠ '_' := by
    rintro rfl
    revert h
    decide
  simp [isWordChar, Markup.isLetter_of_isBlank h, hn, hu]

theorem isDigit_of_isBlank {c : Char} (h : isBlank c = true) : isDigit c = false := by
  have hd : Ranges.disjoint blankRanges digitRanges = true := by decide +kernel
  exact Ranges.not_contains_of_disjoint hd h

theorem isBlank_of_isWordChar {c : Char} (h : isWordChar c = true) : isBlank c = false := by
  rw [Bool.eq_false_iff]
  intro hb
  rw [isWordChar_of_isBlank hb] at h
  cases h

theorem isBlank_of_isDigit {c : Char} (h : isDigit c = true) : isBlank c = false := by
  rw [Bool.eq_false_iff]
  intro hb
  rw [isDigit_of_isBlank hb] at h
  cases h

theorem isWordChar_of_isNameStart {c : Char} (h : isNameStart c = true) : isWordChar c = true := by
  by_contra hw
  rw [Bool.not_eq_true] at hw
  rw [isNameStart_eq_false hw] at h
  cases h

theorem isNameStart_of_isDigit {c : Char} (h : isDigit c = true) : isNameStart c = false := by
  have hd : Ranges.disjoint digitRanges Ranges.latin = true := by decide
  have ha : c.isAlpha = false := by
    rw [Ranges.isAlpha_eq]
    exact Ranges.not_contains_of_disjoint hd h
  have hu : c ≠ '_' := by
    rintro rfl
    revert h
    decide
  simp [isNameStart, ha, hu]

theorem dropWhile_stops (p : Char → Bool) (s : List Char) :
    ∀ c ∈ (s.dropWhile p).head?, p c = false := by
  intro c hc
  have := List.head?_dropWhile_not p s
  rw [Option.mem_def.1 hc] at this
  simpa using this

theorem noWord_dropWhile (s : List Char) : NoWord (s.dropWhile isWordChar) :=
  dropWhile_stops isWordChar s

/-! ## Numbers -/

theorem noDigit_dropWhile (s : List Char) : NoDigit (s.dropWhile isDigit) :=
  dropWhile_stops isDigit s

theorem digits_takeWhile (s : List Char) : ∀ c ∈ s.takeWhile isDigit, isDigit c = true :=
  fun _ => List.mem_takeWhile_imp

/-- A number is read as far as digits go, over one point at most. -/
theorem number?_eq_some {s digits rest : List Char} (h : number? s = some (digits, rest)) :
    s = digits ++ rest ∧ (Whole digits ∧ NumberEnds rest ∨ Pointed digits ∧ NoDigit rest) := by
  have hs : s.takeWhile isDigit ++ s.dropWhile isDigit = s := List.takeWhile_append_dropWhile
  by_cases hp : (s.dropWhile isDigit).head? = some '.'
  · obtain ⟨r, hr⟩ := List.head?_eq_some_iff.1 hp
    have hrs : r.takeWhile isDigit ++ r.dropWhile isDigit = r := List.takeWhile_append_dropWhile
    rw [number?_point hr] at h
    split at h
    · cases h
    · rename_i hne
      cases h
      refine ⟨?_, .inr ⟨⟨_, _, rfl, ?_, ?_⟩, noDigit_dropWhile r⟩⟩
      · rw [List.append_assoc, List.cons_append, hrs, ← hr, hs]
      · simpa using hne
      · intro c hc
        exact (List.mem_append.1 hc).elim (digits_takeWhile s c) (digits_takeWhile r c)
  · rw [number?_whole hp] at h
    split at h
    · cases h
    · rename_i hne
      cases h
      refine ⟨hs.symm, .inl ⟨⟨by simpa using hne, digits_takeWhile s⟩, ?_⟩⟩
      intro c hc
      refine ⟨noDigit_dropWhile s c hc, ?_⟩
      rintro rfl
      exact hp hc

theorem number?_eq_none {c : Char} (hc : isDigit c = false) {s : List Char}
    (hs : c = '.' → NoDigit s) : number? (c :: s) = none := by
  have hd : (c :: s).takeWhile isDigit = [] ∧ (c :: s).dropWhile isDigit = c :: s := by
    simp [hc]
  by_cases hp : c = '.'
  · subst hp
    have hnil : ∀ c ∈ ([] : List Char), isDigit c = true := List.forall_mem_nil _
    have ht := (takeWhile_digits hnil (hs rfl)).1
    rw [List.nil_append] at ht
    rw [number?_point hd.2, hd.1, ht]
    rfl
  · rw [number?_whole (by rw [hd.2]; simpa using hp), hd.1]
    rfl

/-! ## Lexemes -/

namespace Token

/-- A token as the lexer makes them. -/
def Lexeme : Token → Prop
  | ident name => ∃ c w, name = c :: w ∧ isNameStart c = true ∧ ∀ d ∈ w, isWordChar d = true
  | number digits => Whole digits ∨ Pointed digits
  | symbol c => isBlank c = false ∧ isNameStart c = false ∧ isDigit c = false

/-- A text that does not go on with a token before it. -/
def EndsBefore (s : List Char) : Token → Prop
  | ident _ => NoWord s
  | number digits => NoDigit s ∧ (s.head? = some '.' → '.' ∈ digits)
  | symbol c => c = '.' → NoDigit s

theorem Lexeme.text_ne_nil {t : Token} (h : t.Lexeme) : t.text ≠ [] := by
  cases t with
  | ident name =>
    obtain ⟨c, w, rfl, -⟩ := h
    exact List.cons_ne_nil c w
  | number digits =>
    rcases h with h | ⟨ds, fs, rfl, -⟩
    · exact h.1
    · exact List.append_ne_nil_of_right_ne_nil _ (List.cons_ne_nil _ _)
  | symbol c => exact List.cons_ne_nil c []

theorem Lexeme.digit_or_point {digits : List Char} (h : (number digits).Lexeme) :
    ∀ c ∈ digits, isDigit c = true ∨ c = '.' := by
  intro c hc
  rcases h with h | ⟨ds, fs, rfl, -, hd⟩
  · exact .inl (h.2 c hc)
  · rcases List.mem_append.1 hc with hc | hc
    · exact .inl (hd c (by simp [hc]))
    · rcases List.mem_cons.1 hc with hc | hc
      · exact .inr hc
      · exact .inl (hd c (by simp [hc]))

theorem Lexeme.word {name : List Char} (h : (ident name).Lexeme) :
    ∀ c ∈ name, isWordChar c = true := by
  obtain ⟨c, w, rfl, hc, hw⟩ := h
  exact List.forall_mem_cons.2 ⟨isWordChar_of_isNameStart hc, hw⟩

theorem Lexeme.not_blank {t : Token} (h : t.Lexeme) : ∀ c ∈ t.text, isBlank c = false := by
  cases t with
  | ident name => exact fun c hc => isBlank_of_isWordChar (h.word c hc)
  | number digits =>
    intro c hc
    rcases h.digit_or_point c hc with hd | rfl
    · exact isBlank_of_isDigit hd
    · decide
  | symbol c =>
    intro d hd
    rw [List.mem_singleton.1 hd]
    exact h.1

end Token

open Token

/-- The lexer reads a token from its own text if what follows does not go on with it. -/
theorem tokenize_text {t : Token} (ht : t.Lexeme) {s : List Char} (hs : t.EndsBefore s) :
    tokenize (t.text ++ s) = t :: tokenize s := by
  cases t with
  | ident name =>
    obtain ⟨c, w, rfl, hc, hw⟩ := ht
    exact tokenize_word (isBlank_of_isWordChar (isWordChar_of_isNameStart hc)) hc hw hs
  | number digits =>
    have hn : number? (digits ++ s) = some (digits, s) := by
      rcases ht with hd | hp
      · by_cases hpoint : s.head? = some '.'
        · exact absurd (hd.2 _ (hs.2 hpoint)) (by decide)
        · refine number?_digits hd fun c hc => ⟨hs.1 c hc, ?_⟩
          rintro rfl
          exact hpoint hc
      · exact number?_pointed hp hs.1
    -- a number begins with a digit or the point, which are neither blank nor begin a name
    obtain ⟨c, w, hcw⟩ := List.exists_cons_of_ne_nil ht.text_ne_nil
    rw [text] at hcw ⊢
    have hmem : c ∈ digits := by simp [hcw]
    have hname : isNameStart c = false := by
      rcases ht.digit_or_point c hmem with hd | rfl
      · exact isNameStart_of_isDigit hd
      · decide
    rw [hcw, List.cons_append] at hn ⊢
    exact tokenize_number (ht.not_blank c hmem) hname hn
  | symbol c =>
    obtain ⟨hb, hn, hd⟩ := ht
    have hnone : number? (c :: s) = none := number?_eq_none hd hs
    rw [text, List.singleton_append, tokenize, hb, hn]
    simp only [Bool.false_eq_true, if_false]
    split
    · rename_i h
      rw [hnone] at h
      cases h
    · rfl

/-- Every token of a text is a lexeme. -/
theorem lexeme_tokenize (s : List Char) : ∀ t ∈ tokenize s, t.Lexeme := by
  fun_induction tokenize s with
  | case1 => exact List.forall_mem_nil _
  | case2 c cs hb ih => exact ih
  | case3 c cs hb hn ih =>
    refine List.forall_mem_cons.2 ⟨⟨c, _, rfl, hn, fun _ => List.mem_takeWhile_imp⟩, ih⟩
  | case4 c cs hb hn digits rest h ih =>
    refine List.forall_mem_cons.2 ⟨?_, ih⟩
    exact (number?_eq_some h).2.imp And.left And.left
  | case5 c cs hb hn h ih =>
    refine List.forall_mem_cons.2 ⟨⟨?_, ?_, ?_⟩, ih⟩
    · simpa using hb
    · simpa using hn
    · -- what begins with a digit is a number
      by_contra hd
      rw [Bool.not_eq_false] at hd
      by_cases hp : ((c :: cs).dropWhile isDigit).head? = some '.'
      · obtain ⟨r, hr⟩ := List.head?_eq_some_iff.1 hp
        rw [number?_point hr] at h
        simp [hd] at h
      · rw [number?_whole hp] at h
        simp [hd] at h

/-- The texts of the tokens make up the text without its blanks. -/
theorem joinTokens_tokenize (s : List Char) :
    joinTokens (tokenize s) = s.filter fun c => !isBlank c := by
  have hall : ∀ t : Token, t.Lexeme → (t.text.filter fun c => !isBlank c) = t.text := by
    intro t ht
    rw [List.filter_eq_self]
    intro c hc
    rw [ht.not_blank c hc]
    rfl
  have hl := lexeme_tokenize s
  fun_induction tokenize s with
  | case1 => rfl
  | case2 c cs hb ih => rw [ih hl, List.filter_cons_of_neg (by simpa using hb)]
  | case3 c cs hb hn ih =>
    obtain ⟨ht, hl⟩ := List.forall_mem_cons.1 hl
    have hs : c :: cs = (c :: cs.takeWhile isWordChar) ++ cs.dropWhile isWordChar := by
      rw [List.cons_append, List.takeWhile_append_dropWhile]
    rw [joinTokens_cons, ih hl, hs, List.filter_append]
    exact congrArg (· ++ _) (hall _ ht).symm
  | case4 c cs hb hn digits rest h ih =>
    obtain ⟨ht, hl⟩ := List.forall_mem_cons.1 hl
    rw [joinTokens_cons, ih hl, (number?_eq_some h).1, List.filter_append]
    exact congrArg (· ++ _) (hall _ ht).symm
  | case5 c cs hb hn h ih =>
    obtain ⟨ht, hl⟩ := List.forall_mem_cons.1 hl
    rw [joinTokens_cons, ih hl, List.filter_cons_of_pos (by simpa using hb)]
    rfl

theorem head?_joinTokens_cons {t : Token} (ht : t.Lexeme) (ts : List Token) :
    (joinTokens (t :: ts)).head? = t.text.head? := by
  obtain ⟨c, w, h⟩ := List.exists_cons_of_ne_nil ht.text_ne_nil
  rw [joinTokens_cons, h]
  rfl

theorem endsBefore_nil (t : Token) : t.EndsBefore [] := by
  cases t <;> simp [EndsBefore, NoWord, NoDigit]

theorem Token.EndsBefore.congr {t : Token} {s s' : List Char} (h : t.EndsBefore s)
    (hs : s.head? = s'.head?) : t.EndsBefore s' := by
  cases t <;> simpa only [EndsBefore, NoWord, NoDigit, hs] using h

/-- Tokens none of which goes on in the next are read again from their joined text. -/
theorem tokenize_joinTokens {ts : List Token} (hl : ∀ t ∈ ts, t.Lexeme)
    (hc : ts.IsChain fun a b => a.EndsBefore b.text) : tokenize (joinTokens ts) = ts := by
  induction ts with
  | nil => exact tokenize_nil
  | cons t ts ih =>
    obtain ⟨ht, hts⟩ := List.forall_mem_cons.1 hl
    rw [joinTokens_cons, tokenize_text ht, ih hts hc.tail]
    cases ts with
    | nil => exact endsBefore_nil t
    | cons u us =>
      exact (List.isChain_cons_cons.1 hc).1.congr (head?_joinTokens_cons (hts u (by simp)) us).symm

/-! ## The longest known name -/

theorem known_letters : ∀ {w : List Char}, w ∈ knownNames → ∀ c ∈ w, c.isAlpha = true := by
  decide

theorem known_length : ∀ {w : List Char}, w ∈ knownNames → 2 ≤ w.length ∧ w.length ≤ longestName := by
  decide

/-- What is cut off is a known name or one letter. -/
theorem take_nameLength (letters : List Char) :
    nameLength letters = 1 ∨ letters.take (nameLength letters) ∈ knownNames := by
  rw [nameLength]
  fun_induction nameLength.go letters (min longestName letters.length) with
  | case1 | case2 => exact .inl rfl
  | case3 n h => exact .inr (by simpa using h)
  | case4 n h ih => exact ih

theorem nameLength_le {letters : List Char} (h : letters ≠ []) :
    nameLength letters ≤ letters.length := by
  have hgo : ∀ n, nameLength.go letters n ≤ max 1 n := by
    intro n
    fun_induction nameLength.go letters n with
    | case1 | case2 => omega
    | case3 n h => omega
    | case4 n h ih => omega
  have hpos := List.length_pos_iff.2 h
  have := hgo (min longestName letters.length)
  rw [nameLength]
  omega

/-- No known name at the front is longer than what is cut off. -/
theorem length_le_nameLength {letters w : List Char} (hw : w ∈ knownNames) (hp : w <+: letters) :
    w.length ≤ nameLength letters := by
  have hgo : ∀ n, w.length ≤ n → w.length ≤ nameLength.go letters n := by
    intro n hn
    fun_induction nameLength.go letters n with
    | case1 | case2 => omega
    | case3 n h => exact hn
    | case4 n h ih =>
      refine ih ?_
      by_contra hlt
      have he : letters.take (n + 2) = w := by
        rw [show n + 2 = w.length by omega]
        exact (List.prefix_iff_eq_take.1 hp).symm
      rw [he] at h
      exact h (by simpa using hw)
  exact hgo _ (le_min (known_length hw).2 hp.length_le)

theorem nameLength_append {n rest : List Char} (hn : n ∈ knownNames ∨ n.length = 1)
    (hmax : ∀ w ∈ knownNames, w <+: n ++ rest → w.length ≤ n.length) :
    nameLength (n ++ rest) = n.length := by
  have hne : n ++ rest ≠ [] := by
    rcases hn with hn | hn
    · have := (known_length hn).1
      exact List.append_ne_nil_of_left_ne_nil (List.ne_nil_of_length_pos (by omega)) _
    · exact List.append_ne_nil_of_left_ne_nil (List.ne_nil_of_length_pos (by omega)) _
  have hle := nameLength_le hne
  have hpos := nameLength_pos (n ++ rest)
  refine Nat.le_antisymm ?_ ?_
  · rcases take_nameLength (n ++ rest) with h1 | hk
    · rcases hn with hn | hn
      · have := (known_length hn).1
        omega
      · omega
    · have := hmax _ hk (List.take_prefix _ _)
      rwa [List.length_take, min_eq_left hle] at this
  · rcases hn with hn | hn
    · exact length_le_nameLength hn (List.prefix_append n rest)
    · omega

/-- The name at the front of letters is cut off if no longer one stands there. -/
theorem splitLetters_append {n rest : List Char} (hn : n ∈ knownNames ∨ n.length = 1)
    (hmax : ∀ w ∈ knownNames, w <+: n ++ rest → w.length ≤ n.length) :
    splitLetters (n ++ rest) = .ident n :: splitLetters rest := by
  have hlen := nameLength_append hn hmax
  have hne : n ≠ [] := by
    rintro rfl
    rcases hn with hn | hn
    · exact absurd hn (by decide)
    · cases hn
  obtain ⟨c, cs, hc⟩ := List.exists_cons_of_ne_nil
    (List.append_ne_nil_of_left_ne_nil hne rest)
  rw [hc, splitLetters, ← hc, hlen]
  simp

theorem splitLetters_nil : splitLetters [] = [] := by
  rw [splitLetters]

/-! ## The parts of a name -/

theorem joinTokens_splitLetters (letters : List Char) : joinTokens (splitLetters letters) = letters := by
  fun_induction splitLetters letters with
  | case1 => rfl
  | case2 c cs n ih => rw [joinTokens_cons, ih, Token.text, List.take_append_drop]

/-- A character that a name keeps when it is cut. -/
def isKept (c : Char) : Bool :=
  c.isAlpha || isDigit c

/-- Cutting a name leaves out the characters that are neither Latin letters nor digits. -/
theorem joinTokens_splitPieces (s : List Char) : joinTokens (splitPieces s) = s.filter isKept := by
  have hall : ∀ p : Char → Bool, (∀ c, p c = true → isKept c = true) → ∀ s : List Char,
      s.filter isKept = s.takeWhile p ++ (s.dropWhile p).filter isKept := by
    intro p hp s
    have hs : (s.takeWhile p).filter isKept = s.takeWhile p :=
      List.filter_eq_self.2 fun c hc => hp c (List.mem_takeWhile_imp hc)
    conv_lhs => rw [← List.takeWhile_append_dropWhile (p := p) (l := s)]
    rw [List.filter_append, hs]
  have halpha := hall Char.isAlpha fun c hc => by simp [isKept, hc]
  have hdigit := hall isDigit fun c hc => by simp [isKept, hc]
  fun_induction splitPieces s with
  | case1 => rfl
  | case2 c cs hc ih =>
    rw [joinTokens_append, joinTokens_splitLetters, ih, halpha (c :: cs)]
    simp [hc]
  | case3 c cs hc hd ih =>
    rw [joinTokens_cons, ih, hdigit (c :: cs)]
    simp [hd, Token.text]
  | case4 c cs hc hd ih =>
    rw [ih, List.filter_cons_of_neg]
    simp [isKept, hc, hd]

/-- A part of a name is a lexeme and no name that is cut. -/
def Part (t : Token) : Prop :=
  t.Lexeme ∧ Uncut t

theorem part_splitLetters {letters : List Char} (h : ∀ c ∈ letters, c.isAlpha = true) :
    ∀ t ∈ splitLetters letters, Part t := by
  fun_induction splitLetters letters with
  | case1 => exact List.forall_mem_nil _
  | case2 c cs n ih =>
    refine List.forall_mem_cons.2 ⟨?_, ih fun d hd => h d (List.mem_of_mem_drop hd)⟩
    have hword : ∀ d ∈ (c :: cs).take n, isWordChar d = true :=
      fun d hd => isWordChar_of_isAlpha (h d (List.mem_of_mem_take hd))
    have hc : isNameStart c = true := by simp [isNameStart, h c]
    obtain ⟨m, hm⟩ : ∃ m, n = m + 1 := ⟨n - 1, by have := nameLength_pos (c :: cs); omega⟩
    rw [hm, List.take_succ_cons] at hword ⊢
    refine ⟨⟨c, _, rfl, hc, (List.forall_mem_cons.1 hword).2⟩, ?_⟩
    rcases take_nameLength (c :: cs) with h1 | hk
    · have hm0 : m = 0 := by
        have : nameLength (c :: cs) = m + 1 := hm
        omega
      rw [hm0]
      exact splitIdentifier_letter (h c (by simp))
    · have hk' : c :: cs.take m ∈ knownNames := by
        have : nameLength (c :: cs) = m + 1 := hm
        rwa [this, List.take_succ_cons] at hk
      exact splitIdentifier_known hk'

theorem part_splitPieces (s : List Char) : ∀ t ∈ splitPieces s, Part t := by
  fun_induction splitPieces s with
  | case1 => exact List.forall_mem_nil _
  | case2 c cs hc ih =>
    intro t ht
    rcases List.mem_append.1 ht with ht | ht
    · refine part_splitLetters ?_ t ht
      exact List.forall_mem_cons.2 ⟨hc, fun _ => List.mem_takeWhile_imp⟩
    · exact ih t ht
  | case3 c cs hc hd ih =>
    refine List.forall_mem_cons.2 ⟨⟨.inl ⟨List.cons_ne_nil _ _, ?_⟩, trivial⟩, ih⟩
    exact List.forall_mem_cons.2 ⟨hd, fun _ => List.mem_takeWhile_imp⟩
  | case4 c cs hc hd ih => exact ih

theorem part_splitIdentifier {name : List Char} (h : (ident name).Lexeme) :
    ∀ t ∈ splitIdentifier name, Part t := by
  by_cases hw : (knownNames.contains name || name.contains '_') = true
  · have he : splitIdentifier name = [.ident name] := by rw [splitIdentifier, if_pos hw]
    intro t ht
    rw [he, List.mem_singleton] at ht
    subst ht
    exact ⟨h, he⟩
  · rw [splitIdentifier, if_neg hw]
    exact part_splitPieces name

theorem part_factors (s : List Char) : ∀ t ∈ factors s, Part t := by
  intro t ht
  obtain ⟨u, hu, htu⟩ := List.mem_flatMap.1 ht
  have hl := lexeme_tokenize s u hu
  cases u with
  | ident name => exact part_splitIdentifier hl t htu
  | number digits =>
    cases List.mem_singleton.1 htu
    exact ⟨hl, trivial⟩
  | symbol c =>
    cases List.mem_singleton.1 htu
    exact ⟨hl, trivial⟩

/-- A part of a name is a name or a number. -/
theorem not_symbol_of_mem_splitPieces {s : List Char} {t : Token} (h : t ∈ splitPieces s) (c : Char) :
    t ≠ symbol c := by
  have hletters : ∀ letters, ∀ t ∈ splitLetters letters, t ≠ symbol c := by
    intro letters
    fun_induction splitLetters letters with
    | case1 => exact List.forall_mem_nil _
    | case2 d ds n ih => exact List.forall_mem_cons.2 ⟨by simp, ih⟩
  fun_induction splitPieces s with
  | case1 => cases h
  | case2 d ds hd ih => exact (List.mem_append.1 h).elim (hletters _ t) ih
  | case3 d ds hd hn ih =>
    rcases List.mem_cons.1 h with rfl | h
    · simp
    · exact ih h
  | case4 d ds hd hn ih => exact ih h

theorem not_symbol_of_mem_splitIdentifier {name : List Char} {t : Token}
    (h : t ∈ splitIdentifier name) (c : Char) : t ≠ symbol c := by
  rw [splitIdentifier] at h
  split at h
  · rw [List.mem_singleton.1 h]
    simp
  · exact not_symbol_of_mem_splitPieces h c

/-- Cutting names makes no symbols. -/
theorem symbol_mem_factors {s : List Char} {c : Char} (h : symbol c ∈ factors s) :
    symbol c ∈ tokenize s := by
  obtain ⟨u, hu, hc⟩ := List.mem_flatMap.1 h
  cases u with
  | ident name => exact absurd rfl (not_symbol_of_mem_splitIdentifier hc c)
  | number digits => cases List.mem_singleton.1 hc
  | symbol d => rwa [List.mem_singleton.1 hc]

/-! ## Runs of letters -/

theorem splitPieces_letters {w : List Char} (hw : ∀ c ∈ w, c.isAlpha = true) :
    splitPieces w = splitLetters w := by
  cases w with
  | nil => rw [splitPieces, splitLetters_nil]
  | cons c w =>
    obtain ⟨hc, hw⟩ := List.forall_mem_cons.1 hw
    rw [splitPieces, if_pos hc, List.takeWhile_eq_self_iff.2 hw, List.dropWhile_eq_nil_iff.2 hw,
      splitPieces, List.append_nil]

theorem splitIdentifier_letters {w : List Char} (hw : ∀ c ∈ w, c.isAlpha = true) :
    splitIdentifier w = splitLetters w := by
  by_cases hk : w ∈ knownNames
  · have hsplit : splitLetters (w ++ []) = ident w :: splitLetters [] :=
      splitLetters_append (.inl hk) fun v _ hv => by simpa using hv.length_le
    rw [List.append_nil, splitLetters_nil] at hsplit
    rw [splitIdentifier_known hk, hsplit]
  · have hu : '_' ∉ w := fun h => absurd (hw _ h) (by decide)
    rw [splitIdentifier, if_neg (by simp [hk, hu]), splitPieces_letters hw]

/-- Letters up to the end or to a mark. -/
def LettersFirst (s : List Char) : Prop :=
  ∃ w t, s = w ++ t ∧ (∀ c ∈ w, c.isAlpha = true) ∧ MarkFirst t

theorem LettersFirst.append {w s : List Char} (hw : ∀ c ∈ w, c.isAlpha = true)
    (hs : LettersFirst s) : LettersFirst (w ++ s) := by
  obtain ⟨v, t, rfl, hv, ht⟩ := hs
  exact ⟨w ++ v, t, (List.append_assoc w v t).symm, List.forall_mem_append.2 ⟨hw, hv⟩, ht⟩

theorem factors_letters {w t : List Char} (hw : ∀ c ∈ w, c.isAlpha = true) (ht : MarkFirst t) :
    factors (w ++ t) = splitLetters w ++ factors t := by
  cases w with
  | nil => rw [splitLetters_nil, List.nil_append, List.nil_append]
  | cons c w =>
    have hword := fun d hd => isWordChar_of_isAlpha (hw d hd)
    obtain ⟨hc, hword⟩ := List.forall_mem_cons.1 hword
    have hstart : isNameStart c = true := by simp [isNameStart, hw c]
    rw [← splitIdentifier_letters hw, factors, tokenize_word (isBlank_of_isWordChar hc) hstart hword ht.noWord]
    rfl

/-- A name at the front of letters is a factor if no longer known name stands there. -/
theorem factors_append_name {n s : List Char} (hn : n ∈ knownNames ∨ ∃ c, c.isAlpha = true ∧ n = [c])
    (hs : LettersFirst s) (hmax : ∀ w ∈ knownNames, w <+: n ++ s → w.length ≤ n.length) :
    factors (n ++ s) = ident n :: factors s := by
  obtain ⟨w, t, rfl, hw, ht⟩ := hs
  have hletters : ∀ c ∈ n, c.isAlpha = true := by
    rcases hn with hn | ⟨c, hc, rfl⟩
    · exact known_letters hn
    · simpa using hc
  have hn' : n ∈ knownNames ∨ n.length = 1 := by
    refine hn.imp_right ?_
    rintro ⟨c, -, rfl⟩
    rfl
  have hmax' : ∀ v ∈ knownNames, v <+: n ++ w → v.length ≤ n.length := by
    intro v hv hp
    refine hmax v hv (hp.trans ?_)
    rw [← List.append_assoc]
    exact List.prefix_append (n ++ w) t
  have hsplit := splitLetters_append hn' hmax'
  rw [factors_letters hw ht, ← List.append_assoc,
    factors_letters (List.forall_mem_append.2 ⟨hletters, hw⟩) ht, hsplit]
  rfl

end FieldWalk.Formula
