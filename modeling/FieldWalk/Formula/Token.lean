import FieldWalk.Text.Blank
import FieldWalk.Text.Digit
import FieldWalk.Text.Word
/-! Tokens of flat formula text. -/

namespace FieldWalk.Formula

open Text

/-- A lexeme of a formula. -/
inductive Token where
  /-- A Latin letter or underscore with the word characters that follow. -/
  | ident (name : List Char)
  /-- Decimal digits with at most one point. -/
  | number (digits : List Char)
  /-- Any other character that is not blank. -/
  | symbol (c : Char)
deriving Repr, DecidableEq

namespace Token

/-- The text of a token. -/
def text : Token → List Char
  | ident name => name
  | number digits => digits
  | symbol c => [c]

/-- The word for a token's kind. -/
def kindText : Token → String
  | ident _ => "IDENT"
  | number _ => "NUMBER"
  | symbol _ => "SYMBOL"

/-- The product sign. -/
abbrev star : Token := symbol '*'

end Token

/-- The number at the front of a text: `42`, `3.14`, `2.` or `.5`. -/
def number? (s : List Char) : Option (List Char × List Char) :=
  let ds := s.takeWhile isDigit
  match s.dropWhile isDigit with
  | '.' :: r =>
    let fs := r.takeWhile isDigit
    if ds.isEmpty && fs.isEmpty then none else some (ds ++ '.' :: fs, r.dropWhile isDigit)
  | r => if ds.isEmpty then none else some (ds, r)

theorem number?_length {s digits rest : List Char} (h : number? s = some (digits, rest)) :
    rest.length < s.length := by
  have hs : (s.takeWhile isDigit).length + (s.dropWhile isDigit).length = s.length := by
    rw [← List.length_append, List.takeWhile_append_dropWhile]
  simp only [number?] at h
  split at h
  · rename_i r hr
    have hd := (List.dropWhile_sublist isDigit (l := r)).length_le
    rw [hr, List.length_cons] at hs
    split at h
    · simp at h
    · simp only [Option.some.injEq, Prod.mk.injEq] at h
      obtain ⟨_, rfl⟩ := h
      omega
  · split at h
    · simp at h
    · rename_i hne
      simp only [Option.some.injEq, Prod.mk.injEq] at h
      obtain ⟨_, rfl⟩ := h
      have : (s.takeWhile isDigit).length ≠ 0 := by
        simpa using hne
      omega

/-- The tokens of a flat text. -/
def tokenize (s : List Char) : List Token :=
  match s with
  | [] => []
  | c :: cs =>
    if isBlank c then tokenize cs
    else if isNameStart c then
      .ident (c :: cs.takeWhile isWordChar) :: tokenize (cs.dropWhile isWordChar)
    else match _h : number? (c :: cs) with
      | some (digits, rest) => .number digits :: tokenize rest
      | none => .symbol c :: tokenize cs
termination_by s.length
decreasing_by
  · simp
  · have := (List.dropWhile_sublist isWordChar (l := cs)).length_le
    simp only [List.length_cons]; omega
  · exact number?_length _h
  · simp

end FieldWalk.Formula
