import FieldWalk.Formula.Token
import FieldWalk.Text.Quoted
/-!
Names. Letters that were typed next to each other are several factors, cut at the longest known
name from the left.
-/

namespace FieldWalk.Formula

open Text

/-- The names that take an argument. -/
def functionNames : List (List Char) :=
  ["sin", "cos", "tan", "sinh", "cosh", "tanh", "asin", "acos", "atan", "exp", "log", "sqrt",
    "abs"].map String.toList

/-- The names of constants. -/
def constantNames : List (List Char) :=
  ["pi"].map String.toList

/-- The names that are not cut. -/
def knownNames : List (List Char) :=
  functionNames ++ constantNames

/-- The length of the longest name that is not cut. -/
def longestName : Nat :=
  (knownNames.map List.length).foldl max 0

/-- The length of the longest known name at the front of a run of letters, one if there is none. -/
def nameLength (letters : List Char) : Nat :=
  go (min longestName letters.length)
where
  /-- Tries the lengths from `n` down to two. -/
  go : Nat → Nat
    | 0 => 1
    | 1 => 1
    | n + 2 => if knownNames.contains (letters.take (n + 2)) then n + 2 else go (n + 1)

theorem nameLength_go_pos (letters : List Char) (n : Nat) : 0 < nameLength.go letters n := by
  fun_induction nameLength.go with
  | case1 => exact Nat.one_pos
  | case2 => exact Nat.one_pos
  | case3 => omega
  | case4 _ _ ih => exact ih

theorem nameLength_pos (letters : List Char) : 0 < nameLength letters :=
  nameLength_go_pos letters _

/-- The names in a run of letters. -/
def splitLetters (letters : List Char) : List Token :=
  match letters with
  | [] => []
  | c :: cs =>
    let n := nameLength (c :: cs)
    .ident ((c :: cs).take n) :: splitLetters ((c :: cs).drop n)
termination_by letters.length
decreasing_by
  have := nameLength_pos (c :: cs)
  simp only [List.length_drop, List.length_cons]
  omega

/-- The factors of a run of word characters: letters are cut into names, digits make a number,
and other characters are dropped. -/
def splitPieces (s : List Char) : List Token :=
  match s with
  | [] => []
  | c :: cs =>
    if c.isAlpha then
      splitLetters (c :: cs.takeWhile Char.isAlpha) ++ splitPieces (cs.dropWhile Char.isAlpha)
    else if isDigit c then
      .number (c :: cs.takeWhile isDigit) :: splitPieces (cs.dropWhile isDigit)
    else splitPieces cs
termination_by s.length
decreasing_by
  · have := (List.dropWhile_sublist Char.isAlpha (l := cs)).length_le
    simp only [List.length_cons]; omega
  · have := (List.dropWhile_sublist isDigit (l := cs)).length_le
    simp only [List.length_cons]; omega
  · simp

/-- The factors of a name. A known name is one, and so is a name with an underscore. -/
def splitIdentifier (name : List Char) : List Token :=
  if knownNames.contains name || name.contains '_' then [.ident name] else splitPieces name

/-- The display form of a token: its kind and its text in quotes. -/
def Token.display (t : Token) : String :=
  "Token(" ++ String.ofList (quoted t.kindText.toList) ++ ", " ++ String.ofList (quoted t.text)
    ++ ")"

end FieldWalk.Formula
