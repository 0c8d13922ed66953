import FieldWalk.Proofs.Notation.Context
import FieldWalk.Proofs.Notation.Exact
import FieldWalk.Proofs.Notation.Position
/-!
# Tokens of a construct in its place

The full flat text is normalized as a whole, but parentheses keep its parts apart: what stands before a
group, in it and behind it falls into tokens of its own. So the tokens of a fraction or an indexed root
are the same in every context, and so are the tokens of a context around it.
-/

namespace FieldWalk.Notation

open Formula Markup Formula.Token

/-! ## The parts of a normalized text -/

/-- The tokens of the content of a group, every product written. -/
def contentTokens (s : List Char) : List Token :=
  tokenize (joinTokens (settle (factors s)))

/-- The tokens of the text before a group. -/
def tokensBefore (p : List Char) : List Token :=
  tokenize (joinTokens (settleBefore (factors p)))

/-- The tokens of the text behind a group. -/
def tokensBehind (q : List Char) : List Token :=
  tokenize (joinTokens (settleBehind (factors q)))

theorem tokenize_joinTokens_mark {c : Char} (hc : c ∈ marks) (ts us : List Token) :
    tokenize (joinTokens (ts ++ symbol c :: us)) =
      tokenize (joinTokens ts) ++ symbol c :: tokenize (joinTokens us) := by
  rw [joinTokens_append, joinTokens_cons]
  exact tokenize_append_mark (isMark_of_mem hc) _ _

/-- A normalized text falls apart at a group. -/
theorem tokenize_normalize_group (p m q : List Char) :
    tokenize (Formula.normalize (p ++ '(' :: (m ++ ')' :: q))) =
      tokensBefore p ++ (parenTokens (contentTokens m) ++ tokensBehind q) := by
  have ho : '(' ∈ marks := by decide
  have hc : ')' ∈ marks := by decide
  rw [Formula.normalize, factors_append_mark (isMark_of_mem ho), factors_append_mark (isMark_of_mem hc),
    explicitProducts_group, tokenize_joinTokens_mark ho, tokenize_joinTokens_mark hc]
  simp [tokensBefore, tokensBehind, contentTokens, parenTokens]

theorem contentTokens_operator {c : Char} (hc : c ∈ ['+', '-', '/', '^']) (s t : List Char) :
    contentTokens (s ++ c :: t) = contentTokens s ++ symbol c :: contentTokens t := by
  have hm : c ∈ marks := by
    have hall : ∀ c ∈ ['+', '-', '/', '^'], c ∈ marks := by decide
    exact hall c hc
  rw [contentTokens, factors_append_mark (isMark_of_mem hm), settle_operator hc,
    tokenize_joinTokens_mark hm]
  rfl

theorem contentTokens_open (s : List Char) :
    contentTokens ('(' :: s) = symbol '(' :: contentTokens s := by
  have hm : '(' ∈ marks := by decide
  have hf := factors_append_mark (isMark_of_mem hm) [] s
  have ht := tokenize_joinTokens_mark hm [] (settle (factors s))
  have hnil : tokenize (joinTokens []) = [] := tokenize_nil
  rw [hnil] at ht
  rw [contentTokens, ← List.nil_append ('(' :: s), hf, factors_nil, List.nil_append, settle_open]
  exact ht

theorem contentTokens_close (s : List Char) :
    contentTokens (s ++ [')']) = contentTokens s ++ [symbol ')'] := by
  have hm : ')' ∈ marks := by decide
  have ht := tokenize_joinTokens_mark hm (settle (factors s)) []
  have hnil : tokenize (joinTokens []) = [] := tokenize_nil
  rw [hnil] at ht
  rw [contentTokens, factors_append_mark (isMark_of_mem hm), factors_nil, settle_close]
  exact ht

theorem contentTokens_paren (s : List Char) :
    contentTokens (paren s) = parenTokens (contentTokens s) := by
  rw [paren, List.cons_append, contentTokens_open, contentTokens_close]
  rfl

/-! ## Two groups with an operator between -/

section
variable {c : Char} (hc : c ∈ ['+', '-', '/', '^']) (p q s t : List Char)
include hc

theorem tokenize_joined :
    tokenize (Formula.normalize (p ++ (paren s ++ c :: paren t) ++ q)) =
      tokensBefore p ++
        (parenTokens (contentTokens s) ++ symbol c :: parenTokens (contentTokens t) ++
          tokensBehind q) := by
  have he : p ++ (paren s ++ c :: paren t) ++ q =
      p ++ '(' :: (((s ++ [')']) ++ c :: '(' :: t) ++ ')' :: q) := by
    simp [paren]
  rw [he, tokenize_normalize_group, contentTokens_operator hc, contentTokens_close,
    contentTokens_open]
  simp [parenTokens]

theorem tokenize_enclosed :
    tokenize (Formula.normalize (p ++ paren (paren s ++ c :: paren t) ++ q)) =
      tokensBefore p ++
        (parenTokens (parenTokens (contentTokens s) ++ symbol c :: parenTokens (contentTokens t)) ++
          tokensBehind q) := by
  have he : p ++ paren (paren s ++ c :: paren t) ++ q =
      p ++ '(' :: ((paren s ++ c :: paren t) ++ ')' :: q) := by
    simp [paren]
  rw [he, tokenize_normalize_group, contentTokens_operator hc, contentTokens_paren,
    contentTokens_paren]

end

/-- The index of a root is a divisor. -/
theorem contentTokens_index (s : List Char) :
    contentTokens ('1' :: '/' :: paren s) =
      number ['1'] :: symbol '/' :: parenTokens (contentTokens s) := by
  have h1 : Lexes ['1'] [number ['1']] := lexes_number (by decide)
  have hone : contentTokens ['1'] = [number ['1']] := by
    have hf : factors ['1'] = [number ['1']] := by
      rw [factors, h1.tokenize]
      rfl
    rw [contentTokens, hf]
    exact h1.tokenize
  have := contentTokens_operator (c := '/') (by decide) ['1'] (paren s)
  rw [hone, contentTokens_paren] at this
  exact this

end FieldWalk.Notation
