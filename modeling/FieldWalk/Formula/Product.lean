import FieldWalk.Formula.Identifier
/-!
Implied products made explicit. Where an operand follows an operand a star is put between them,
stars in a row become one, and stars at the two ends are dropped.
-/

namespace FieldWalk.Formula

namespace Token

/-- The token can end an operand. -/
def endsOperand : Token → Bool
  | ident _ | number _ => true
  | symbol c => c == ')'

/-- The token can start an operand. -/
def startsOperand : Token → Bool
  | ident _ | number _ => true
  | symbol c => c == '('

/-- The tokens are a function name and the parenthesis that opens its argument. -/
def isCall : Token → Token → Bool
  | ident name, symbol c => functionNames.contains name && c == '('
  | _, _ => false

/-- A product is implied between the tokens. -/
def impliesProduct (a b : Token) : Bool :=
  a.endsOperand && b.startsOperand && !isCall a b

/-- The token is a sign. -/
def isSign : Token → Bool
  | symbol c => c == '+' || c == '-'
  | _ => false

end Token

open Token

/-- Splits tokens behind the parenthesis that brings the depth back to zero; all of them if there
is none. -/
def splitBalanced : Nat → List Token → List Token × List Token
  | _, [] => ([], [])
  | depth, t :: ts =>
    if t = symbol '(' then
      let r := splitBalanced (depth + 1) ts
      (t :: r.1, r.2)
    else if t = symbol ')' then
      if depth ≤ 1 then ([t], ts)
      else
        let r := splitBalanced (depth - 1) ts
        (t :: r.1, r.2)
    else
      let r := splitBalanced depth ts
      (t :: r.1, r.2)

/-- The exponent at the front of the tokens and what follows: one number, name, group or call,
signs before it included. -/
def exponent? (ts : List Token) : Option (List Token × List Token) :=
  let signs := ts.takeWhile isSign
  match ts.dropWhile isSign with
  | [] => none
  | symbol c :: r =>
    if c = '(' then
      let s := splitBalanced 0 (symbol c :: r)
      some (signs ++ s.1, s.2)
    else none
  | ident name :: r => match r with
    | b :: _ =>
      if isCall (ident name) b then
        let s := splitBalanced 0 r
        some (signs ++ ident name :: s.1, s.2)
      else some (signs ++ [ident name], r)
    | [] => some (signs ++ [ident name], r)
  | number digits :: r => some (signs ++ [number digits], r)

theorem splitBalanced_length (depth : Nat) (ts : List Token) :
    (splitBalanced depth ts).2.length ≤ ts.length := by
  induction ts generalizing depth with
  | nil => simp [splitBalanced]
  | cons t ts ih =>
    have h0 := ih depth
    have h1 := ih (depth + 1)
    have h2 := ih (depth - 1)
    simp only [splitBalanced]
    split
    · simp only [List.length_cons]; omega
    · split
      · split
        · simp
        · simp only [List.length_cons]; omega
      · simp only [List.length_cons]; omega

theorem exponent?_length {ts operand rest : List Token} (h : exponent? ts = some (operand, rest)) :
    rest.length ≤ ts.length := by
  have hd := (List.dropWhile_sublist isSign (l := ts)).length_le
  unfold exponent? at h
  simp only at h
  split at h
  · simp at h
  · rename_i c r hr
    rw [hr] at hd
    have hb := splitBalanced_length 0 (symbol c :: r)
    split at h
    · simp only [Option.some.injEq, Prod.mk.injEq] at h
      obtain ⟨_, rfl⟩ := h
      omega
    · simp at h
  · rename_i name r hr
    rw [hr] at hd
    have hb := splitBalanced_length 0 r
    simp only [List.length_cons] at hd
    split at h
    · rename_i b r'
      split at h
      · simp only [Option.some.injEq, Prod.mk.injEq] at h
        obtain ⟨_, rfl⟩ := h
        omega
      · simp only [Option.some.injEq, Prod.mk.injEq] at h
        obtain ⟨_, rfl⟩ := h
        omega
    · simp only [Option.some.injEq, Prod.mk.injEq] at h
      obtain ⟨_, rfl⟩ := h
      simp
  · rename_i digits r hr
    rw [hr] at hd
    simp only [List.length_cons] at hd
    simp only [Option.some.injEq, Prod.mk.injEq] at h
    obtain ⟨_, rfl⟩ := h
    omega

/-- A star goes behind an exponent that a name or a parenthesis follows. -/
def needsStarBefore : List Token → Bool
  | ident _ :: _ => true
  | symbol c :: _ => c == '('
  | _ => false

/-- Ends each exponent after one operand. -/
def closeExponents (ts : List Token) : List Token :=
  match ts with
  | [] => []
  | t :: r =>
    if t = symbol '^' then
      match _h : exponent? r with
      | none => t :: closeExponents r
      | some (operand, rest) =>
        t :: operand ++ (if needsStarBefore rest then [star] else []) ++ closeExponents rest
    else t :: closeExponents r
termination_by ts.length
decreasing_by
  · simp
  · have := exponent?_length _h
    simp only [List.length_cons]; omega
  · simp

/-- Puts a star wherever a product is implied. -/
def insertProducts : List Token → List Token
  | a :: b :: r =>
    if impliesProduct a b then a :: star :: insertProducts (b :: r)
    else a :: insertProducts (b :: r)
  | ts => ts

/-- Leaves one star of each run. -/
def mergeStars : List Token → List Token
  | a :: b :: r => if a = star ∧ b = star then mergeStars (b :: r) else a :: mergeStars (b :: r)
  | ts => ts

/-- Drops the stars at the two ends. -/
def trimStars (ts : List Token) : List Token :=
  ((ts.dropWhile (· == star)).reverse.dropWhile (· == star)).reverse

/-- One star between two operands at most, none at the ends. -/
def collapseProducts (ts : List Token) : List Token :=
  trimStars (mergeStars ts)

/-- The tokens with every product written. -/
def explicitProducts (ts : List Token) : List Token :=
  collapseProducts (insertProducts (closeExponents ts))

/-- The tokens of a text, its names cut into factors. -/
def factors (s : List Char) : List Token :=
  (tokenize s).flatMap fun
    | ident name => splitIdentifier name
    | t => [t]

/-- The text of tokens. -/
def joinTokens (ts : List Token) : List Char :=
  ts.flatMap Token.text

/-- The text with every product written. -/
def normalize (s : List Char) : List Char :=
  joinTokens (explicitProducts (factors s))

end FieldWalk.Formula
