import FieldWalk.Algebra.Lexeme
/-!
The grammar of formula text: a choice, the logical words, comparisons, the bit operators, sums,
products, signs, powers, and operands with calls, indices and factorials behind them. Powers
associate to the right and bind tighter than a sign before them; all else associates to the left.
-/

namespace FieldWalk.Algebra

/-- A parsed formula text. -/
inductive Phrase where
  | name (s : String)
  | exact (q : Rat)
  | decimal (mantissa : Nat) (exponent : Int)
  | quoted
  | unary (operator : String) (p : Phrase)
  | binary (operator : String) (p q : Phrase)
  | comparison (first : Phrase) (rest : List (String × Phrase))
  | logical (operator : String) (p q : Phrase)
  | choice (test p q : Phrase)
  | call (f : Phrase) (args : List Phrase)
  | index (p i : Phrase)
  | member (p : Phrase) (s : String)
  | tuple (ps : List Phrase)
  | list (ps : List Phrase)
  | set (ps : List Phrase)
  | dictionary (keys values : List Phrase)
deriving Inhabited

namespace Phrase

open Lexeme (operator)

/-- The operators of each level, from the loosest on. -/
def levels : List (List String) :=
  [["|"], ["&"], ["<<", ">>"], ["+", "-"], ["*", "/", "//", "%", "@"]]

/-- An operator at the front. -/
def operatorOf? (os : List String) : List Lexeme → Option (String × List Lexeme)
  | .operator o :: r => if os.contains o then some (o, r) else none
  | _ => none

/-- A comparison at the front. -/
def comparisonOf? : List Lexeme → Option (String × List Lexeme)
  | .name "in" :: r => some ("in", r)
  | .name "is" :: .name "not" :: r => some ("is", r)
  | .name "is" :: r => some ("is", r)
  | .name "not" :: .name "in" :: r => some ("in", r)
  | ls => operatorOf? ["<", ">", "==", ">=", "<=", "!="] ls

/-- The factorial signs at the front, and what follows them. -/
def factorialSigns : List Lexeme → Nat × List Lexeme
  | .operator "!" :: r =>
    let (n, r) := factorialSigns r
    (n + 1, r)
  | r => (0, r)

/-- Words that stand for no operand. -/
def isGrammarWord (s : String) : Bool :=
  ["and", "or", "not", "if", "else", "in", "is", "for", "lambda", "await", "async",
    "yield"].contains s

/-- Applies the factorial signs behind an operand. -/
def withFactorials (p : Phrase) (ls : List Lexeme) : Option (Phrase × List Lexeme) :=
  match factorialSigns ls with
  | (0, r) => some (p, r)
  | (1, r) => some (call (name "factorial") [p], r)
  | (2, r) => some (call (name "factorial2") [p], r)
  | _ => none

mutual
/-- A phrase that is no tuple. -/
def test : Nat → List Lexeme → Option (Phrase × List Lexeme)
  | 0, _ => none
  | n + 1, ls => do
    let (p, r) ← orTest n ls
    match r with
    | .name "if" :: r => do
      let (t, r) ← orTest n r
      match r with
      | .name "else" :: r => do
        let (q, r) ← test n r
        pure (choice t p q, r)
      | _ => none
    | r => pure (p, r)
/-- Phrases joined by `or`. -/
def orTest : Nat → List Lexeme → Option (Phrase × List Lexeme)
  | 0, _ => none
  | n + 1, ls => do
    let (p, r) ← andTest n ls
    match r with
    | .name "or" :: r => do
      let (q, r) ← orTest n r
      pure (logical "or" p q, r)
    | r => pure (p, r)
/-- Phrases joined by `and`. -/
def andTest : Nat → List Lexeme → Option (Phrase × List Lexeme)
  | 0, _ => none
  | n + 1, ls => do
    let (p, r) ← notTest n ls
    match r with
    | .name "and" :: r => do
      let (q, r) ← andTest n r
      pure (logical "and" p q, r)
    | r => pure (p, r)
/-- A comparison, perhaps negated. -/
def notTest : Nat → List Lexeme → Option (Phrase × List Lexeme)
  | 0, _ => none
  | n + 1, .name "not" :: r => do
    let (p, r) ← notTest n r
    pure (unary "not" p, r)
  | n + 1, ls => do
    let (p, r) ← joined n levels ls
    let (qs, r) ← comparisons n r
    pure (if qs.isEmpty then p else comparison p qs, r)
/-- The comparisons behind a phrase. -/
def comparisons : Nat → List Lexeme → Option (List (String × Phrase) × List Lexeme)
  | 0, _ => none
  | n + 1, ls => match comparisonOf? ls with
    | none => some ([], ls)
    | some (o, r) => do
      let (q, r) ← joined n levels r
      let (qs, r) ← comparisons n r
      pure ((o, q) :: qs, r)
/-- Operands joined by the operators of some levels. -/
def joined : Nat → List (List String) → List Lexeme → Option (Phrase × List Lexeme)
  | 0, _, _ => none
  | n + 1, [], ls => signed n ls
  | n + 1, os :: rest, ls => do
    let (p, r) ← joined n rest ls
    joinedRest n os rest p r
/-- Further operands of a level behind a phrase. -/
def joinedRest : Nat → List String → List (List String) → Phrase → List Lexeme →
    Option (Phrase × List Lexeme)
  | 0, _, _, _, _ => none
  | n + 1, os, rest, p, ls => match operatorOf? os ls with
    | none => some (p, ls)
    | some (o, r) => do
      let (q, r) ← joined n rest r
      joinedRest n os rest (binary o p q) r
/-- A power with signs before it. -/
def signed : Nat → List Lexeme → Option (Phrase × List Lexeme)
  | 0, _ => none
  | n + 1, ls => match operatorOf? ["+", "-", "~"] ls with
    | some (o, r) => do
      let (p, r) ← signed n r
      pure (unary o p, r)
    | none => do
      let (p, r) ← operand n ls
      match r with
      | .operator "**" :: r => do
        let (q, r) ← signed n r
        pure (binary "**" p q, r)
      | r => pure (p, r)
/-- An operand with what is attached to it. -/
def operand : Nat → List Lexeme → Option (Phrase × List Lexeme)
  | 0, _ => none
  | n + 1, ls => do
    let (p, r) ← simple n ls
    -- a name directly before a bracket is called before factorials are taken
    match p, r with
    | name _, .operator "(" :: t => do
      let (args, t) ← items n ")" t
      let (q, t) ← withFactorials (call p args) t
      attached n q t
    | p, r => do
      let (q, t) ← withFactorials p r
      attached n q t
/-- Calls, indices and attributes behind an operand. -/
def attached : Nat → Phrase → List Lexeme → Option (Phrase × List Lexeme)
  | 0, _, _ => none
  | n + 1, p, .operator "(" :: r => do
    let (args, r) ← items n ")" r
    attached n (call p args) r
  | n + 1, p, .operator "[" :: r => do
    let (is, r) ← items n "]" r
    match is with
    | [i] => attached n (index p i) r
    | _ => none
  | n + 1, p, .operator "." :: .name s :: r => attached n (member p s) r
  | _ + 1, p, r => some (p, r)
/-- A name, a number, texts, or a bracketed phrase. -/
def simple : Nat → List Lexeme → Option (Phrase × List Lexeme)
  | 0, _ => none
  | _ + 1, .name s :: r => if isGrammarWord s then none else some (name s, r)
  | _ + 1, .exact q :: r => some (exact q, r)
  | _ + 1, .decimal m e :: r => some (decimal m e, r)
  | _ + 1, .quoted :: r =>
    some (quoted, r.dropWhile fun l => l == .quoted)
  | n + 1, .operator "(" :: r => match r with
    | .operator ")" :: r => some (tuple [], r)
    | r => do
      let (p, t) ← test n r
      match t with
      | .operator ")" :: t => some (p, t)
      | .operator "," :: t => do
        let (ps, t) ← items n ")" t
        pure (tuple (p :: ps), t)
      | _ => none
  | n + 1, .operator "[" :: r => do
    let (ps, r) ← items n "]" r
    pure (list ps, r)
  | n + 1, .operator "\x7b" :: r => match r with
    | .operator "\x7d" :: r => some (dictionary [] [], r)
    | r => do
      let (p, t) ← test n r
      match t with
      | .operator ":" :: t => do
        let (v, t) ← test n t
        entries n [p] [v] t
      | .operator "," :: t => do
        let (ps, t) ← items n "\x7d" t
        pure (set (p :: ps), t)
      | .operator "\x7d" :: t => pure (set [p], t)
      | _ => none
  | _ + 1, .operator "..." :: r => some (quoted, r)
  | _ + 1, _ => none
/-- Phrases separated by commas up to a closing mark. -/
def items : Nat → String → List Lexeme → Option (List Phrase × List Lexeme)
  | 0, _, _ => none
  | n + 1, close, ls => match operatorOf? [close] ls with
    | some (_, r) => some ([], r)
    | none => do
      let (p, r) ← test n ls
      match r with
      | .operator "," :: t => do
        let (ps, t) ← items n close t
        pure (p :: ps, t)
      | r => match operatorOf? [close] r with
        | some (_, t) => some ([p], t)
        | none => none
/-- Further entries of a dictionary. -/
def entries : Nat → List Phrase → List Phrase → List Lexeme → Option (Phrase × List Lexeme)
  | 0, _, _, _ => none
  | n + 1, ks, vs, ls => match ls with
    | .operator "\x7d" :: r => some (dictionary ks vs, r)
    | .operator "," :: .operator "\x7d" :: r => some (dictionary ks vs, r)
    | .operator "," :: r => do
      let (k, r) ← test n r
      match r with
      | .operator ":" :: r => do
        let (v, r) ← test n r
        entries n (ks ++ [k]) (vs ++ [v]) r
      | _ => none
    | _ => none
end

/-- Further members of a tuple without brackets. -/
def members : Nat → List Lexeme → Option (List Phrase)
  | 0, _ => none
  | _, [] => some []
  | n + 1, ls => do
    let (p, r) ← test (20 * ls.length + 20) ls
    match r with
    | [] => some [p]
    | .operator "," :: r => do
      let ps ← members n r
      pure (p :: ps)
    | _ => none

/-- The phrase that some lexemes form. -/
def ofLexemes? (ls : List Lexeme) : Option Phrase := do
  let (p, r) ← test (20 * ls.length + 20) ls
  match r with
  | [] => some p
  | .operator "," :: r => do
    let ps ← members (r.length + 1) r
    pure (tuple (p :: ps))
  | _ => none

/-- The phrase of a formula text. -/
def ofText? (s : List Char) : Option Phrase := do
  ofLexemes? (← Lexeme.ofText s)

end Phrase

end FieldWalk.Algebra
