import FieldWalk.Text.Word
/-!
Lexemes of formula text as it is evaluated: names, numbers, quoted texts and operators. A caret
is the power sign, a number with the imaginary suffix is that number times the imaginary unit, and
digits in brackets behind a decimal repeat without end.
-/

namespace FieldWalk.Algebra

open Text

/-- A lexeme. -/
inductive Lexeme where
  | name (s : String)
  /-- An exact number. -/
  | exact (q : Rat)
  /-- A decimal `mantissa * 10^exponent`. -/
  | decimal (mantissa : Nat) (exponent : Int)
  | quoted
  | operator (s : String)
deriving DecidableEq, Repr

namespace Lexeme

/-- A letter that a name may begin with, of any script, or an underscore. -/
def beginsName (c : Char) : Bool :=
  c == '_' || isLetter c || (8544 ≤ c.toNat && c.toNat ≤ 8584)

/-- A digit from 0 to 9. -/
def isPlainDigit (c : Char) : Bool := '0' ≤ c && c ≤ '9'

/-- Digits, single underscores between them, and the rest. -/
def plainDigits : List Char → List Char × List Char
  | [] => ([], [])
  | c :: '_' :: r =>
    if isPlainDigit c then
      let t := plainDigits r
      if t.1.isEmpty then ([c], '_' :: r) else (c :: t.1, t.2)
    else ([], c :: '_' :: r)
  | c :: cs =>
    if isPlainDigit c then
      let t := plainDigits cs
      (c :: t.1, t.2)
    else ([], c :: cs)

/-- The number that digits stand for in a base. -/
def ofDigits (base : Nat) (ds : List Char) : Nat :=
  ds.foldl (fun n c =>
    base * n + (if isPlainDigit c then c.toNat - 48 else c.toLower.toNat - 87)) 0

/-- The exponent of a decimal. -/
def exponent? : List Char → Option (Int × List Char)
  | c :: r =>
    if c == 'e' || c == 'E' then
      let (minus, r) : Bool × List Char := match r with
        | '-' :: t => (true, t)
        | '+' :: t => (false, t)
        | t => (false, t)
      match plainDigits r with
      | ([], _) => none
      | (ds, t) => some (if minus then -(ofDigits 10 ds : Int) else ofDigits 10 ds, t)
    else none
  | [] => none

/-- The digits of an integer: a leading zero stands only before zeros. -/
def integerDigits (s : List Char) : List Char × List Char :=
  match s with
  | '0' :: _ =>
    let (ds, _) := plainDigits s
    let zeros := ds.takeWhile (· == '0')
    -- drop as many zeros from the text, underscores between them included
    let rec skip : Nat → List Char → List Char
      | 0, t => t
      | n + 1, '_' :: t => skip (n + 1) t
      | n + 1, _ :: t => skip n t
      | _, [] => []
    (zeros, skip zeros.length s)
  | s => plainDigits s

/-- An integer in base 16, 8 or 2. -/
def based? : List Char → Option (Nat × List Char)
  | '0' :: c :: r =>
    let go (base : Nat) (ok : Char → Bool) : Option (Nat × List Char) :=
      let ds := r.takeWhile ok
      if ds.isEmpty then none else some (ofDigits base ds, r.dropWhile ok)
    if c == 'x' || c == 'X' then
      go 16 fun d => isPlainDigit d || ('a' ≤ d.toLower && d.toLower ≤ 'f')
    else if c == 'b' || c == 'B' then go 2 fun d => d == '0' || d == '1'
    else if c == 'o' || c == 'O' then go 8 fun d => '0' ≤ d && d ≤ '7'
    else none
  | _ => none

/-- Adds the imaginary suffix. -/
def withSuffix (l : Lexeme) : List Char → List Lexeme × List Char
  | 'j' :: r => ([l, operator "*", name "I"], r)
  | 'J' :: r => ([l, operator "*", name "I"], r)
  | r => ([l], r)

/-- The digits in brackets behind a decimal, and what follows them. -/
def repetend? : List Char → Option (List Char × List Char)
  | '[' :: r =>
    let r := r.dropWhile (· == ' ')
    match plainDigits r with
    | ([], _) => none
    | (ds, t) => match t.dropWhile (· == ' ') with
      | ']' :: t => some (ds, t)
      | _ => none
  | _ => none

/-- The number at the front of a text. -/
def number? (s : List Char) : Option (List Lexeme × List Char) :=
  let (ds, r) := plainDigits s
  let onlyRepeats := match s with
    | '.' :: t => (repetend? t).isSome
    | _ => false
  let point : Option (List Char × List Char) := match r with
    | '.' :: t =>
      let (fs, t) := plainDigits t
      if ds.isEmpty && fs.isEmpty && !onlyRepeats then none else some (fs, t)
    | _ => none
  match point with
  | some (fs, t) =>
    let n := ofDigits 10 (ds ++ fs)
    match exponent? t with
    | some (e, t) => some (withSuffix (decimal n (e - fs.length)) t)
    | none => match repetend? t with
      | some (repeated, t) =>
        let scale : Rat := (10 : Rat) ^ fs.length
        let period : Rat := (10 : Rat) ^ repeated.length - 1
        if repeated.all (· == '0') then none
        else some ([exact ((n : Rat) / scale + (ofDigits 10 repeated : Rat) / (period * scale))], t)
      | none => some (withSuffix (decimal n (-fs.length)) t)
  | none =>
    if ds.isEmpty then none
    else match exponent? r with
      | some (e, t) => some (withSuffix (decimal (ofDigits 10 ds) e) t)
      | none => match r with
        | 'j' :: t => some ([exact (ofDigits 10 ds : Nat), operator "*", name "I"], t)
        | 'J' :: t => some ([exact (ofDigits 10 ds : Nat), operator "*", name "I"], t)
        | _ => match based? s with
          | some (n, t) => some ([exact n], t)
          | none =>
            let (zs, t) := integerDigits s
            some ([exact (ofDigits 10 zs : Nat)], t)

/-- A quoted text on one line: what follows it. -/
def quotedRest? (mark : Char) : List Char → Option (List Char)
  | [] => none
  | '\n' :: _ => none
  | '\\' :: _ :: r => quotedRest? mark r
  | c :: r => if c == mark then some r else quotedRest? mark r

/-- The operators of more than one character, the longest first. -/
def longOperators : List String :=
  ["**=", "//=", ">>=", "<<=", "...", "!=", "**", "//", "->", "<=", ">=", "==", "<<", ">>", ":=",
    "+=", "-=", "*=", "/=", "%=", "&=", "|=", "^=", "@="]

/-- The operator at the front of a text. -/
def operator? (s : List Char) : Option (String × List Char) :=
  match longOperators.find? fun o => o.toList.isPrefixOf s with
  | some o => some (o, s.drop o.length)
  | none => match s with
    | '^' :: r => some ("**", r)
    | c :: r =>
      if "+-*/%@&|~<>()[]\x7b\x7d,:.;=!".contains c then some (String.singleton c, r) else none
    | [] => none

/-- The lexemes of a text; none where a character begins no lexeme. `depth` counts open brackets,
inside which a line may end. -/
def scan : Nat → Nat → List Char → Option (List Lexeme)
  | 0, _, _ => none
  | _, _, [] => some []
  | fuel + 1, depth, c :: cs =>
    if c == ' ' || c == '\t' || c == '\x0c' then scan fuel depth cs
    else if c == '#' then scan fuel depth (cs.dropWhile (· != '\n'))
    else if c == '\n' || c == '\r' then
      if depth = 0 then (scan fuel depth cs).map (operator "\n" :: ·) else scan fuel depth cs
    else if beginsName c then
      let word := c :: cs.takeWhile isWordChar
      let rest := cs.dropWhile isWordChar
      (scan fuel depth rest).map (name (String.ofList word) :: ·)
    else if c == '"' || c == '\'' then
      (quotedRest? c cs).bind fun r => (scan fuel depth r).map (quoted :: ·)
    else match number? (c :: cs) with
      | some (ls, r) => (scan fuel depth r).map (ls ++ ·)
      | none => match operator? (c :: cs) with
        | none => none
        | some (o, r) =>
          let depth := if ["(", "[", "\x7b"].contains o then depth + 1
            else if [")", "]", "\x7d"].contains o then depth - 1 else depth
          (scan fuel depth r).map (operator o :: ·)

/-- The lexemes of a formula text. -/
def ofText (s : List Char) : Option (List Lexeme) :=
  let ls := scan (s.length + 1) 0 s
  -- lines without content end the text
  ls.map fun ls => (ls.reverse.dropWhile (· == operator "\n")).reverse

end Lexeme

end FieldWalk.Algebra
