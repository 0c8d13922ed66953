import FieldWalk.Algebra.Phrase
import FieldWalk.Algebra.Simplest
import FieldWalk.Algebra.Vocabulary
import FieldWalk.Text.Blank
/-!
What a phrase stands for. Numbers are combined as they are met and come out in simplest form; an
operation on what is no number has no meaning.
-/

namespace FieldWalk.Algebra

open FieldWalk.Algebra.Expr Numeral

/-- The meaning of a phrase. -/
inductive Meaning where
  | scalar (e : Expr)
  | callable (c : Callable)
  /-- A function without value, by its name. -/
  | unnamed (s : String)
  | truth (b : Bool)
  /-- A statement about the variables. -/
  | statement
  | sequence (ms : List Meaning)
  | dictionary (keys values : List Meaning)
  /-- A text or another thing that is no number. -/
  | thing
deriving Inhabited

namespace Meaning

/-- The expression, if it is a number. -/
def expr? : Meaning → Option Expr
  | scalar e => some e
  | _ => none

/-- Whether it counts as true; a statement about variables does not tell. -/
def truth? : Meaning → Option Bool
  | scalar e => some (!e.isZeroNumber)
  | truth b => some b
  | statement => none
  | sequence ms => some (!ms.isEmpty)
  | dictionary ks _ => some (!ks.isEmpty)
  | _ => some true

/-- The meaning of a name. -/
def ofName? (s : String) : Option Meaning :=
  match Word.ofName s with
  | .scalar e => some (.scalar e)
  | .callable c => some (.callable c)
  | .truth b => some (.truth b)
  | .thing => some .thing
  | .reserved => none
  | .unknown => some (.scalar (.var (.other s)))

/-- The meaning of an arithmetical operator between numbers. -/
def arithmetic? (operator : String) (u v : Expr) : Option Expr :=
  let o := simplest
  match operator with
  | "+" => some (o.add2 u v)
  | "-" => some (o.sub u v)
  | "*" => some (o.mul2 u v)
  | "/" => some (o.div u v)
  | "**" => some (o.pow u v)
  | "//" => if u.isNumber && v.isZeroNumber then none else some (o.call .floor [o.div u v])
  | "%" => if v.facts.zero == Answer.yes then none else some (o.call .mod [u, v])
  | "<<" => do
    let m ← u.int?
    let n ← v.int?
    if n < 0 then none else some (int (m * Int.pow 2 n.toNat))
  | ">>" => do
    let m ← u.int?
    let n ← v.int?
    if n < 0 then none else some (int (m.fdiv (Int.pow 2 n.toNat)))
  | "&" => do
    let m ← u.int?
    let n ← v.int?
    if m < 0 || n < 0 then none else some (int (m.toNat &&& n.toNat))
  | "|" => do
    let m ← u.int?
    let n ← v.int?
    if m < 0 || n < 0 then none else some (int (m.toNat ||| n.toNat))
  | _ => none

/-- A number that may stand for a truth: a variable, or one and zero. -/
def asTruth? : Meaning → Option (Bool ⊕ Option Variable)
  | scalar (.var v) => some (.inr (some v))
  | scalar e => if e.isOne then some (.inl true) else if e.isZero then some (.inl false) else none
  | truth b => some (.inl b)
  | statement => some (.inr none)
  | _ => none

/-- The logical meaning of an operator between truths. -/
def joinTruths? (operator : String) (m n : Meaning) : Option Meaning := do
  let p ← asTruth? m
  let q ← asTruth? n
  let absorbing := operator == "|"
  match operator with
  | "&" | "|" => match p, q with
    | .inl a, .inl b => some (truth (if absorbing then a || b else a && b))
    | .inl a, .inr _ => some (if a == absorbing then truth absorbing else n)
    | .inr _, .inl b => some (if b == absorbing then truth absorbing else m)
    | .inr (some v), .inr (some w) => some (if v == w then m else statement)
    | _, _ => some statement
  | "<<" | ">>" => some statement
  | _ => none

/-- The meaning of an operator. -/
def binary? (operator : String) (m n : Meaning) : Option Meaning :=
  match m, n with
  | scalar u, scalar v => match arithmetic? operator u v with
    | some w => some (scalar w)
    | none => if ["&", "|", "<<", ">>"].contains operator then joinTruths? operator m n else none
  | sequence ms, sequence ns => if operator == "+" then some (sequence (ms ++ ns)) else none
  | thing, thing => none
  | m, n => if ["&", "|", "<<", ">>"].contains operator then joinTruths? operator m n else none

/-- The meaning of a sign. -/
def unary? (operator : String) (m : Meaning) : Option Meaning :=
  match operator, m with
  | "+", scalar e => some (scalar e)
  | "-", scalar e => some (scalar (simplest.neg e))
  | "~", scalar (.var _) => some statement
  | "~", scalar e => e.int?.map fun n => scalar (int (-n - 1))
  | "~", statement => some statement
  | "~", truth b => some (truth !b)
  | "not", m => m.truth?.map fun b => truth !b
  | _, _ => none

/-- The order of two numbers without variables. -/
def order? (u v : Expr) : Option Ordering :=
  let d := simplest.sub u v
  if d.isZeroNumber then some .eq
  else match d with
    | const .infinity => some .gt
    | const .negInfinity => some .lt
    | d => d.clearSign?

/-- The meaning of a comparison. -/
def compare? (operator : String) (m n : Meaning) : Option Meaning :=
  match operator, m, n with
  | "in", _, _ => none
  | "is", _, _ => some (truth false)
  | "==", scalar u, scalar v => some (truth (u == v))
  | "!=", scalar u, scalar v => some (truth (u != v))
  | "==", _, _ => some (truth false)
  | "!=", _, _ => some (truth true)
  | o, scalar u, scalar v =>
    if u == undefined || v == undefined || u == pole || v == pole then none
    else if u.isClosed && v.isClosed then
      if u.facts.real == Answer.no || v.facts.real == Answer.no then none
      else match order? u v with
        | some c => some (truth (match o with
          | "<" => c == .lt
          | "<=" => c != .gt
          | ">" => c == .gt
          | _ => c != .lt))
        | none => some statement
    else if u.facts.real == Answer.no || v.facts.real == Answer.no then none
    else some statement
  | _, _, _ => none

/-- Comparisons in a row hold together. -/
def chain? (m : Meaning) : List (String × Meaning) → Option Meaning
  | [] => some m
  | [(o, n)] => compare? o m n
  | (o, n) :: rest => do
    let c ← compare? o m n
    if ← c.truth? then chain? n rest else some c

/-- The cube or other root. -/
def rootOf (u n : Expr) : Expr :=
  simplest.pow u (simplest.inv n)

/-- The value of a function. -/
def valueOf? (c : Callable) (us : List Expr) : Option Expr :=
  let o := simplest
  match c, us with
  | .elementary f, [u] => some (o.call f [u])
  | .reciprocal f, [u] => some (o.inv (o.call f [u]))
  | .ofReciprocal f, [u] => some (o.call f [o.inv u])
  | .pair f, [u, v] =>
    if f == .mod && v.facts.zero == Answer.yes then none else some (o.call f [u, v])
  | .cotangent, [u] => some (o.div (o.call .cos [u]) (o.call .sin [u]))
  | .hyperbolicCotangent, [u] => some (o.div (o.call .cosh [u]) (o.call .sinh [u]))
  | .log, [u] => some (o.call .log [u])
  | .log, [u, b] => some (Elementary.logBase o u b)
  | .sqrt, [u] => some (o.sqrt u)
  | .sqrt, [u, _] => some (o.sqrt u)
  | .cubeRoot, [u] => some (rootOf u (int 3))
  | .root, [u, n] => some (rootOf u n)
  | .power, [u, v] => some (o.pow u v)
  | .sum, us => some (o.add us)
  | .product, us => some (o.mul us)
  | .rational, [u] => some u
  | .rational, [u, v] => some (o.div u v)
  | .same, [u] => some u
  | .other name, us => some (call (.formal name) us)
  | _, _ => none

/-- A constant attached to a thing by its name. -/
def member? (s : String) : Option Expr :=
  [("Half", half), ("One", one), ("Zero", zero), ("NegativeOne", int (-1)), ("Pi", pi),
    ("Exp1", euler), ("ImaginaryUnit", imaginaryUnit), ("Infinity", infinity),
    ("NegativeInfinity", negInfinity), ("NaN", undefined), ("ComplexInfinity", pole)].lookup s

/-- The entry of a sequence; negative indices count from its end. -/
def entry? (ms : List Meaning) (n : Int) : Option Meaning :=
  let i := if n < 0 then n + ms.length else n
  if i < 0 then none else ms[i.toNat]?

/-- The meaning of an index. -/
def index? (m i : Meaning) : Option Meaning := do
  let e ← i.expr?
  match m with
  | sequence ms => entry? ms (← e.int?)
  | dictionary ks vs =>
    ((ks.zip vs).find? fun (k, _) => (k.expr?.map (· == e)).getD false).map (·.2)
  | thing => match e.int? with
    | some n => if n == 0 then some thing else none
    | none => none
  | _ => none

end Meaning

namespace Phrase

open Meaning

mutual
/-- The meaning of a phrase; none if it has none. -/
def meaning? : Phrase → Option Meaning
  | name s => Meaning.ofName? s
  | exact q => some (.scalar (.rat q))
  | decimal m e => some (.scalar (.float (.ofDecimal false m e)))
  | quoted => some .thing
  | unary o p => do unary? o (← meaning? p)
  | binary o p q => do
    let m ← meaning? p
    let n ← meaning? q
    binary? o m n
  | comparison p rest => do
    let m ← meaning? p
    chain? m (← comparisonMeanings? rest)
  | logical o p q => do
    let m ← meaning? p
    let b ← m.truth?
    if (o == "and") == b then meaning? q else pure m
  | choice t p q => do
    let b ← (← meaning? t).truth?
    if b then meaning? p else meaning? q
  | call (name s) ps => do
    let ms ← meanings? ps
    let us ← ms.mapM Meaning.expr?
    match Word.ofName s with
    | .callable c => (valueOf? c us).map .scalar
    | .unknown => pure (.scalar (.call (.unnamed s) us))
    | _ => none
  | call p ps => do
    let m ← meaning? p
    let us ← (← meanings? ps).mapM Meaning.expr?
    match m with
    | .callable c => (valueOf? c us).map .scalar
    | _ => none
  | index p i => do
    let m ← meaning? p
    index? m (← meaning? i)
  | member (name "S") s => (member? s).map .scalar
  | member _ _ => none
  | tuple ps => do pure (.sequence (← meanings? ps))
  | list ps => do pure (.sequence (← meanings? ps))
  | set ps => do
    let _ ← meanings? ps
    pure .thing
  | dictionary ks vs => do
    let ms ← meanings? ks
    pure (.dictionary ms (← meanings? vs))
/-- The meanings of several phrases. -/
def meanings? : List Phrase → Option (List Meaning)
  | [] => some []
  | p :: ps => do
    let m ← meaning? p
    pure (m :: (← meanings? ps))
/-- The meanings of the right sides of comparisons. -/
def comparisonMeanings? : List (String × Phrase) → Option (List (String × Meaning))
  | [] => some []
  | (o, p) :: ps => do
    let m ← meaning? p
    pure ((o, m) :: (← comparisonMeanings? ps))
end

end Phrase

/-- Why a formula text is no field. -/
inductive ParseFault where
  | empty
  | malformed (flat : String)
  | notScalar (flat : String)
  | unknownVariables (names : List String)
deriving DecidableEq, Repr

/-- The wording of a fault. -/
def ParseFault.message : ParseFault → String
  | empty => "Expression is empty."
  | malformed flat => "Cannot parse '" ++ flat ++ "'"
  | notScalar flat => "'" ++ flat ++ "' is not a scalar expression."
  | unknownVariables names =>
    "Unknown variable(s): " ++ ", ".intercalate names ++ ". Only x and y are allowed."

/-- The names of the variables other than the coordinates, in order and each once. -/
def Expr.foreignNames (u : Expr) : List String :=
  let names := u.unknowns.filterMap fun
    | .other s => some s
    | _ => none
  (names.mergeSort fun a b => !(b < a)).eraseDups

/-- The expression of a formula text. -/
def Expr.ofText (flat : String) : Except ParseFault Expr :=
  let text := Text.trimBlank flat.toList
  if text.isEmpty then .error .empty
  else match (Phrase.ofText? text).bind Phrase.meaning? with
    | none => .error (.malformed flat)
    | some (.scalar e) => match e.foreignNames with
      | [] => .ok e
      | names => .error (.unknownVariables names)
    | some _ => .error (.notScalar flat)

end FieldWalk.Algebra
