import FieldWalk.Algebra.Facts
/-!
The operations that build expressions in simplest form. Each rule of simplification builds its
result by the operations of the level below, so that the rules may use each other freely and the
levels bound their depth.
-/

namespace FieldWalk.Algebra

/-- The operations of one level. -/
structure Ops where
  add : List Expr → Expr
  mul : List Expr → Expr
  pow : Expr → Expr → Expr
  call : Func → List Expr → Expr

namespace Ops

open FieldWalk.Algebra.Expr

/-- Operations that put their operands together as they are. -/
def inert : Ops where
  add us := ofTerms us
  mul us := ofFactors us
  pow b e := .pow b e
  call f us := .call f us

def mul2 (o : Ops) (u v : Expr) : Expr := o.mul [u, v]
def add2 (o : Ops) (u v : Expr) : Expr := o.add [u, v]
def neg (o : Ops) (u : Expr) : Expr := o.mul [int (-1), u]
def sub (o : Ops) (u v : Expr) : Expr := o.add [u, o.neg v]
def inv (o : Ops) (u : Expr) : Expr := o.pow u (int (-1))
def div (o : Ops) (u v : Expr) : Expr := o.mul [u, o.inv v]
def sqrt (o : Ops) (u : Expr) : Expr := o.pow u half
def square (o : Ops) (u : Expr) : Expr := o.pow u two

end Ops

namespace Expr

/-- The number with the other sign at the front of a product, without further rules. -/
def negated (u : Expr) : Expr :=
  let (c, r) := u.splitCoefficient
  let c := c.negNumber
  if c.isOne then r
  else if r.isOne then c
  else ofFactors (c :: r.factors)

/-- Of an expression and its opposite exactly one is to be written with a minus sign in front. -/
def leadsWithMinus : Expr → Bool
  | add us =>
    let minus := us.countP fun
      | mul (c :: _) => c.isNegativeNumber
      | u => u.isNegativeNumber
    if minus * 2 = us.length then cmp (add us) (add (sorted (us.map negated))) == .lt
    else us.length < minus * 2
  | mul (c :: _) => c.isNegativeNumber
  | u => u.isNegativeNumber

/-- The factor beside the imaginary unit, if it occurs once and nothing else is imaginary. -/
def besideImaginary? : Expr → Option Expr
  | const .imaginaryUnit => some one
  | mul us =>
    let rest := us.filter (· != imaginaryUnit)
    if rest.length + 1 = us.length && !hasAny (· == imaginaryUnit) rest then some (ofFactors rest)
    else none
  | _ => none

/-- The factor beside a constant of a product. -/
def beside? (u c : Expr) : Option Expr :=
  if u == c then some one
  else match u with
    | mul us =>
      let rest := us.filter (· != c)
      if rest.length + 1 = us.length then some (ofFactors rest) else none
    | _ => none

end Expr

end FieldWalk.Algebra
