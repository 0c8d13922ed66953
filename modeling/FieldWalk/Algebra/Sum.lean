import FieldWalk.Algebra.Ops
/-! Sums: numbers are added and like terms are collected. -/

namespace FieldWalk.Algebra

open FieldWalk.Algebra.Expr

namespace Sum

/-- Terms under collection: the numbers so far, and each term with its coefficient. -/
structure Collected where
  constant : Expr := zero
  terms : List (Expr × Expr) := []

/-- Adds to the coefficient of a term. -/
def Collected.insert (s : Collected) (c term : Expr) : Collected :=
  if s.terms.any (·.1 == term) then
    { s with terms := s.terms.map fun (t, d) => if t == term then (t, addNumber d c) else (t, d) }
  else { s with terms := s.terms ++ [(term, c)] }

/-- Adds a term that is no sum. -/
def Collected.add (s : Collected) (u : Expr) : Collected :=
  if u.isNumber || u == pole then { s with constant := addNumber s.constant u }
  else
    let (c, t) := u.splitCoefficient
    s.insert c t

/-- A term with its coefficient. -/
def withCoefficient (o : Ops) (t c : Expr) : Expr :=
  if c.isOne then t
  else match t with
    | mul us => mul (c :: us)
    | add us => mul [c, add us]
    | t => o.mul [c, t]

/-- The sum of some terms. -/
def combine (o : Ops) (us : List Expr) : Expr :=
  let s := (us.flatMap Expr.terms).foldl Collected.add {}
  if s.constant == undefined || s.terms.any (·.2 == undefined) then undefined
  else
    let ts := s.terms.filterMap fun (t, c) =>
      if c.isZeroNumber then none else some (withCoefficient o t c)
    let drops : Expr → Bool := match s.constant with
      | const .infinity => fun t =>
        t.facts.nonnegative == Answer.yes || t.facts.finiteReal == Answer.yes
      | const .negInfinity => fun t =>
        t.facts.nonpositive == Answer.yes || t.facts.finiteReal == Answer.yes
      | const .pole => fun t => t.facts.finite == Answer.yes && t.facts.real.isSome
      | _ => fun _ => false
    let ts := ts.filter fun t => !drops t
    if ts.any fun
        | add _ => true
        | t => t.isNumber then o.add (s.constant :: ts)
    else ofTerms (if s.constant.isZero then sorted ts else s.constant :: sorted ts)

end Sum

end FieldWalk.Algebra
