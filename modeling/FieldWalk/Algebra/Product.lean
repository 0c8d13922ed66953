import FieldWalk.Algebra.Ops
/-!
Products: numbers are multiplied, powers of one base whose exponents differ by a number are
collected, roots of rational numbers are brought to their common form, and a number is distributed
over a sum that is the only other factor.
-/

namespace FieldWalk.Algebra

open FieldWalk.Algebra.Expr

namespace Product

/-- Factors under collection. -/
structure Collected where
  coefficient : Expr := one
  /-- The exponent of minus one; the imaginary unit counts a half. -/
  turns : Rat := 0
  /-- Positive rational bases with rational exponents. -/
  roots : List (Rat × Rat) := []
  /-- Positive numbers with other exponents. -/
  exponentials : List (Expr × Expr) := []
  /-- All other bases and exponents. -/
  powers : List (Expr × Expr) := []

/-- Collects a factor that is no product. -/
def Collected.insert (o : Ops) (p : Collected) (u : Expr) : Collected :=
  if u.isNumber || u == pole then { p with coefficient := mulNumber p.coefficient u }
  else if u == imaginaryUnit then { p with turns := p.turns + 1 / 2 }
  else match u with
    | pow (rat b) (rat e) =>
      if e.den = 1 || b.num = 0 then
        { p with coefficient := mulNumber p.coefficient (o.pow (rat b) (rat e)) }
      else
        let p := if b.num < 0 then { p with turns := p.turns + e } else p
        let size : Rat := if b.num < 0 then -b else b
        if size == 1 then p else { p with roots := p.roots ++ [(size, e)] }
    | pow b e =>
      if b.isNumber && (b.facts.finitePositive == Answer.yes || e.facts.integer == Answer.yes) then
        { p with exponentials := p.exponentials ++ [(b, e)] }
      else { p with powers := p.powers ++ [(b, e)] }
    | u =>
      let (b, e) := u.splitPower
      { p with powers := p.powers ++ [(b, e)] }

/-- A base with the terms of its exponents and their coefficients. -/
abbrev Family := Expr × List (Expr × Expr)

/-- Adds to the coefficient of an exponent's term. -/
def addExponent (e : Expr) (ts : List (Expr × Expr)) : List (Expr × Expr) :=
  let (c, t) := e.splitCoefficient
  if ts.any (·.1 == t) then ts.map fun (s, d) => if s == t then (s, addNumber d c) else (s, d)
  else ts ++ [(t, c)]

/-- Powers of one base whose exponents are multiples of one term become one power. -/
def gather (o : Ops) (ps : List (Expr × Expr)) : List (Expr × Expr) :=
  let families : List Family := ps.foldl (fun (fs : List Family) (b, e) =>
    if fs.any (·.1 == b) then
      fs.map fun (a, ts) => if a == b then (a, addExponent e ts) else (a, ts)
    else fs ++ [(b, addExponent e [])]) []
  families.flatMap fun (b, ts) => ts.map fun (t, c) => (b, o.mul [c, t])

/-- Bases with equal exponents are multiplied. -/
def gatherBases (o : Ops) (ps : List (Expr × Expr)) : List Expr :=
  let groups : List (Expr × List Expr) := ps.foldl (fun (gs : List (Expr × List Expr)) (b, e) =>
    if gs.any (·.1 == e) then gs.map fun (f, bs) => if f == e then (f, bs ++ [b]) else (f, bs)
    else gs ++ [(e, [b])]) []
  groups.filterMap fun (e, bs) => if e.isZeroNumber then none else some (o.pow (o.mul bs) e)

/-- An infinity occurs among the entries of a sum or product. -/
def holdsInfinity : Expr → Bool
  | add us | mul us => us.any fun u => u == pole || u == infinity || u == negInfinity
  | _ => false

/-- The collected powers as expressions; none if infinities cancel. -/
def powerParts (o : Ops) (ps : List (Expr × Expr)) : Option (List Expr) :=
  ps.foldr (fun (b, e) acc => do
    let parts ← acc
    if e.isZeroNumber then if holdsInfinity b then none else pure parts
    else pure ((if e.isOne then b else o.pow b e) :: parts)) (some [])

/-- A part has to be collected again: it is a number or a product, or its base occurs elsewhere. -/
def needsRound (parts : List Expr) : Bool :=
  parts.any (fun u => u.isNumber || u == pole || u == imaginaryUnit || match u with
    | mul _ => true
    | _ => false)
  || match parts with
    | [] => false
    | _ =>
      let bases := parts.map fun u => u.splitPower
      let same (p q : Expr × Expr) : Bool :=
        p.1 == q.1 && p.2.splitCoefficient.2 == q.2.splitCoefficient.2
      bases.zipIdx.any fun (p, i) => bases.zipIdx.any fun (q, j) => i < j && same p q

/-- Infinite coefficients absorb factors: their sign for a real infinity. -/
def absorb (c : Expr) (parts : List Expr) : Expr × List Expr :=
  if c == infinity || c == negInfinity then
    let minus := parts.countP (·.facts.negative == Answer.yes)
    let kept := parts.filter fun u =>
      u.facts.positive != Answer.yes && u.facts.negative != Answer.yes
    (if minus % 2 = 1 then c.negNumber else c, kept)
  else if c == pole then
    (c, parts.filter fun u => !(u.facts.zero == Answer.no && u.facts.real.isSome))
  else (c, parts)

/-- The product of collected parts and a coefficient. -/
def finish (o : Ops) (c : Expr) (parts : List Expr) : Expr :=
  let (c, parts) := absorb c parts
  if c == undefined then undefined
  else if c.isZeroNumber then
    if parts.any (·.facts.finite == Answer.no) then undefined else c
  else match parts with
    | [] => c
    | [add ts] =>
      if c.isOne then add ts
      else if c.toWide?.isSome then o.add (ts.map fun t => o.mul [c, t])
      else mul [c, add ts]
    | parts => ofFactors (if c.isOne then sorted parts else c :: sorted parts)

/-- One round of collection: the new coefficient, the powers and the roots. -/
def round (o : Ops) (us : List Expr) : Expr × List Expr × List Expr :=
  let p := (us.flatMap Expr.factors).foldl (Collected.insert o) {}
  if p.coefficient == undefined then (undefined, [], [])
  else match powerParts o (gather o p.powers) with
    | none => (undefined, [], [])
    | some parts =>
      let root := Root.ofPowers p.roots
      let (sign, unit) := unitRoot p.turns
      let c := mulNumber p.coefficient (rat (root.coefficient * sign))
      (c, parts ++ gatherBases o (gather o p.exponentials), unit ++ root.factors)

/-- Rounds of collection until the parts stand. -/
def rounds (o : Ops) : Nat → List Expr → Expr
  | 0, us => ofFactors us
  | fuel + 1, us =>
    let (c, parts, roots) := round o us
    if c != undefined && fuel != 0 && needsRound parts then rounds o fuel (c :: parts ++ roots)
    else finish o c (parts ++ roots)

/-- The product of a rational number and a sum, or a multiple of a sum. -/
def distribute? (o : Ops) (us : List Expr) : Option Expr :=
  let go (q : Rat) (v : Expr) : Option Expr :=
    match v.splitCoefficient with
    | (rat r, add ts) =>
      if q.num == 0 then none
      else if q * r == 1 then some (add ts)
      else some (o.add (ts.map fun t => o.mul [rat (q * r), t]))
    | _ => none
  match us with
  | [rat q, v] => go q v
  | [v, rat q] => go q v
  | _ => none

/-- The product of some factors. -/
def combine (o : Ops) (us : List Expr) : Expr :=
  match us.filter (!·.isOne) with
  | [] => one
  | [u] => u
  | us => (distribute? o us).getD (rounds o 6 us)

end Product

end FieldWalk.Algebra
