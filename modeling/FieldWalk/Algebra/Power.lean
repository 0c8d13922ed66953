import FieldWalk.Algebra.Ops
/-!
Powers. A power of a number is computed, roots in their common form; powers of products are taken
factor by factor where that is right for every value, and powers of powers are joined where the
base decides the branch.
-/

namespace FieldWalk.Algebra

open FieldWalk.Algebra.Expr Numeral

namespace Power

/-- The power of a rational number with a rational exponent. -/
def ofRats (o : Ops) (b e : Rat) : Expr :=
  if e.den = 1 then
    if b.num = 0 then (if e.num < 0 then pole else zero)
    else rat (ratPower b e.num)
  else if b.num = 0 then (if e.num < 0 then pole else zero)
  else
    let root := Root.ofPowers [(if b.num < 0 then -b else b, e)]
    let (sign, unit) := if b.num < 0 then unitRoot e else (1, [])
    match root.factors ++ unit with
    | [] => rat (root.coefficient * sign)
    | us =>
      let c := root.coefficient * sign
      if c == 1 then ofFactors (sorted us)
      else match us with
        | [u] => mul [rat c, u]
        | us => o.mul (rat c :: us)

/-- The power of a float with a number as exponent. -/
def ofFloat? (o : Ops) (v : Wide) (e : Expr) : Option Expr :=
  match e with
  | rat q =>
    if q.den = 1 then match v.powInt? q.num with
      | some w => some (float w)
      | none => some pole
    else ofReal (.ofQuotient (q.num < 0) q.num.natAbs q.den)
  | float t => ofReal t
  | _ => none
where
  /-- A real exponent; the power of a negative base is complex. -/
  ofReal (t : Wide) : Option Expr :=
    if v.isZero then
      if t.isNegative then some pole else if t.isZero then some (float .one) else some (float v)
    else if v.isNegative then
      match (WideComplex.ofReal v).powReal? t with
      | some z =>
        if z.im.isZero then some (float z.re)
        else some (o.add [float z.re, o.mul [float z.im, imaginaryUnit]])
      | none => none
    else match t.halves? with
      | some n => if n % 2 = 0 then (v.powInt? (n / 2)).map float else (v.sqrt.powInt? n).map float
      | none => some (float (v.powGeneral t))

/-- Powers with an infinite exponent. -/
def toInfinity? (b : Expr) : Option Expr := do
  let v ← b.realValue?
  let one : Wide := .one
  if one.lt v then some infinity
  else if v.lt one && one.neg.lt v then some zero
  else if v.lt one.neg then some pole
  else none

/-- Powers of infinities. -/
def ofInfinite? (o : Ops) (b e : Expr) : Option Expr :=
  let f := e.facts
  match b with
  | const .infinity =>
    if f.positive == Answer.yes then some infinity
    else if f.negative == Answer.yes then some zero
    else none
  | const .negInfinity =>
    match e.int? with
    | some n =>
      if 0 < n then some (if n % 2 = 0 then infinity else negInfinity) else some zero
    | none =>
      if f.positive == Answer.yes then some (o.mul [o.pow (int (-1)) e, infinity])
      else if f.negative == Answer.yes then some zero else none
  | const .pole =>
    if e.isNumber then
      if e.isZeroNumber then some undefined
      else if e.isNegativeNumber then some zero else some pole
    else none
  | _ => none

/-- Powers of zero with an exponent that is no number. -/
def ofZero? (o : Ops) (e : Expr) : Option Expr :=
  let f := e.facts
  if f.positive == Answer.yes then some zero
  else if f.negative == Answer.yes then some pole
  else if f.real == Answer.no then some undefined
  else if f.zero == Answer.yes then some one
  else
    let (c, t) := e.splitCoefficient
    if c.isNegativeNumber then some (o.pow pole t)
    else if c.isOne then none else some (o.pow zero t)

/-- The factors of a product are separated for a fractional exponent: those that are not negative
come out, signs are joined. -/
def ofProduct (o : Ops) (us : List Expr) (e : Expr) : Expr :=
  let turns := us.countP (· == imaginaryUnit)
  let us := us.filter (· != imaginaryUnit)
  let nonneg := us.filter fun u => u.facts.nonnegative == Answer.yes
  let neg := us.filter fun u => u.facts.nonnegative == Answer.no
  let other := us.filter fun u => u.facts.nonnegative.isNone
  let flip : List Expr × List Expr × Bool := match neg with
    | v :: neg => (neg, if (o.neg v).isOne then nonneg else nonneg ++ [o.neg v], false)
    | [] => (neg, nonneg, true)
  let (neg, nonneg, other) : List Expr × List Expr × List Expr :=
    if turns % 4 = 1 then (neg, nonneg, other ++ [imaginaryUnit])
    else if turns % 4 = 2 then
      if flip.2.2 then ([int (-1)], nonneg, other) else (flip.1, flip.2.1, other)
    else if turns % 4 = 3 then
      if flip.2.2 then ([int (-1)], nonneg, other ++ [imaginaryUnit])
      else (flip.1, flip.2.1, other ++ [imaginaryUnit])
    else (neg, nonneg, other)
  let (nonneg, other) : List Expr × List Expr := match neg with
    | [] => (nonneg, other)
    | [v] =>
      if other.isEmpty then (nonneg, [v])
      else if v.isNumber && v != int (-1) then (nonneg ++ [o.neg v], other ++ [int (-1)])
      else (nonneg, other ++ [v])
    | neg =>
      let odd := neg.length % 2 = 1
      (nonneg ++ neg.map o.neg, if odd then other ++ [int (-1)] else other)
  let rest := match other with
    | [] => []
    | [u] => [if u.isNumber || u == imaginaryUnit then o.pow u e else pow u e]
    | us => [pow (o.mul us) e]
  o.mul (nonneg.map (fun u => o.pow u e) ++ rest)

/-- The power of a power is one power: always for an integer outer exponent, and where the inner
one keeps the branch. -/
def ofPower? (o : Ops) (b e outer : Expr) : Option Expr :=
  let f := e.facts
  let bf := b.facts
  if outer.facts.integer == Answer.yes then some (o.pow b (o.mul [e, outer]))
  else if f.real != Answer.yes then none
  else
    let isHalf := outer.rat?.any (·.den == 2)
    if e == int (-1) && isHalf && bf.negative == Answer.yes then
      some (o.mul [o.pow (int (-1)) outer, o.pow (o.neg b) (o.neg outer)])
    else if e == int (-1) && isHalf && bf.negative == Answer.no then
      some (o.pow b (o.neg outer))
    else
      let b := if f.even == Answer.yes && e != int (-1) then
          (if bf.real == Answer.yes then o.call .abs [b]
            else if bf.imaginary == Answer.yes then
              o.mul [o.call .abs [o.mul [int (-1), imaginaryUnit, b]], imaginaryUnit]
            else b)
        else b
      let small := match e.realValue? with
        | some v => if e.isClosed then v.abs.lt .one else false
        | none => false
      if small || e.isOne || b.facts.nonnegative == Answer.yes then
        some (o.pow b (o.mul [e, outer]))
      else none

/-- A float among the coefficients of a sum is taken out of its power. -/
def ofSum? (o : Ops) (us : List Expr) (e : Expr) : Option Expr :=
  let parts := us.map splitCoefficient
  let floats := parts.any fun p => p.1 matches float _
  if !e.isNumber || e.isOne || e == int (-1) || !floats then none
  else do
    let sizes ← parts.mapM fun p => p.1.toWide?.map Wide.abs
    let big := sizes.foldl (fun a b => if a.lt b then b else a) .zero
    if !big.isPositive || (big.sub .one).isZero then none
    else
      let scaled := parts.map fun (c, t) => match c.toWide? with
        | some v =>
          if (v.abs.sub big).isZero then o.mul [if v.isNegative then int (-1) else one, t]
          else o.mul [float ((v.div? big).getD .one), t]
        | none => t
      some (o.mul [o.pow (float big) e, o.pow (o.add scaled) e])

/-- A sum of a rational number and a multiple of the imaginary unit. -/
def complexParts? : Expr → Option (Rat × Rat)
  | add [rat r, const .imaginaryUnit] => some (r, 1)
  | add [rat r, mul [rat i, const .imaginaryUnit]] => some (r, i)
  | _ => none

/-- The rule for the kind of base; none leaves the power as it is. -/
def byBase? (o : Ops) (b e : Expr) : Option Expr :=
  match b, e with
  | rat p, rat q => some (ofRats o p q)
  | rat p, float _ =>
    if p.num == 0 then ofZero? o e
    else match b.toWide? with
      | some v => ofFloat? o v e
      | none => none
  | float v, e => ofFloat? o v e
  | rat p, e =>
    if p.num == 0 then ofZero? o e
    else if p == -1 && e.facts.odd == Answer.yes then some (int (-1))
    else if p.num < 0 && e.facts.even == Answer.yes then some (o.pow (rat (-p)) e)
    else none
  | const .euler, e => some (o.call .exp [e])
  | const .imaginaryUnit, rat q =>
    let (sign, unit) := unitRoot (q / 2)
    some (o.mul (rat sign :: unit))
  | const _, e => ofInfinite? o b e
  | mul us, rat q =>
    if q.den = 1 then some (o.mul (us.map fun u => o.pow u e)) else some (ofProduct o us e)
  | mul us, float _ => some (ofProduct o us e)
  | pow a d, e => ofPower? o a d e
  | call .exp [u], e =>
    if e.facts.integer == Answer.yes || u.facts.real == Answer.yes then
      some (o.call .exp [o.mul [u, e]])
    else none
  | call .abs [u], rat q =>
    if u.facts.real != Answer.yes || q.den != 1 then none
    else if q.num % 2 = 0 then some (o.pow u e)
    else if q != -1 && q != 1 then some (o.mul [o.pow u (rat (q - 1)), b])
    else none
  | add us, e =>
    match complexParts? (add us), e with
    | some (r, i), rat q =>
      if q == -1 then
        some (o.mul [rat (1 / (r * r + i * i)), o.add [rat r, o.mul [rat (-i), imaginaryUnit]]])
      else none
    | _, _ => ofSum? o us e
  | _, _ => none

/-- A base that stands in its own logarithm below the exponent: `b^(c/log b)` is `e^c`. -/
def ownLogarithm? (o : Ops) (b e : Expr) : Option Expr :=
  match e with
  | mul us =>
    let own (u : Expr) : Bool := match u with
      | pow (call .log [v]) (rat q) => q == -1 && v == b
      | _ => false
    if b != euler && us.any own then
      let rest := us.filter fun u => !own u
      if rest.length + 1 = us.length then some (o.call .exp [ofFactors rest]) else none
    else none
  | pow (call .log [v]) (rat q) => if q == -1 && v == b && b != euler then some euler else none
  | _ => none

/-- The power of two expressions. -/
def combine (o : Ops) (b e : Expr) : Expr :=
  if e == pole then undefined
  else if e.isZero then one
  else if e.isOne then b
  else if e == int (-1) && b.isZeroNumber then pole
  else if b == undefined || e == undefined then undefined
  else if b.isOne then
    if (o.call .abs [e]).facts.finite == Answer.no then undefined else one
  else
    let infinite := if e == infinity then toInfinity? b
      else if e == negInfinity then toInfinity? (o.inv b) else none
    match infinite with
    | some u => u
    | none =>
      -- a number in front of a product keeps no sign under an integer exponent
      let plain := ((ownLogarithm? o b e).orElse fun _ => byBase? o b e).getD (pow b e)
      match e.int?, b with
      | some n, mul (c :: us) =>
        if c.isNegativeNumber && b.isClosed then
          let p := o.pow (negated (mul (c :: us))) e
          if n % 2 = 0 then p else o.neg p
        else plain
      | _, _ => plain

end Power

end FieldWalk.Algebra
