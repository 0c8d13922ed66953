import FieldWalk.Algebra.Ops
/-!
Values of functions: exact values at special arguments, functions of their inverses, and the sign
of the argument brought outside. Where no rule applies the call stays as it is.
-/

namespace FieldWalk.Algebra

open FieldWalk.Algebra.Expr Numeral

namespace Elementary

/-- The value of a function of a float. -/
def ofFloat? (o : Ops) (f : Func) (v : Wide) : Option Expr :=
  match f.value? [.ofReal v] with
  | some z =>
    if z.im.isZero then some (float z.re)
    else some (o.add [float z.re, o.mul [float z.im, imaginaryUnit]])
  | none => none

/-- The multiple of pi that an argument is. -/
def turns? (u : Expr) : Option Expr :=
  if u.isZero then some zero
  else match u with
    | float _ => none
    | _ => match u.beside? pi with
      | some c => some (match c.splitCoefficient with
        | (float v, r) =>
          let s := v.shift 8
          let n := s.floorInt
          if ((Wide.ofInt n).sub s).isZero then
            let q : Rat := (n : Rat) / 256
            if r.isOne then rat q else ofFactors (rat q :: r.factors)
          else c
        | _ => c)
      | none => none

/-- Twelfths of a half turn at which the cosine is a root of a rational number. -/
def exactCosine? (o : Ops) (t : Rat) : Option Expr :=
  -- reduced to the first half turn
  let t := t - 2 * ((t / 2).floor : Rat)
  let t := if 1 < t then 2 - t else t
  let (sign, t) : Rat × Rat := if 1 / 2 < t then (-1, 1 - t) else (1, t)
  if t == 0 then some (rat sign)
  else if t == 1 / 2 then some zero
  else if t == 1 / 3 then some (rat (sign / 2))
  else if t == 1 / 4 then some (o.mul [rat (sign / 2), o.sqrt two])
  else if t == 1 / 6 then some (o.mul [rat (sign / 2), o.sqrt (int 3)])
  else none

/-- A sum split into the multiple of pi in quarter turns and the rest. -/
def peelTurns? (o : Ops) (us : List Expr) : Option (Rat × Expr) :=
  let turns (u : Expr) : Option Rat := (u.beside? pi).bind rat?
  let total := us.foldl (fun acc u => acc + (turns u).getD 0) (0 : Rat)
  let rest := us.filter fun u => (turns u).isNone
  if total.num = 0 then none
  else
    let part := total - ((2 * total).floor : Rat) / 2
    let whole := total - part
    if whole.num = 0 then none
    else some (whole, o.add (rest ++ [o.mul [rat part, pi]]))

/-- An infinite real argument gives all values of an oscillation. -/
def oscillation : Expr := call .interval [int (-1), one]

def sin? (o : Ops) (u : Expr) : Option Expr :=
  if u == infinity || u == negInfinity then some oscillation
  else if u == pole then some undefined
  else if u.leadsWithMinus then some (o.neg (o.call .sin [o.neg u]))
  else match u.besideImaginary? with
  | some v => some (o.mul [imaginaryUnit, o.call .sinh [v]])
  | none => match turns? u with
    | some t => match t.rat? with
      | some q => exactCosine? o (q - 1 / 2)
      | none => if t.facts.integer == Answer.yes then some zero else none
    | none => match u with
      | add us => (peelTurns? o us).map fun (m, r) =>
        let m := o.mul [rat m, pi]
        o.add [o.mul [o.call .sin [m], o.call .cos [r]], o.mul [o.call .cos [m], o.call .sin [r]]]
      | call .asin [v] => some v
      | call .acos [v] => some (o.sqrt (o.sub one (o.square v)))
      | call .atan [v] => some (o.div v (o.sqrt (o.add [one, o.square v])))
      | call .atan2 [v, w] => some (o.div v (o.sqrt (o.add [o.square w, o.square v])))
      | _ => none

def cos? (o : Ops) (u : Expr) : Option Expr :=
  if u == infinity || u == negInfinity then some oscillation
  else if u == pole then some undefined
  else if u.leadsWithMinus then some (o.call .cos [o.neg u])
  else match u.besideImaginary? with
  | some v => some (o.call .cosh [v])
  | none => match turns? u with
    | some t => match t.rat? with
      | some q => exactCosine? o q
      | none => none
    | none => match u with
      | add us => (peelTurns? o us).map fun (m, r) =>
        let m := o.mul [rat m, pi]
        o.sub (o.mul [o.call .cos [m], o.call .cos [r]]) (o.mul [o.call .sin [m], o.call .sin [r]])
      | call .acos [v] => some v
      | call .asin [v] => some (o.sqrt (o.sub one (o.square v)))
      | call .atan [v] => some (o.inv (o.sqrt (o.add [one, o.square v])))
      | call .atan2 [v, w] => some (o.div w (o.sqrt (o.add [o.square w, o.square v])))
      | _ => none

def tan? (o : Ops) (u : Expr) : Option Expr :=
  if u == infinity || u == negInfinity then some (call .interval [negInfinity, infinity])
  else if u == pole then some undefined
  else if u.leadsWithMinus then some (o.neg (o.call .tan [o.neg u]))
  else match u.besideImaginary? with
  | some v => some (o.mul [imaginaryUnit, o.call .tanh [v]])
  | none => match turns? u with
    | some t => match t.rat? with
      | some q =>
        match exactCosine? o (q - 1 / 2), exactCosine? o q with
        | some s, some c => if c.isZero then some pole else some (o.div s c)
        | _, _ => none
      | none => if t.facts.integer == Answer.yes then some zero else none
    | none => match u with
      | add us => (peelTurns? o us).map fun (m, r) =>
        if m.den = 1 then o.call .tan [r]
        else o.neg (o.div (o.call .cos [r]) (o.call .sin [r]))
      | call .atan [v] => some v
      | call .asin [v] => some (o.div v (o.sqrt (o.sub one (o.square v))))
      | call .acos [v] => some (o.div (o.sqrt (o.sub one (o.square v))) v)
      | call .atan2 [v, w] => some (o.div v w)
      | _ => none

/-- The inverse hyperbolic function of an argument, for the two functions of a ratio of sides. -/
def sinh? (o : Ops) (u : Expr) : Option Expr :=
  if u == infinity || u == negInfinity then some u
  else if u.isZero then some zero
  else if u == pole then some undefined
  else match u.besideImaginary? with
  | some v => some (o.mul [imaginaryUnit, o.call .sin [v]])
  | none =>
    if u.leadsWithMinus then some (o.neg (o.call .sinh [o.neg u]))
    else match u with
      | call .asinh [v] => some v
      | call .acosh [v] => some (o.mul [o.sqrt (o.sub v one), o.sqrt (o.add [v, one])])
      | call .atanh [v] => some (o.div v (o.sqrt (o.sub one (o.square v))))
      | _ => none

def cosh? (o : Ops) (u : Expr) : Option Expr :=
  if u == infinity || u == negInfinity then some infinity
  else if u.isZero then some one
  else if u == pole then some undefined
  else match u.besideImaginary? with
  | some v => some (o.call .cos [v])
  | none =>
    if u.leadsWithMinus then some (o.call .cosh [o.neg u])
    else match u with
      | call .asinh [v] => some (o.sqrt (o.add [one, o.square v]))
      | call .acosh [v] => some v
      | call .atanh [v] => some (o.inv (o.sqrt (o.sub one (o.square v))))
      | _ => none

def tanh? (o : Ops) (u : Expr) : Option Expr :=
  if u == infinity then some one
  else if u == negInfinity then some (int (-1))
  else if u.isZero then some zero
  else if u == pole then some undefined
  else match u.besideImaginary? with
  | some v => some (o.mul [imaginaryUnit, o.call .tan [v]])
  | none =>
    if u.leadsWithMinus then some (o.neg (o.call .tanh [o.neg u]))
    else match u with
      | call .asinh [v] => some (o.div v (o.sqrt (o.add [one, o.square v])))
      | call .acosh [v] =>
        some (o.div (o.mul [o.sqrt (o.sub v one), o.sqrt (o.add [v, one])]) v)
      | call .atanh [v] => some v
      | _ => none

/-- The multiple of pi whose sine is a given number. -/
def arcsine? (o : Ops) (u : Expr) : Option Rat :=
  [(zero, (0 : Rat)), (half, 1 / 6), (one, 1 / 2), (o.mul [half, o.sqrt two], 1 / 4),
    (o.mul [half, o.sqrt (int 3)], 1 / 3)].findSome? fun (v, t) => if v == u then some t else none

def asin? (o : Ops) (u : Expr) : Option Expr :=
  if u == infinity then some (o.mul [negInfinity, imaginaryUnit])
  else if u == negInfinity then some (o.mul [infinity, imaginaryUnit])
  else if u == pole then some pole
  else if u.leadsWithMinus then some (o.neg (o.call .asin [o.neg u]))
  else match arcsine? o u with
    | some t => some (o.mul [rat t, pi])
    | none => match u.besideImaginary? with
      | some v => some (o.mul [imaginaryUnit, o.call .asinh [v]])
      | none => none

def acos? (o : Ops) (u : Expr) : Option Expr :=
  if u == infinity then some (o.mul [infinity, imaginaryUnit])
  else if u == negInfinity then some (o.mul [negInfinity, imaginaryUnit])
  else if u == pole then some pole
  else
    let minus := u.leadsWithMinus
    match arcsine? o (if minus then o.neg u else u) with
    | some t => some (o.mul [rat (1 / 2 - if minus then -t else t), pi])
    | none => match u.besideImaginary? with
      | some v => some (o.sub (o.mul [half, pi]) (o.mul [imaginaryUnit, o.call .asinh [v]]))
      | none => none

def atan? (o : Ops) (u : Expr) : Option Expr :=
  if u == infinity then some (o.mul [half, pi])
  else if u == negInfinity then some (o.mul [rat (-1 / 2), pi])
  else if u == pole then some (call .interval [o.mul [rat (-1 / 2), pi], o.mul [half, pi]])
  else if u.leadsWithMinus then some (o.neg (o.call .atan [o.neg u]))
  else if u.isZero then some zero
  else if u.isOne then some (o.mul [rat (1 / 4), pi])
  else if u == o.sqrt (int 3) then some (o.mul [rat (1 / 3), pi])
  else if u == o.mul [rat (1 / 3), o.sqrt (int 3)] then some (o.mul [rat (1 / 6), pi])
  else match u.besideImaginary? with
    | some v => some (o.mul [imaginaryUnit, o.call .atanh [v]])
    | none => none

def asinh? (o : Ops) (u : Expr) : Option Expr :=
  if u == infinity || u == negInfinity then some u
  else if u.isZero then some zero
  else if u == pole then some pole
  else match u.besideImaginary? with
    | some v => some (o.mul [imaginaryUnit, o.call .asin [v]])
    | none => if u.leadsWithMinus then some (o.neg (o.call .asinh [o.neg u])) else none

def acosh? (o : Ops) (u : Expr) : Option Expr :=
  if u == infinity || u == negInfinity then some infinity
  else if u == pole then some pole
  else if u.isZero then some (o.mul [half, pi, imaginaryUnit])
  else if u.isOne then some zero
  else if u == int (-1) then some (o.mul [pi, imaginaryUnit])
  else none

def atanh? (o : Ops) (u : Expr) : Option Expr :=
  if u.isZero then some zero
  else if u.isOne then some infinity
  else if u == int (-1) then some negInfinity
  else if u == infinity then some (o.mul [rat (-1 / 2), pi, imaginaryUnit])
  else if u == negInfinity then some (o.mul [half, pi, imaginaryUnit])
  else match u.besideImaginary? with
    | some v => some (o.mul [imaginaryUnit, o.call .atan [v]])
    | none => if u.leadsWithMinus then some (o.neg (o.call .atanh [o.neg u])) else none

/-- The exponential of a product: turns of the circle, and a single logarithm with numbers. -/
def expProduct? (o : Ops) (us : List Expr) : Option Expr :=
  let turns := (((mul us).besideImaginary?).bind (·.beside? pi)).bind rat?
  match turns with
  | some t =>
    if t.den ≤ 2 then
      let (sign, unit) := unitRoot t
      some (o.mul (rat sign :: unit))
    else
      let s := t - 2 * ((t / 2).floor : Rat)
      let s := if 1 < s then s - 2 else s
      if s == t then none else some (o.call .exp [o.mul [rat s, pi, imaginaryUnit]])
  | none =>
    let (c, r) := (mul us).splitCoefficient
    if c == infinity || c == negInfinity then
      match (if c == infinity then r else o.neg r).value? with
      | some z =>
        if z.re.isZero then some undefined
        else if z.re.isNegative then some zero
        else if z.im.isZero then none else some pole
      | none => none
    else
      let logs := r.factors.filterMap fun u => match u with
        | call .log [v] => if u.isClosed then none else some v
        | _ => none
      let others := r.factors.filter fun u => match u with
        | call .log [_] => u.isClosed
        | _ => true
      let closedLogs := others.filterMap fun u => match u with
        | call .log [v] => some v
        | _ => none
      let numeric := others.all fun u => u.isClosed && u.realValue?.isSome
      match logs, closedLogs with
      | [v], [] => if numeric then some (o.pow v (o.mul (c :: others))) else none
      | [], [v] =>
        let rest := others.filter fun u => !(u matches call .log _)
        if numeric then some (o.pow v (o.mul (c :: rest))) else none
      | _, _ => none

def exp? (o : Ops) (u : Expr) : Option Expr :=
  if u == infinity then some infinity
  else if u == negInfinity then some zero
  else if u == pole then some undefined
  else if u.isZero then some one
  else if u.isOne then some euler
  else if u == imaginaryUnit then none
  else match u with
    | call .log [v] => some v
    | mul us => expProduct? o us
    | add us =>
      let stays (a : Expr) : Bool × Expr :=
        if a.isOne then (true, a)
        else match o.call .exp [a] with
          | call .exp [b] => (true, b)
          | b => (false, b)
      let parts := us.map stays
      let out := parts.filter fun p => !p.1
      let kept := (parts.filter (·.1)).map (·.2)
      if out.isEmpty && kept == us then none
      else
        let rest := o.add kept
        let tail := if rest.isZero then [] else [if rest.isOne then euler else call .exp [rest]]
        some (o.mul (out.map (·.2) ++ tail))
    | _ => none

def log? (o : Ops) (u : Expr) : Option Expr :=
  if u.isZeroNumber then some pole
  else if u.isOne then some zero
  else if u == infinity || u == negInfinity then some infinity
  else if u == pole then some pole
  else match u with
    | rat q =>
      if q.num = 1 then some (o.neg (o.call .log [rat q.den]))
      else if q.num < 0 then
        some (o.add [o.mul [pi, imaginaryUnit], o.call .log [rat (-q)]])
      else none
    | const .euler => some one
    | call .exp [v] => if v.facts.real == Answer.yes then some v else none
    | u =>
      if u.isClosed && u.facts.negative == Answer.yes then
        some (o.add [o.mul [pi, imaginaryUnit], o.call .log [o.neg u]])
      else match u.besideImaginary?.bind rat? with
        | some q =>
          let size : Rat := if q < 0 then -q else q
          some (o.add [o.mul [rat (if q < 0 then -1 / 2 else 1 / 2), pi, imaginaryUnit],
            o.call .log [rat size]])
        | none => none

/-- How often a base divides a number exactly, for integers. -/
def multiplicity (b n : Nat) : Nat :=
  if b < 2 || n = 0 then 0 else (splitPrime b (n.log2 + 1) n).1

/-- The logarithm to a base. -/
def logBase (o : Ops) (u b : Expr) : Expr :=
  if b.isOne then (if u.isOne then undefined else pole)
  else match u.int?, b.int? with
    | some n, some m =>
      let k := if 0 < n && 1 < m then multiplicity m.toNat n.toNat else 0
      if k = 0 then o.div (o.call .log [u]) (o.call .log [b])
      else
        let rest := rat ((n : Rat) / ((m : Rat) ^ k))
        o.add [int k, o.div (o.call .log [rest]) (o.call .log [b])]
    | _, _ =>
      if b == euler then o.call .log [u] else o.div (o.call .log [u]) (o.call .log [b])

mutual
/-- Real and imaginary part, where the form shows them. -/
def realImag? (o : Ops) : Expr → Option (Expr × Expr)
  | rat q => some (rat q, zero)
  | float v => some (float v, zero)
  | const .imaginaryUnit => some (zero, one)
  | const .pole => none
  | const c => some (const c, zero)
  | var v => if v matches .other _ then none else some (var v, zero)
  | add us => do
    let ps ← realImagAll? o us
    pure (o.add (ps.map (·.1)), o.add (ps.map (·.2)))
  | mul us => do
    let ps ← realImagAll? o us
    let reals := ps.filter fun p => p.2.isZero
    let others := ps.filter fun p => !p.2.isZero
    let z := others.foldl (fun (a : Expr × Expr) p =>
      (o.sub (o.mul [a.1, p.1]) (o.mul [a.2, p.2]), o.add [o.mul [a.1, p.2], o.mul [a.2, p.1]]))
      (one, zero)
    let c := o.mul (reals.map (·.1))
    pure (o.mul [c, z.1], o.mul [c, z.2])
  | pow b (rat q) => do
    let (x, y) ← realImag? o b
    if !y.isZero then none
    else if q.den = 1 || x.facts.nonnegative == Answer.yes then pure (pow b (rat q), zero)
    else
      let size := o.pow (o.call .abs [x]) (rat q)
      let angle := o.mul [rat q, o.call .atan2 [zero, x]]
      pure (o.mul [size, o.call .cos [angle]], o.mul [size, o.call .sin [angle]])
  | pow b e =>
    if (pow b e).facts.real == Answer.yes then some (pow b e, zero) else none
  | call .exp [u] => do
    let (x, y) ← realImag? o u
    let size := o.call .exp [x]
    if y.isZero then pure (size, zero)
    else pure (o.mul [size, o.call .cos [y]], o.mul [size, o.call .sin [y]])
  | call .log [u] =>
    if u.facts.nonnegative == Answer.yes then some (call .log [u], zero)
    else some (o.call .log [o.call .abs [u]], o.call .arg [u])
  | call f us =>
    if (call f us).facts.real == Answer.yes then some (call f us, zero) else none
/-- Real and imaginary parts of several expressions. -/
def realImagAll? (o : Ops) : List Expr → Option (List (Expr × Expr))
  | [] => some []
  | u :: us => do
    let p ← realImag? o u
    let ps ← realImagAll? o us
    pure (p :: ps)
end

/-- The real part. -/
def realPart (o : Ops) (u : Expr) : Expr :=
  if u.facts.real == Answer.yes then u
  else match realImag? o u with
    | some p => p.1
    | none => call .re [u]

/-- The imaginary part. -/
def imagPart (o : Ops) (u : Expr) : Expr :=
  if u.facts.real == Answer.yes then zero
  else match realImag? o u with
    | some p => p.2
    | none => call .im [u]

/-- The magnitude of a factor, if it can be told without a sign of magnitude. -/
def factorAbs? (o : Ops) (u : Expr) : Option Expr :=
  match u with
  | pow b (rat q) =>
    if q.den = 1 && q.num < 0 then
      match o.call .abs [b] with
      | call .abs _ => none
      | v => some (o.pow v (rat q))
    else match o.call .abs [u] with
      | call .abs _ => none
      | v => some v
  | u => match o.call .abs [u] with
    | call .abs _ => none
    | v => some v

/-- The magnitude of a power. -/
def absPower? (o : Ops) (b e : Expr) : Option Expr :=
  let bf := b.facts
  if bf.real == Answer.yes then
    if e.facts.integer == Answer.yes then
      if e.facts.even == Answer.yes then some (pow b e)
      else if b == int (-1) then some one
      else some (o.pow (o.call .abs [b]) e)
    else if bf.nonnegative == Answer.yes then some (o.pow b (realPart o e))
    else if bf.negative == Answer.yes then
      some (o.mul [o.pow (o.neg b) (realPart o e),
        o.call .exp [o.mul [int (-1), pi, imagPart o e]]])
    else none
  else if b.isClosed then
    match realImag? o (o.call .log [b]) with
    | some (x, y) =>
      some (o.call .exp [realPart o (o.mul [e, o.add [x, o.mul [imaginaryUnit, y]]])])
    | none => none
  else none

def abs? (o : Ops) (u : Expr) : Option Expr :=
  match u with
  | const .undefined => some undefined
  | const .pole => some infinity
  | mul us =>
    -- a constant over a variable quantity
    let (below, above) := us.partition fun
      | pow _ (rat q) => q.num < 0
      | _ => false
    let free (us : List Expr) : Bool := !(unknownsOf us).isEmpty
    if free below && !free above then
      some (o.div (o.call .abs [ofFactors above]) (o.call .abs [o.inv (ofFactors below)]))
    else
      let known := us.filterMap (factorAbs? o)
      let unknown := us.filter fun v => (factorAbs? o v).isNone
      if known.isEmpty then
        if u.leadsWithMinus then some (call .abs [negated u]) else none
      else
        let rest := if unknown.isEmpty then [] else [call .abs [ofFactors unknown]]
        some (o.mul (known ++ rest))
  | pow b (rat q) =>
    if q.den = 1 && q.num < 0 && !b.isClosed then some (o.inv (o.call .abs [o.pow b (rat (-q))]))
    else absPower? o b (rat q)
  | pow b e => absPower? o b e
  | call .exp [v] => some (o.call .exp [realPart o v])
  | u =>
    let f := u.facts
    if f.zero == Answer.yes then some zero
    else if f.nonnegative == Answer.yes then some u
    else if f.nonpositive == Answer.yes then some (o.neg u)
    else if u == imaginaryUnit then some one
    else if f.real == Answer.yes then
      if u.leadsWithMinus then some (call .abs [o.neg u]) else none
    else match u with
      | add us =>
        if us.any fun v => v == infinity || v == negInfinity then some infinity
        else
          -- the form shows both parts: the length of the vector
          let plain := !u.has fun
            | call _ _ => true
            | pow _ e => e.int?.isNone
            | _ => false
          match realImag? o u with
          | some (x, y) => if plain then some (o.sqrt (o.add [o.square x, o.square y])) else
            if u.leadsWithMinus then some (call .abs [o.neg u]) else none
          | none => if u.leadsWithMinus then some (call .abs [o.neg u]) else none
      | _ => none

def sign? (o : Ops) (u : Expr) : Option Expr :=
  let f := u.facts
  if f.zero == Answer.yes then some zero
  else if f.positive == Answer.yes then some one
  else if f.negative == Answer.yes then some (int (-1))
  else match u with
    | mul us =>
      let minus := us.countP (·.facts.negative == Answer.yes)
      let unknown := us.filter fun v =>
        v.facts.negative != Answer.yes && v.facts.positive != Answer.yes
      if unknown.length = us.length then none
      else
        let s := call .sign [ofFactors unknown]
        some (if minus % 2 = 1 then o.neg s else s)
    | const .imaginaryUnit => some u
    | _ => none

/-- Rounding: whole terms come out. -/
def rounded? (o : Ops) (up : Bool) (u : Expr) : Option Expr :=
  let f : Func := if up then .ceiling else .floor
  let whole (v : Wide) : Expr := int (if up then -(v.neg.floorInt) else v.floorInt)
  match u with
  | rat q => some (int (if up then -((-q).floor) else q.floor))
  | const .infinity => some u
  | const .negInfinity => some u
  | u =>
    match (if u.isClosed then u.realValue? else none) with
    | some v => some (whole v)
    | none =>
      let (inside, outside) := u.terms.partition fun t => t.facts.integer != Answer.yes
      if inside.isEmpty then some u
      else match inside with
        | [call .floor vs] => some (o.add (outside ++ [call .floor vs]))
        | [call .ceiling vs] => some (o.add (outside ++ [call .ceiling vs]))
        | _ =>
          if outside.isEmpty then none
          else some (o.add (outside ++ [call f [ofTerms inside]]))

/-- The remainder, with the sign of the divisor. -/
def mod? (o : Ops) (u v : Expr) : Option Expr :=
  if v.facts.zero == Answer.yes then some undefined
  else if u.facts.finite == Answer.no || v.facts.finite == Answer.no then some undefined
  else if u.isZero || u == v || u == negated v then some zero
  else if v.isOne && u.facts.integer == Answer.yes then some zero
  else match u, v with
    | rat p, rat q => some (rat (p - q * ((p / q).floor : Rat)))
    | _, _ =>
      let ratio := o.div u v
      if ratio.facts.integer == Answer.yes then some zero
      else if u.isClosed && v.isClosed then
        match ratio.realValue? with
        | some r => some (o.sub u (o.mul [int r.floorInt, v]))
        | none => none
      else match u with
        | call .mod [a, b] => if b == v then some (call .mod [a, v]) else none
        | _ => none

/-- The factorial of a natural number. -/
def naturalFactorial (n : Nat) : Nat :=
  (List.range n).foldl (fun p i => p * (i + 1)) 1

/-- The product of every second number down from `n`. -/
def naturalDoubleFactorial (n : Nat) : Nat :=
  (List.range n).foldl (fun p i => if i % 2 = 0 then p * (n - i) else p) 1

def factorial? (u : Expr) : Option Expr :=
  match u with
  | const .infinity => some infinity
  | const .undefined => some undefined
  | u => match u.int? with
    | some n => if n < 0 then some pole else some (int (naturalFactorial n.toNat))
    | none => none

def doubleFactorial? (u : Expr) : Option Expr :=
  match u.int? with
  | some n => if n < 0 then none else some (int (naturalDoubleFactorial n.toNat))
  | none => none

def arg? (o : Ops) (u : Expr) : Option Expr :=
  let f := u.facts
  if f.positive == Answer.yes then some zero
  else if f.negative == Answer.yes then some pi
  else match u with
    | const .imaginaryUnit => some (o.mul [half, pi])
    | mul (c :: us) =>
      if c.isNumber && !c.isNegativeNumber && !c.isZeroNumber then
        some (o.call .arg [ofFactors us])
      else none
    | _ => none

def conj? (o : Ops) (u : Expr) : Option Expr :=
  if u.facts.real == Answer.yes then some u
  else match u with
    | const .imaginaryUnit => some (o.neg u)
    | add us => some (o.add (us.map fun v => o.call .conj [v]))
    | mul us => some (o.mul (us.map fun v => o.call .conj [v]))
    | call .exp [v] => some (o.call .exp [o.call .conj [v]])
    | _ => none

def atan2? (o : Ops) (y x : Expr) : Option Expr :=
  if y.isZero then
    if x.facts.positive == Answer.yes then some zero
    else if x.facts.negative == Answer.yes then some pi
    else if x.isZero then some undefined else none
  else if x.facts.positive == Answer.yes then some (o.call .atan [o.div y x])
  else if x.isZero && y.facts.positive == Answer.yes then some (o.mul [half, pi])
  else if x.isZero && y.facts.negative == Answer.yes then some (o.mul [rat (-1 / 2), pi])
  else none

/-- The rule of a function for its arguments. -/
def rule? (o : Ops) (f : Func) (us : List Expr) : Option Expr :=
  match f, us with
  | .sin, [u] => sin? o u
  | .cos, [u] => cos? o u
  | .tan, [u] => tan? o u
  | .sinh, [u] => sinh? o u
  | .cosh, [u] => cosh? o u
  | .tanh, [u] => tanh? o u
  | .asin, [u] => asin? o u
  | .acos, [u] => acos? o u
  | .atan, [u] => atan? o u
  | .asinh, [u] => asinh? o u
  | .acosh, [u] => acosh? o u
  | .atanh, [u] => atanh? o u
  | .atan2, [u, v] => atan2? o u v
  | .exp, [u] => exp? o u
  | .log, [u] => log? o u
  | .abs, [u] => abs? o u
  | .sign, [u] => sign? o u
  | .re, [u] => some (realPart o u)
  | .im, [u] => some (imagPart o u)
  | .arg, [u] => arg? o u
  | .conj, [u] => conj? o u
  | .floor, [u] => rounded? o false u
  | .ceiling, [u] => rounded? o true u
  | .mod, [u, v] => mod? o u v
  | .factorial, [u] => factorial? u
  | .doubleFactorial, [u] => doubleFactorial? u
  | _, _ => none

/-- Functions that keep a value that is no number. -/
def keepsUndefined : Func → Bool
  | .unnamed _ | .formal _ | .interval => false
  | _ => true

/-- The value of a function. -/
def combine (o : Ops) (f : Func) (us : List Expr) : Expr :=
  if keepsUndefined f && us.any (· == undefined) then undefined
  else match us with
    | [float v] => match f with
      | .floor | .ceiling | .factorial | .doubleFactorial => (rule? o f us).getD (call f us)
      | .log => if v.isZero then pole else (ofFloat? o f v).getD (call f us)
      | _ => (ofFloat? o f v).getD ((rule? o f us).getD (call f us))
    | us => (rule? o f us).getD (call f us)

end Elementary

end FieldWalk.Algebra
