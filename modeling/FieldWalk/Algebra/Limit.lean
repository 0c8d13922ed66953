import FieldWalk.Algebra.Simplest
import FieldWalk.Field.Snapshot
/-!
One-sided limits at the origin along the positive x axis. An expression in the radius `r` is
expanded into terms `c * exp(g) * r^p * ln(1/r)^k`, where `g` is a sum of such terms without limit;
the dominating term tells the limit. Where an oscillation has no expansion, the limit is put
together from those of the parts.
-/

namespace FieldWalk.Algebra

open FieldWalk.Algebra.Expr Numeral

namespace Limit

/-- A part of the exponent of a term that has no limit: `c * r^p * ln(1/r)^k`. -/
structure Drift where
  power : Rat
  logs : Int
  coefficient : WideComplex

/-- A term of an expansion. -/
structure Term where
  drifts : List Drift := []
  power : Rat := 0
  logs : Int := 0
  coefficient : WideComplex

/-- An expansion; terms beyond the order kept are left out. -/
abbrev Series := List Term

/-- Why there is no expansion. -/
inductive Obstacle where
  /-- An oscillation between bounds. -/
  | oscillation
  | unsupported

/-- The order up to which powers of `r` are kept. -/
def order : Rat := 12

/-- A magnitude as a double. -/
def size (z : WideComplex) : Float := z.abs.toFloat

/-- Next to nothing beside another number. -/
def negligible (z beside : WideComplex) : Bool :=
  z.isZero || (z.abs.lt (beside.abs * .ofFloat 1.0e-11))

/-- The dominating of two growths `r^p * ln(1/r)^k`. -/
def compareGrowth (p q : Rat) (j k : Int) : Ordering :=
  if p < q then .gt else if q < p then .lt else compare j k

/-- Adds a part to an exponent. -/
def addDrift (d : Drift) (ds : List Drift) : List Drift :=
  match ds with
  | [] => [d]
  | e :: es =>
    match compareGrowth d.power e.power d.logs e.logs with
    | .gt => d :: e :: es
    | .lt => e :: addDrift d es
    | .eq =>
      let c := d.coefficient.add e.coefficient
      if negligible c d.coefficient then es else { e with coefficient := c } :: es

/-- The sum of two exponents. -/
def addDrifts (ds es : List Drift) : List Drift :=
  ds.foldl (fun acc d => addDrift d acc) es

def scaleDrifts (c : WideComplex) (ds : List Drift) : List Drift :=
  ds.map fun d => { d with coefficient := d.coefficient.mul c }

/-- Whether an exponent grows, falls or stands. -/
def driftSign (ds : List Drift) : Ordering :=
  match ds.find? fun d => !d.coefficient.re.isZero with
  | some d => if d.coefficient.re.isNegative then .lt else .gt
  | none => .eq

/-- The dominating of two terms. -/
def compareTerms (s t : Term) : Ordering :=
  let diff := addDrifts s.drifts (scaleDrifts (.ofReal Wide.one.neg) t.drifts)
  (driftSign diff).then (compareGrowth s.power t.power s.logs t.logs)

/-- Two terms differ by their coefficients only. -/
def sameKind (s t : Term) : Bool :=
  s.power == t.power && s.logs == t.logs &&
    (addDrifts s.drifts (scaleDrifts (.ofReal Wide.one.neg) t.drifts)).isEmpty

/-- Adds a term to an expansion, the dominating terms first. -/
def insert (t : Term) : Series → Series
  | [] => [t]
  | s :: ss =>
    if sameKind s t then
      let c := s.coefficient.add t.coefficient
      if negligible c s.coefficient then ss else { s with coefficient := c } :: ss
    else match compareTerms t s with
      | .gt => t :: s :: ss
      | _ => s :: insert t ss

/-- A term within the order kept. -/
def isKept (t : Term) : Bool :=
  !t.coefficient.isZero && (t.drifts.isEmpty → t.power ≤ order)

def add (s t : Series) : Series :=
  t.foldl (fun acc u => insert u acc) s

def scale (c : WideComplex) (s : Series) : Series :=
  if c.isZero then [] else s.map fun t => { t with coefficient := t.coefficient.mul c }

def mulTerm (s t : Term) : Term :=
  ⟨addDrifts s.drifts t.drifts, s.power + t.power, s.logs + t.logs,
    s.coefficient.mul t.coefficient⟩

/-- The most terms of an expansion. -/
def length : Nat := 40

def mul (s t : Series) : Series :=
  (s.foldl (fun acc u => t.foldl (fun acc v =>
    let w := mulTerm u v
    if isKept w then insert w acc else acc) acc) []).take length

/-- A constant expansion. -/
def always (c : WideComplex) : Series :=
  if c.isZero then [] else [⟨[], 0, 0, c⟩]

def ofFloat (v : Float) : WideComplex := .ofReal (.ofFloat v)

/-- The imaginary unit. -/
def unit : WideComplex := ⟨.zero, .one⟩

def half : WideComplex := ofFloat 0.5

/-- The sum of `f n * d^n` from `n` on, for a small `d` and its power `p`. -/
def powerSum (f : Nat → WideComplex) (d : Series) : Nat → Nat → Series → Series → Series
  | 0, _, _, acc => acc
  | fuel + 1, n, p, acc =>
    if p.isEmpty then acc
    else powerSum f d fuel (n + 1) (mul p d) (add acc (scale (f n) p))

/-- The sum of `f n * d^n` for a small `d`. -/
def compose (f : Nat → WideComplex) (d : Series) : Series :=
  powerSum f d 50 0 (always (ofFloat 1)) []

/-- The terms with a limit of infinity, the constant, and the terms with limit zero. -/
def split (s : Series) : Series × WideComplex × Series :=
  let kind (t : Term) : Ordering := (driftSign t.drifts).then (compareGrowth t.power 0 t.logs 0)
  let large := s.filter fun t => kind t == .gt || (kind t == .eq && !t.drifts.isEmpty)
  let constant := s.filter fun t => kind t == .eq && t.drifts.isEmpty
  (large, constant.foldl (fun c t => c.add t.coefficient) (.ofReal .zero),
    s.filter fun t => kind t == .lt)

/-- The dominating term, and the rest divided by it. -/
def normalized (s : Series) : Option (Term × Series) :=
  match s with
  | [] => none
  | t :: ts =>
    match (WideComplex.ofReal .one).div? t.coefficient with
    | none => none
    | some c =>
      let inverse : Term := ⟨scaleDrifts (.ofReal Wide.one.neg) t.drifts, -t.power, -t.logs, c⟩
      some (t, (ts.map (mulTerm inverse)).filter isKept)

/-- The binomial coefficient of a real number. -/
def binomial (a : WideComplex) (n : Nat) : WideComplex :=
  (List.range n).foldl (fun (c : WideComplex) (i : Nat) =>
    ((c.mul (a.sub (.ofReal (.ofInt i)))).divReal? (.ofInt (i + 1))).getD c) (ofFloat 1)

abbrev Expansion := Except Obstacle Series

/-- A constant power. -/
def pow (s : Series) (a : Rat) : Expansion :=
  match normalized s with
  | none => if 0 < a then .ok [] else .error .unsupported
  | some (t, d) =>
    let e : WideComplex := .ofReal (.ofQuotient (a.num < 0) a.num.natAbs a.den)
    let logs : Rat := t.logs * a
    if logs.den ≠ 1 then .error .unsupported
    else match t.coefficient.pow? e with
      | none => .error .unsupported
      | some c =>
        let lead : Term := ⟨scaleDrifts e t.drifts, t.power * a, logs.num, c⟩
        .ok ((mul [lead] (compose (binomial e) d)).filter isKept)

/-- The logarithm. -/
def log (s : Series) : Expansion :=
  match normalized s with
  | none => .error .unsupported
  | some (t, d) =>
    if t.logs ≠ 0 then .error .unsupported
    else
      let power : WideComplex :=
        .ofReal (.ofQuotient (0 < t.power.num) t.power.num.natAbs t.power.den)
      let front : Series := add (always t.coefficient.log)
        (if t.power.num = 0 then [] else [⟨[], 0, 1, power⟩])
      let drifts : Series := t.drifts.map fun d => ⟨[], d.power, d.logs, d.coefficient⟩
      let coefficient (n : Nat) : WideComplex :=
        if n = 0 then .ofReal .zero
        else .ofReal (.ofQuotient (n % 2 = 0) 1 n)
      .ok (add (add front drifts) (compose coefficient d))

/-- One over the factorial. -/
def inverseFactorial (n : Nat) : WideComplex :=
  .ofReal (.ofQuotient false 1 ((List.range n).foldl (fun p i => p * (i + 1)) 1))

/-- A double as an exact rational number. -/
def exactRat (v : Wide) : Rat :=
  match expand? v.toFloat with
  | some d => let r := d.ratio; (r.1 : Rat) / r.2
  | none => 0

/-- The exponential. -/
def exp (s : Series) : Expansion :=
  let (large, c, small) := split s
  if large.any fun t => !t.drifts.isEmpty then .error .unsupported
  else
    let logs := large.filter fun t => t.power.num = 0 && t.logs = 1
    let others := large.filter fun t => !(t.power.num = 0 && t.logs = 1)
    let drifts : List Drift :=
      others.foldl (fun ds t => addDrift ⟨t.power, t.logs, t.coefficient⟩ ds) []
    let power := logs.foldl (fun p t => p - exactRat t.coefficient.re) (0 : Rat)
    let turning := logs.any fun t => !negligible ⟨t.coefficient.im, .zero⟩ t.coefficient
    let stands : Bool := match drifts with
      | [] => false
      | d :: _ => negligible ⟨d.coefficient.re, .zero⟩ d.coefficient
    if turning || stands then .error .oscillation
    else
      let lead : Term := ⟨drifts, power, 0, c.exp⟩
      .ok ((mul [lead] (compose inverseFactorial small)).filter isKept)

/-- Combines an expansion with the one for the opposite argument. -/
def evenOdd (s : Series) (turn : WideComplex) (odd : Bool) : Expansion := do
  let p ← exp (scale turn s)
  let q ← exp (scale turn.neg s)
  let sum := add p (if odd then scale (ofFloat (-1)) q else q)
  pure (scale half sum)

def sin (s : Series) : Expansion := do
  pure (scale unit.neg (← evenOdd s unit true))

def cos (s : Series) : Expansion := evenOdd s unit false

def sinh (s : Series) : Expansion := evenOdd s (ofFloat 1) true

def cosh (s : Series) : Expansion := evenOdd s (ofFloat 1) false

def div (s t : Series) : Expansion := do
  pure (mul s (← pow t (-1)))

/-- The hyperbolic tangent, from the exponential of whichever sign falls. -/
def tanh (s : Series) : Expansion := do
  let p ← exp (scale (ofFloat 2) s)
  let one := always (ofFloat 1)
  div (add p (scale (ofFloat (-1)) one)) (add p one)

def sqrt (s : Series) : Expansion := pow s (1 / 2)

/-- The inverse sine, by a logarithm. -/
def asin (s : Series) : Expansion := do
  let r ← sqrt (add (always (ofFloat 1)) (scale (ofFloat (-1)) (mul s s)))
  pure (scale unit.neg (← log (add (scale unit s) r)))

def acos (s : Series) : Expansion := do
  pure (add (always (.ofReal .halfPi)) (scale (ofFloat (-1)) (← asin s)))

def atan (s : Series) : Expansion := do
  let one := always (ofFloat 1)
  let p ← log (add one (scale unit.neg s))
  let q ← log (add one (scale unit s))
  pure (scale (unit.mul half) (add p (scale (ofFloat (-1)) q)))

def asinh (s : Series) : Expansion := do
  log (add s (← sqrt (add (mul s s) (always (ofFloat 1)))))

def acosh (s : Series) : Expansion := do
  let p ← sqrt (add s (always (ofFloat (-1))))
  let q ← sqrt (add s (always (ofFloat 1)))
  log (add s (mul p q))

def atanh (s : Series) : Expansion := do
  let one := always (ofFloat 1)
  let p ← log (add one s)
  let q ← log (add one (scale (ofFloat (-1)) s))
  pure (scale half (add p (scale (ofFloat (-1)) q)))

/-- Takes a part of every coefficient. -/
def mapCoefficients (f : WideComplex → WideComplex) (s : Series) : Series :=
  (s.map fun t => { t with coefficient := f t.coefficient }).filter isKept

def conj (s : Series) : Series := mapCoefficients (fun z => ⟨z.re, z.im.neg⟩) s

/-- The sign of the dominating term, if it is real. -/
def leadSign? (s : Series) : Option Ordering :=
  match s with
  | [] => some .eq
  | t :: _ =>
    if negligible ⟨t.coefficient.im, .zero⟩ t.coefficient then
      some (if t.coefficient.re.isNegative then .lt else .gt)
    else none

def abs (s : Series) : Expansion :=
  match leadSign? s with
  | some .lt => .ok (scale (ofFloat (-1)) s)
  | some _ => .ok s
  | none => sqrt (mul s (conj s))

/-- The integer part next to the limit. -/
def floor (s : Series) : Expansion :=
  let (large, c, small) := split s
  if !large.isEmpty || !negligible ⟨c.im, .zero⟩ (c.add (ofFloat 1)) then .error .unsupported
  else
    let n := c.re.floorInt
    let whole := ((Wide.ofInt n).sub c.re).isZero
    let down := whole && leadSign? small == some .lt
    .ok (always (.ofReal (.ofInt (if down then n - 1 else n))))

/-- The factorial to first order. -/
def factorial (s : Series) : Expansion :=
  let (large, c, small) := split s
  let v := c.re + .one
  match v.gamma?, v.digamma? with
  | some g, some d =>
    if large.isEmpty && c.im.isZero then
      .ok (add (always (.ofReal g)) (scale (.ofReal (g * d)) small))
    else .error .unsupported
  | _, _ => .error .unsupported

/-- A function of an expansion. -/
def apply (f : Func) (s : Series) : Expansion :=
  match f with
  | .sin => sin s
  | .cos => cos s
  | .tan => do div (← sin s) (← cos s)
  | .sinh => sinh s
  | .cosh => cosh s
  | .tanh => tanh s
  | .asin => asin s
  | .acos => acos s
  | .atan => atan s
  | .asinh => asinh s
  | .acosh => acosh s
  | .atanh => atanh s
  | .exp => exp s
  | .log => log s
  | .abs => abs s
  | .sign => match leadSign? s with
    | some .lt => .ok (always (ofFloat (-1)))
    | some .gt => .ok (always (ofFloat 1))
    | _ => .error .unsupported
  | .arg => match leadSign? s with
    | some .lt => .ok (always (.ofReal .pi))
    | some .gt => .ok []
    | _ => .error .unsupported
  | .re => .ok (mapCoefficients (fun z => .ofReal z.re) s)
  | .im => .ok (mapCoefficients (fun z => .ofReal z.im) s)
  | .conj => .ok (conj s)
  | .floor => floor s
  | .ceiling => do pure (scale (ofFloat (-1)) (← floor (scale (ofFloat (-1)) s)))
  | .factorial => factorial s
  | _ => .error .unsupported

/-- A rational number as a coefficient. -/
def ofRat (q : Rat) : WideComplex :=
  .ofReal (.ofQuotient (q.num < 0) q.num.natAbs q.den)

mutual
/-- The expansion of an expression in the radius. -/
def expand : Expr → Expansion
  | .rat q => .ok (always (ofRat q))
  | .float v => .ok (always (.ofReal v))
  | .const c => match c.value? with
    | some z => .ok (always z)
    | none => .error .unsupported
  | .var .radius => .ok [⟨[], 1, 0, ofFloat 1⟩]
  | .var _ => .error .unsupported
  | .pow b (.rat q) => do pow (← expand b) q
  | .pow b (.float v) => do pow (← expand b) (exactRat v)
  | .pow b e => do
    let s ← expand b
    let t ← expand e
    exp (mul t (← log s))
  | .call .interval _ => .error .oscillation
  | .call .mod _ => .error .oscillation
  | .call f us => do
    match ← expandAll us with
    | [s] => apply f s
    | _ => .error .unsupported
  | .mul us => do pure ((← expandAll us).foldl mul (always (ofFloat 1)))
  | .add us => do pure ((← expandAll us).foldl add [])
/-- The expansions of several expressions. -/
def expandAll : List Expr → Except Obstacle (List Series)
  | [] => .ok []
  | u :: us => do
    let s ← expand u
    pure (s :: (← expandAll us))
end

/-- A limit of a part. -/
inductive Value where
  | finite (z : WideComplex)
  | infinite
  /-- All values between two bounds. -/
  | between (low high : Float)

/-- The limit that an expansion shows. -/
def ofSeries (s : Series) : Value :=
  let (large, c, _) := split s
  if large.isEmpty then .finite c else .infinite

/-- All values between the least and the greatest of some. -/
def Value.spanning (v : Float) (vs : List Float) : Value :=
  .between (vs.foldl (fun a b => if b < a then b else a) v)
    (vs.foldl (fun a b => if a < b then b else a) v)

/-- The sum of two limits. -/
def Value.add? : Value → Value → Option Value
  | finite z, finite w => some (finite (z.add w))
  | infinite, infinite => none
  | infinite, _ | _, infinite => some infinite
  | between a b, between c d => some (between (a + c) (b + d))
  | between a b, finite z | finite z, between a b =>
    if z.im.isZero then some (between (a + z.re.toFloat) (b + z.re.toFloat)) else none

/-- The product of two limits; what vanishes does so against all bounds. -/
def Value.mul? : Value → Value → Option Value
  | finite z, finite w => some (finite (z.mul w))
  | infinite, finite z | finite z, infinite => if z.isZero then none else some infinite
  | infinite, _ | _, infinite => none
  | between a b, between c d => some (spanning (a * c) [a * d, b * c, b * d])
  | between a b, finite z | finite z, between a b =>
    if z.isZero then some (finite z)
    else if z.im.isZero then
      let v := z.re.toFloat
      some (spanning (a * v) [b * v])
    else none

/-- A power of all values between bounds. -/
def Value.powBetween? (a b : Float) (e : WideComplex) : Option Value :=
  let v := e.re.toFloat
  let whole := v.floor == v
  let even := (v / 2).floor == v / 2
  let holdsZero := a ≤ 0 && 0 ≤ b
  if !e.im.isZero || (v < 0 && holdsZero) || (!whole && b < 0) then none
  else if holdsZero && (even || !whole) then
    some (spanning 0 [(if whole then a.pow v else 0), b.pow v])
  else some (spanning (a.pow v) [b.pow v])

/-- The power of two limits. -/
def Value.pow? : Value → Value → Option Value
  | finite z, finite w =>
    if z.isZero then if w.re.isPositive then some (finite z) else none
    else (z.pow? w).map finite
  | between a b, finite w => powBetween? a b w
  | finite z, between a b =>
    let v := z.re.toFloat
    if z.im.isZero && 0 < v then some (spanning (v.pow a) [v.pow b]) else none
  | _, _ => none

/-- A function of limits. -/
def call? (f : Func) (vs : List Value) : Option Value :=
  match f, vs with
  | .interval, [.finite a, .finite b] => some (.between a.re.toFloat b.re.toFloat)
  | .sin, [.infinite] | .cos, [.infinite] => some (.between (-1) 1)
  | .mod, [.finite a, .finite b] =>
    if b.isZero then none
    else match a.re.div? b.re with
      | some q => some (.finite (.ofReal (a.re.sub ((Wide.ofInt q.floorInt).mul b.re))))
      | none => none
  | .sin, [.between ..] | .cos, [.between ..] => some (.between (-1) 1)
  | .exp, [.between a b] => some (.between a.exp b.exp)
  | .log, [.between a b] => if 0 < a then some (.between a.log b.log) else none
  | .abs, [.between a b] => some (.spanning a.abs [b.abs])
  | .sinh, [.between a b] | .cosh, [.between a b] | .tanh, [.between a b] => some (.between a b)
  | f, [.finite z] => (f.value? [z]).map .finite
  | _, _ => none

/-- The limit of parts that have expansions, taken together, and of the other parts. -/
def gather (start : Series) (step : Series → Series → Series)
    (parts : List (Expansion × Option Value)) : Option (List Value) := do
  let steady := parts.foldl (fun s p => match p.1 with
    | .ok t => step s t
    | .error _ => s) start
  let turning ← parts.filterMapM fun p => match p.1, p.2 with
    | .ok _, _ => some none
    | .error .unsupported, _ => none
    | .error .oscillation, v => v.map some
  pure (ofSeries steady :: turning)

mutual
/-- The limit put together from those of the parts; none if that fails. -/
def assemble : Expr → Option Value
  | .call f us => match expand (.call f us) with
    | .ok s => some (ofSeries s)
    | .error .unsupported => none
    | .error .oscillation => do call? f (← assembleAll us)
  | .mul us => match expand (.mul us) with
    | .ok s => some (ofSeries s)
    | .error .unsupported => none
    | .error .oscillation => do
      let vs ← gather (always (ofFloat 1)) mul (assembleParts us)
      vs.foldlM Value.mul? (.finite (ofFloat 1))
  | .add us => match expand (.add us) with
    | .ok s => some (ofSeries s)
    | .error .unsupported => none
    | .error .oscillation => do
      let vs ← gather [] add (assembleParts us)
      vs.foldlM Value.add? (.finite (ofFloat 0))
  | .pow b e => match expand (.pow b e) with
    | .ok s => some (ofSeries s)
    | .error .unsupported => none
    | .error .oscillation => do Value.pow? (← assemble b) (← assemble e)
  | u => match expand u with
    | .ok s => some (ofSeries s)
    | .error _ => none
/-- The limits of several expressions. -/
def assembleAll : List Expr → Option (List Value)
  | [] => some []
  | u :: us => do
    let v ← assemble u
    pure (v :: (← assembleAll us))
/-- The expansions and limits of several expressions. -/
def assembleParts : List Expr → List (Expansion × Option Value)
  | [] => []
  | u :: us => (expand u, assemble u) :: assembleParts us
end

end Limit

/-- The limit that a number tells: it has to be real within rounding. -/
def limitOfNumber (z : WideComplex) : Field.RadialLimit Float :=
  let tiny := z.im.isZero || z.im.abs.toFloat ≤ 1.0e-10 * z.re.abs.toFloat ||
    z.im.abs.toFloat ≤ 1.0e-13
  if tiny && z.re.isFinite then .value z.re.toFloat else .unknown

/-- The limit of the height along the positive x axis towards the origin. -/
def Expr.radialLimit (u : Expr) : Field.RadialLimit Float :=
  let e := u.substitute fun
    | .x => some (.var .radius)
    | .y => some zero
    | _ => none
  let isInterval (v : Expr) : Bool := v matches call .interval _
  let isUnbounded (v : Expr) : Bool := v matches call .interval (const _ :: _)
  if !e.mentions .radius then
    if e.has isUnbounded then .unknown
    else if e.has isInterval then .oscillates
    else match e with
      | .rat _ | .float _ => match e.toWide? with
        | some v => limitOfNumber (.ofReal v)
        | none => .unknown
      | e =>
        if e.facts.real == Answer.no then .unknown
        else match e.value? with
          | some z => limitOfNumber z
          | none => .unknown
  else if e.has fun v => v == undefined || v == infinity || v == negInfinity || v == pole then
    .unknown
  else match Limit.expand e with
    | .ok s => match Limit.ofSeries s with
      | .finite z => limitOfNumber z
      | _ => .unknown
    | .error .unsupported => .unknown
    | .error .oscillation => match Limit.assemble e with
      | some (.finite z) => limitOfNumber z
      | some (.between ..) => .oscillates
      | _ => .unknown

end FieldWalk.Algebra
