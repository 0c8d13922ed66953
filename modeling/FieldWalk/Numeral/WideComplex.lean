import FieldWalk.Numeral.Wide
/-!
Complex numbers with wide parts and the principal branches of the elementary functions. Products
that cancel exactly give an exact zero, so that a value is real again once its imaginary part
cancels.
-/

namespace FieldWalk.Numeral

/-- A complex number. -/
structure WideComplex where
  re : Wide
  im : Wide
deriving Inhabited

/-- The two halves of a double's bits. -/
def splitBits (a : Float) : Float × Float :=
  let c := 134217729.0 * a
  let high := c - (c - a)
  (high, a - high)

/-- What rounding loses of a product. -/
def productError (a b : Float) : Float :=
  let p := a * b
  let (ah, al) := splitBits a
  let (bh, bl) := splitBits b
  ((ah * bh - p) + ah * bl + al * bh) + al * bl

/-- The sum `a * b + c * d`, without loss where the products cancel. -/
def sumOfProducts (a b c d : Wide) : Wide :=
  let p := a.mul b
  let q := c.mul d
  let s := p.add q
  if a.scale = 0 && b.scale = 0 && c.scale = 0 && d.scale = 0 && p.scale = 0 && q.scale = 0
      && p.mantissa.abs < 1.0e200 && q.mantissa.abs < 1.0e200
      && a.mantissa.abs < 1.0e200 && b.mantissa.abs < 1.0e200 && c.mantissa.abs < 1.0e200
      && d.mantissa.abs < 1.0e200 && p.mantissa.abs > 1.0e-200 && q.mantissa.abs > 1.0e-200
      && s.mantissa.abs < 1.0e-3 * p.mantissa.abs then
    s.add (.ofFloat (productError a.mantissa b.mantissa + productError c.mantissa d.mantissa))
  else s

namespace WideComplex

/-- A real number. -/
def ofReal (a : Wide) : WideComplex := ⟨a, .zero⟩

def isReal (z : WideComplex) : Bool := z.im.isZero
def isZero (z : WideComplex) : Bool := z.re.isZero && z.im.isZero

def add (z w : WideComplex) : WideComplex := ⟨z.re.add w.re, z.im.add w.im⟩
def neg (z : WideComplex) : WideComplex := ⟨z.re.neg, z.im.neg⟩
def sub (z w : WideComplex) : WideComplex := z.add w.neg

def mul (z w : WideComplex) : WideComplex :=
  ⟨sumOfProducts z.re w.re z.im.neg w.im, sumOfProducts z.re w.im z.im w.re⟩

/-- The magnitude. -/
def abs (z : WideComplex) : Wide := z.re.hypot z.im

/-- Each part divided by a real number. -/
def divReal? (z : WideComplex) (a : Wide) : Option WideComplex := do
  let re ← z.re.div? a
  let im ← z.im.div? a
  pure ⟨re, im⟩

/-- The quotient; none for a divisor of zero. -/
def div? (z w : WideComplex) : Option WideComplex :=
  if w.isReal then z.divReal? w.re
  else
    let size := w.re.mul w.re |>.add (w.im.mul w.im)
    let p : WideComplex := ⟨sumOfProducts z.re w.re z.im w.im,
      sumOfProducts z.im w.re z.re.neg w.im⟩
    p.divReal? size

def exp (z : WideComplex) : WideComplex :=
  if z.im.isZero then ofReal z.re.exp
  else
    let size := z.re.exp
    if z.re.isZero then ⟨z.im.cos, z.im.sin⟩
    else ⟨size.mul z.im.cos, size.mul z.im.sin⟩

/-- The angle. -/
def arg (z : WideComplex) : Wide := Wide.atan2 z.im z.re

/-- The logarithm of the magnitude, accurate near magnitude one. -/
def logAbs (z : WideComplex) : Wide :=
  if z.im.isZero then z.re.abs.log
  else if z.re.isZero then z.im.abs.log
  else
    let size := z.abs
    if size.scale = 0 && 0.5 < size.mantissa && size.mantissa < 2 then
      let a := z.re.abs.toFloat
      let b := z.im.abs.toFloat
      let big := max a b
      let small := min a b
      .ofFloat (0.5 * Wide.log1p ((big - 1) * (big + 1) + small * small))
    else size.log

def log (z : WideComplex) : WideComplex := ⟨z.logAbs, z.arg⟩

def sqrt (z : WideComplex) : WideComplex :=
  if z.im.isZero then
    if z.re.isNegative then ⟨.zero, z.re.neg.sqrt⟩ else ⟨z.re.sqrt, .zero⟩
  else
    let t := z.abs.add z.re.abs
    let u := (t.shift (-1)).sqrt
    let v := (z.im.div? (t.shift 1).sqrt).getD .undefined
    if z.re.isNegative then
      if z.im.isNegative then ⟨v.neg, u.neg⟩ else ⟨v, u⟩
    else ⟨u, v⟩

/-- A natural power. -/
def powNat (z : WideComplex) (n : Nat) : WideComplex :=
  if n = 0 then ofReal .one
  else if n = 1 then z
  else
    let h := powNat (z.mul z) (n / 2)
    if n % 2 = 0 then h else z.mul h
termination_by n

/-- An integer power; none for a negative power of zero. Powers of a number on an axis stay on the
axes. -/
def powInt? (z : WideComplex) (n : Int) : Option WideComplex :=
  if z.im.isZero then (z.re.powInt? n).map ofReal
  else if z.re.isZero then do
    let v ← z.im.powInt? n
    match (n % 4).toNat with
    | 0 => pure ⟨v, .zero⟩
    | 1 => pure ⟨.zero, v⟩
    | 2 => pure ⟨v.neg, .zero⟩
    | _ => pure ⟨.zero, v.neg⟩
  else if 0 ≤ n then some (z.powNat n.toNat)
  else (ofReal .one).div? (z.powNat (-n).toNat)

/-- A power with a real exponent. -/
def powReal? (z : WideComplex) (t : Wide) : Option WideComplex :=
  match t.halves? with
  | some n => if n % 2 = 0 then z.powInt? (n / 2) else z.sqrt.powInt? n
  | none =>
    let l := z.log
    some (exp ⟨l.re.mul t, l.im.mul t⟩)

/-- A power. -/
def pow? (z w : WideComplex) : Option WideComplex :=
  if w.im.isZero then z.powReal? w.re else some (exp (z.log.mul w))

def sin (z : WideComplex) : WideComplex :=
  if z.im.isZero then ofReal z.re.sin
  else if z.re.isZero then ⟨.zero, z.im.sinh⟩
  else ⟨z.re.sin.mul z.im.cosh, z.re.cos.mul z.im.sinh⟩

def cos (z : WideComplex) : WideComplex :=
  if z.im.isZero then ofReal z.re.cos
  else if z.re.isZero then ofReal z.im.cosh
  else ⟨z.re.cos.mul z.im.cosh, (z.re.sin.mul z.im.sinh).neg⟩

def tan (z : WideComplex) : WideComplex :=
  if z.im.isZero then ofReal z.re.tan
  else if z.re.isZero then ⟨.zero, z.im.tanh⟩
  else
    let a := z.re.shift 1
    let b := z.im.shift 1
    let m := a.cos.add b.cosh
    ((WideComplex.mk a.sin b.sinh).divReal? m).getD ⟨.undefined, .undefined⟩

/-- The number turned by a quarter, its parts exchanged. -/
def swap (z : WideComplex) : WideComplex := ⟨z.im, z.re⟩

def sinh (z : WideComplex) : WideComplex := z.swap.sin.swap
def cosh (z : WideComplex) : WideComplex := cos ⟨z.im, z.re.neg⟩
def tanh (z : WideComplex) : WideComplex := z.swap.tan.swap

/-- The inverse sine or cosine of a number off the real axis: angle and hyperbolic part for the
quadrant with both parts positive. -/
def arcParts (a b : Float) : Float × Float × Float :=
  let r := ((a + 1) * (a + 1) + b * b).sqrt
  let s := ((a - 1) * (a - 1) + b * b).sqrt
  let alpha := (r + s) / 2
  let excess :=
    if a < 1 then (b * b / (r + (a + 1)) + b * b / (s + (1 - a))) / 2
    else (b * b / (r + (a + 1)) + (s + (a - 1))) / 2
  let beta := a / alpha
  let rest :=
    if a ≤ 1 then ((alpha + a) * (b * b / (r + a + 1) + (s + (1 - a))) / 2).sqrt
    else b * ((alpha + a) * (1 / (r + a + 1) + 1 / (s + (a - 1))) / 2).sqrt
  let height := Wide.log1p (excess + (excess * (alpha + 1)).sqrt)
  (Float.atan2 beta (rest / alpha), Float.atan2 (rest / alpha) beta, height)

def asin (z : WideComplex) : WideComplex :=
  if z.im.isZero then
    if z.re.abs.toFloat ≤ 1 then ofReal z.re.asin
    else if z.re.isNegative then ⟨Wide.halfPi.neg, z.re.neg.acosh⟩
    else ⟨.halfPi, z.re.acosh.neg⟩
  else
    let p := arcParts z.re.toFloat.abs z.im.toFloat.abs
    let re := Wide.ofFloat p.1
    let im := Wide.ofFloat p.2.2
    ⟨if z.re.isNegative then re.neg else re, if z.im.isNegative then im.neg else im⟩

def acos (z : WideComplex) : WideComplex :=
  if z.im.isZero then
    if z.re.abs.toFloat ≤ 1 then ofReal z.re.acos
    else if z.re.isNegative then ⟨.pi, z.re.neg.acosh.neg⟩
    else ⟨.zero, z.re.acosh⟩
  else
    let p := arcParts z.re.toFloat.abs z.im.toFloat.abs
    let re := Wide.ofFloat p.2.1
    let im := Wide.ofFloat p.2.2
    ⟨if z.re.isNegative then Wide.pi.sub re else re, if z.im.isNegative then im else im.neg⟩

def atan (z : WideComplex) : WideComplex :=
  if z.im.isZero then ofReal z.re.atan
  else
    let a := z.re.toFloat
    let b := z.im.toFloat
    let re := (Float.atan2 a (1 + b) + Float.atan2 a (1 - b)) / 2
    let d := a * a + (1 - b) * (1 - b)
    let im := Wide.log1p (4 * b / d) / 4
    ⟨.ofFloat re, .ofFloat im⟩

end WideComplex

end FieldWalk.Numeral
