import FieldWalk.Numeral.Double
/-!
Numbers of 53 bits whose exponent has no bound. A number within the range of doubles is kept as
the double itself, any other as a fraction from one half to below one and a power of two, so that
arithmetic rounds as it does for doubles and neither overflows nor loses bits near zero. There is
no negative zero.
-/

namespace FieldWalk.Numeral

/-- The number `mantissa * 2^scale`; `scale` is zero for numbers within the range of doubles. -/
structure Wide where
  mantissa : Float
  scale : Int
deriving Inhabited

namespace Wide

/-- The largest exponent kept as a double. -/
def bound : Int := 900

/-- The powers of two between which doubles are kept. -/
def nearMax : Float := Float.scaleB 1 900
@[inherit_doc nearMax]
def nearMin : Float := Float.scaleB 1 (-900)

/-- A magnitude that is kept as a double. -/
@[inline] def isNear (f : Float) : Bool :=
  let a := f.abs
  nearMin ≤ a && a ≤ nearMax

/-- The canonical form of `f * 2^e`. -/
def make (f : Float) (e : Int) : Wide :=
  if f == 0 then ⟨0, 0⟩
  else if !f.isFinite then ⟨f, 0⟩
  else
    let (m, k) := f.frExp
    let t := e + k
    if -bound < t && t < bound then ⟨m.scaleB t, 0⟩ else ⟨m, t⟩

/-- A double as a wide number. -/
@[inline] def ofFloat (f : Float) : Wide :=
  if isNear f then ⟨f, 0⟩ else make f 0

/-- The nearest wide number of a quotient. -/
def ofQuotient (negative : Bool) (num den : Nat) : Wide :=
  if num = 0 then ⟨0, 0⟩
  else
    let e : Int := (num.log2 : Int) - den.log2
    if -bound < e && e < bound then ofFloat (nearestDouble negative num den)
    else
      let v := if 0 ≤ e then nearestDouble negative num (den <<< e.toNat)
        else nearestDouble negative (num <<< (-e).toNat) den
      make v e

/-- The nearest wide number of an integer. -/
def ofInt (n : Int) : Wide :=
  ofQuotient (n < 0) n.natAbs 1

/-- The nearest wide number of a decimal. -/
def ofDecimal (negative : Bool) (mantissa : Nat) (exponent : Int) : Wide :=
  let s := scaleByTen mantissa 1 exponent
  ofQuotient negative s.1 s.2

/-- Fraction and exponent, the fraction from one half to below one if the number is finite and not
zero. -/
def split (a : Wide) : Float × Int :=
  if a.scale = 0 then
    if a.mantissa == 0 || !a.mantissa.isFinite then (a.mantissa, 0) else a.mantissa.frExp
  else (a.mantissa, a.scale)

/-- The nearest double; infinite beyond the range. -/
def toFloat (a : Wide) : Float :=
  if a.scale = 0 then a.mantissa
  else if 2000 < a.scale then a.mantissa / 0
  else if a.scale < -2000 then 0
  else a.mantissa.scaleB a.scale

def zero : Wide := ⟨0, 0⟩
def one : Wide := ⟨1, 0⟩

def isZero (a : Wide) : Bool := a.mantissa == 0
def isNegative (a : Wide) : Bool := a.mantissa < 0
def isPositive (a : Wide) : Bool := 0 < a.mantissa
def isFinite (a : Wide) : Bool := a.mantissa.isFinite
def isNaN (a : Wide) : Bool := a.mantissa.isNaN

def neg (a : Wide) : Wide := if a.mantissa == 0 then a else ⟨-a.mantissa, a.scale⟩
def abs (a : Wide) : Wide := ⟨a.mantissa.abs, a.scale⟩

/-- Times a power of two. -/
def shift (a : Wide) (n : Int) : Wide :=
  make a.mantissa (a.scale + n)

/-- The sum of numbers of which one is not kept as a double. -/
def addFar (a b : Wide) : Wide :=
  if !a.isFinite || !b.isFinite then ⟨a.mantissa + b.mantissa, 0⟩
  else if a.isZero then b
  else if b.isZero then a
  else
    let (m, e) := a.split
    let (n, k) := b.split
    if 120 < e - k then a
    else if 120 < k - e then b
    else if k ≤ e then make (m.scaleB (e - k) + n) k
    else make (m + n.scaleB (k - e)) e

@[inline] def add (a b : Wide) : Wide :=
  let s := a.mantissa + b.mantissa
  if a.scale = 0 && b.scale = 0 && isNear s then ⟨s, 0⟩ else addFar a b

@[inline] def sub (a b : Wide) : Wide := a.add b.neg

@[inline] def mul (a b : Wide) : Wide :=
  let p := a.mantissa * b.mantissa
  if a.scale = 0 && b.scale = 0 && isNear p then ⟨p, 0⟩
  else if !a.isFinite || !b.isFinite then ⟨p, 0⟩
  else
    let (m, e) := a.split
    let (n, k) := b.split
    make (m * n) (e + k)

/-- The quotient; none for a divisor of zero. -/
@[inline] def div? (a b : Wide) : Option Wide :=
  if b.isZero then none
  else
    let p := a.mantissa / b.mantissa
    if a.scale = 0 && b.scale = 0 && isNear p then some ⟨p, 0⟩
    else if !a.isFinite || !b.isFinite then some ⟨if p == 0 then 0 else p, 0⟩
    else
      let (m, e) := a.split
      let (n, k) := b.split
      some (make (m / n) (e - k))

/-- Strictly less. -/
def lt (a b : Wide) : Bool := (a.sub b).isNegative

instance : Add Wide := ⟨add⟩
instance : Sub Wide := ⟨sub⟩
instance : Mul Wide := ⟨mul⟩
instance : Neg Wide := ⟨neg⟩

/-- The square root of a number that is not negative. -/
def sqrt (a : Wide) : Wide :=
  if a.scale = 0 then ⟨a.mantissa.sqrt, 0⟩
  else
    let (m, e) := a.split
    if e % 2 = 0 then make m.sqrt (e / 2) else make (m * 2).sqrt ((e - 1) / 2)

def ln2 : Float := 0.6931471805599453
/-- The natural logarithm of two in two parts; the first has free bits at its end. -/
def ln2High : Float := 0.693147180369123816490
@[inherit_doc ln2High]
def ln2Low : Float := 1.90821492927058770002e-10

/-- The integer part of a finite number, rounded down. -/
def floorInt (a : Wide) : Int :=
  let (m, e) := a.split
  match expand? m with
  | none => 0
  | some d =>
    let n : Int := if d.negative then -(d.mantissa : Int) else d.mantissa
    let s := d.exponent + e
    if 0 ≤ s then n * Int.pow 2 s.toNat else n.fdiv (Int.pow 2 (-s).toNat)

/-- The exponential function. -/
def exp (a : Wide) : Wide :=
  if !a.isFinite then ⟨a.mantissa.exp, 0⟩
  else if a.scale < 0 then one
  else if 0 < a.scale then
    if 100000 < a.scale then (if a.isNegative then zero else ⟨1.0 / 0, 0⟩)
    else ⟨0.5, (a.mul (ofFloat (1 / ln2))).floorInt + 1⟩
  else
    let x := a.mantissa
    if x.abs < 500 then ofFloat x.exp
    else if x.abs < 1.0e15 then
      let k := (x / ln2).round
      let r := (x - k * ln2High) - k * ln2Low
      make r.exp (floorInt ⟨k, 0⟩)
    else ⟨0.5, (a.mul (ofFloat (1 / ln2))).floorInt + 1⟩

/-- The natural logarithm of a positive number; negative infinity at zero. -/
def log (a : Wide) : Wide :=
  if a.scale = 0 then
    let v := a.mantissa.log
    if isNear v then ⟨v, 0⟩ else make v 0
  else ofFloat a.mantissa.log + ofInt a.scale * ⟨ln2, 0⟩

/-- The logarithm of one plus a number. -/
def log1p (x : Float) : Float :=
  let u := 1 + x
  if u == 1 then x else u.log * x / (u - 1)

/-- Applies a function of doubles; `tiny` and `huge` give its values beyond their range. -/
@[inline] def lift (f : Float → Float) (tiny huge : Wide → Wide) (a : Wide) : Wide :=
  if a.scale = 0 then ofFloat (f a.mantissa)
  else if a.scale < 0 then tiny a
  else huge a

/-- What has no value. -/
def undefined : Wide := ⟨0.0 / 0, 0⟩

def pi : Wide := ⟨3.141592653589793, 0⟩
def halfPi : Wide := ⟨1.5707963267948966, 0⟩

def sin (a : Wide) : Wide := a.lift Float.sin id fun _ => undefined
def cos (a : Wide) : Wide := a.lift Float.cos (fun _ => one) fun _ => undefined
def tan (a : Wide) : Wide := a.lift Float.tan id fun _ => undefined
def atan (a : Wide) : Wide :=
  a.lift Float.atan id fun b => if b.isNegative then halfPi.neg else halfPi
def tanh (a : Wide) : Wide :=
  a.lift Float.tanh id fun b => if b.isNegative then one.neg else one

def sinh (a : Wide) : Wide :=
  if a.scale = 0 && a.mantissa.abs < 500 then ofFloat a.mantissa.sinh
  else if a.scale < 0 then a
  else
    let e := (a.abs.exp).shift (-1)
    if a.isNegative then e.neg else e

def cosh (a : Wide) : Wide :=
  if a.scale = 0 && a.mantissa.abs < 500 then ofFloat a.mantissa.cosh
  else if a.scale < 0 then one
  else a.abs.exp.shift (-1)

/-- The inverse sine on the interval from minus one to one. -/
def asin (a : Wide) : Wide := a.lift Float.asin id fun _ => undefined

/-- The inverse cosine on the interval from minus one to one. -/
def acos (a : Wide) : Wide := a.lift Float.acos (fun _ => halfPi) fun _ => undefined

/-- The inverse hyperbolic cosine from one on. -/
def acosh (a : Wide) : Wide :=
  if a.scale = 0 then
    let d := a.mantissa - 1
    if d < 1.0e100 then ofFloat (log1p (d + (2 * d + d * d).sqrt))
    else a.log + ⟨ln2, 0⟩
  else a.log + ⟨ln2, 0⟩

/-- The length of a vector. -/
def hypot (a b : Wide) : Wide :=
  if a.isZero then b.abs
  else if b.isZero then a.abs
  else if !a.isFinite || !b.isFinite then
    if (a.isFinite || a.isNaN) && (b.isFinite || b.isNaN) then undefined else ⟨1.0 / 0, 0⟩
  else
    let k := max a.split.2 b.split.2
    let x := (a.shift (-k)).toFloat
    let y := (b.shift (-k)).toFloat
    make (x * x + y * y).sqrt k

/-- The angle of the vector `(x, y)`. -/
def atan2 (y x : Wide) : Wide :=
  if y.isZero then (if x.isNegative then pi else zero)
  else if x.isZero then (if y.isNegative then halfPi.neg else halfPi)
  else if y.scale = 0 && x.scale = 0 then ofFloat (Float.atan2 y.mantissa x.mantissa)
  else
    let k := max x.split.2 y.split.2
    let u := (x.shift (-k)).toFloat
    let v := y.shift (-k)
    if v.scale = 0 then ofFloat (Float.atan2 v.mantissa u)
    else if u < 0 then (if y.isNegative then pi.neg else pi)
    else v

/-- A natural power, by repeated squaring. -/
def powNat (a : Wide) (n : Nat) : Wide :=
  if n = 0 then one
  else
    let h := powNat (a * a) (n / 2)
    if n % 2 = 0 then h else a * h
termination_by n

/-- An integer power; none for a negative power of zero. -/
def powInt? (a : Wide) (n : Int) : Option Wide :=
  if 0 ≤ n then
    if a.scale = 0 && n ≤ 1024 then
      let p := Float.pow a.mantissa (Float.ofInt n)
      if isNear p then some ⟨p, 0⟩ else some (powNat a n.toNat)
    else some (powNat a n.toNat)
  else
    let inverse := powNat a (-n).toNat
    one.div? inverse

/-- The power of twice an integral exponent: the number of halves, none if there are others. -/
def halves? (t : Wide) : Option Int :=
  let d := t.shift 1
  let n := d.floorInt
  if d.isFinite && ((ofInt n).sub d).isZero then some n else none

/-- A power with an exponent that is no half of an integer, of a base that is not negative. -/
def powGeneral (a t : Wide) : Wide :=
  if a.scale = 0 && t.scale = 0 && a.isPositive then
    let p := Float.pow a.mantissa t.mantissa
    if isNear p then ⟨p, 0⟩ else (t * a.log).exp
  else if a.isZero then
    if t.isNegative then ⟨1.0 / 0, 0⟩ else if t.isZero then one else zero
  else (t * a.log).exp

end Wide

end FieldWalk.Numeral
