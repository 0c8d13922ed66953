import FieldWalk.Field.Snapshot
import FieldWalk.Numeral.Gamma
import FieldWalk.Numeral.WideComplex
/-!
The numbers of a compiled expression. Plain variables and whole numbers are computed as doubles and
integers; what comes from a function or a constant is wide. Mixed operands are computed in the
wider kind. An operation without a result is none.
-/

namespace FieldWalk.Field

open Numeral

/-- A number of a compiled expression. -/
inductive Value where
  | int (n : Int)
  | double (v : Float)
  | complex (re im : Float)
  | wide (v : Wide)
  | wideComplex (z : WideComplex)
deriving Inhabited

/-- A finite double without fraction. -/
def isWhole (v : Float) : Bool := v.isFinite && v == v.floor

namespace Value

/-- The number as a wide one, if it is real by its kind. -/
def toWide? : Value → Option Wide
  | int n => some (.ofInt n)
  | double v => some (.ofFloat v)
  | wide v => some v
  | _ => none

/-- The number as a wide complex one. -/
def toWideComplex : Value → WideComplex
  | int n => .ofReal (.ofInt n)
  | double v => .ofReal (.ofFloat v)
  | complex re im => ⟨.ofFloat re, .ofFloat im⟩
  | wide v => .ofReal v
  | wideComplex z => z

/-- The number as a double, if its kind is below doubles. -/
def toDouble? : Value → Option Float
  | int n => doubleOfInt? n
  | double v => some v
  | _ => none

/-- The kind is one of the wide ones. -/
def isWideKind : Value → Bool
  | wide _ | wideComplex _ => true
  | _ => false

/-- The kind is one of the complex ones. -/
def isComplexKind : Value → Bool
  | complex _ _ | wideComplex _ => true
  | _ => false

/-- The parts of a number whose kind is not wide. -/
def parts? : Value → Option (Float × Float)
  | int n => (doubleOfInt? n).map (·, 0)
  | double v => some (v, 0)
  | complex re im => some (re, im)
  | _ => none

/-- Carries out an operation in the kind that both operands have room in. -/
@[inline] def combine (onInt : Int → Int → Option Value) (onDouble : Float → Float → Option Value)
    (onComplex : Float × Float → Float × Float → Option Value)
    (onWide : Wide → Wide → Option Value)
    (onWideComplex : WideComplex → WideComplex → Option Value) (a b : Value) : Option Value :=
  match a, b with
  | double u, double v => onDouble u v
  | wide u, wide v => onWide u v
  | int m, int n => onInt m n
  | _, _ =>
    if a.isWideKind || b.isWideKind then
      if a.isComplexKind || b.isComplexKind then onWideComplex a.toWideComplex b.toWideComplex
      else do
        let u ← a.toWide?
        let v ← b.toWide?
        onWide u v
    else if a.isComplexKind || b.isComplexKind then do
      let u ← a.parts?
      let v ← b.parts?
      onComplex u v
    else do
      let u ← a.toDouble?
      let v ← b.toDouble?
      onDouble u v

def add? : Value → Value → Option Value :=
  combine (fun m n => some (int (m + n))) (fun u v => some (double (u + v)))
    (fun u v => some (complex (u.1 + v.1) (u.2 + v.2)))
    (fun u v => some (wide (u.add v)))
    (fun u v => some (wideComplex (u.add v)))

def sub? : Value → Value → Option Value :=
  combine (fun m n => some (int (m - n))) (fun u v => some (double (u - v)))
    (fun u v => some (complex (u.1 - v.1) (u.2 - v.2)))
    (fun u v => some (wide (u.sub v)))
    (fun u v => some (wideComplex (u.sub v)))

/-- The product of complex doubles. -/
def mulParts (u v : Float × Float) : Float × Float :=
  (u.1 * v.1 - u.2 * v.2, u.1 * v.2 + u.2 * v.1)

def mul? : Value → Value → Option Value :=
  combine (fun m n => some (int (m * n))) (fun u v => some (double (u * v)))
    (fun u v => let p := mulParts u v; some (complex p.1 p.2))
    (fun u v => some (wide (u.mul v)))
    (fun u v =>
      if v.isReal then some (wideComplex ⟨u.re.mul v.re, u.im.mul v.re⟩)
      else if u.isReal then some (wideComplex ⟨u.re.mul v.re, u.re.mul v.im⟩)
      else some (wideComplex (u.mul v)))

/-- The quotient of complex doubles, none for a divisor of zero. -/
def divParts? (u v : Float × Float) : Option (Float × Float) :=
  if v.1 == 0 && v.2 == 0 then none
  else if v.2.abs ≤ v.1.abs then
    let r := v.2 / v.1
    let d := v.1 + v.2 * r
    some ((u.1 + u.2 * r) / d, (u.2 - u.1 * r) / d)
  else
    let r := v.1 / v.2
    let d := v.1 * r + v.2
    some ((u.1 * r + u.2) / d, (u.2 * r - u.1) / d)

/-- The quotient of integers as a double. -/
def divInt? (m n : Int) : Option Value :=
  if n = 0 then none
  else
    let v := nearestDouble ((m < 0) != (n < 0)) m.natAbs n.natAbs
    if v.isFinite then some (double v) else none

def div? : Value → Value → Option Value :=
  combine divInt?
    (fun u v => if v == 0 then none else some (double (u / v)))
    (fun u v => (divParts? u v).map fun p => complex p.1 p.2)
    (fun u v => (u.div? v).map wide)
    (fun u v => (u.div? v).map wideComplex)

def neg : Value → Value
  | int n => int (-n)
  | double v => double (-v)
  | complex re im => complex (-re) (-im)
  | wide v => wide v.neg
  | wideComplex z => wideComplex z.neg

/-- A natural power of a complex double. -/
def powParts (z : Float × Float) (n : Nat) : Float × Float :=
  if n = 0 then (1, 0)
  else if n = 1 then z
  else
    let h := powParts (mulParts z z) (n / 2)
    if n % 2 = 0 then h else mulParts z h
termination_by n

/-- A power of complex doubles; none for a negative power of zero and beyond the range. -/
def powComplex? (z w : Float × Float) : Option Value :=
  let result : Option (Float × Float) :=
    if w.2 == 0 && isWhole w.1 && w.1.abs ≤ 100 then
      let n := (Wide.ofFloat w.1).floorInt
      if 0 ≤ n then some (powParts z n.toNat)
      else divParts? (1, 0) (powParts z (-n).toNat)
    else if w.1 == 0 && w.2 == 0 then some (1, 0)
    else if z.1 == 0 && z.2 == 0 then (if w.2 != 0 || w.1 < 0 then none else some (0, 0))
    else
      let size := hypotenuse z.1 z.2
      let angle := Float.atan2 z.2 z.1
      let length := size.pow w.1
      let phase := angle * w.1
      let (length, phase) :=
        if w.2 == 0 then (length, phase)
        else (length * (-angle * w.2).exp, phase + w.2 * size.log)
      some (length * phase.cos, length * phase.sin)
  match result with
  | some (re, im) => if re.isInf || im.isInf then none else some (complex re im)
  | none => none

/-- A power of doubles. A negative base with an exponent that is not whole gives a complex number;
none for a negative power of zero and beyond the range. -/
def powDouble? (a b : Float) : Option Value :=
  if a == 0 && b < 0 then none
  else if a < 0 && a.isFinite && b.isFinite && !isWhole b then powComplex? (a, 0) (b, 0)
  else
    let v := a.pow b
    if v.isInf && a.isFinite && b.isFinite then none else some (double v)

/-- A power of integers; a negative exponent gives a double. -/
def powInt? (m n : Int) : Option Value :=
  if 0 ≤ n then some (int (m.pow n.toNat))
  else do
    let u ← doubleOfInt? m
    let v ← doubleOfInt? n
    powDouble? u v

/-- A power of wide numbers. -/
def powWide? (a t : Wide) : Option Value :=
  match t.halves? with
  | some n =>
    if n % 2 = 0 then (a.powInt? (n / 2)).map wide
    else if a.isNegative then ((WideComplex.ofReal a).powReal? t).map wideComplex
    else (a.sqrt.powInt? n).map wide
  | none =>
    if a.isNegative then ((WideComplex.ofReal a).powReal? t).map wideComplex
    else some (wide (a.powGeneral t))

def pow? (a b : Value) : Option Value :=
  match a, b with
  | wide u, int n => (u.powInt? n).map wide
  | wideComplex z, int n => (z.powInt? n).map wideComplex
  | _, _ => combine powInt? powDouble? powComplex? powWide?
      (fun z w => (z.pow? w).map wideComplex) a b

/-- The remainder with the sign of the divisor. -/
def modDouble? (a b : Float) : Option Value :=
  if b == 0 then none
  else match expand? a, expand? b with
    | some p, some q =>
      let e := min p.exponent q.exponent
      let signed (d : Expanded) : Int :=
        let m : Int := (d.mantissa <<< (d.exponent - e).toNat : Nat)
        if d.negative then -m else m
      let r := (signed p).fmod (signed q)
      let v := if 0 ≤ e then nearestDouble (r < 0) (r.natAbs <<< e.toNat) 1
        else nearestDouble (r < 0) r.natAbs (1 <<< (-e).toNat)
      some (double (if r = 0 && b < 0 then -0.0 else v))
    | some p, none =>
      if b.isNaN || a == 0 || (p.negative == (b < 0)) then some (double (if b.isNaN then b else a))
      else some (double b)
    | none, _ => some (double (0.0 / 0))

/-- The remainder of wide numbers with the sign of the divisor. -/
def modWide? (a b : Wide) : Option Value :=
  if b.isZero then none
  else if !a.isFinite || !b.isFinite then some (wide .undefined)
  else
    let (m, e) := a.split
    let (n, k) := b.split
    match expand? m, expand? n with
    | some p, some q =>
      let low := min (p.exponent + e) (q.exponent + k)
      if 4000 < (e - k).natAbs then
        if e < k && (a.isNegative == b.isNegative || a.isZero) then some (wide a)
        else some (wide .undefined)
      else
        let signed (d : Expanded) (s : Int) : Int :=
          let x : Int := (d.mantissa <<< (d.exponent + s - low).toNat : Nat)
          if d.negative then -x else x
        let r := (signed p e).fmod (signed q k)
        some (wide ((Wide.ofQuotient (r < 0) r.natAbs 1).shift low))
    | _, _ => some (wide .undefined)

/-- The remainder, with the sign of the divisor. -/
def mod? : Value → Value → Option Value :=
  combine (fun m n => if n = 0 then none else some (int (m.fmod n))) modDouble?
    (fun _ _ => none) modWide? (fun _ _ => none)

/-- The magnitude. -/
def abs : Value → Value
  | int n => int n.natAbs
  | double v => double v.abs
  | complex re im => double (hypotenuse re im)
  | wide v => wide v.abs
  | wideComplex z => wide z.abs

/-- Applies an elementary function: `onReal` where it gives a real number of a real one. -/
@[inline] def apply (onReal : Wide → Option Wide) (onComplex : WideComplex → WideComplex)
    (a : Value) : Value :=
  match a.toWide? with
  | some v => match onReal v with
    | some r => wide r
    | none => wideComplex (onComplex (.ofReal v))
  | none => wideComplex (onComplex a.toWideComplex)

/-- A real function defined on part of the line. -/
@[inline] def guarded (ok : Wide → Bool) (f : Wide → Wide) (a : Wide) : Option Wide :=
  if ok a then some (f a) else none

/-- Within one of zero, or not a number. -/
def inUnit (a : Wide) : Bool := !(1 < a.abs.toFloat)

def sqrt : Value → Value := apply (guarded (!·.isNegative) Wide.sqrt) WideComplex.sqrt
def exp : Value → Value := apply (some ·.exp) WideComplex.exp
def log : Value → Value := apply (guarded (!·.isNegative) Wide.log) WideComplex.log
def sin : Value → Value := apply (some ·.sin) WideComplex.sin
def cos : Value → Value := apply (some ·.cos) WideComplex.cos
def tan : Value → Value := apply (some ·.tan) WideComplex.tan
def sinh : Value → Value := apply (some ·.sinh) WideComplex.sinh
def cosh : Value → Value := apply (some ·.cosh) WideComplex.cosh
def tanh : Value → Value := apply (some ·.tanh) WideComplex.tanh
def asin : Value → Value := apply (guarded inUnit Wide.asin) WideComplex.asin
def acos : Value → Value := apply (guarded inUnit Wide.acos) WideComplex.acos
def atan : Value → Value := apply (some ·.atan) WideComplex.atan

/-- The inverse hyperbolic functions by logarithms. -/
def asinh : Value → Value :=
  apply (fun v =>
    let r := (v.abs + (v * v + .one).sqrt).log
    some (if v.isNegative then r.neg else r))
    fun z => (z.add ((z.mul z).add (.ofReal .one)).sqrt).log
@[inherit_doc asinh]
def acosh : Value → Value :=
  apply (guarded (fun v => !(v.lt .one)) Wide.acosh) fun z =>
    (z.add ((z.sub (.ofReal .one)).sqrt.mul (z.add (.ofReal .one)).sqrt)).log
@[inherit_doc asinh]
def atanh (a : Value) : Value :=
  let z := a.toWideComplex
  let w := ((z.add (.ofReal .one)).log).sub (((WideComplex.ofReal .one).sub z).log)
  let w : WideComplex := ⟨w.re.shift (-1), w.im.shift (-1)⟩
  if a.isComplexKind || !inUnit z.re then wideComplex w else wide w.re

/-- The gamma function of a number real by its kind. -/
def gamma? (a : Value) : Option Value := do
  let v ← a.toWide?
  v.gamma?.map wide

/-- The logarithmic derivative of the gamma function. -/
def digamma? (a : Value) : Option Value := do
  let v ← a.toWide?
  v.digamma?.map wide

/-- The factorial, by the gamma function. -/
def factorial? (a : Value) : Option Value := do
  let v ← a.toWide?
  (v + .one).gamma?.map wide

/-- The product of every second number, for whole numbers only. -/
def doubleFactorial? (a : Value) : Option Value := do
  let v ← a.toWide?
  let h := v.shift (-1)
  let whole (u : Wide) : Bool := ((Wide.ofInt u.floorInt).sub u).isZero
  if !v.isFinite || !whole v then none
  else
    let power := (h * (Wide.ofInt 2).log).exp
    let r := power * (← (h + .one).gamma?)
    let two : Wide := .ofInt 2
    let ratio ← two.div? .pi
    some (wide (if whole h then r else r * ratio.sqrt))

/-- The angle of the vector `(x, y)`. -/
def atan2? (y x : Value) : Option Value := do
  let v ← y.toWide?
  let u ← x.toWide?
  if v.isZero && u.isZero then none else some (wide (.atan2 v u))

/-- The integer part, rounded up, of the number or of its two parts. -/
def ceiling : Value → Value
  | int n => int n
  | double v => wide (.ofFloat v.ceil)
  | a =>
    let up (v : Wide) : Wide := if v.isFinite then .ofInt (-(v.neg.floorInt)) else v
    match a.toWide? with
    | some v => wide (up v)
    | none =>
      let z := a.toWideComplex
      wideComplex ⟨up z.re, up z.im⟩

/-- The integer part, rounded down, of the number or of its two parts. -/
def floor : Value → Value
  | int n => int n
  | double v => wide (.ofFloat v.floor)
  | a => match a.toWide? with
    | some v => wide (if v.isFinite then .ofInt v.floorInt else v)
    | none =>
      let z := a.toWideComplex
      wideComplex ⟨.ofInt z.re.floorInt, .ofInt z.im.floorInt⟩

/-- The real part. -/
def re (a : Value) : Value := match a.toWide? with
  | some v => wide v
  | none => wide a.toWideComplex.re

/-- The imaginary part. -/
def im (a : Value) : Value := match a.toWide? with
  | some _ => wide .zero
  | none => wide a.toWideComplex.im

/-- The conjugate. -/
def conj (a : Value) : Value := match a.toWide? with
  | some v => wide v
  | none =>
    let z := a.toWideComplex
    wideComplex ⟨z.re, z.im.neg⟩

/-- The angle. -/
def arg (a : Value) : Value := wide a.toWideComplex.arg

/-- The direction: one, minus one or zero, a unit vector for complex numbers. -/
def sign (a : Value) : Value := match a.toWide? with
  | some v =>
    if v.isNaN then wide v
    else wide (if v.isZero then .zero else if v.isNegative then Wide.one.neg else .one)
  | none =>
    let z := a.toWideComplex
    if z.isZero then wideComplex z
    else match z.divReal? z.abs with
      | some w => wideComplex w
      | none => wideComplex ⟨.undefined, .undefined⟩

/-- A number with an imaginary part other than zero is complex, any other real. None for an
integer beyond the range of doubles. -/
def reading? : Value → Option (Reading Float)
  | int n => (doubleOfInt? n).map .real
  | double v => some (.real v)
  | complex re im => some (if im == 0 then .real re else .complex re im)
  | wide v => some (.real v.toFloat)
  | wideComplex z =>
    some (if z.im.isZero then .real z.re.toFloat else .complex z.re.toFloat z.im.toFloat)

end Value

end FieldWalk.Field
