import FieldWalk.Algebra.Expr
import FieldWalk.Numeral.Gamma
import FieldWalk.Numeral.WideComplex
/-! Numerical values of expressions without variables. -/

namespace FieldWalk.Algebra

open Numeral

/-- The value of a constant, none for what is no finite number. -/
def Constant.value? : Constant → Option WideComplex
  | pi => some (.ofReal .pi)
  | euler => some (.ofReal ⟨2.718281828459045, 0⟩)
  | golden => some (.ofReal ⟨1.618033988749895, 0⟩)
  | gammaConstant => some (.ofReal ⟨0.5772156649015329, 0⟩)
  | catalan => some (.ofReal ⟨0.915965594177219, 0⟩)
  | imaginaryUnit => some ⟨.zero, .one⟩
  | _ => none

/-- The value of an elementary function. -/
def Func.value? (f : Func) (args : List WideComplex) : Option WideComplex :=
  match f, args with
  | .sin, [z] => some z.sin
  | .cos, [z] => some z.cos
  | .tan, [z] => some z.tan
  | .sinh, [z] => some z.sinh
  | .cosh, [z] => some z.cosh
  | .tanh, [z] => some z.tanh
  | .asin, [z] => some z.asin
  | .acos, [z] => some z.acos
  | .atan, [z] => some z.atan
  | .exp, [z] => some z.exp
  | .log, [z] => if z.isZero then none else some z.log
  | .abs, [z] => some (.ofReal z.abs)
  | .re, [z] => some (.ofReal z.re)
  | .im, [z] => some (.ofReal z.im)
  | .arg, [z] => if z.isZero then none else some (.ofReal z.arg)
  | .conj, [z] => some ⟨z.re, z.im.neg⟩
  | .atan2, [y, x] => some (.ofReal (.atan2 y.re x.re))
  | .sign, [z] => if z.isZero then some z else z.divReal? z.abs
  | .factorial, [z] => if z.im.isZero then (z.re + .one).gamma?.map .ofReal else none
  | _, _ => none

namespace Expr

mutual
/-- The value of an expression without variables. -/
def value? : Expr → Option WideComplex
  | rat q => some (.ofReal (.ofQuotient (q.num < 0) q.num.natAbs q.den))
  | float v => some (.ofReal v)
  | const c => c.value?
  | var _ => none
  | pow b e => do
    let z ← value? b
    let w ← value? e
    if z.isZero then none else z.pow? w
  | call f us => do f.value? (← values? us)
  | mul us => do
    let zs ← values? us
    pure (zs.foldl WideComplex.mul (.ofReal .one))
  | add us => do
    let zs ← values? us
    pure (zs.foldl WideComplex.add (.ofReal .zero))
/-- The values of several expressions. -/
def values? : List Expr → Option (List WideComplex)
  | [] => some []
  | u :: us => do
    let z ← value? u
    let zs ← values? us
    pure (z :: zs)
end

/-- The value of an expression that comes out real. -/
def realValue? (u : Expr) : Option Wide := do
  let z ← u.value?
  if z.im.isZero || z.im.abs.toFloat ≤ 1.0e-12 * z.re.abs.toFloat then some z.re else none

/-- The sign of an expression without variables, if it stands clear of zero. -/
def clearSign? (u : Expr) : Option Ordering := do
  let v ← u.realValue?
  if !v.isFinite || v.abs.toFloat ≤ 1.0e-12 then none
  else if v.isNegative then some .lt else some .gt

end Expr

end FieldWalk.Algebra
