import FieldWalk.Algebra.Simplest
/-!
Partial derivatives. What depends on the variable through a function without derivative gives a
formal derivative, which has no numeric form.
-/

namespace FieldWalk.Algebra

open FieldWalk.Algebra.Expr

/-- A derivative without numeric form. -/
def formalDerivative : Expr := call (.formal "Derivative") []

/-- The derivative of a function by its only argument, at that argument. -/
def Func.slope? (f : Func) (u : Expr) : Option Expr :=
  let o := simplest
  match f with
  | .sin => some (o.call .cos [u])
  | .cos => some (o.neg (o.call .sin [u]))
  | .tan => some (o.add [one, o.square (o.call .tan [u])])
  | .sinh => some (o.call .cosh [u])
  | .cosh => some (o.call .sinh [u])
  | .tanh => some (o.sub one (o.square (o.call .tanh [u])))
  | .asin => some (o.inv (o.sqrt (o.sub one (o.square u))))
  | .acos => some (o.neg (o.inv (o.sqrt (o.sub one (o.square u)))))
  | .atan => some (o.inv (o.add [one, o.square u]))
  | .asinh => some (o.inv (o.sqrt (o.add [o.square u, one])))
  | .acosh => some (o.inv (o.mul [o.sqrt (o.sub u one), o.sqrt (o.add [u, one])]))
  | .atanh => some (o.inv (o.sub one (o.square u)))
  | .exp => some (o.call .exp [u])
  | .log => some (o.inv u)
  | .sign =>
    if u.facts.real == Answer.yes then some (o.mul [two, call (.unnamed "DiracDelta") [u]])
    else none
  | .factorial =>
    let v := o.add [u, one]
    some (o.mul [call .gamma [v], call .digamma [v]])
  | .gamma => some (o.mul [call .gamma [u], call .digamma [u]])
  | _ => none

/-- The derivative of a magnitude, `u` changing by `d`. -/
def magnitudeSlope (u d : Expr) : Expr :=
  let o := simplest
  if u.facts.real == Answer.yes then o.mul2 d (o.call .sign [u])
  else if u.facts.imaginary == Answer.yes then o.mul2 d (o.call .sign [o.neg u])
  else
    let along := o.add [o.mul2 (o.call .re [u]) (o.call .re [d]),
      o.mul2 (o.call .im [u]) (o.call .im [d])]
    o.mul2 along (o.mul2 (o.call .sign [u]) (o.inv u))

/-- The derivative of an angle, `u` changing by `d`. -/
def angleSlope (u d : Expr) : Expr :=
  let o := simplest
  let x := o.call .re [u]
  let y := o.call .im [u]
  o.div (o.sub (o.mul2 x (o.call .im [d])) (o.mul2 y (o.call .re [d])))
    (o.add [o.square x, o.square y])

/-- The product rule for factors and their derivatives. -/
def productSlope (us ds : List Expr) : Expr :=
  let o := simplest
  let term (i : Nat) (d : Expr) : Option Expr :=
    if d.isZero then none else some ((us.set i d).foldl o.mul2 one)
  o.add (ds.zipIdx.filterMap fun (d, i) => term i d)

/-- The power rule for a base and an exponent and their derivatives. -/
def powerSlope (b e db de : Expr) : Expr :=
  let o := simplest
  o.mul2 (o.pow b e)
    (o.add2 (o.mul2 de (o.call .log [b])) (o.mul2 (o.mul2 db e) (o.inv b)))

/-- The chain rule for a function and the derivatives of its arguments. -/
def callSlope (f : Func) (us ds : List Expr) : Expr :=
  let o := simplest
  if ds.all isZero then zero
  else match f, us, ds with
    | .abs, [u], [d] => magnitudeSlope u d
    | .arg, [u], [d] => angleSlope u d
    | .re, [_], [d] => o.call .re [d]
    | .im, [_], [d] => o.call .im [d]
    | .conj, [_], [d] => o.call .conj [d]
    | .atan2, [u, v], [du, dv] =>
      let size := o.add [o.square u, o.square v]
      o.add2 (o.mul2 (o.div v size) du) (o.mul2 (o.neg (o.div u size)) dv)
    | f, [u], [d] => match f.slope? u with
      | some s => o.mul2 s d
      | none => formalDerivative
    | _, _, _ => formalDerivative

namespace Expr

mutual
/-- The partial derivative by a variable. -/
def derivative (v : Variable) : Expr → Expr
  | var w => if v == w then one else zero
  | pow b e =>
    if (pow b e).mentions v then powerSlope b e (derivative v b) (derivative v e) else zero
  | call f us => callSlope f us (derivativeAll v us)
  | mul us => productSlope us (derivativeAll v us)
  | add us => simplest.add (derivativeAll v us)
  | _ => zero
/-- The partial derivatives of several expressions. -/
def derivativeAll (v : Variable) : List Expr → List Expr
  | [] => []
  | u :: us => derivative v u :: derivativeAll v us
end

end Expr

end FieldWalk.Algebra
