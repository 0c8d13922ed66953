import FieldWalk.Algebra.Expr
import FieldWalk.Field.Value
/-!
Formulas from expressions. Variables are doubles, whole numbers integers, all else wide numbers;
quotients are divisions, and a sum or product is computed from its first entry on.
-/

namespace FieldWalk.Algebra

open FieldWalk.Algebra.Expr FieldWalk.Field Numeral

/-- A value at a point; none where it cannot be computed. -/
abbrev Pointwise := Float → Float → Option Value

namespace Pointwise

/-- The same value everywhere. -/
def always (v : Value) : Pointwise := fun _ _ => some v

/-- An operation that always has a value. -/
@[inline] def map (f : Value → Value) (p : Pointwise) : Pointwise := fun x y => (p x y).map f

/-- An operation on one value. -/
@[inline] def bind (f : Value → Option Value) (p : Pointwise) : Pointwise :=
  fun x y => (p x y).bind f

/-- An operation on two values. -/
@[inline] def both (f : Value → Value → Option Value) (p q : Pointwise) : Pointwise :=
  fun x y => match p x y with
    | some u => match q x y with
      | some v => f u v
      | none => none
    | none => none

/-- The product of some values; one without any. -/
def product : List Pointwise → Pointwise
  | [] => always (.int 1)
  | p :: ps => ps.foldl (both Value.mul?) p

/-- The sum of some values, each with a mark whether it is subtracted. -/
def sum : List (Bool × Pointwise) → Pointwise
  | [] => always (.int 0)
  | (minus, p) :: ps =>
    ps.foldl (fun acc (minus, q) => both (if minus then Value.sub? else Value.add?) acc q)
      (if minus then p.map Value.neg else p)

end Pointwise

/-- A constant as a value; the pole has none. -/
def Constant.numeric? : Constant → Option Value
  | infinity => some (.wide ⟨1.0 / 0, 0⟩)
  | negInfinity => some (.wide ⟨-1.0 / 0, 0⟩)
  | undefined => some (.wide .undefined)
  | pole => none
  | pi => some (.wide .pi)
  | euler => some (.wide ⟨2.718281828459045, 0⟩)
  | golden => some (.wide ⟨1.618033988749895, 0⟩)
  | gammaConstant => some (.wide ⟨0.5772156649015329, 0⟩)
  | catalan => some (.wide ⟨0.915965594177219, 0⟩)
  | imaginaryUnit => some (.complex 0 1)

/-- A rational number as a value. -/
def ratValue (q : Rat) : Value :=
  if q.den = 1 then .int q.num
  else .wide (((Wide.ofInt q.num).div? (.ofInt q.den)).getD .undefined)

/-- The numeric form of a function; none if it has no form. -/
def Func.pointwise? (f : Func) (ps : List Pointwise) : Option Pointwise :=
  match f, ps with
  | .sin, [p] => some (p.map Value.sin)
  | .cos, [p] => some (p.map Value.cos)
  | .tan, [p] => some (p.map Value.tan)
  | .sinh, [p] => some (p.map Value.sinh)
  | .cosh, [p] => some (p.map Value.cosh)
  | .tanh, [p] => some (p.map Value.tanh)
  | .asin, [p] => some (p.map Value.asin)
  | .acos, [p] => some (p.map Value.acos)
  | .atan, [p] => some (p.map Value.atan)
  | .asinh, [p] => some (p.map Value.asinh)
  | .acosh, [p] => some (p.map Value.acosh)
  | .atanh, [p] => some (p.map Value.atanh)
  | .atan2, [p, q] => some (p.both Value.atan2? q)
  | .exp, [p] => some (p.map Value.exp)
  | .log, [p] => some (p.map Value.log)
  | .abs, [p] => some (p.map Value.abs)
  | .sign, [p] => some (p.map Value.sign)
  | .re, [p] => some (p.map Value.re)
  | .im, [p] => some (p.map Value.im)
  | .arg, [p] => some (p.map Value.arg)
  | .conj, [p] => some (p.map Value.conj)
  | .floor, [p] => some (p.map Value.floor)
  | .ceiling, [p] => some (p.map Value.ceiling)
  | .mod, [p, q] => some (p.both Value.mod? q)
  | .factorial, [p] => some (p.bind Value.factorial?)
  | .gamma, [p] => some (p.bind Value.gamma?)
  | .digamma, [p] => some (p.bind Value.digamma?)
  | .doubleFactorial, [p] => some (p.bind Value.doubleFactorial?)
  | .unnamed _, _ => some fun _ _ => none
  | _, _ => none

/-- A factor under the line of a quotient; none for one above. -/
def below? (e : Expr) (base exponent : Pointwise) : Option Pointwise :=
  match e with
  | rat q =>
    if 0 ≤ q.num then none
    else if q.num = -1 && q.den = 1 then some base
    else if q.num = -1 && q.den = 2 then some (base.map Value.sqrt)
    else some (base.both Value.pow? (exponent.map Value.neg))
  | _ => none

/-- A power by its exponent. -/
def powerForm (e : Expr) (base exponent : Pointwise) : Pointwise :=
  match e with
  | rat q =>
    if q.num = 1 && q.den = 2 then base.map Value.sqrt
    else if q.num = -1 && q.den = 2 then
      (Pointwise.always (.int 1)).both Value.div? (base.map Value.sqrt)
    else if q.num = -1 && q.den = 1 then (Pointwise.always (.int 1)).both Value.div? base
    else base.both Value.pow? exponent
  | _ => base.both Value.pow? exponent

/-- The parts of a product: marked if they stand under the line. -/
abbrev Part := Bool × Pointwise

namespace Expr

mutual
/-- The formula of an expression; none if some part has no numeric form. -/
def pointwise? : Expr → Option Pointwise
  | rat q => some (.always (ratValue q))
  | float v => some (.always (.wide v))
  | const c => c.numeric?.map .always
  | var .x => some fun x _ => some (.double x)
  | var .y => some fun _ y => some (.double y)
  | var _ => none
  | pow b e => do
    let p ← pointwise? b
    let q ← pointwise? e
    pure (powerForm e p q)
  | call f us => do f.pointwise? (← pointwiseAll? us)
  | mul us => do
    let (minus, parts) ← parts? us
    let above := (parts.filter (!·.1)).map (·.2)
    let below := (parts.filter (·.1)).map (·.2)
    let top := .product above
    let top := if minus then Pointwise.map Value.neg top else top
    pure (if below.isEmpty then top else top.both Value.div? (.product below))
  | add us => do
    pure (.sum (← terms? us))
/-- The formulas of several expressions. -/
def pointwiseAll? : List Expr → Option (List Pointwise)
  | [] => some []
  | u :: us => do
    let p ← pointwise? u
    let ps ← pointwiseAll? us
    pure (p :: ps)
/-- The parts of a product and whether it has a minus sign in front. -/
def parts? : List Expr → Option (Bool × List Part)
  | [] => some (false, [])
  | u :: us => do
    let (_, ps) ← parts? us
    match u with
    | rat q =>
      let size : Rat := if q.num < 0 then -q else q
      pure (q.num < 0, if size == 1 then ps else (false, .always (ratValue size)) :: ps)
    | pow b e => do
      let p ← pointwise? b
      let q ← pointwise? e
      match below? e p q with
      | some r => pure (false, (true, r) :: ps)
      | none => pure (false, (false, powerForm e p q) :: ps)
    | u => do
      let p ← pointwise? u
      pure (false, (false, p) :: ps)
/-- The terms of a sum, a minus sign in front taken off. -/
def terms? : List Expr → Option (List (Bool × Pointwise))
  | [] => some []
  | u :: us => do
    let ps ← terms? us
    match u with
    | mul (rat q :: vs) => do
      let (_, parts) ← parts? vs
      let size : Rat := if q.num < 0 then -q else q
      let parts : List Part :=
        if size == 1 then parts else (false, .always (ratValue size)) :: parts
      let above := (parts.filter (!·.1)).map (·.2)
      let below := (parts.filter (·.1)).map (·.2)
      let top := Pointwise.product above
      pure ((decide (q.num < 0), if below.isEmpty then top
        else top.both Value.div? (.product below)) :: ps)
    | rat q =>
      let size : Rat := if q.num < 0 then -q else q
      pure ((decide (q.num < 0), .always (ratValue size)) :: ps)
    | u => do
      let p ← pointwise? u
      pure ((false, p) :: ps)
end

/-- The compiled expression; none if some part has no numeric form. -/
def formula? (u : Expr) : Option (Formula Float) := do
  let p ← u.pointwise?
  pure fun x y => (p x y).bind Value.reading?

end Expr

end FieldWalk.Algebra
