import FieldWalk.Algebra.Expr
/-! Fields with a half-integer power of the squared distance from the origin. -/

namespace FieldWalk.Algebra

open FieldWalk.Algebra.Expr

/-- The squared distance from the origin. -/
def squaredDistance : Expr := add [pow (var .x) two, pow (var .y) two]

/-- A half-integer power of the squared distance. -/
def isRadialPower : Expr → Bool
  | pow b (rat q) => b == squaredDistance && q.den == 2
  | _ => false

/-- Some part of the expression is a half-integer power of the squared distance. -/
def Expr.isRadial (u : Expr) : Bool :=
  u.has isRadialPower

end FieldWalk.Algebra
