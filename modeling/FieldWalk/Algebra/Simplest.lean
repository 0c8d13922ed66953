import FieldWalk.Algebra.Elementary
import FieldWalk.Algebra.Power
import FieldWalk.Algebra.Product
import FieldWalk.Algebra.Sum
/-! The operations closed over each other, and substitution by them. -/

namespace FieldWalk.Algebra

/-- The operations whose rules build by those of the level below. -/
def Ops.next (o : Ops) : Ops where
  add := Sum.combine o
  mul := Product.combine o
  pow := Power.combine o
  call := Elementary.combine o

/-- The operations of a level. -/
def Ops.level : Nat → Ops
  | 0 => .inert
  | n + 1 => (Ops.level n).next

/-- The operations in use. No rule chain is nearly as deep. -/
def simplest : Ops := .level 40

namespace Expr

mutual
/-- Puts values in place of variables. -/
def substitute (values : Variable → Option Expr) : Expr → Expr
  | var v => (values v).getD (var v)
  | pow b e => simplest.pow (substitute values b) (substitute values e)
  | call f us => simplest.call f (substituteAll values us)
  | mul us => simplest.mul (substituteAll values us)
  | add us => simplest.add (substituteAll values us)
  | u => u
/-- Puts values in place of variables of several expressions. -/
def substituteAll (values : Variable → Option Expr) : List Expr → List Expr
  | [] => []
  | u :: us => substitute values u :: substituteAll values us
end

end Expr

end FieldWalk.Algebra
