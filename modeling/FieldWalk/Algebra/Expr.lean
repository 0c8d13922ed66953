import FieldWalk.Numeral.Wide
/-!
Expressions in simplest form. A sum or product has at least two entries in a fixed order, its
number first; entries of a sum are no sums and entries of a product no products. Roots are powers
with a rational exponent, quotients are powers with a negative one.
-/

namespace FieldWalk.Algebra

open Numeral

/-- A variable. The two coordinates are real, the radius is positive, nothing is known of others. -/
inductive Variable where
  | x
  | y
  | radius
  | other (name : String)
deriving DecidableEq, Repr, Ord

/-- The name of a variable. -/
def Variable.name : Variable → String
  | x => "x"
  | y => "y"
  | radius => "r"
  | other name => name

/-- A constant that is no rational number. -/
inductive Constant where
  | infinity
  | negInfinity
  /-- A value that is no number. -/
  | undefined
  /-- The infinity of the complex plane, of no direction. -/
  | pole
  | pi
  | euler
  | golden
  | gammaConstant
  | catalan
  | imaginaryUnit
deriving DecidableEq, Repr, Ord

/-- A function of one or two arguments. -/
inductive Func where
  | sin | cos | tan | sinh | cosh | tanh
  | asin | acos | atan | asinh | acosh | atanh | atan2
  | exp | log
  | abs | sign | re | im | arg | conj
  | floor | ceiling | mod
  | factorial | doubleFactorial | gamma | digamma
  /-- A function of the user's that has no value. -/
  | unnamed (name : String)
  /-- A function without numeric form. -/
  | formal (name : String)
  /-- All values between two bounds. -/
  | interval
deriving DecidableEq, Repr, Ord

/-- An expression. -/
inductive Expr where
  | rat (q : Rat)
  | float (v : Wide)
  | const (c : Constant)
  | var (v : Variable)
  | pow (base exponent : Expr)
  | call (f : Func) (args : List Expr)
  | mul (factors : List Expr)
  | add (terms : List Expr)
deriving Inhabited

namespace Expr

/-- The place of a kind of expression in the order. -/
def rank : Expr → Nat
  | rat _ => 0
  | float _ => 1
  | const _ => 2
  | var _ => 3
  | pow _ _ => 4
  | call _ _ => 5
  | mul _ => 6
  | add _ => 7

/-- The order of rational numbers. -/
def compareRat (p q : Rat) : Ordering :=
  compare (p.num * q.den) (q.num * p.den)

/-- The order of wide numbers. -/
def compareWide (a b : Wide) : Ordering :=
  if a.lt b then .lt else if b.lt a then .gt else .eq

mutual
/-- The order in which entries are kept. -/
def cmp : Expr → Expr → Ordering
  | rat p, rat q => compareRat p q
  | float v, float w => compareWide v w
  | const c, const d => compare c d
  | var v, var w => compare v w
  | pow b e, pow c f => (cmp b c).then (cmp e f)
  | call f us, call g vs => (compare f g).then (cmpAll us vs)
  | mul us, mul vs => cmpAll us vs
  | add us, add vs => cmpAll us vs
  | u, v => compare u.rank v.rank
/-- The order of lists of expressions, entry by entry. -/
def cmpAll : List Expr → List Expr → Ordering
  | [], [] => .eq
  | [], _ :: _ => .lt
  | _ :: _, [] => .gt
  | u :: us, v :: vs => (cmp u v).then (cmpAll us vs)
end

instance : BEq Expr := ⟨fun u v => cmp u v == .eq⟩

/-- The entries in their order. -/
def sorted (us : List Expr) : List Expr :=
  us.mergeSort fun u v => cmp u v != .gt

/-- An integer. -/
abbrev int (n : Int) : Expr := rat n
abbrev zero : Expr := rat 0
abbrev one : Expr := rat 1
abbrev two : Expr := rat 2
abbrev half : Expr := rat (1 / 2 : Rat)
abbrev infinity : Expr := const .infinity
abbrev negInfinity : Expr := const .negInfinity
abbrev undefined : Expr := const .undefined
abbrev pole : Expr := const .pole
abbrev pi : Expr := const .pi
abbrev euler : Expr := const .euler
abbrev imaginaryUnit : Expr := const .imaginaryUnit

/-- The exact rational value, if it is one by its form. -/
def rat? : Expr → Option Rat
  | rat q => some q
  | _ => none

/-- The integer, if it is one by its form. -/
def int? : Expr → Option Int
  | rat q => if q.den = 1 then some q.num else none
  | _ => none

/-- A number by its form: it is gathered into the coefficient of a sum or product. -/
def isNumber : Expr → Bool
  | rat _ | float _ => true
  | const c => c == .infinity || c == .negInfinity || c == .undefined
  | _ => false

/-- Exactly one. -/
def isOne : Expr → Bool
  | rat q => q.num == 1 && q.den == 1
  | _ => false

/-- Exactly zero. -/
def isZero : Expr → Bool
  | rat q => q.num == 0
  | _ => false

/-- Zero, exactly or as a float. -/
def isZeroNumber : Expr → Bool
  | rat q => q.num == 0
  | float v => v.isZero
  | _ => false

/-- The value of a finite number. -/
def toWide? : Expr → Option Wide
  | rat q => some (.ofQuotient (q.num < 0) q.num.natAbs q.den)
  | float v => some v
  | _ => none

/-- A number below zero. -/
def isNegativeNumber : Expr → Bool
  | rat q => q.num < 0
  | float v => v.isNegative
  | const c => c == .negInfinity
  | _ => false

/-- The terms of a sum; any other expression is its own only term. -/
def terms : Expr → List Expr
  | add us => us
  | u => [u]

/-- The factors of a product; any other expression is its own only factor. -/
def factors : Expr → List Expr
  | mul us => us
  | u => [u]

/-- A sum of given terms, without simplification. -/
def ofTerms : List Expr → Expr
  | [] => zero
  | [u] => u
  | us => add us

/-- A product of given factors, without simplification. -/
def ofFactors : List Expr → Expr
  | [] => one
  | [u] => u
  | us => mul us

/-- The number in front of a product, and the rest. -/
def splitCoefficient : Expr → Expr × Expr
  | mul (c :: us) => if c.isNumber then (c, ofFactors us) else (one, mul (c :: us))
  | u => if u.isNumber then (u, one) else (one, u)

/-- Base and exponent; the exponential function is a power of Euler's number. -/
def splitPower : Expr → Expr × Expr
  | pow b e => (b, e)
  | call .exp [u] => (euler, u)
  | u => (u, one)

mutual
/-- Some part of the expression, itself included, has a property. -/
def has (p : Expr → Bool) : Expr → Bool
  | pow b e => p (pow b e) || has p b || has p e
  | call f us => p (call f us) || hasAny p us
  | mul us => p (mul us) || hasAny p us
  | add us => p (add us) || hasAny p us
  | u => p u
/-- Some part of one of the expressions has a property. -/
def hasAny (p : Expr → Bool) : List Expr → Bool
  | [] => false
  | u :: us => has p u || hasAny p us
end

/-- The expression contains a part. -/
def contains (u part : Expr) : Bool :=
  u.has (· == part)

/-- The expression contains a variable. -/
def mentions (u : Expr) (v : Variable) : Bool :=
  u.has fun
    | var w => v == w
    | _ => false

/-- The expression contains no variable. -/
def isClosed (u : Expr) : Bool :=
  !u.has fun
    | var _ => true
    | call (.unnamed _) _ => true
    | _ => false

mutual
/-- The variables that occur. -/
def unknowns : Expr → List Variable
  | var v => [v]
  | pow b e => unknowns b ++ unknowns e
  | call _ us => unknownsOf us
  | mul us => unknownsOf us
  | add us => unknownsOf us
  | _ => []
/-- The variables that occur in some of the expressions. -/
def unknownsOf : List Expr → List Variable
  | [] => []
  | u :: us => unknowns u ++ unknownsOf us
end

end Expr

end FieldWalk.Algebra
