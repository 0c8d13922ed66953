import FieldWalk.Formula.Product
/-!
# Infix notation

What the tokens of a flat text denote over any arithmetic. A power associates to the right and binds
tighter than a sign before it, which binds tighter than products and sums; these associate to the left.
A function name stands before its arguments in parentheses.
-/

namespace FieldWalk.Notation

open Formula Formula.Token

/-- The operations that a formula calls for. -/
structure Arithmetic (K : Type) where
  number : List Char → K
  name : List Char → K
  neg : K → K
  add : K → K → K
  sub : K → K → K
  mul : K → K → K
  div : K → K → K
  pow : K → K → K
  /-- Arguments in a row. -/
  pair : K → K → K
  apply : List Char → K → K

/-- The ranks of phrases, the tightest first. -/
inductive Rank where
  | operand
  | factor
  | product
  | sum
  | arguments

variable {K : Type}

/-- The tokens are a phrase of the rank and denote the value. -/
inductive Denotes (A : Arithmetic K) : Rank → List Token → K → Prop where
  | number (digits) : Denotes A .operand [number digits] (A.number digits)
  | name {n} (h : n ∉ functionNames) : Denotes A .operand [ident n] (A.name n)
  | group {ts v} (h : Denotes A .sum ts v) : Denotes A .operand (symbol '(' :: ts ++ [symbol ')']) v
  | call {n ts v} (hn : n ∈ functionNames) (h : Denotes A .arguments ts v) :
      Denotes A .operand (ident n :: symbol '(' :: ts ++ [symbol ')']) (A.apply n v)
  | operand {ts v} (h : Denotes A .operand ts v) : Denotes A .factor ts v
  | pow {ts us u v} (h : Denotes A .operand ts u) (h' : Denotes A .factor us v) :
      Denotes A .factor (ts ++ symbol '^' :: us) (A.pow u v)
  | plus {ts v} (h : Denotes A .factor ts v) : Denotes A .factor (symbol '+' :: ts) v
  | minus {ts v} (h : Denotes A .factor ts v) : Denotes A .factor (symbol '-' :: ts) (A.neg v)
  | factor {ts v} (h : Denotes A .factor ts v) : Denotes A .product ts v
  | mul {ts us u v} (h : Denotes A .product ts u) (h' : Denotes A .factor us v) :
      Denotes A .product (ts ++ symbol '*' :: us) (A.mul u v)
  | div {ts us u v} (h : Denotes A .product ts u) (h' : Denotes A .factor us v) :
      Denotes A .product (ts ++ symbol '/' :: us) (A.div u v)
  | product {ts v} (h : Denotes A .product ts v) : Denotes A .sum ts v
  | add {ts us u v} (h : Denotes A .sum ts u) (h' : Denotes A .product us v) :
      Denotes A .sum (ts ++ symbol '+' :: us) (A.add u v)
  | sub {ts us u v} (h : Denotes A .sum ts u) (h' : Denotes A .product us v) :
      Denotes A .sum (ts ++ symbol '-' :: us) (A.sub u v)
  | sum {ts v} (h : Denotes A .sum ts v) : Denotes A .arguments ts v
  | pair {ts us u v} (h : Denotes A .arguments ts u) (h' : Denotes A .sum us v) :
      Denotes A .arguments (ts ++ symbol ',' :: us) (A.pair u v)

end FieldWalk.Notation
