import FieldWalk.Algebra.Expr
/-!
Arithmetic of the numbers in front of sums and products, and roots of rational numbers: a root is
a rational number times powers of natural numbers with exponents between zero and one, each
exponent once.
-/

namespace FieldWalk.Algebra

open Numeral

namespace Expr

/-- The sum of two numbers, the pole among them. -/
def addNumber : Expr → Expr → Expr
  | rat p, rat q => rat (p + q)
  | const .undefined, _ => undefined
  | _, const .undefined => undefined
  | const .pole, v => match v with
    | const _ => undefined
    | _ => pole
  | u, const .pole => match u with
    | const _ => undefined
    | _ => pole
  | const .infinity, v => if v == negInfinity then undefined else infinity
  | const .negInfinity, v => if v == infinity then undefined else negInfinity
  | _, const c => const c
  | u, v => match u.toWide?, v.toWide? with
    | some a, some b => float (a.add b)
    | _, _ => undefined

/-- The infinity with a sign. -/
def signedInfinity (negative : Bool) : Expr :=
  if negative then negInfinity else infinity

/-- The product of two numbers, the pole among them. -/
def mulNumber : Expr → Expr → Expr
  | rat p, rat q => rat (p * q)
  | const .undefined, _ => undefined
  | _, const .undefined => undefined
  | const .pole, v => if v.isZeroNumber then undefined else pole
  | u, const .pole => if u.isZeroNumber then undefined else pole
  | u, v => match u.toWide?, v.toWide? with
    | some a, some b => float (a.mul b)
    | _, _ =>
      if u.isZeroNumber || v.isZeroNumber then undefined
      else signedInfinity (u.isNegativeNumber != v.isNegativeNumber)

/-- The number with the other sign. -/
def negNumber (u : Expr) : Expr :=
  mulNumber (int (-1)) u

end Expr

/-- An integer power of a rational number that is not zero. -/
def ratPower (q : Rat) (n : Int) : Rat :=
  let r := if 0 ≤ n then q else 1 / q
  r ^ n.natAbs

/-- The largest number whose power does not exceed `n`, found bit by bit. -/
def rootBits (k n : Nat) : Nat → Nat → Nat
  | 0, acc => acc
  | i + 1, acc =>
    let next := acc + 2 ^ i
    rootBits k n i (if next ^ k ≤ n then next else acc)

/-- The integer part of the `k`-th root. -/
def integerRoot (k n : Nat) : Nat :=
  rootBits k n (n.log2 / k + 1) 0

/-- How often `p` divides `n`, and what is left. -/
def splitPrime (p : Nat) : Nat → Nat → Nat × Nat
  | 0, n => (0, n)
  | fuel + 1, n =>
    if n % p = 0 then
      let r := splitPrime p fuel (n / p)
      (r.1 + 1, r.2)
    else (0, n)

/-- Prime factors from `p` on; a rest without small factors counts as a prime. -/
def factorFrom : Nat → Nat → Nat → List (Nat × Nat)
  | 0, _, n => if n = 1 then [] else [(n, 1)]
  | fuel + 1, p, n =>
    if n = 1 then []
    else if n < p * p then [(n, 1)]
    else
      let r := splitPrime p (n.log2 + 1) n
      let rest := factorFrom fuel (if p = 2 then 3 else p + 2) r.2
      if r.1 = 0 then rest else (p, r.1) :: rest

/-- The prime factors of a positive number with their multiplicities. -/
def factor (n : Nat) : List (Nat × Nat) :=
  factorFrom 16384 2 n

/-- A root of a rational number: a coefficient and natural bases with their exponents. -/
structure Root where
  coefficient : Rat
  bases : List (Nat × Rat)

namespace Root

/-- Multiplies by a prime with a rational exponent. -/
def timesPrime (r : Root) (p : Nat) (e : Rat) : Root :=
  let e := (r.bases.lookup p).getD 0 + e
  let whole := e.floor
  let rest := e - whole
  let others := r.bases.filter (·.1 != p)
  ⟨r.coefficient * ratPower p whole, if rest.num = 0 then others else others ++ [(p, rest)]⟩

/-- Multiplies by a positive rational number with a rational exponent. -/
def times (r : Root) (b e : Rat) : Root :=
  let exact (n : Nat) : Nat × Nat :=
    let m := integerRoot e.den n
    if m.pow e.den = n then (m, e.den) else (n, 1)
  let step (s : Int) (n : Nat) (r : Root) : Root :=
    let (m, k) := exact n
    (factor m).foldl (fun r f => r.timesPrime f.1 (s * f.2 * k * e)) r
  step (-1) b.den (step 1 b.num.natAbs r)

/-- Bases with equal exponents are multiplied. -/
def grouped (r : Root) : List (Nat × Rat) :=
  r.bases.foldl (fun acc (p, e) =>
    if acc.any (·.2 == e) then acc.map fun (q, f) => if f == e then (q * p, f) else (q, f)
    else acc ++ [(p, e)]) []

/-- The product of powers of positive rational numbers. -/
def ofPowers (ps : List (Rat × Rat)) : Root :=
  ps.foldl (fun r p => r.times p.1 p.2) ⟨1, []⟩

/-- The powers as expressions. -/
def factors (r : Root) : List Expr :=
  r.grouped.map fun (b, e) => .pow (.int b) (.rat e)

end Root

/-- A power of minus one: a sign, and what is left of it as factors. -/
def unitRoot (e : Rat) : Rat × List Expr :=
  let turns := e - 2 * ((e / 2).floor : Rat)
  let (sign, rest) : Rat × Rat := if 1 ≤ turns then (-1, turns - 1) else (1, turns)
  (sign, if rest.num = 0 then []
    else if rest.den = 2 then [Expr.imaginaryUnit]
    else [.pow (.int (-1)) (.rat rest)])

end FieldWalk.Algebra
