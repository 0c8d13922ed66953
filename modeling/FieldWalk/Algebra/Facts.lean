import FieldWalk.Algebra.Approx
import FieldWalk.Algebra.Number
/-!
What is known of an expression whatever its variables are. Each question has the answers yes, no
and unknown; a rewriting that needs a fact is made only where the answer is yes.
-/

namespace FieldWalk.Algebra

/-- An answer; none if unknown. -/
abbrev Answer := Option Bool

namespace Answer

def yes : Answer := some true
def no : Answer := some false

/-- The opposite. -/
def not (a : Answer) : Answer := a.map (!·)

/-- Both; a certain no decides. -/
def and : Answer → Answer → Answer
  | some false, _ => some false
  | _, some false => some false
  | some true, some true => some true
  | _, _ => none

/-- All of them hold; no if exactly one fails and the others hold. -/
def group (as : List Answer) : Answer :=
  if as.any (·.isNone) then none
  else match as.countP (· == some false) with
    | 0 => yes
    | 1 => no
    | _ => none

end Answer

/-- What is known of an expression. -/
structure Facts where
  /-- On the real line or at one of its two ends. -/
  real : Answer := none
  finite : Answer := none
  positive : Answer := none
  negative : Answer := none
  zero : Answer := none
  integer : Answer := none
  even : Answer := none
  rational : Answer := none
  /-- On the imaginary axis and not zero. -/
  imaginary : Answer := none

namespace Facts

open Answer

/-- The facts that follow from the given ones. -/
def close (f : Facts) : Facts :=
  if f.zero == yes then
    { real := yes, finite := yes, positive := no, negative := no, zero := yes, integer := yes
      even := yes, rational := yes, imaginary := no }
  else
    let f := if f.integer == yes then { f with rational := yes } else f
    let f := if f.rational == yes then { f with real := yes, finite := yes } else f
    let f := if f.positive == yes then { f with real := yes, negative := no, zero := no } else f
    let f := if f.negative == yes then { f with real := yes, positive := no, zero := no } else f
    let f := if f.imaginary == yes then
        { f with real := no, zero := no, finite := yes } else f
    let f := if f.real == no then
        { f with positive := no, negative := no, zero := no, integer := no, rational := no } else f
    let f := if f.finite == no then { f with integer := no, zero := no, rational := no } else f
    if f.real == yes then
      let f := { f with imaginary := no }
      if f.positive == no && f.zero == no then { f with negative := yes }
      else if f.negative == no && f.zero == no then { f with positive := yes }
      else f
    else f

/-- Not negative. -/
def nonnegative (f : Facts) : Answer :=
  if f.negative == yes || f.real == no then no
  else if f.real == yes then f.negative.not else none

/-- Not positive. -/
def nonpositive (f : Facts) : Answer :=
  if f.positive == yes || f.real == no then no
  else if f.real == yes then f.positive.not else none

/-- Real and finite. -/
def finiteReal (f : Facts) : Answer := f.real.and f.finite
/-- Positive and finite. -/
def finitePositive (f : Facts) : Answer := f.positive.and f.finite
def infinite (f : Facts) : Answer := f.finite.not
def odd (f : Facts) : Answer :=
  if f.integer == yes then f.even.not else if f.integer == no then no else none

def ofRat (q : Rat) : Facts :=
  { real := yes, finite := yes, positive := some (0 < q.num), negative := some (q.num < 0)
    zero := some (q.num == 0), integer := some (q.den == 1)
    even := if q.den == 1 then some (q.num % 2 == 0) else no, rational := yes, imaginary := no }

def ofFloat (v : Numeral.Wide) : Facts :=
  if v.isZero then { zero := yes : Facts }.close
  else
    { real := yes, finite := yes, positive := some v.isPositive, negative := some v.isNegative
      zero := no, integer := if (Numeral.Wide.ofInt v.floorInt).sub v |>.isZero then none else no
      imaginary := no }

def ofConstant : Constant → Facts
  | .infinity => { real := yes, finite := no, positive := yes : Facts }.close
  | .negInfinity => { real := yes, finite := no, negative := yes : Facts }.close
  | .undefined => {}
  | .pole => { real := no, finite := no : Facts }.close
  | .imaginaryUnit => { imaginary := yes : Facts }.close
  | _ => { finite := yes, positive := yes, integer := no, rational := no : Facts }.close

def ofVariable : Variable → Facts
  | .x | .y => { real := yes, finite := yes, imaginary := no }
  | .radius => { finite := yes, positive := yes : Facts }.close
  | .other _ => {}

/-- Sums of terms. -/
def ofSum (fs : List Facts) : Facts :=
  let fs := fs.filter (·.zero != yes)
  let known := fs.all fun f => f.nonnegative == yes || f.nonpositive == yes
  let bounded := fs.all (·.finite == yes)
  let pos := fs.any (·.positive == yes)
  let neg := fs.any (·.negative == yes)
  let nonneg := fs.any fun f => f.nonnegative == yes && f.positive != yes
  let nonpos := fs.any fun f => f.nonpositive == yes && f.negative != yes
  let real := group (fs.map (·.real))
  let positive := if !known || !bounded then none
    else if !neg && !nonpos && pos then yes else if !pos && !nonneg then no else none
  let negative := if !known || !bounded then none
    else if !pos && !nonneg && neg then yes else if !neg && !nonpos then no else none
  { real
    finite := group (fs.map (·.finite))
    positive, negative
    integer := group (fs.map (·.integer))
    even := if fs.all (·.integer == yes) && fs.all (·.even.isSome) then
      some (fs.countP (·.even == no) % 2 == 0) else none
    rational := group (fs.map (·.rational))
    imaginary := if fs.all (·.imaginary == yes) && !fs.isEmpty then none
      else if real == yes then no else none : Facts }.close

/-- Whether a product is real, or imaginary if `wanted` starts false. -/
def productReal (wanted : Bool) (fs : List Facts) : Answer :=
  let allFinite := fs.all (·.finite == yes)
  let rec go : List Facts → Bool → Answer → Option Facts → Answer
    | [], wanted, zero, special => match special with
      | some t =>
        if t.real == no && wanted then (if zero == no then no else zero)
        else if t.imaginary == no && !wanted then (if zero == no then no else zero)
        else if zero == no then some wanted else if wanted then yes else none
      | none => if zero == no then some wanted else if wanted then yes else none
    | t :: ts, wanted, zero, special =>
      if t.finite == yes && t.imaginary == yes then go ts (!wanted) zero special
      else if t.real == yes then
        if zero != no then go ts wanted zero special
        else if t.zero == yes then (if allFinite then yes else none)
        else go ts wanted t.zero special
      else if t.real == no || t.imaginary == no then
        if special.isSome then none else go ts wanted zero (some t)
      else none
  go fs wanted no none

/-- The sign of a product: whether it is the one that `negative` names. -/
def productSign (negative : Bool) (fs : List Facts) : Answer :=
  let rec go : List Facts → Bool → Bool → Answer
    | [], flipped, weak => if flipped then no else if weak then none else yes
    | t :: ts, flipped, weak =>
      if t.positive == yes then go ts flipped weak
      else if t.negative == yes then go ts (!flipped) weak
      else if t.zero == yes then (if fs.all (·.finite == yes) then no else none)
      else if t.nonpositive == yes then go ts (!flipped) true
      else if t.nonnegative == yes then go ts flipped true
      else none
  go fs negative false

/-- Products of factors. -/
def ofProduct (fs : List Facts) : Facts :=
  let anyZero := fs.any (·.zero == yes)
  let noneZero := fs.all (·.zero == no)
  let allFinite := fs.all (·.finite == yes)
  let anyInfinite := fs.any (·.finite == no)
  let allInteger := fs.all (·.integer == yes)
  { real := productReal true fs
    finite := if allFinite then yes else if anyInfinite && noneZero then no else none
    positive := productSign false fs
    negative := productSign true fs
    zero := if anyZero then (if allFinite then yes else none)
      else if noneZero && allFinite then no
      else if noneZero && !anyInfinite && fs.all (·.finite.isSome) then no else none
    integer := if allInteger then yes
      else if fs.length == 2 && fs.any (·.integer == yes) && fs.all (·.rational == yes) then none
      else none
    even := if allInteger then
        (if fs.any (·.even == yes) then yes else if fs.all (·.even == no) then no else none)
      else none
    rational := if fs.all (·.rational == yes) then yes
      else if noneZero then group (fs.map (·.rational)) else none
    imaginary := match productReal false fs with
      | some true => if noneZero then yes else none
      | some false => no
      | none => none : Facts }.close

/-- Whether a power is real. -/
def powerReal (b e : Facts) (rationalExponent : Bool) : Answer :=
  if b.real.isNone then none
  else if e.real.isNone then none
  else if b.real == yes && e.real == yes then
    if b.positive == yes then yes
    else if b.nonnegative == yes && e.nonnegative == yes then yes
    else if e.integer == yes && b.zero == no then yes
    else if e.integer == yes && e.nonnegative == yes && e.finite == yes then yes
    else if b.negative == yes && rationalExponent && e.integer == no then no
    else none
  else if b.imaginary == yes && e.integer == yes then e.even
  else none

/-- Powers. -/
def ofPower (b e : Facts) (same rationalExponent isHalf : Bool) : Facts :=
  let real := powerReal b e rationalExponent
  let finite :=
    if e.negative == yes && b.zero == yes then no
    else if e.negative == yes && (b.finite == no || b.zero == no) then yes
    else if b.finite == yes && e.finite == yes && (e.nonnegative == yes || b.zero == no) then yes
    else none
  let zero :=
    if b.zero == yes then
      (if e.positive == yes then yes else if e.nonpositive == yes then no else none)
    else if b.zero == no then
      if b.finite == yes && e.finite == yes then no
      else if e.negative == yes then b.infinite
      else if e.nonnegative == yes then no else none
    else if b.finite == yes && e.negative == yes then no
    else none
  let positive :=
    if same && b.nonnegative == yes then yes
    else if b.finitePositive == yes && e.finiteReal == yes then yes
    else if b.negative == yes && e.even == yes then yes
    else if b.negative == yes && e.odd == yes then no
    else if b.nonpositive == yes && e.odd == yes then no
    else none
  let negative :=
    if isHalf && (b.finite == yes || b.real == yes) then no
    else if b.negative == yes && e.odd == yes && b.finite == yes then yes
    else if b.negative == yes && e.even == yes then no
    else if b.positive == yes && e.real == yes then no
    else if b.nonnegative == yes && e.nonnegative == yes then no
    else if (b.nonpositive == yes || b.real == yes) && e.even == yes then no
    else none
  let imaginary :=
    if b.imaginary == yes && e.integer == yes then e.odd
    else if b.real == yes && e.real == yes then
      if b.finitePositive == yes then no
      else if e.rational != yes then e.rational
      else if e.integer == yes then no
      else if isHalf then b.negative else none
    else none
  { real, finite, zero, positive, negative, imaginary
    integer := if b.integer == yes && e.integer == yes && e.nonnegative == yes then yes else none
    even := if b.integer == yes && e.integer == yes && e.positive == yes then b.even else none
    rational := if b.rational == yes && e.integer == yes && (b.zero == no || e.nonnegative == yes)
      then yes else none : Facts }.close

/-- Values of functions. -/
def ofCall (f : Func) (args : List Facts) : Facts :=
  let u := args.headD {}
  let odd : Facts := { real := u.real, positive := u.positive, negative := u.negative
                       zero := u.zero, finite := u.finite }
  let only (a : Answer) : Answer := if a == yes then yes else none
  let raw : Facts := match f with
    | .sin | .cos =>
      { real := only u.real, finite := only u.real
        zero := if f matches .sin then only u.zero else none }
    | .tan => { real := only u.real, zero := only u.zero }
    | .sinh | .tanh | .asinh | .atan => { odd with real := only u.real }
    | .cosh => { real := only u.real, finite := only u.finite
                 positive := if u.finiteReal == yes then yes else none }
    | .exp =>
      { real := only u.real
        positive := if u.finiteReal == yes || (u.real == yes && u.finite != no) then yes else none
        finite := only u.finite, zero := if u.finite == yes then no else none }
    | .log => { real := only u.positive, finite := if u.zero == no then only u.finite else none }
    | .abs =>
      { real := yes, negative := no, zero := u.zero, finite := u.finite
        integer := if u.real == yes then u.integer else none
        even := u.even, rational := if u.real == yes then u.rational else none }
    | .sign =>
      { finite := yes, zero := u.zero, real := only u.real, positive := u.positive
        negative := u.negative, integer := only u.real }
    | .re | .im => { real := yes, finite := only u.finite }
    | .arg | .atan2 => { real := yes, finite := yes }
    | .floor | .ceiling => { integer := only u.real }
    | .mod =>
      let v := (args.drop 1).headD {}
      { real := if u.real == yes && v.real == yes then yes else none
        finite := if u.finite == yes && v.finite == yes then yes else none
        integer := if u.integer == yes && v.integer == yes then yes else none
        negative := if v.positive == yes then no else none
        positive := if v.negative == yes then no else none }
    | .factorial | .doubleFactorial =>
      if u.integer == yes && u.nonnegative == yes then { integer := yes, positive := yes }
      else { real := only u.real }
    | .conj => u
    | _ => {}
  raw.close

end Facts

namespace Expr

/-- Adds the sign of an expression without variables, computed numerically. -/
def addSign (u : Expr) (f : Facts) : Facts :=
  if f.positive.isSome && f.negative.isSome || f.real == Answer.no then f
  else if u.isClosed then
    match u.clearSign? with
    | some o =>
      ({ f with positive := some (o == .gt), negative := some (o == .lt) } : Facts).close
    | none => f
  else f

mutual
/-- What is known of an expression. -/
def facts : Expr → Facts
  | rat q => .ofRat q
  | float v => .ofFloat v
  | const c => .ofConstant c
  | var v => .ofVariable v
  | pow b e => addSign (pow b e) <|
      .ofPower (facts b) (facts e) (b == e) e.rat?.isSome
        (e.rat?.any fun q => q.num == 1 && q.den == 2)
  | call f us => addSign (call f us) <| .ofCall f (factsOf us)
  | mul us => addSign (mul us) <| .ofProduct (factsOf us)
  | add us => addSign (add us) <| .ofSum (factsOf us)
/-- What is known of several expressions. -/
def factsOf : List Expr → List Facts
  | [] => []
  | u :: us => facts u :: factsOf us
end

end Expr

end FieldWalk.Algebra
