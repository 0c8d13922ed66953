import FieldWalk.Numeral.Scalar
/-! Evenly spaced points between two ends. -/

namespace FieldWalk.Surface

open Numeral

variable {α : Type} [Scalar α]

/-- The number is zero. -/
def isZero (v : α) : Bool :=
  Scalar.compareInt v 0 == some .eq

/-- The point with index `i` of `n + 1` points, before the last one is put at the end. A step too
small to be told from zero is not formed. -/
def axisPoint (a b : α) (n i : Nat) : α :=
  let delta := b - a
  if n = 0 then Scalar.ofNat i * delta + a
  else
    let step := delta / Scalar.ofNat n
    if isZero step then Scalar.ofNat i / Scalar.ofNat n * delta + a
    else Scalar.ofNat i * step + a

/-- `n` points from `a` to `b`, both ends included. -/
def axis (a b : α) (n : Nat) : List α :=
  (List.range n).map fun i =>
    if 1 < n ∧ i = n - 1 then b else axisPoint a b (n - 1) i

end FieldWalk.Surface
