import FieldWalk.Proofs.Numeral.Exact
import FieldWalk.Window.Action
/-!
# A window on exact numbers

An engine that knows the usual field and a plane, and conversions between rational numbers and the
controls. Runs of a window can be given with them where the doubles cannot be computed with.
-/

namespace FieldWalk.Window

open Numeral
open Session (Engine)

/-- The first terms of the series of a cosine. -/
def cosine (v : ℚ) : ℚ :=
  ((List.range 12).map fun k => (-1) ^ k * v ^ (2 * k) / (2 * k).factorial).sum

/-- The first terms of the series of a sine. -/
def sine (v : ℚ) : ℚ :=
  ((List.range 12).map fun k => (-1) ^ k * v ^ (2 * k + 1) / (2 * k + 1).factorial).sum

/-- A height over the plane with its two slopes. -/
structure Sheet where
  height : ℚ → ℚ → ℚ
  slopeX : ℚ → ℚ → ℚ
  slopeY : ℚ → ℚ → ℚ

namespace Sheet

/-- The usual field. -/
def usual : Sheet where
  height x y := x ^ 2 + y ^ 2 - cosine (2 * x) / 2
  slopeX x _ := 2 * x + sine (2 * x)
  slopeY _ y := 2 * y

/-- A plane. -/
def plane : Sheet := ⟨fun x _ => x, fun _ _ => 1, fun _ _ => 0⟩

/-- A slope on its own; it is not differentiated again. -/
def ofSlope (f : ℚ → ℚ → ℚ) : Sheet := ⟨f, fun _ _ => 0, fun _ _ => 0⟩

/-- The sheets by their flat texts. -/
def table : List (String × Sheet) :=
  [("x^2+y^2-(1)/(2)*cos(2*x)", usual), ("x", plane)]

end Sheet

/-- The engine of the sheets. -/
def Sheet.engine : Engine Sheet ℚ where
  parse flat := match table.lookup flat with
    | some u => .ok u
    | none => .error (if flat.isEmpty then .empty else .malformed flat)
  compile u := some fun x y => some (.real (u.height x y))
  slopes u := some (ofSlope u.slopeX, ofSlope u.slopeY)
  isRadial _ := false
  limit _ := .unknown
  text v := toString v

/-- Markup of a sheet is compiled. -/
theorem Sheet.build_engine {markup : String} {u : Sheet}
    (h : table.lookup (Session.flatten markup).1 = some u) :
    ∃ f, (engine.build markup).1 = .ok f := by
  simp only [Engine.build]
  generalize Session.flatten markup = r at h
  have hp : engine.parse r.1 = .ok u := by
    simp only [engine, h]
  rw [hp]
  exact ⟨_, rfl⟩

/-- The nearest whole number, a half rounded up. -/
def nearest (v : ℚ) : ℤ :=
  ⌊v + 1 / 2⌋

/-- A coordinate of one digit. -/
def digitCoordinate (s : String) : Except Session.StartFault ℚ :=
  match s.toList with
  | [c] => if c.isDigit then .ok (c.toNat - '0'.toNat : ℕ) else .error .malformed
  | _ => .error .malformed

/-- The conversions for rational numbers. -/
def Conversions.exact : Conversions ℚ where
  point x y := do
    let u ← digitCoordinate x
    let v ← digitCoordinate y
    pure (u, v)
  coordinate v := toString v
  settle v := max (-1000000) (min 1000000 (nearest (v.toScalar * 100) / 100))
  hundredths v := nearest (v.toScalar * 100)
  opacity n := n / 100
  rate v := toString v.toScalar
  fault? _ := some "The input is not usable."

end FieldWalk.Window
