import FieldWalk.Proofs.Numeral.Double
import FieldWalk.Proofs.Numeral.Extended
/-!
# Arithmetic that keeps signs apart

Turning the sign of a number changes the sign of its products and nothing else: neither a magnitude nor
whether a number is finite. Rounding to the nearest number is no hindrance, so the doubles are signed as
the rational numbers are.
-/

namespace FieldWalk.Numeral

/-- The sign of a product is the one of its factors; magnitudes and finiteness have no sign. -/
structure Signed (α : Type) [Scalar α] : Prop where
  neg_neg : ∀ a : α, - -a = a
  neg_mul : ∀ a b : α, -a * b = -(a * b)
  mul_neg : ∀ a b : α, a * -b = -(a * b)
  abs_neg : ∀ a : α, Scalar.abs (-a) = Scalar.abs a
  isFinite_neg : ∀ a : α, Scalar.isFinite (-a) = Scalar.isFinite a
  neg_one : (Scalar.ofDecimal (-1) 0 : α) = -Scalar.ofNat 1

theorem signed_extended (r : Rounding) : Signed (Extended r) where
  neg_neg := neg_neg
  neg_mul := neg_mul
  mul_neg := mul_neg
  abs_neg := Extended.scalar_abs_neg
  isFinite_neg := Extended.isFinite_neg
  neg_one := Extended.ofDecimal_neg 1 0

namespace Double

open Float.Model Float.Model.UnpackedFloat

/-! ## Packing -/

theorem unpack_packComponents_neg (s : Sign) (e : BitVec 11) (m : BitVec 52) :
    UnpackedFloat.unpack .binary64 (packComponents .binary64 (-s) e m) =
      (UnpackedFloat.unpack .binary64 (packComponents .binary64 s e m)).neg := by
  unfold UnpackedFloat.unpack
  simp only [unpackMantissa_packComponents, unpackExponent_packComponents, unpackSign_packComponents,
    Sign.ofBitVec_toBitVec]
  split
  · split <;> rfl
  · split
    · split <;> rfl
    · rfl

theorem unpack_pack_neg (u : UnpackedFloat) :
    (Float.Model.pack u.neg).unpack = (Float.Model.pack u).unpack.neg := by
  cases u with
  | notANumber => rfl
  | infinity s => exact unpack_packComponents_neg s _ _
  | zero s => exact unpack_packComponents_neg s _ _
  | finite s m e hm =>
    show UnpackedFloat.unpack _ (UnpackedFloat.pack _ (.finite (-s) m e hm)) =
      (UnpackedFloat.unpack _ (UnpackedFloat.pack _ (.finite s m e hm))).neg
    simp only [UnpackedFloat.pack]
    split
    · exact unpack_packComponents_neg s _ _
    · split <;> exact unpack_packComponents_neg s _ _

theorem pack_unpack (v : Float) : Float.Model.pack v.toModel.unpack = v.toModel := by
  have hbits : UnpackedFloat.pack .binary64 v.toModel.unpack = v.toModel.toBits.toBitVec :=
    pack_unpack_of_valid v.toModel.valid
  show Float.Model.mk ⟨UnpackedFloat.pack .binary64 v.toModel.unpack⟩ _ = _
  simp only [hbits]

theorem unpack_neg (v : Float) : (-v).toModel.unpack = v.toModel.unpack.neg := by
  show (Float.Model.pack v.toModel.unpack.neg).unpack = _
  rw [unpack_pack_neg, pack_unpack]

/-! ## Products -/

theorem neg_neg_unpacked (u : UnpackedFloat) : u.neg.neg = u := by
  have hsign : ∀ s : Sign, - -s = s := by rintro (_ | _) <;> rfl
  cases u <;> simp only [UnpackedFloat.neg, hsign]

/-- Rounding looks at magnitudes alone. -/
theorem roundWithAccuracy_neg (f : Format) (s : Sign) (m : ℕ) (e : ℤ) (a : Accuracy) :
    roundWithAccuracy f (-s) m e a = (roundWithAccuracy f s m e a).neg := by
  unfold roundWithAccuracy
  simp only
  split <;> rfl

theorem mul_neg_unpacked (f : Format) (u v : UnpackedFloat) :
    UnpackedFloat.mul f u v.neg = (UnpackedFloat.mul f u v).neg := by
  have hsign : ∀ s t : Sign, s * -t = -(s * t) := by rintro (_ | _) (_ | _) <;> rfl
  cases u <;> cases v <;>
    simp only [UnpackedFloat.mul, UnpackedFloat.neg, hsign, roundWithAccuracy_neg]

theorem neg_mul_unpacked (f : Format) (u v : UnpackedFloat) :
    UnpackedFloat.mul f u.neg v = (UnpackedFloat.mul f u v).neg := by
  have hsign : ∀ s t : Sign, -s * t = -(s * t) := by rintro (_ | _) (_ | _) <;> rfl
  cases u <;> cases v <;>
    simp only [UnpackedFloat.mul, UnpackedFloat.neg, hsign, roundWithAccuracy_neg]

theorem unpack_mul (a b : Float) : (a * b).toModel.unpack =
    (Float.Model.pack (UnpackedFloat.mul .binary64 a.toModel.unpack b.toModel.unpack)).unpack :=
  rfl

theorem unpack_abs_neg (a : Float) : (-a).abs.toModel.unpack = a.abs.toModel.unpack := by
  show (Float.Model.pack (-a).toModel.unpack.abs).unpack =
    (Float.Model.pack a.toModel.unpack.abs).unpack
  rw [unpack_neg]
  cases a.toModel.unpack <;> rfl

end Double

/-- Doubles round to the nearest, and that is the same on both sides of zero. -/
theorem signed_double : Signed Float where
  neg_neg a := by
    rw [← Double.unpack_inj, Double.unpack_neg, Double.unpack_neg, Double.neg_neg_unpacked]
  neg_mul a b := by
    rw [← Double.unpack_inj, Double.unpack_neg, Double.unpack_mul, Double.unpack_mul,
      Double.unpack_neg, Double.neg_mul_unpacked, Double.unpack_pack_neg]
  mul_neg a b := by
    rw [← Double.unpack_inj, Double.unpack_neg, Double.unpack_mul, Double.unpack_mul,
      Double.unpack_neg, Double.mul_neg_unpacked, Double.unpack_pack_neg]
  abs_neg a := Double.unpack_inj.1 (Double.unpack_abs_neg a)
  isFinite_neg a := by
    show (-a).toModel.unpack.isFinite = a.toModel.unpack.isFinite
    rw [Double.unpack_neg]
    cases a.toModel.unpack <;> rfl
  neg_one := by decide +kernel

end FieldWalk.Numeral
