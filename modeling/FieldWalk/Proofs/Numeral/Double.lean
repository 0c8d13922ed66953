import FieldWalk.Numeral.Scalar
import Mathlib
/-!
# Doubles that are not numbers

Rounding makes no number into something else: a result too large is infinite, one too small is
zero. So a difference has no value only for a side without one or for two equal infinities, and a
quotient by a number other than zero only for a dividend without one.
-/

namespace FieldWalk.Numeral.Double

open Float.Model Float.Model.UnpackedFloat

/-! ## Packing -/

theorem packComponents_eq_nan {s : Sign} {e : BitVec 11} {m : BitVec 52}
    (h : packComponents .binary64 s e m = packedNaN .binary64) : e = -1#11 ∧ m ≠ 0#52 := by
  have he := congrArg unpackExponent h
  have hm := congrArg unpackMantissa h
  rw [packedNaN, unpackExponent_packComponents, unpackExponent_packComponents] at he
  rw [packedNaN, unpackMantissa_packComponents, unpackMantissa_packComponents] at hm
  exact ⟨he, hm ▸ by decide⟩

/-- What is finite is packed as a number, or as infinite if its exponent is too large. -/
theorem pack_eq_nan_iff (u : UnpackedFloat) :
    UnpackedFloat.pack .binary64 u = packedNaN .binary64 ↔ u = .notANumber := by
  cases u with
  | notANumber => exact iff_of_true rfl rfl
  | infinity s => exact iff_of_false (fun h => (packComponents_eq_nan h).2 rfl) nofun
  | zero s => exact iff_of_false (fun h => (packComponents_eq_nan h).2 rfl) nofun
  | finite s m e hm =>
    refine iff_of_false (fun h => ?_) nofun
    simp only [UnpackedFloat.pack] at h
    split at h
    · exact (packComponents_eq_nan h).2 rfl
    · rename_i he
      split at h
      · -- the exponent of a normal number fits, so it is not the one of all ones
        have hn := congrArg BitVec.toNat (packComponents_eq_nan h).1
        rw [BitVec.toNat_ofNat, Nat.mod_eq_of_lt (by omega)] at hn
        simp at hn
        omega
      · exact absurd (packComponents_eq_nan h).1 (by decide)

theorem isNaN_pack (u : UnpackedFloat) : (Float.Model.pack u).isNaN = true ↔ u = .notANumber :=
  (isNaN_unpack_iff_of_valid valid_pack).trans (pack_eq_nan_iff u)

/-! ## Rounding -/

theorem roundWithAccuracy_ne_nan (f : Format) (s : Sign) (m : ℕ) (e : ℤ) (a : Accuracy) :
    roundWithAccuracy f s m e a ≠ .notANumber := by
  unfold roundWithAccuracy
  simp only
  split <;> simp

theorem normalize_ne_nan (f : Format) (m e : ℤ) (z : Sign) :
    UnpackedFloat.normalize f m e z ≠ .notANumber := by
  unfold UnpackedFloat.normalize
  split
  · exact roundWithAccuracy_ne_nan f .negative _ _ .exact
  · simp
  · exact roundWithAccuracy_ne_nan f .positive _ _ .exact

theorem sub_eq_nan_iff (f : Format) (u v : UnpackedFloat) :
    UnpackedFloat.sub f u v = .notANumber ↔
      u = .notANumber ∨ v = .notANumber ∨ ∃ s, u = .infinity s ∧ v = .infinity s := by
  cases u <;> cases v
  case infinity.infinity s t =>
    have hst : s = -t ↔ t ≠ s := by cases s <;> cases t <;> simp <;> rfl
    simp only [UnpackedFloat.sub, beq_iff_eq, hst]
    split <;> simp_all
  case zero.zero s t =>
    simp only [UnpackedFloat.sub]
    split <;> simp
  all_goals simp [UnpackedFloat.sub, normalize_ne_nan]

theorem div_eq_nan_iff (f : Format) (u : UnpackedFloat) (s : Sign) (m : ℕ) (e : ℤ) (hm : 0 < m) :
    UnpackedFloat.div f u (.finite s m e hm) = .notANumber ↔ u = .notANumber := by
  cases u <;> simp [UnpackedFloat.div, roundWithAccuracy_ne_nan]

/-! ## Doubles -/

theorem isFinite_iff (v : Float) : v.isFinite = true ↔ v.isNaN = false ∧ v.isInf = false := by
  show v.toModel.unpack.isFinite = true ↔
    v.toModel.unpack.isNaN = false ∧ v.toModel.unpack.isInf = false
  cases v.toModel.unpack <;>
    simp [UnpackedFloat.isFinite, UnpackedFloat.isNaN, UnpackedFloat.isInf]

theorem unpack_inj {a b : Float} : a.toModel.unpack = b.toModel.unpack ↔ a = b := by
  rw [← Float.toBits_inj, ← UInt64.toBitVec_inj]
  exact unpack_inj_of_valid a.toModel.valid b.toModel.valid

theorem same_infinity_iff (a b : Float) :
    (∃ s, a.toModel.unpack = .infinity s ∧ b.toModel.unpack = .infinity s) ↔
      a.isInf = true ∧ a = b := by
  rw [← unpack_inj]
  show _ ↔ a.toModel.unpack.isInf = true ∧ _
  cases a.toModel.unpack <;> simp [UnpackedFloat.isInf, eq_comm]

/-- A difference is not a number if a side is not, or if both are the same infinity. -/
theorem isNaN_sub (a b : Float) :
    (a - b).isNaN = true ↔ a.isNaN = true ∨ b.isNaN = true ∨ a.isInf = true ∧ a = b := by
  rw [← same_infinity_iff]
  show (Float.Model.pack (UnpackedFloat.sub .binary64 a.toModel.unpack b.toModel.unpack)).isNaN =
    true ↔ a.toModel.unpack.isNaN = true ∨ b.toModel.unpack.isNaN = true ∨ _
  rw [isNaN_pack, sub_eq_nan_iff, UnpackedFloat.isNaN_iff, UnpackedFloat.isNaN_iff]

/-- A quotient by a finite number other than zero is a number if the dividend is. -/
theorem isNaN_div {a d : Float} (hd : d.isFinite = true) (h0 : (d == 0) = false) :
    (a / d).isNaN = true ↔ a.isNaN = true := by
  show (Float.Model.pack (UnpackedFloat.div .binary64 a.toModel.unpack d.toModel.unpack)).isNaN =
    true ↔ a.toModel.unpack.isNaN = true
  rw [isNaN_pack, UnpackedFloat.isNaN_iff]
  replace hd : d.toModel.unpack.isFinite = true := hd
  replace h0 : d.toModel.unpack.beq (0 : Float).toModel.unpack = false := h0
  cases h : d.toModel.unpack with
  | finite s m e hm => exact div_eq_nan_iff ..
  | zero s =>
    have hz : (UnpackedFloat.zero s).beq (0 : Float).toModel.unpack = true := by
      cases s <;> decide
    rw [h, hz] at h0
    contradiction
  | infinity | notANumber => simp [h, UnpackedFloat.isFinite] at hd

end FieldWalk.Numeral.Double
