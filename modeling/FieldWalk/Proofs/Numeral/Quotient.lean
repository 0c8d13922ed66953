import FieldWalk.Proofs.Numeral.Double
/-!
# Integer parts of quotients of doubles

A double has an integer part if it is finite. What is rounded is not rounded to zero unless it is finer
than the grid of the doubles, so a thousand over a finite double is never zero: it is infinite, or it
divides what is finite.
-/

namespace FieldWalk.Numeral.Double

open Float.Model Float.Model.UnpackedFloat

/-! ## Exact values -/

/-- The exact value of what is unpacked, its sign given apart. -/
def exactValue? (negative : Bool) : UnpackedFloat → Option Expanded
  | .finite _ m e _ => some ⟨negative, m, e⟩
  | .zero _ => some ⟨negative, 0, -1074⟩
  | .infinity _ | .notANumber => none

theorem toNat_unpackExponent (v : Float) :
    (@unpackExponent .binary64 v.toModel.toBits.toBitVec).toNat =
      v.toBits.toNat >>> 52 % 2048 := by
  show (BitVec.extractLsb 62 52 v.toModel.toBits.toBitVec).toNat = _
  rw [BitVec.extractLsb_toNat]
  rfl

theorem toNat_unpackMantissa (v : Float) :
    (@unpackMantissa .binary64 v.toModel.toBits.toBitVec).toNat =
      v.toBits.toNat % Nat.pow 2 52 := by
  show (BitVec.extractLsb 51 0 v.toModel.toBits.toBitVec).toNat = _
  rw [BitVec.extractLsb_toNat]
  rfl

/-- A double is expanded as it is unpacked. -/
theorem expand?_eq (v : Float) : expand? v = exactValue? (signBit v) v.toModel.unpack := by
  have hfield := toNat_unpackExponent v
  have hfraction := toNat_unpackMantissa v
  show _ = exactValue? _ (UnpackedFloat.unpack .binary64 v.toModel.toBits.toBitVec)
  unfold expand? UnpackedFloat.unpack
  simp only [← hfield, ← hfraction]
  generalize @unpackExponent .binary64 v.toModel.toBits.toBitVec = e
  have hones : e.toNat = 2047 ↔ e = -1#11 := by
    rw [← BitVec.toNat_inj]
    rfl
  have hzero : e.toNat = 0 ↔ e = 0#11 := by
    rw [← BitVec.toNat_inj]
    rfl
  by_cases h1 : e = -1#11
  · rw [if_pos (hones.2 h1), if_pos h1]
    split <;> rfl
  · rw [if_neg (mt hones.1 h1), if_neg h1]
    by_cases h0 : e = 0#11
    · rw [if_pos (hzero.2 h0), if_pos h0]
      split
      · rename_i hm
        rw [hm]
        rfl
      · rw [h0]
        rfl
    · rw [if_neg (mt hzero.1 h0), if_neg h0]
      have hm := (@unpackMantissa .binary64 v.toModel.toBits.toBitVec).isLt
      have hlead := Nat.two_pow_add_eq_or_of_lt hm 1
      simp only [exactValue?, BitVec.toNat_append, BitVec.toNat_ofNat, Nat.shiftLeft_eq]
      rw [mul_one] at hlead
      congr 2

/-- A double has an integer part if it is finite. -/
theorem floorDouble_isOk_iff (v : Float) : (∃ n, floorDouble v = .ok n) ↔ v.isFinite = true := by
  show _ ↔ v.toModel.unpack.isFinite = true
  unfold floorDouble
  rw [expand?_eq]
  cases v.toModel.unpack <;> simp [exactValue?, UnpackedFloat.isFinite]

theorem floorDouble_of_zero {v : Float} {s : Sign} (h : v.toModel.unpack = .zero s) :
    floorDouble v = .ok 0 := by
  unfold floorDouble
  rw [expand?_eq, h]
  simp [exactValue?, Expanded.ratio, Expanded.quotient]

theorem quotient_pos {d : Expanded} (h : 0 < d.mantissa) : 0 < d.quotient.1 := by
  unfold Expanded.quotient
  split
  · exact Nat.shiftLeft_pos_iff.2 h
  · exact h

theorem compareDoubleInt_zero_iff (v : Float) :
    compareDoubleInt v 0 = some .eq ↔ ∃ s, v.toModel.unpack = .zero s := by
  unfold compareDoubleInt
  rw [expand?_eq]
  cases v.toModel.unpack with
  | finite s m e hm =>
    refine iff_of_false ?_ (by simp)
    have hpos := quotient_pos (d := ⟨signBit v, m, e⟩) hm
    simp only [exactValue?, Expanded.ratio, zero_mul, Option.some.injEq, compare_eq_iff_eq]
    split <;> omega
  | zero s => simp [exactValue?, Expanded.ratio, Expanded.quotient]
  | infinity s => simp [exactValue?]
  | notANumber => simp [exactValue?]

/-! ## Zero, and what is not finite -/

@[simp] theorem unpack_pack_zero (s : Sign) : (Float.Model.pack (.zero s)).unpack = .zero s := by
  cases s <;> rfl

@[simp] theorem unpack_pack_infinity (s : Sign) :
    (Float.Model.pack (.infinity s)).unpack = .infinity s := by
  cases s <;> rfl

@[simp] theorem unpack_pack_notANumber :
    (Float.Model.pack .notANumber).unpack = .notANumber := rfl

theorem unpack_div (a b : Float) : (a / b).toModel.unpack =
    (Float.Model.pack (UnpackedFloat.div .binary64 a.toModel.unpack b.toModel.unpack)).unpack :=
  rfl

theorem unpack_zero : (Scalar.ofNat 0 : Float).toModel.unpack = .zero .positive := rfl

/-- No time has passed between a time and itself. -/
theorem zero_add_sub_self {t : Float} (ht : t.isFinite = true) :
    ((Scalar.ofNat 0 : Float) + (t - t)).toModel.unpack = .zero .positive := by
  replace ht : t.toModel.unpack.isFinite = true := ht
  have hsub : UnpackedFloat.sub .binary64 t.toModel.unpack t.toModel.unpack = .zero .positive := by
    cases h : t.toModel.unpack with
    | infinity | notANumber =>
      rw [h] at ht
      cases ht
    | zero s => cases s <;> rfl
    | finite s m e hm => simp [UnpackedFloat.sub, UnpackedFloat.normalize]
  show (Float.Model.pack (UnpackedFloat.add .binary64 (Scalar.ofNat 0 : Float).toModel.unpack
    (Float.Model.pack (UnpackedFloat.sub .binary64 t.toModel.unpack t.toModel.unpack)).unpack)).unpack = _
  rw [hsub, unpack_zero, unpack_pack_zero]
  rfl

/-- Zero over a number other than zero is zero. -/
theorem zero_div_eq_zero {a b : Float} {s : Sign} (ha : a.toModel.unpack = .zero s)
    (hb : b.isNaN = false) (h0 : ∀ t, b.toModel.unpack ≠ .zero t) :
    ∃ t, (a / b).toModel.unpack = .zero t := by
  rw [unpack_div, ha]
  replace hb : b.toModel.unpack.isNaN = false := hb
  cases h : b.toModel.unpack with
  | notANumber =>
    rw [h] at hb
    cases hb
  | zero t => exact absurd h (h0 t)
  | infinity t | finite t => exact ⟨s / t, unpack_pack_zero _⟩

/-- What is infinite stays so under a division, or has no value. -/
theorem isFinite_div_of_isInf {a : Float} (ha : a.isInf = true) (b : Float) :
    (a / b).isFinite = false := by
  replace ha : a.toModel.unpack.isInf = true := ha
  show (a / b).toModel.unpack.isFinite = false
  rw [unpack_div]
  cases h : a.toModel.unpack with
  | infinity s =>
    cases b.toModel.unpack <;>
      simp only [UnpackedFloat.div, unpack_pack_infinity, unpack_pack_notANumber] <;> rfl
  | zero | finite | notANumber =>
    rw [h] at ha
    cases ha

theorem isNaN_div_nan (a : Float) {b : Float} (hb : b.isNaN = true) : (a / b).isNaN = true := by
  replace hb : b.toModel.unpack = .notANumber := (UnpackedFloat.isNaN_iff).1 hb
  show (a / b).toModel.unpack.isNaN = true
  rw [unpack_div, hb]
  cases a.toModel.unpack <;> simp only [UnpackedFloat.div, unpack_pack_notANumber] <;> rfl

/-! ## Rounding to zero -/

theorem shiftRight_mantissa (x : ExtendedMantissa) (n : ℕ) :
    (x >>> n).mantissa = x.mantissa / 2 ^ n := by
  induction n with
  | zero => exact (Nat.div_one _).symm
  | succ n ih =>
    show (x >>> n).mantissa / 2 = _
    rw [ih, Nat.div_div_eq_div_mul, pow_succ]

theorem mantissa_le_roundedMantissa (x : ExtendedMantissa) : x.mantissa ≤ x.roundedMantissa := by
  unfold ExtendedMantissa.roundedMantissa Accuracy.roundToNearestEven
  split <;> omega

theorem mantissa_ofMantissaAndAccuracy (m : ℕ) (a : Accuracy) :
    (ExtendedMantissa.ofMantissaAndAccuracy m a).mantissa = m := by
  unfold ExtendedMantissa.ofMantissaAndAccuracy
  split <;> rfl

/-- What is not finer than the grid keeps its leading digit. -/
theorem shiftToTargetExponent_mantissa {m : ℕ} {e : ℤ} (hm : 0 < m) (he : -1074 ≤ e)
    (a : Accuracy) :
    let x := shiftToTargetExponent .binary64 m e a
    0 < x.1.mantissa ∧ x.1.mantissa.log2 ≤ 52 ∧ -1074 ≤ x.2 := by
  intro x
  have hshift : (Format.binary64.targetExponent (totalExponent m e) - e).toNat = m.log2 - 52 := by
    simp only [Format.targetExponent, totalExponent, Format.mantissaBits, Format.minExponent]
    omega
  have hx : x.1.mantissa = m / 2 ^ (m.log2 - 52) := by
    show (ExtendedMantissa.ofMantissaAndAccuracy m a >>>
      (Format.binary64.targetExponent (totalExponent m e) - e).toNat).mantissa = _
    rw [hshift, shiftRight_mantissa, mantissa_ofMantissaAndAccuracy]
  have hx2 : x.2 = e + (m.log2 - 52 : ℕ) := by
    show e + ((Format.binary64.targetExponent (totalExponent m e) - e).toNat : ℤ) = _
    rw [hshift]
  have hlow : 2 ^ m.log2 ≤ m := Nat.log2_self_le hm.ne'
  have hpos : 0 < x.1.mantissa := by
    rw [hx]
    refine Nat.div_pos (le_trans (Nat.pow_le_pow_right two_pos ?_) hlow) (Nat.two_pow_pos _)
    omega
  refine ⟨hpos, Nat.lt_succ_iff.1 ((Nat.log2_lt hpos.ne').2 ?_), by omega⟩
  rw [hx, Nat.div_lt_iff_lt_mul (Nat.two_pow_pos _), ← pow_add]
  exact Nat.lt_log2_self.trans_le (Nat.pow_le_pow_right two_pos (by omega))

/-- What is not finer than the grid is not rounded to zero. -/
theorem roundWithAccuracy_eq_finite {m : ℕ} {e : ℤ} (hm : 0 < m) (he : -1074 ≤ e) (s : Sign)
    (a : Accuracy) : ∃ m' e' hm', roundWithAccuracy .binary64 s m e a = .finite s m' e' hm' ∧
      m'.log2 ≤ 52 ∧ -1074 ≤ e' := by
  obtain ⟨hpos, -, hexp⟩ := shiftToTargetExponent_mantissa hm he a
  obtain ⟨hpos', hlog', hexp'⟩ := shiftToTargetExponent_mantissa
    (hpos.trans_le (mantissa_le_roundedMantissa _)) hexp .exact
  refine ⟨_, _, hpos', ?_, hlog', hexp'⟩
  unfold roundWithAccuracy
  exact dif_neg hpos'.ne'

theorem eq_zero_of_unpack_eq_zero {s t : Sign} {e : BitVec 11} {m : BitVec 52}
    (h : UnpackedFloat.unpack .binary64 (packComponents .binary64 s e m) = .zero t) :
    e = 0#11 ∧ m = 0#52 := by
  unfold UnpackedFloat.unpack at h
  simp only [unpackMantissa_packComponents, unpackExponent_packComponents] at h
  split at h
  · split at h <;> cases h
  · split at h
    · rename_i he
      split at h
      · rename_i hm
        exact ⟨he, hm⟩
      · cases h
    · cases h

/-- What has a place on the grid is not packed as zero. -/
theorem unpack_pack_finite_ne_zero {s : Sign} {m : ℕ} {e : ℤ} (hm : 0 < m) (hlog : m.log2 ≤ 52)
    (he : -1074 ≤ e) (t : Sign) :
    (Float.Model.pack (.finite s m e hm)).unpack ≠ .zero t := by
  intro h
  replace h : UnpackedFloat.unpack .binary64 (UnpackedFloat.pack .binary64 (.finite s m e hm)) =
    .zero t := h
  simp only [UnpackedFloat.pack] at h
  split at h
  · -- infinite
    have h0 := (eq_zero_of_unpack_eq_zero h).1
    cases h0
  · rename_i hexp
    split at h
    · -- the exponent of a normal number is not zero
      have h0 := congrArg BitVec.toNat (eq_zero_of_unpack_eq_zero h).1
      rw [BitVec.toNat_ofNat, Nat.mod_eq_of_lt (by omega)] at h0
      simp [Format.exponentBias] at h0
      omega
    · -- the mantissa of a subnormal one is not zero
      rename_i hlog'
      have h0 := congrArg BitVec.toNat (eq_zero_of_unpack_eq_zero h).2
      have hlt : m < 2 ^ 52 := (Nat.log2_lt hm.ne').1 (by
        simp only [Format.mantissaBits] at hlog'
        omega)
      rw [BitVec.toNat_ofNat, Nat.mod_eq_of_lt hlt] at h0
      simp at h0
      omega

/-! ## A thousand over a double -/

/-- A mantissa with an exponent as the doubles have them: the mantissa has 53 bits, or less at the least
exponent. -/
structure Canonical (m : ℕ) (e : ℤ) : Prop where
  lt : m < 2 ^ 53
  low : -1074 ≤ e
  high : e ≤ 971
  full : 2 ^ 52 ≤ m ∨ e = -1074

theorem canonical_of_unpack {v : Float} {s : Sign} {m : ℕ} {e : ℤ} {hm : 0 < m}
    (h : v.toModel.unpack = .finite s m e hm) : Canonical m e := by
  have hx := expand?_eq v
  rw [h] at hx
  have hfield := Nat.mod_lt (v.toBits.toNat >>> 52) (by norm_num : 0 < 2048)
  have hfraction := Nat.mod_lt v.toBits.toNat (by norm_num : 0 < 2 ^ 52)
  unfold expand? at hx
  simp only [exactValue?, Nat.pow_eq] at hx
  split at hx
  · cases hx
  · split at hx
    · obtain ⟨-, rfl, rfl⟩ := Expanded.mk.inj (Option.some.inj hx)
      constructor <;> omega
    · obtain ⟨-, rfl, rfl⟩ := Expanded.mk.inj (Option.some.inj hx)
      constructor <;> omega

/-- The quotient of a thousand and a finite number, before it is rounded. -/
theorem divCore_thousand {m : ℕ} {e : ℤ} (hm : 0 < m) (hlt : m < 2 ^ 53) (he : e ≤ 971) :
    let q := divCore .binary64 (1000 * 2 ^ 43) (-43) m e
    0 < q.1 ∧ -1074 ≤ q.2.1 := by
  intro q
  have hlog : m.log2 ≤ 52 := Nat.lt_succ_iff.1 ((Nat.log2_lt hm.ne').2 hlt)
  have hthousand : (1000 * 2 ^ 43 : ℕ).log2 = 52 := by decide +kernel
  have htarget : min (-43 - e) (Format.binary64.targetExponent
      (totalExponent (1000 * 2 ^ 43) (-43) - totalExponent m e)) = -44 - e - m.log2 := by
    simp only [Format.targetExponent, totalExponent, Format.mantissaBits, Format.minExponent,
      hthousand]
    omega
  have hq : q.1 = (1000 * 2 ^ 43) <<< (m.log2 + 1) / m := by
    show (1000 * 2 ^ 43) <<< (-43 - e - min (-43 - e) _).toNat / m = _
    rw [htarget]
    congr 3
    omega
  have hq2 : q.2.1 = -44 - e - m.log2 := htarget
  refine ⟨?_, by omega⟩
  rw [hq, Nat.shiftLeft_eq]
  refine Nat.div_pos (Nat.lt_log2_self.le.trans ?_) hm
  exact Nat.le_mul_of_pos_left _ (by norm_num)

theorem unpack_thousand : (Scalar.ofNat 1000 : Float).toModel.unpack =
    .finite .positive (1000 * 2 ^ 43) (-43) (by decide) := rfl

/-- A thousand over a finite double is infinite or a number other than zero. -/
theorem thousand_div {v : Float} (hv : v.isFinite = true) :
    ((Scalar.ofNat 1000 : Float) / v).isNaN = false ∧
      ∀ s, ((Scalar.ofNat 1000 : Float) / v).toModel.unpack ≠ .zero s := by
  replace hv : v.toModel.unpack.isFinite = true := hv
  have hnan : ((Scalar.ofNat 1000 : Float) / v).isNaN = true ↔
      UnpackedFloat.div .binary64 (.finite .positive (1000 * 2 ^ 43) (-43) (by decide))
        v.toModel.unpack = .notANumber := by
    rw [← unpack_thousand]
    exact isNaN_pack _
  rw [Bool.eq_false_iff, Ne, hnan, unpack_div, unpack_thousand]
  cases h : v.toModel.unpack with
  | infinity | notANumber =>
    rw [h] at hv
    cases hv
  | zero s =>
    have hdiv : UnpackedFloat.div .binary64 (.finite .positive (1000 * 2 ^ 43) (-43) (by decide))
      (.zero s) = .infinity (.positive / s) := rfl
    rw [hdiv, unpack_pack_infinity]
    simp
  | finite s m e hm =>
    have hc := canonical_of_unpack h
    obtain ⟨hpos, hexp⟩ := divCore_thousand hm hc.lt hc.high
    obtain ⟨m', e', hm', hround, hlog, hexp'⟩ := roundWithAccuracy_eq_finite hpos hexp
      (.positive / s) (divCore .binary64 (1000 * 2 ^ 43) (-43) m e).2.2
    have hdiv : UnpackedFloat.div .binary64 (.finite .positive (1000 * 2 ^ 43) (-43) (by decide))
      (.finite s m e hm) = .finite (.positive / s) m' e' hm' := hround
    rw [hdiv]
    exact ⟨by simp, unpack_pack_finite_ne_zero hm' hlog hexp'⟩

/-- A thousand over a double that is not finite is zero or has no value. -/
theorem thousand_div_not_finite {v : Float} (hv : v.isFinite = false) :
    ((Scalar.ofNat 1000 : Float) / v).isNaN = true ∨
      ∃ s, ((Scalar.ofNat 1000 : Float) / v).toModel.unpack = .zero s := by
  replace hv : v.toModel.unpack.isFinite = false := hv
  cases h : v.toModel.unpack with
  | notANumber => exact .inl (isNaN_div_nan _ (UnpackedFloat.isNaN_iff.2 h))
  | infinity s =>
    right
    simp only [unpack_div, unpack_thousand, h, UnpackedFloat.div, unpack_pack_zero]
    exact ⟨.positive / s, rfl⟩
  | zero | finite =>
    rw [h] at hv
    cases hv

end FieldWalk.Numeral.Double
