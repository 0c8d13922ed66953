import FieldWalk.Proofs.Numeral.Nearest
import FieldWalk.Proofs.Numeral.Value
/-!
# How a mantissa is rounded

The sums, products and quotients of doubles are computed as a mantissa with an exponent, and two bits that
tell what has been cut off. Whatever they stand for is rounded to the nearest (`rounds_roundWithAccuracy`),
and what is rounded is packed without loss unless it is beyond the largest double.
-/

namespace FieldWalk.Numeral.Double

open Float.Model Float.Model.UnpackedFloat

/-! ## What has been cut off -/

/-- The mantissa is the integer part of the number, and the two bits tell how the rest compares with a
half. -/
def Stands (x : ExtendedMantissa) (q : ℚ) : Prop :=
  match x.roundBit, x.stickyBit with
  | false, false => q = x.mantissa
  | false, true => (x.mantissa : ℚ) < q ∧ q < x.mantissa + 1 / 2
  | true, false => q = x.mantissa + 1 / 2
  | true, true => (x.mantissa : ℚ) + 1 / 2 < q ∧ q < x.mantissa + 1

theorem Stands.bounds {x : ExtendedMantissa} {q : ℚ} (h : Stands x q) :
    (x.mantissa : ℚ) ≤ q ∧ q < x.mantissa + 1 := by
  obtain ⟨m, r, s⟩ := x
  cases r <;> cases s <;> simp only [Stands] at h ⊢ <;> constructor <;> linarith

theorem stands_exact (m : ℕ) : Stands (.ofMantissaAndAccuracy m .exact) m := rfl

theorem Stands.shiftRightOne {x : ExtendedMantissa} {q : ℚ} (h : Stands x q) :
    Stands x.shiftRightOne (q / 2) := by
  obtain ⟨m, r, s⟩ := x
  have hm : (2 : ℚ) * (m / 2 : ℕ) + (m % 2 : ℕ) = m := by exact_mod_cast Nat.div_add_mod m 2
  have heven : (0 != 0) = false := rfl
  have hodd : (1 != 0) = true := rfl
  rcases Nat.mod_two_eq_zero_or_one m with h2 | h2 <;> rw [h2] at hm <;> push_cast at hm <;>
    cases r <;> cases s <;>
    simp only [Stands, ExtendedMantissa.shiftRightOne, h2, heven, hodd, Bool.or_self, Bool.or_false,
      Bool.or_true] at h ⊢ <;>
    first | linarith | (constructor <;> linarith)

theorem Stands.shiftRight {x : ExtendedMantissa} {q : ℚ} (h : Stands x q) (n : ℕ) :
    Stands (x >>> n) (q / 2 ^ n) := by
  induction n with
  | zero => rwa [pow_zero, div_one]
  | succ n ih =>
    rw [pow_succ, ← div_div]
    exact ih.shiftRightOne

theorem Stands.roundedMantissa {x : ExtendedMantissa} {q : ℚ} (h : Stands x q) :
    roundEven q = x.roundedMantissa := by
  obtain ⟨m, r, s⟩ := x
  cases r <;> cases s
  · rw [show q = ((m : ℤ) : ℚ) from h]
    exact roundEven_intCast m
  · refine roundEven_eq (n := m) (.inl ?_)
    rw [Int.cast_natCast, abs_lt]
    constructor <;> linarith [h.1, h.2]
  · -- a half is rounded to the even one of the two
    have hq : q = m + 1 / 2 := h
    refine roundEven_eq (n := (m + m % 2 : ℕ)) (.inr ⟨?_, ?_⟩)
    · rcases Nat.mod_two_eq_zero_or_one m with h2 | h2 <;> rw [h2, hq] <;> push_cast
      · rw [add_zero, add_sub_cancel_left, abs_of_pos one_half_pos]
      · rw [abs_of_neg] <;> linarith
    · rw [Int.even_coe_nat, Nat.even_iff]
      omega
  · refine roundEven_eq (n := (m + 1 : ℕ)) (.inl ?_)
    push_cast
    rw [abs_lt]
    constructor <;> linarith [h.1, h.2]

/-! ## The exponent of what is rounded -/

theorem two_zpow_log2_le {m : ℕ} (hm : 0 < m) (e : ℤ) : (2 : ℚ) ^ (m.log2 + e) ≤ m * 2 ^ e := by
  rw [zpow_add₀ two_ne_zero]
  refine mul_le_mul_of_nonneg_right ?_ (two_zpow_pos e).le
  exact_mod_cast Nat.log2_self_le hm.ne'

theorem add_one_mul_le_two_zpow (m : ℕ) (e : ℤ) :
    ((m : ℚ) + 1) * 2 ^ e ≤ 2 ^ (m.log2 + e + 1) := by
  rw [add_right_comm, zpow_add₀ two_ne_zero]
  refine mul_le_mul_of_nonneg_right ?_ (two_zpow_pos e).le
  exact_mod_cast (Nat.lt_log2_self : m < 2 ^ (m.log2 + 1))

/-- The exponent to round to is told by the leading digit of the integer part. -/
theorem exponent_eq_target {m : ℕ} {e : ℤ} {q : ℚ} (hm : 0 < m) (hlow : m * 2 ^ e ≤ q)
    (hhigh : q < (m + 1) * 2 ^ e) :
    exponent q = Format.binary64.targetExponent (totalExponent m e) := by
  have hpos : 0 < q := (mul_pos (Nat.cast_pos.2 hm) (two_zpow_pos e)).trans_le hlow
  have hlog : Int.log 2 q = m.log2 + e :=
    log_eq ((two_zpow_log2_le hm e).trans hlow) (hhigh.trans_le (add_one_mul_le_two_zpow m e))
  rw [exponent, abs_of_pos hpos, hlog]
  simp only [Format.targetExponent, totalExponent, Format.mantissaBits, Format.minExponent]
  omega

/-- What is cut off may be all but the grid. -/
theorem exponent_eq_target_of_le {m : ℕ} {e : ℤ} {q : ℚ} (hpos : 0 < q) (hlow : m * 2 ^ e ≤ q)
    (hhigh : q < (m + 1) * 2 ^ e) (he : e ≤ exponent q) :
    exponent q = Format.binary64.targetExponent (totalExponent m e) := by
  rcases m.eq_zero_or_pos with rfl | hm
  · rw [Nat.cast_zero, zero_add, one_mul] at hhigh
    have hlog : Int.log 2 q < e := (Int.lt_zpow_iff_log_lt one_lt_two hpos).1 hhigh
    have hlow' : Nat.log2 0 = 0 := by decide
    rw [exponent, abs_of_pos hpos] at he ⊢
    simp only [Format.targetExponent, totalExponent, Format.mantissaBits, Format.minExponent, hlow']
    omega
  · exact exponent_eq_target hm hlow hhigh

/-! ## Rounding -/

/-- As the doubles are unpacked, but that the exponent may be too large. -/
def Regular : UnpackedFloat → Prop
  | .finite _ m e _ => m < 2 ^ 53 ∧ -1074 ≤ e ∧ (2 ^ 52 ≤ m ∨ e = -1074)
  | .zero _ | .infinity _ | .notANumber => True

theorem regular_unpack (v : Float) : Regular v.toModel.unpack := by
  cases h : v.toModel.unpack with
  | finite s m e hm =>
    have hc := canonical_of_unpack h
    exact ⟨hc.lt, hc.low, hc.full⟩
  | zero | infinity | notANumber => trivial

/-- The sign of a number as a factor. -/
theorem cast_apply (s : Sign) (n : ℤ) : ((s.apply n : ℤ) : ℚ) = s.apply 1 * n := by
  cases s <;> simp [Sign.apply]

theorem nearest_apply (s : Sign) (q : ℚ) : nearest (s.apply 1 * q) = s.apply 1 * nearest q := by
  cases s <;> simp [Sign.apply, nearest_neg]

/-- What is unpacked is regular and stands for the number nearest to `q`. -/
structure Rounds (u : UnpackedFloat) (q : ℚ) : Prop where
  regular : Regular u
  value : rational? u = some (nearest q)

theorem rounds_zero (s : Sign) : Rounds (.zero s) 0 :=
  ⟨trivial, congrArg some nearest_zero.symm⟩

/-- What is regular is not rounded any more. -/
theorem rounds_of_regular {u : UnpackedFloat} {q : ℚ} (hu : Regular u) (hq : rational? u = some q) :
    Rounds u q := by
  refine ⟨hu, ?_⟩
  cases u with
  | zero s =>
    cases hq
    exact (rounds_zero s).value
  | finite s m e hm =>
    cases hq
    rw [nearest_of_lt ?_ hu.2.1]
    · rfl
    · have hm := hu.1
      cases s <;> simp [Sign.apply] <;> exact_mod_cast hm
  | infinity | notANumber => cases hq

theorem shiftToTargetExponent_of_lt {m : ℕ} {e : ℤ} (hm : m < 2 ^ 53) (he : -1074 ≤ e) :
    shiftToTargetExponent .binary64 m e .exact = (.ofMantissaAndAccuracy m .exact, e) := by
  have hlog : m.log2 ≤ 52 := by
    rcases eq_or_ne m 0 with rfl | h0
    · decide
    · exact Nat.lt_succ_iff.1 ((Nat.log2_lt h0).2 hm)
  have hshift : (Format.binary64.targetExponent (totalExponent m e) - e).toNat = 0 := by
    simp only [Format.targetExponent, totalExponent, Format.mantissaBits, Format.minExponent]
    omega
  simp only [shiftToTargetExponent, shiftToExponent, hshift, Nat.cast_zero, add_zero]
  rfl

theorem shiftToTargetExponent_top {e : ℤ} (he : -1074 ≤ e) :
    shiftToTargetExponent .binary64 (2 ^ 53) e .exact =
      (.ofMantissaAndAccuracy (2 ^ 52) .exact, e + 1) := by
  have hshift : (Format.binary64.targetExponent (totalExponent (2 ^ 53) e) - e).toNat = 1 := by
    simp only [Format.targetExponent, totalExponent, Nat.log2_two_pow, Format.mantissaBits,
      Format.minExponent]
    omega
  simp only [shiftToTargetExponent, shiftToExponent, hshift, Nat.cast_one]
  rfl

/-- A mantissa that has been rounded is regular after one more shift, and keeps its value. -/
theorem rounds_rounded (s : Sign) {r : ℕ} {e : ℤ} (hr : r ≤ 2 ^ 53) (he : -1074 ≤ e)
    (hfull : 2 ^ 52 ≤ r ∨ e = -1074) :
    let x := shiftToTargetExponent .binary64 r e .exact
    let u : UnpackedFloat :=
      if h : x.1.mantissa = 0 then .zero s else .finite s x.1.mantissa x.2 (Nat.pos_of_ne_zero h)
    Regular u ∧ rational? u = some (((s.apply 1 : ℤ) : ℚ) * (r * 2 ^ e)) := by
  rcases hr.lt_or_eq with hlt | rfl
  · rw [shiftToTargetExponent_of_lt hlt he]
    dsimp only [ExtendedMantissa.ofMantissaAndAccuracy]
    split
    · rename_i h0
      refine ⟨trivial, ?_⟩
      simp [rational?, h0]
    · refine ⟨⟨hlt, he, hfull⟩, ?_⟩
      rw [rational?, cast_apply, Int.cast_natCast, mul_assoc]
  · rw [shiftToTargetExponent_top he]
    dsimp only [ExtendedMantissa.ofMantissaAndAccuracy]
    rw [dif_neg (by norm_num)]
    refine ⟨⟨by norm_num, by omega, .inl le_rfl⟩, ?_⟩
    rw [rational?, cast_apply, zpow_add_one₀ two_ne_zero]
    push_cast
    congr 1
    ring

/-- What a mantissa with an exponent stands for is rounded to the nearest. -/
theorem rounds_roundWithAccuracy (s : Sign) {m : ℕ} {e : ℤ} {a : Accuracy} {q : ℚ} (hpos : 0 < q)
    (hq : Stands (.ofMantissaAndAccuracy m a) (q / 2 ^ e)) (he : e ≤ exponent q) :
    Rounds (roundWithAccuracy .binary64 s m e a) (s.apply 1 * q) := by
  obtain ⟨hlow, hhigh⟩ := hq.bounds
  rw [mantissa_ofMantissaAndAccuracy] at hlow hhigh
  have hpow : (0 : ℚ) < 2 ^ e := two_zpow_pos e
  have htarget := exponent_eq_target_of_le hpos ((le_div_iff₀ hpow).1 hlow)
    ((div_lt_iff₀ hpow).1 hhigh) he
  let x := shiftToTargetExponent .binary64 m e a
  have hexp : x.2 = exponent q := by
    show e + ((Format.binary64.targetExponent (totalExponent m e) - e).toNat : ℤ) = _
    rw [← htarget]
    omega
  have hstands : Stands x.1 (q / 2 ^ exponent q) := by
    have h := hq.shiftRight (exponent q - e).toNat
    rw [div_div, ← zpow_natCast, ← zpow_add₀ two_ne_zero,
      show e + ((exponent q - e).toNat : ℤ) = exponent q by omega, htarget] at h
    rwa [htarget]
  have hround := hstands.roundedMantissa
  have hr : x.1.roundedMantissa ≤ 2 ^ 53 := by
    have h := abs_roundEven_exponent_le q
    rw [hround, Nat.abs_cast] at h
    exact_mod_cast h
  have hfull : 2 ^ 52 ≤ x.1.roundedMantissa ∨ x.2 = -1074 := by
    rw [hexp]
    refine (le_exponent q).eq_or_lt.symm.imp (fun h => ?_) Eq.symm
    have hle := two_pow_le_roundEven hpos h
    rw [hround] at hle
    exact_mod_cast hle
  have h := rounds_rounded s hr (hexp ▸ le_exponent q) hfull
  refine ⟨h.1, h.2.trans ?_⟩
  rw [nearest_apply, nearest, hround, hexp, Int.cast_natCast]

/-! ## Packing -/

theorem abs_rational_finite {s : Sign} {m : ℕ} {e : ℤ} {hm : 0 < m} {q : ℚ}
    (h : rational? (.finite s m e hm) = some q) : |q| = m * 2 ^ e := by
  cases h
  rw [abs_mul, abs_of_pos (two_zpow_pos e)]
  cases s <;> simp [Sign.apply]

theorem toNat_append {v w : ℕ} (x : BitVec v) (y : BitVec w) :
    (x ++ y).toNat = x.toNat * 2 ^ w + y.toNat := by
  rw [BitVec.toNat_append, ← Nat.shiftLeft_add_eq_or_of_lt y.isLt, Nat.shiftLeft_eq]

/-- A mantissa with its leading digit is packed with its exponent. -/
theorem unpack_packComponents_normal (s : Sign) {m : ℕ} {e : ℤ} (hm : 0 < m) (hlow : 2 ^ 52 ≤ m)
    (hlt : m < 2 ^ 53) (hexp : -1074 ≤ e) (hhigh : e ≤ 971) :
    UnpackedFloat.unpack .binary64
      (packComponents .binary64 s (.ofNat 11 (e + 1075).toNat) (.ofNat 52 m)) = .finite s m e hm := by
  have hfield : (BitVec.ofNat 11 (e + 1075).toNat).toNat = (e + 1075).toNat := by
    rw [BitVec.toNat_ofNat, Nat.mod_eq_of_lt]
    omega
  have hones : BitVec.ofNat 11 (e + 1075).toNat ≠ -1#11 := by
    intro h
    rw [h, show (-1#11).toNat = 2047 from rfl] at hfield
    omega
  have hzero : BitVec.ofNat 11 (e + 1075).toNat ≠ 0#11 := by
    intro h
    rw [h, show (0#11).toNat = 0 from rfl] at hfield
    omega
  simp only [UnpackedFloat.unpack, unpackExponent_packComponents, unpackMantissa_packComponents,
    unpackSign_packComponents, Sign.ofBitVec_toBitVec, if_neg hones, if_neg hzero, hfield, toNat_append,
    UnpackedFloat.finite.injEq, true_and, BitVec.toNat_ofNat, Format.exponentBias]
  omega

/-- One without it is packed with the least exponent. -/
theorem unpack_packComponents_subnormal (s : Sign) {m : ℕ} (hm : 0 < m) (hlt : m < 2 ^ 52) :
    UnpackedFloat.unpack .binary64 (packComponents .binary64 s 0#11 (.ofNat 52 m)) =
      .finite s m (-1074) hm := by
  have hmantissa : (BitVec.ofNat 52 m).toNat = m := by
    rw [BitVec.toNat_ofNat, Nat.mod_eq_of_lt hlt]
  have hzero : BitVec.ofNat 52 m ≠ 0#52 := by
    intro h
    rw [h] at hmantissa
    exact hm.ne hmantissa
  have hones : (0#11 : BitVec 11) ≠ -1#11 := by decide
  simp only [UnpackedFloat.unpack, unpackExponent_packComponents, unpackMantissa_packComponents,
    unpackSign_packComponents, Sign.ofBitVec_toBitVec, if_neg hones, dif_neg hzero, hmantissa, if_true]
  rfl

/-- The exponent of a full mantissa is bounded by the largest double. -/
theorem le_of_mul_le_largest {m : ℕ} {e : ℤ} (hfull : 2 ^ 52 ≤ m) (hle : m * 2 ^ e ≤ largest) :
    e ≤ 971 := by
  have hpow : (2 : ℚ) ^ (e + 52) < 2 ^ (1024 : ℤ) := by
    calc (2 : ℚ) ^ (e + 52) = ((2 ^ 52 : ℕ) : ℚ) * 2 ^ e := by
          rw [zpow_add₀ two_ne_zero, mul_comm]
          norm_num
      _ ≤ m * 2 ^ e := mul_le_mul_of_nonneg_right (Nat.cast_le.2 hfull) (two_zpow_pos e).le
      _ ≤ largest := hle
      _ < 2 ^ (1024 : ℤ) := largest_lt
  have := (zpow_lt_zpow_iff_right₀ one_lt_two).1 hpow
  omega

/-- What is regular and in range is packed without loss. -/
theorem unpack_pack {u : UnpackedFloat} {q : ℚ} (hu : Regular u) (hq : rational? u = some q)
    (hle : |q| ≤ largest) : (Float.Model.pack u).unpack = u := by
  cases u with
  | infinity | notANumber => cases hq
  | zero s => exact unpack_pack_zero s
  | finite s m e hm =>
    obtain ⟨hlt, hlow, hfull⟩ := hu
    have hhigh : e ≤ 971 := by
      rcases hfull with hfull | rfl
      · exact le_of_mul_le_largest hfull (abs_rational_finite hq ▸ hle)
      · norm_num
    have hlog : 2 ^ 52 ≤ m ↔ m.log2 + 1 = Format.binary64.mantissaBits := by
      rw [← Nat.le_log2 hm.ne']
      have := (Nat.log2_lt hm.ne').2 hlt
      simp only [Format.mantissaBits]
      omega
    have hbias : (e + Format.binary64.exponentBias + Format.binary64.mantissaBitsWithoutImplicit).toNat =
        (e + 1075).toNat := by
      simp only [Format.exponentBias]
      omega
    show UnpackedFloat.unpack .binary64 (UnpackedFloat.pack .binary64 (.finite s m e hm)) = _
    simp only [UnpackedFloat.pack, hbias, ← hlog]
    rw [if_neg (by norm_num; omega)]
    split
    · rename_i hm52
      exact unpack_packComponents_normal s hm hm52 hlt hlow hhigh
    · rename_i hm52
      obtain rfl := hfull.resolve_left hm52
      exact unpack_packComponents_subnormal s hm (not_le.1 hm52)

end FieldWalk.Numeral.Double
