import FieldWalk.Proofs.Numeral.Result
/-!
# Integers as doubles

An integer is read as the double nearest to it, as long as that is not infinite.
-/

namespace FieldWalk.Numeral.Double

open Float.Model Float.Model.UnpackedFloat

/-! ## Quotients of natural numbers -/

/-- What is cut off of a quotient is rounded as the quotient is. -/
theorem roundDiv_eq (n : ℕ) {d : ℕ} (hd : 0 < d) : roundEven ((n : ℚ) / d) = roundDiv n d := by
  rw [(stands_fraction n hd).roundedMantissa, Nat.cast_inj]
  unfold roundDiv accuracyOfFraction
  dsimp only
  have hlt := Nat.mod_lt n hd
  split
  · rename_i h0
    rw [h0, mul_zero, if_pos hd]
    rfl
  · rename_i h0
    rcases lt_trichotomy (2 * (n % d)) d with h | h | h
    · rw [compare_lt_iff_lt.2 h, if_pos h]
      rfl
    · rw [compare_eq_iff_eq.2 h, if_neg h.not_lt, if_neg h.not_gt]
      show n / d + n / d % 2 = _
      split <;> omega
    · rw [compare_gt_iff_gt.2 h, if_neg h.not_gt, if_pos h]
      rfl

/-! ## Bits -/

/-- The bits of a mantissa with its leading digit, which is added to the exponent. -/
theorem unpack_ofBits_normal (negative : Bool) {m : ℕ} {e : ℤ} (hm : 0 < m) (hlow : 2 ^ 52 ≤ m)
    (hlt : m < 2 ^ 53) (hexp : -1074 ≤ e) (hhigh : e ≤ 971) :
    (Float.ofBits (UInt64.ofNat ((if negative then 1 <<< 63 else 0) +
      ((e + 1074).toNat * 2 ^ 52 + m)))).toModel.unpack =
        .finite (if negative then .negative else .positive) m e hm := by
  rw [unpack_ofBits, ← unpack_packComponents_normal _ hm hlow hlt hexp hhigh]
  congr 1
  apply BitVec.eq_of_toNat_eq
  rw [packComponents, toNat_append, toNat_append, BitVec.toNat_ofNat, BitVec.toNat_ofNat]
  show UInt64.toNat _ = _
  rw [UInt64.toNat_ofNat']
  cases negative
  · show _ = (0 * 2 ^ 11 + _) * 2 ^ 52 + _
    norm_num
    omega
  · show _ = (1 * 2 ^ 11 + _) * 2 ^ 52 + _
    norm_num
    omega

/-! ## Natural numbers -/

section
variable {n : ℕ}

theorem exponent_natCast (hn : n ≠ 0) : exponent n = n.log2 - 52 := by
  have hpos := Nat.pos_of_ne_zero hn
  rw [exponent_eq_target (e := 0) hpos (by rw [zpow_zero, mul_one]) (by
    rw [zpow_zero, mul_one]
    exact lt_add_one _)]
  simp only [Format.targetExponent, totalExponent, Format.mantissaBits, Format.minExponent]
  omega

theorem nearest_eq_naturalMantissa (hn : n ≠ 0) :
    nearest n = naturalMantissa n * 2 ^ ((n.log2 : ℤ) - 52) := by
  rw [nearest, exponent_natCast hn]
  congr 1
  unfold naturalMantissa
  split
  · rename_i hlog
    have hpow : (2 : ℚ) ^ ((n.log2 : ℤ) - 52) = (2 ^ (n.log2 - 52) : ℕ) := by
      rw [Nat.cast_pow, Nat.cast_ofNat, ← zpow_natCast, Nat.cast_sub hlog]
      rfl
    rw [hpow, roundDiv_eq n (Nat.two_pow_pos _), Int.cast_natCast]
  · rename_i hlog
    have hdiv : (n : ℚ) / 2 ^ ((n.log2 : ℤ) - 52) = ((n * 2 ^ (52 - n.log2) : ℕ) : ℤ) := by
      rw [div_eq_mul_inv, ← zpow_neg, neg_sub, Int.cast_natCast, Nat.cast_mul, Nat.cast_pow,
        Nat.cast_ofNat, ← zpow_natCast, Nat.cast_sub (by omega)]
      rfl
    rw [hdiv, roundEven_intCast, Int.cast_natCast]

theorem two_pow_le_naturalMantissa (hn : n ≠ 0) : 2 ^ 52 ≤ naturalMantissa n := by
  by_cases hlog : 52 ≤ n.log2
  · exact le_naturalMantissa hlog
  · rw [naturalMantissa, if_neg hlog]
    calc 2 ^ 52 = 2 ^ n.log2 * 2 ^ (52 - n.log2) := by
          rw [← pow_add]
          congr 1
          omega
      _ ≤ n * 2 ^ (52 - n.log2) := Nat.mul_le_mul_right _ (Nat.log2_self_le hn)

/-- A natural number is read as the double nearest to it. -/
theorem rational?_nearestDouble (negative : Bool) (hn : n < 2 ^ 1024 - 2 ^ 970) :
    rational? (nearestDouble negative n 1).toModel.unpack =
      some (Sign.apply (if negative then .negative else .positive) 1 * nearest n) := by
  rcases eq_or_ne n 0 with rfl | h0
  · rw [Nat.cast_zero, nearest_zero, mul_zero]
    cases negative <;> rfl
  have hfinite := (nearestBits_lt_iff n).2 hn
  have hbits := nearestBits_natural h0
  have hlow := two_pow_le_naturalMantissa h0
  have hhigh := naturalMantissa_le n
  rw [hbits, Nat.shiftLeft_eq, min_lt_iff, or_iff_left (lt_irrefl _)] at hfinite
  rw [min_eq_left hfinite.le] at hbits
  rw [nearest_eq_naturalMantissa h0]
  generalize naturalMantissa n = m at *
  generalize n.log2 = l at *
  rcases hhigh.lt_or_eq with hlt | rfl
  · have hm : 0 < m := by omega
    have h := unpack_ofBits_normal negative (e := l - 52) hm hlow hlt (by omega) (by omega)
    rw [show ((l : ℤ) - 52 + 1074).toNat = l + 1022 by omega, ← hbits] at h
    rw [nearestDouble, h, rational?, cast_apply, Int.cast_natCast, mul_assoc]
  · -- the mantissa has been rounded up to a power of two
    have h := unpack_ofBits_normal negative (m := 2 ^ 52) (e := l - 51) (by norm_num) le_rfl
      (by norm_num) (by omega) (by omega)
    rw [show ((l : ℤ) - 51 + 1074).toNat * 2 ^ 52 + 2 ^ 52 = (l + 1022) * 2 ^ 52 + 2 ^ 53 by omega,
      ← hbits] at h
    rw [nearestDouble, h, rational?, cast_apply, mul_assoc,
      show (l : ℤ) - 51 = l - 52 + 1 by omega, zpow_add_one₀ two_ne_zero]
    push_cast
    congr 2
    ring

end

/-! ## Integers -/

/-- The double of a sign and a magnitude is the one nearest to the integer. -/
theorem doubleValue?_nearestDouble {n : ℤ} (hn : n.natAbs < 2 ^ 1024 - 2 ^ 970) :
    doubleValue? (nearestDouble (n < 0) n.natAbs 1) = some (nearest n) := by
  rw [rational?_eq, rational?_nearestDouble _ hn, ← nearest_apply]
  congr 2
  by_cases h : n < 0
  · rw [if_pos (decide_eq_true h), Sign.apply, Nat.cast_natAbs, abs_of_neg h]
    push_cast
    ring
  · rw [if_neg (by simpa using h), Sign.apply, Nat.cast_natAbs, abs_of_nonneg (not_lt.1 h)]
    push_cast
    ring

/-- An integer that has a double is read as the one nearest to it. -/
theorem ofInt?_eq {n : ℤ} (hn : n.natAbs < 2 ^ 1024 - 2 ^ 970) :
    ∃ v : Float, Scalar.ofInt? n = some v ∧ doubleValue? v = some (nearest n) := by
  cases h : (Scalar.ofInt? n : Option Float) with
  | none => exact absurd ((doubleOfInt?_eq_none_iff n).1 h) (not_le.2 hn)
  | some v =>
    refine ⟨v, rfl, ?_⟩
    replace h : doubleOfInt? n = some v := h
    simp only [doubleOfInt?] at h
    split at h
    · cases h
      exact doubleValue?_nearestDouble hn
    · cases h

theorem lt_overflow {n : ℕ} (hn : n ≤ 2 ^ 120) : n < 2 ^ 1024 - 2 ^ 970 := by
  have hpow : 2 ^ 120 < 2 ^ 970 := pow_lt_pow_right₀ one_lt_two (show 120 < 970 by decide)
  have htop : 2 ^ 1024 = 2 ^ 54 * 2 ^ 970 := by rw [← pow_add]
  omega

/-- A whole number that is not too large is read as the double nearest to it. -/
theorem ofDecimal_eq {n : ℤ} (hn : n.natAbs < 2 ^ 64) :
    doubleValue? (Scalar.ofDecimal n 0) = some (nearest n) := by
  have hlength : decimalLength n.natAbs ≤ 20 :=
    (Nat.length_repr_le_iff (by norm_num)).2 (hn.trans (by norm_num))
  have h := doubleValue?_nearestDouble (lt_overflow (hn.le.trans (by norm_num)))
  show doubleValue? (doubleOfDecimal (n < 0) n.natAbs 0) = _
  unfold doubleOfDecimal
  dsimp only
  have hsmall : ¬ (decimalLength n.natAbs : ℤ) + 0 < -400 := by omega
  rw [decide_eq_false hsmall, Bool.or_false]
  split
  · rename_i h0
    rwa [of_decide_eq_true h0] at h
  · rw [if_neg (by omega), scaleByTen, if_pos le_rfl]
    exact (congrArg (fun m => doubleValue? (nearestDouble (n < 0) m 1)) (mul_one _)).trans h

end FieldWalk.Numeral.Double
