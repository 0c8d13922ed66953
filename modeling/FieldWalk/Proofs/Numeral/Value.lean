import FieldWalk.Proofs.Numeral.Quotient
/-!
# The values of doubles and integers

A finite double stands for a rational number, and doubles and integers are compared as these are. An
integer is rounded to a finite double as long as it is less than half a step beyond the largest one.
-/

namespace FieldWalk.Numeral

/-- The rational number that is expanded. -/
def Expanded.value (d : Expanded) : ℚ :=
  d.ratio.1 / d.ratio.2

/-- The rational number that a double stands for, none if it is not finite. -/
def doubleValue? (v : Float) : Option ℚ :=
  (expand? v).map Expanded.value

theorem Expanded.value_eq (d : Expanded) :
    d.value = (if d.negative then -(d.mantissa : ℚ) else d.mantissa) * 2 ^ d.exponent := by
  have hquotient : (d.quotient.1 : ℚ) / d.quotient.2 = d.mantissa * 2 ^ d.exponent := by
    unfold quotient
    split
    · rename_i he
      rw [Nat.shiftLeft_eq, Nat.cast_mul, Nat.cast_pow, Nat.cast_ofNat, Nat.cast_one, div_one,
        ← zpow_natCast, Int.toNat_of_nonneg he]
    · rename_i he
      rw [Nat.shiftLeft_eq, one_mul, Nat.cast_pow, Nat.cast_ofNat, ← zpow_natCast,
        Int.toNat_of_nonneg (by omega), zpow_neg, div_inv_eq_mul]
  unfold value ratio
  split
  · rw [Int.cast_neg, Int.cast_natCast, neg_div, hquotient, neg_mul]
  · rw [Int.cast_natCast, hquotient]

namespace Double

open Float.Model Float.Model.UnpackedFloat

/-! ## What is unpacked -/

/-- The rational number that is unpacked. -/
def rational? : UnpackedFloat → Option ℚ
  | .finite s m e _ => some (s.apply m * 2 ^ e)
  | .zero _ => some 0
  | .infinity _ | .notANumber => none

theorem toNat_unpackSign (v : Float) :
    (@unpackSign .binary64 v.toModel.toBits.toBitVec).toNat = v.toBits.toNat >>> 63 := by
  show (BitVec.extractLsb 63 63 v.toModel.toBits.toBitVec).toNat = _
  rw [BitVec.extractLsb_toNat]
  have hlt := v.toBits.toNat_lt
  show v.toBits.toNat >>> 63 % 2 ^ (63 - 63 + 1) = _
  rw [Nat.shiftRight_eq_div_pow]
  omega

theorem signBit_eq_true_iff (v : Float) : signBit v = true ↔
    Sign.ofBitVec (@unpackSign .binary64 v.toModel.toBits.toBitVec) = .negative := by
  have hsign := toNat_unpackSign v
  have hbit : signBit v = true ↔ v.toBits.toNat >>> 63 = 1 := by
    rw [signBit, beq_iff_eq, ← UInt64.toNat_inj, UInt64.toNat_shiftRight]
    rfl
  rw [hbit, ← hsign]
  generalize @unpackSign .binary64 v.toModel.toBits.toBitVec = b
  have hzero : b.toNat = 0 ↔ b = 0#1 := by
    rw [← BitVec.toNat_inj]
    rfl
  have hlt := b.isLt
  unfold Sign.ofBitVec
  split
  · rename_i hb
    exact iff_of_false (by simp [hb]) nofun
  · rename_i hb
    exact iff_of_true (by have := mt hzero.1 hb; omega) rfl

theorem rational?_eq (v : Float) : doubleValue? v = rational? v.toModel.unpack := by
  have hsign := signBit_eq_true_iff v
  have hs : ∀ s m e hm, v.toModel.unpack = .finite s m e hm →
      s = Sign.ofBitVec (@unpackSign .binary64 v.toModel.toBits.toBitVec) := by
    intro s m e hm h
    replace h : UnpackedFloat.unpack .binary64 v.toModel.toBits.toBitVec = .finite s m e hm := h
    unfold UnpackedFloat.unpack at h
    simp only at h
    split at h
    · split at h <;> cases h
    · split at h
      · split at h <;> cases h
        rfl
      · cases h
        rfl
  unfold doubleValue?
  rw [expand?_eq]
  cases h : v.toModel.unpack with
  | infinity | notANumber => rfl
  | zero s =>
    simp [exactValue?, rational?, Expanded.value_eq]
  | finite s m e hm =>
    rw [← hs s m e hm h] at hsign
    simp only [exactValue?, rational?, Option.map_some, Expanded.value_eq, Option.some_inj]
    congr 1
    cases s with
    | negative => simp [hsign.2 rfl, Sign.apply]
    | positive =>
      have : signBit v = false := by simpa using hsign
      simp [this, Sign.apply]

/-! ## Order -/

/-- The order of magnitudes is the one of the exponents, and of the mantissas where these are equal. -/
theorem compare_magnitude {m n : ℕ} {e k : ℤ} (hm : Canonical m e) (hn : Canonical n k) :
    compare ((m : ℚ) * 2 ^ e) (n * 2 ^ k) = (compare e k).then (compare m n) := by
  have hlt : ∀ {m n : ℕ} {e k : ℤ}, Canonical m e → Canonical n k → e < k →
      (m : ℚ) * 2 ^ e < n * 2 ^ k := by
    intro m n e k hm hn hek
    have hfull : 2 ^ 52 ≤ n := hn.full.resolve_right (by have := hm.low; omega)
    have hone : (2 : ℚ) ^ (e + 1) ≤ 2 ^ k := zpow_le_zpow_right₀ one_le_two hek
    calc (m : ℚ) * 2 ^ e < 2 ^ 53 * 2 ^ e := by
          refine mul_lt_mul_of_pos_right ?_ (zpow_pos two_pos e)
          exact_mod_cast hm.lt
      _ = 2 ^ 52 * 2 ^ (e + 1) := by
          rw [zpow_add_one₀ two_ne_zero]
          ring
      _ ≤ n * 2 ^ k := by
          refine mul_le_mul ?_ hone (zpow_pos two_pos _).le n.cast_nonneg
          exact_mod_cast hfull
  rcases lt_trichotomy e k with hek | rfl | hek
  · rw [compare_lt_iff_lt.2 (hlt hm hn hek), compare_lt_iff_lt.2 hek]
    rfl
  · have hpos : (0 : ℚ) < 2 ^ e := zpow_pos two_pos e
    have hthen : (compare e e).then (compare m n) = compare m n := by
      rw [compare_eq_iff_eq.2 rfl]
      rfl
    rw [hthen]
    rcases lt_trichotomy m n with h | rfl | h
    · rw [compare_lt_iff_lt.2 h, compare_lt_iff_lt.2 (mul_lt_mul_of_pos_right (Nat.cast_lt.2 h) hpos)]
    · rw [compare_eq_iff_eq.2 rfl, compare_eq_iff_eq.2 rfl]
    · rw [compare_gt_iff_gt.2 h, compare_gt_iff_gt.2 (mul_lt_mul_of_pos_right (Nat.cast_lt.2 h) hpos)]
  · rw [compare_gt_iff_gt.2 (hlt hn hm hek), compare_gt_iff_gt.2 hek]
    rfl

theorem compare_neg_neg (p q : ℚ) : compare (-p) (-q) = (compare p q).swap := by
  rcases lt_trichotomy p q with h | rfl | h
  · rw [compare_lt_iff_lt.2 h, compare_gt_iff_gt.2 (neg_lt_neg h)]
    rfl
  · rw [compare_eq_iff_eq.2 rfl, compare_eq_iff_eq.2 rfl]
    rfl
  · rw [compare_gt_iff_gt.2 h, compare_lt_iff_lt.2 (neg_lt_neg h)]
    rfl

theorem rational?_positive {m : ℕ} {e : ℤ} (hm : 0 < m) :
    rational? (.finite .positive m e hm) = some ((m : ℚ) * 2 ^ e) := rfl

theorem rational?_negative {m : ℕ} {e : ℤ} (hm : 0 < m) :
    rational? (.finite .negative m e hm) = some (-((m : ℚ) * 2 ^ e)) := by
  rw [rational?, Sign.apply, Int.cast_neg, Int.cast_natCast, neg_mul]

/-- Doubles are compared as what they stand for. -/
theorem compare_unpack {a b : Float} {p q : ℚ} (ha : doubleValue? a = some p)
    (hb : doubleValue? b = some q) :
    a.toModel.unpack.compare b.toModel.unpack = some (compare p q) := by
  have hlt : ∀ {p q : ℚ}, p < q → Ordering.lt = compare p q := fun h => (compare_lt_iff_lt.2 h).symm
  have hgt : ∀ {p q : ℚ}, q < p → Ordering.gt = compare p q := fun h => (compare_gt_iff_gt.2 h).symm
  have hpos : ∀ {m : ℕ} (e : ℤ), 0 < m → (0 : ℚ) < m * 2 ^ e :=
    fun e hm => mul_pos (Nat.cast_pos.2 hm) (zpow_pos two_pos e)
  have hneg : ∀ {m : ℕ} (e : ℤ), 0 < m → -((m : ℚ) * 2 ^ e) < 0 :=
    fun e hm => neg_neg_of_pos (hpos e hm)
  rw [rational?_eq] at ha hb
  cases hu : a.toModel.unpack with
  | infinity | notANumber => rw [hu] at ha; cases ha
  | zero s =>
    rw [hu] at ha
    cases ha
    cases hw : b.toModel.unpack with
    | infinity | notANumber => rw [hw] at hb; cases hb
    | zero t => rw [hw] at hb; cases hb; rfl
    | finite t n k hn =>
      rw [hw] at hb
      cases t with
      | negative =>
        rw [rational?_negative] at hb
        cases hb
        exact congrArg some (hgt (hneg k hn))
      | positive => cases hb; exact congrArg some (hlt (hpos k hn))
  | finite s m e hm =>
    have hcm := canonical_of_unpack hu
    rw [hu] at ha
    cases hw : b.toModel.unpack with
    | infinity | notANumber => rw [hw] at hb; cases hb
    | zero t =>
      rw [hw] at hb
      cases hb
      cases s with
      | negative =>
        rw [rational?_negative] at ha
        cases ha
        exact congrArg some (hlt (hneg e hm))
      | positive => cases ha; exact congrArg some (hgt (hpos e hm))
    | finite t n k hn =>
      have hcn := canonical_of_unpack hw
      rw [hw] at hb
      cases s <;> cases t <;> simp only [rational?_negative, rational?_positive, Option.some_inj] at ha hb <;>
        subst ha hb
      · rw [compare_neg_neg, compare_magnitude hcm hcn]
        rfl
      · exact congrArg some (hlt ((hneg e hm).trans (hpos k hn)))
      · exact congrArg some (hgt ((hneg k hn).trans (hpos e hm)))
      · rw [compare_magnitude hcm hcn]
        rfl

theorem le_iff {a b : Float} {p q : ℚ} (ha : doubleValue? a = some p)
    (hb : doubleValue? b = some q) : Scalar.le a b = true ↔ p ≤ q := by
  show decide (a ≤ b) = true ↔ p ≤ q
  rw [decide_eq_true_iff]
  show decide (a.toModel ≤ b.toModel) = true ↔ p ≤ q
  rw [decide_eq_true_iff]
  show (a.toModel.unpack.compare b.toModel.unpack).any (·.isLE) = true ↔ p ≤ q
  rw [compare_unpack ha hb, Option.any_some, Ordering.isLE_iff_ne_gt]
  exact compare_le_iff_le

theorem ratio_pos (d : Expanded) : 0 < d.ratio.2 := by
  show 0 < d.quotient.2
  unfold Expanded.quotient
  split
  · exact Nat.one_pos
  · exact Nat.shiftLeft_pos_iff.2 Nat.one_pos

/-- A double is compared with an integer as what it stands for. -/
theorem compareInt_eq {v : Float} {q : ℚ} (h : doubleValue? v = some q) (n : ℤ) :
    Scalar.compareInt v n = some (compare q n) := by
  obtain ⟨d, hd, rfl⟩ := Option.map_eq_some_iff.1 h
  have hpos : (0 : ℚ) < d.ratio.2 := Nat.cast_pos.2 (ratio_pos d)
  have hlt : d.value < n ↔ d.ratio.1 < n * d.ratio.2 := by
    rw [Expanded.value, div_lt_iff₀ hpos]
    exact_mod_cast Iff.rfl
  have hgt : n < d.value ↔ n * d.ratio.2 < d.ratio.1 := by
    rw [Expanded.value, lt_div_iff₀ hpos]
    exact_mod_cast Iff.rfl
  have hcompare : Scalar.compareInt v n = some (compare d.ratio.1 (n * d.ratio.2)) := by
    show compareDoubleInt v n = _
    rw [compareDoubleInt, hd]
  rw [hcompare]
  rcases lt_trichotomy d.ratio.1 (n * d.ratio.2) with h | h | h
  · rw [compare_lt_iff_lt.2 h, compare_lt_iff_lt.2 (hlt.2 h)]
  · have heq : d.value = n := le_antisymm (not_lt.1 (mt hgt.1 h.not_gt)) (not_lt.1 (mt hlt.1 h.not_lt))
    rw [compare_eq_iff_eq.2 h, compare_eq_iff_eq.2 heq]
  · rw [compare_gt_iff_gt.2 h, compare_gt_iff_gt.2 (hgt.2 h)]

/-- What stands for no number lies on the same side of all integers, or on neither. -/
theorem compareInt_of_none {v : Float} (h : doubleValue? v = none) :
    (∀ n, Scalar.compareInt v n = none) ∨ (∀ n, Scalar.compareInt v n = some .lt) ∨
      ∀ n, Scalar.compareInt v n = some .gt := by
  rw [doubleValue?, Option.map_eq_none_iff] at h
  have hcompare : ∀ n, Scalar.compareInt v n =
      if v.isNaN then none else some (if v < 0 then .lt else .gt) := by
    intro n
    show compareDoubleInt v n = _
    rw [compareDoubleInt, h]
  simp only [hcompare]
  split
  · exact .inl fun _ => rfl
  · split
    · exact .inr (.inl fun _ => rfl)
    · exact .inr (.inr fun _ => rfl)

theorem isSome_doubleValue? (v : Float) : (doubleValue? v).isSome = v.isFinite := by
  show _ = v.toModel.unpack.isFinite
  rw [rational?_eq]
  cases v.toModel.unpack <;> rfl

/-! ## Integers -/

/-- The double of some bits is unpacked from them. -/
theorem unpack_ofBits (b : UInt64) :
    (Float.ofBits b).toModel.unpack = UnpackedFloat.unpack .binary64 b.toBitVec := by
  show UnpackedFloat.unpack .binary64
    (UnpackedFloat.pack .binary64 (UnpackedFloat.unpack .binary64 b.toBitVec)) = _
  rw [UnpackedFloat.pack_unpack]
  split
  · rename_i h
    rw [unpack_packedNaN]
    simp only [isNaNBits, decide_eq_true_eq] at h
    simp [UnpackedFloat.unpack, h]
  · rfl

/-- A double is finite if not all bits of its exponent are set. -/
theorem isFinite_ofBits_iff (b : UInt64) :
    (Float.ofBits b).isFinite = true ↔ b.toNat >>> 52 % 2048 ≠ 2047 := by
  have hfield : (@unpackExponent .binary64 b.toBitVec).toNat = b.toNat >>> 52 % 2048 := by
    show (BitVec.extractLsb 62 52 b.toBitVec).toNat = _
    rw [BitVec.extractLsb_toNat]
    rfl
  have hones : @unpackExponent .binary64 b.toBitVec = -1#11 ↔ b.toNat >>> 52 % 2048 = 2047 := by
    rw [← hfield, ← BitVec.toNat_inj]
    rfl
  show (Float.ofBits b).toModel.unpack.isFinite = true ↔ _
  rw [unpack_ofBits, Ne, ← hones]
  unfold UnpackedFloat.unpack
  simp only
  split
  · rename_i h
    split <;> exact iff_of_false nofun (not_not.2 h)
  · rename_i h
    split
    · split <;> exact iff_of_true rfl h
    · exact iff_of_true rfl h

theorem nearestBits_le (num den : ℕ) : nearestBits num den ≤ 2047 <<< 52 := by
  unfold nearestBits
  split
  · exact Nat.zero_le _
  · exact min_le_right _ _

theorem isFinite_nearestDouble_iff (negative : Bool) (num den : ℕ) :
    (nearestDouble negative num den).isFinite = true ↔ nearestBits num den < 2047 <<< 52 := by
  have hle := nearestBits_le num den
  rw [nearestDouble, isFinite_ofBits_iff]
  generalize nearestBits num den = b at hle ⊢
  simp only [Nat.shiftLeft_eq, Nat.shiftRight_eq_div_pow, UInt64.toNat_ofNat'] at hle ⊢
  split <;> omega

theorem roundDiv_le (num den : ℕ) : roundDiv num den ≤ num / den + 1 := by
  unfold roundDiv
  simp only
  split
  · omega
  · split
    · omega
    · split <;> omega

theorem div_le_roundDiv (num den : ℕ) : num / den ≤ roundDiv num den := by
  unfold roundDiv
  simp only
  split
  · omega
  · split
    · omega
    · split <;> omega

/-- The mantissa of a natural number, its leading digit at the place of the implied one. -/
def naturalMantissa (n : ℕ) : ℕ :=
  if 52 ≤ n.log2 then roundDiv n (2 ^ (n.log2 - 52)) else n * 2 ^ (52 - n.log2)

theorem nearestBits_natural {n : ℕ} (hn : n ≠ 0) :
    nearestBits n 1 = min ((n.log2 + 1022) * 2 ^ 52 + naturalMantissa n) (2047 * 2 ^ 52) := by
  have hlow : 2 ^ n.log2 ≤ n := Nat.log2_self_le hn
  have hone : Nat.log2 1 = 0 := rfl
  have hmax : max ((n.log2 : ℤ) - 52) (-1074) = n.log2 - 52 := by omega
  have hbias : ((n.log2 : ℤ) - 52 + 1074).toNat = n.log2 + 1022 := by omega
  unfold nearestBits naturalMantissa
  rw [if_neg hn]
  simp only [hone, Nat.cast_zero, sub_zero, Nat.shiftLeft_eq, one_mul]
  by_cases hlog : 52 ≤ n.log2
  · have he : (0 : ℤ) ≤ n.log2 - 52 := by omega
    have hshift : ((n.log2 : ℤ) - 52).toNat = n.log2 - 52 := by omega
    have hfull : ¬ n < 2 ^ (n.log2 - 52) * 2 ^ 52 := by
      rw [← pow_add, Nat.sub_add_cancel hlog]
      exact not_lt.2 hlow
    simp only [if_pos he, hshift, if_neg hfull, hmax, hbias, if_pos hlog]
  · have he : ¬ (0 : ℤ) ≤ n.log2 - 52 := by omega
    have hshift : (-((n.log2 : ℤ) - 52)).toNat = 52 - n.log2 := by omega
    have hfull : ¬ n * 2 ^ (52 - n.log2) < 2 ^ 52 := by
      rw [not_lt]
      calc 2 ^ 52 = 2 ^ n.log2 * 2 ^ (52 - n.log2) := by
            rw [← pow_add]
            congr 1
            omega
        _ ≤ n * 2 ^ (52 - n.log2) := Nat.mul_le_mul_right _ hlow
    have hdiv : ∀ m, roundDiv m 1 = m := fun m => by simp [roundDiv, Nat.mod_one]
    simp only [if_neg he, hshift, one_mul, if_neg hfull, hmax, hbias, hdiv, if_neg hlog]

theorem naturalMantissa_le (n : ℕ) : naturalMantissa n ≤ 2 ^ 53 := by
  have hhigh : n < 2 ^ (n.log2 + 1) := Nat.lt_log2_self
  unfold naturalMantissa
  split
  · rename_i hlog
    refine (roundDiv_le _ _).trans (Nat.div_lt_of_lt_mul ?_)
    rwa [← pow_add, show n.log2 - 52 + 53 = n.log2 + 1 by omega]
  · rename_i hlog
    calc n * 2 ^ (52 - n.log2) ≤ 2 ^ (n.log2 + 1) * 2 ^ (52 - n.log2) :=
          Nat.mul_le_mul_right _ hhigh.le
      _ = 2 ^ 53 := by
          rw [← pow_add]
          congr 1
          omega

theorem le_naturalMantissa {n : ℕ} (hlog : 52 ≤ n.log2) : 2 ^ 52 ≤ naturalMantissa n := by
  have hn : n ≠ 0 := by
    rintro rfl
    exact absurd hlog (by decide)
  rw [naturalMantissa, if_pos hlog]
  refine le_trans ?_ (div_le_roundDiv _ _)
  rw [Nat.le_div_iff_mul_le (Nat.two_pow_pos _), ← pow_add, show 52 + (n.log2 - 52) = n.log2 by omega]
  exact Nat.log2_self_le hn

/-- At the upper end of the range the last mantissa is odd, so half a step is rounded up. -/
theorem roundDiv_top_lt_iff {n k : ℕ} (hk : 0 < k) (hn : n < 2 ^ 54 * k) :
    roundDiv n (2 * k) < 2 ^ 53 ↔ n < 2 ^ 54 * k - k := by
  have hsplit := Nat.div_add_mod n (2 * k)
  have hmod := Nat.mod_lt n (show 0 < 2 * k by omega)
  have hquot : n / (2 * k) < 2 ^ 53 := Nat.div_lt_of_lt_mul (by omega)
  have hround := roundDiv_le n (2 * k)
  rcases (Nat.le_sub_one_of_lt hquot).lt_or_eq with hlt | htop
  · have hle : 2 * k * (n / (2 * k) + 1) ≤ 2 * k * (2 ^ 53 - 1) := Nat.mul_le_mul_left _ hlt
    rw [Nat.mul_succ] at hle
    exact iff_of_true (by omega) (by omega)
  · rw [htop] at hsplit
    simp only [roundDiv, htop]
    split
    · exact iff_of_true (by omega) (by omega)
    · split
      · exact iff_of_false (by omega) (by omega)
      · rw [if_neg (by norm_num)]
        exact iff_of_false (by omega) (by omega)

/-- The nearest double of a natural number is finite if the number is less than half a step beyond the
largest one. -/
theorem nearestBits_lt_iff (n : ℕ) : nearestBits n 1 < 2047 <<< 52 ↔ n < 2 ^ 1024 - 2 ^ 970 := by
  have htop : 2 ^ 1024 = 2 ^ 54 * 2 ^ 970 := by rw [← pow_add]
  have hpos : 0 < 2 ^ 970 := pow_pos two_pos _
  rcases eq_or_ne n 0 with rfl | hn
  · exact iff_of_true (by decide) (by omega)
  have hlow : 2 ^ n.log2 ≤ n := Nat.log2_self_le hn
  have hhigh : n < 2 ^ (n.log2 + 1) := Nat.lt_log2_self
  have hmantissa := naturalMantissa_le n
  rw [nearestBits_natural hn, Nat.shiftLeft_eq, min_lt_iff, or_iff_left (lt_irrefl _)]
  rcases lt_trichotomy n.log2 1023 with hlog | hlog | hlog
  · have hlt : n < 2 ^ 53 * 2 ^ 970 := by
      rw [← pow_add]
      exact hhigh.trans_le (pow_le_pow_right₀ one_le_two hlog)
    exact iff_of_true (by omega) (by omega)
  · have hstep : 2 ^ 971 = 2 * 2 ^ 970 := by rw [← pow_succ']
    have hround : naturalMantissa n = roundDiv n (2 * 2 ^ 970) := by
      rw [naturalMantissa, hlog, if_pos (by norm_num), ← hstep]
    rw [hlog, show 1023 + 1 = 1024 from rfl, htop] at hhigh
    rw [htop, ← roundDiv_top_lt_iff hpos hhigh, ← hround]
    omega
  · have hmant := le_naturalMantissa (n := n) (by omega)
    have hle : 2 ^ 1024 ≤ 2 ^ n.log2 := pow_le_pow_right₀ one_le_two (show 1024 ≤ n.log2 from hlog)
    exact iff_of_false (by omega) (by omega)

/-- Integers have a double unless they are half a step beyond the largest one. -/
theorem doubleOfInt?_eq_none_iff (n : ℤ) :
    doubleOfInt? n = none ↔ 2 ^ 1024 - 2 ^ 970 ≤ n.natAbs := by
  have hfinite := isFinite_nearestDouble_iff (decide (n < 0)) n.natAbs 1
  rw [nearestBits_lt_iff] at hfinite
  rw [← not_lt, ← hfinite]
  simp only [doubleOfInt?]
  split
  · rename_i hv
    exact iff_of_false nofun (not_not.2 hv)
  · rename_i hv
    exact iff_of_true rfl hv

theorem isFinite_of_doubleOfInt? {n : ℤ} {v : Float} (h : doubleOfInt? n = some v) :
    v.isFinite = true := by
  simp only [doubleOfInt?] at h
  split at h
  · rename_i hv
    cases h
    exact hv
  · cases h

end Double

/-! ## Numbers -/

namespace Number

open Double

/-- The rational number that an integer or a double stands for, none if it is not finite. -/
def value? : Number Float → Option ℚ
  | int n => some n
  | real v => doubleValue? v

/-- An integer that is not rounded to a finite double. -/
def Huge : Number Float → Prop
  | int n => 2 ^ 1024 - 2 ^ 970 ≤ n.natAbs
  | real _ => False

variable {a b : Number Float} {p q : ℚ}

theorem toScalar?_eq_none_iff (a : Number Float) : a.toScalar? = none ↔ a.Huge := by
  cases a with
  | int n => exact doubleOfInt?_eq_none_iff n
  | real v => exact iff_of_false nofun id

theorem isFinite_iff {v : Float} (h : a.toScalar? = some v) :
    v.isFinite = true ↔ ∃ p, a.value? = some p := by
  cases a with
  | int n => exact iff_of_true (isFinite_of_doubleOfInt? h) ⟨n, rfl⟩
  | real w =>
    cases h
    rw [← isSome_doubleValue?, Option.isSome_iff_exists]
    rfl

theorem le_iff (ha : a.value? = some p) (hb : b.value? = some q) : a.le b = true ↔ p ≤ q := by
  cases a with
  | int m =>
    cases ha
    cases b with
    | int n =>
      cases hb
      show decide (m ≤ n) = true ↔ _
      rw [decide_eq_true_iff, Int.cast_le]
    | real w =>
      show (Scalar.compareInt w m).any (· != .lt) = true ↔ _
      rw [compareInt_eq hb, Option.any_some, bne_iff_ne, Ne, compare_lt_iff_lt, not_lt]
  | real v =>
    cases b with
    | int n =>
      cases hb
      show (Scalar.compareInt v n).any (· != .gt) = true ↔ _
      rw [compareInt_eq ha, Option.any_some, bne_iff_ne, Ne, compare_gt_iff_gt, not_lt]
    | real w => exact Double.le_iff ha hb

/-- What is not finite does not lie between integers. -/
theorem between_iff (a : Number Float) (m n : ℤ) :
    ((int m).le a && a.le (int n)) = true ↔ ∃ p, a.value? = some p ∧ (m : ℚ) ≤ p ∧ p ≤ n := by
  cases ha : a.value? with
  | some p =>
    rw [Bool.and_eq_true, le_iff (rfl : (int m).value? = some (m : ℚ)) ha,
      le_iff ha (rfl : (int n).value? = some (n : ℚ))]
    simp
  | none =>
    refine iff_of_false ?_ (by simp)
    cases a with
    | int k => cases ha
    | real v =>
      show ¬ ((Scalar.compareInt v m).any (· != .lt) && (Scalar.compareInt v n).any (· != .gt)) = true
      rcases compareInt_of_none ha with h | h | h <;> rw [h, h] <;> decide

theorem eqInt_iff (a : Number Float) (n : ℤ) : a.eqInt n = true ↔ a.value? = some (n : ℚ) := by
  cases a with
  | int m =>
    show (m == n) = true ↔ some (m : ℚ) = some (n : ℚ)
    rw [beq_iff_eq, Option.some_inj, Int.cast_inj]
  | real v =>
    show (Scalar.compareInt v n == some .eq) = true ↔ doubleValue? v = some (n : ℚ)
    cases h : doubleValue? v with
    | some p => rw [compareInt_eq h, beq_iff_eq, Option.some_inj, compare_eq_iff_eq, Option.some_inj]
    | none =>
      refine iff_of_false ?_ nofun
      rcases compareInt_of_none h with h | h | h <;> rw [h] <;> decide

end Number

end FieldWalk.Numeral
