import FieldWalk.Proofs.Numeral.Mantissa
/-!
# Sums, products and quotients of doubles

Where the exact result is not rounded beyond the largest double, the result is the double nearest to it.
-/

namespace FieldWalk.Numeral.Double

open Float.Model Float.Model.UnpackedFloat

/-! ## Integers with an exponent -/

theorem rounds_round (s : Sign) {m : ℕ} (hm : 0 < m) (e : ℤ) :
    Rounds (UnpackedFloat.round .binary64 s m e) (s.apply 1 * (m * 2 ^ e)) := by
  have hpos : (0 : ℚ) < m * 2 ^ e := mul_pos (Nat.cast_pos.2 hm) (two_zpow_pos e)
  have htarget : exponent (m * 2 ^ e) = Format.binary64.targetExponent (totalExponent m e) := by
    refine exponent_eq_target hm le_rfl ?_
    exact mul_lt_mul_of_pos_right (lt_add_one _) (two_zpow_pos e)
  unfold UnpackedFloat.round
  simp only [decreaseExponent, ← htarget]
  generalize hn : (e - exponent (m * 2 ^ e)).toNat = n
  refine rounds_roundWithAccuracy s hpos ?_ (by omega)
  have hdiv : (m * 2 ^ e : ℚ) / 2 ^ (e - n) = (m <<< n : ℕ) := by
    rw [Nat.shiftLeft_eq, Nat.cast_mul, Nat.cast_pow, Nat.cast_ofNat, mul_div_assoc,
      ← zpow_sub₀ two_ne_zero, sub_sub_cancel, zpow_natCast]
  rw [hdiv]
  exact stands_exact _

theorem rounds_normalize (m e : ℤ) (z : Sign) :
    Rounds (UnpackedFloat.normalize .binary64 m e z) (m * 2 ^ e) := by
  unfold UnpackedFloat.normalize
  rcases lt_trichotomy m 0 with h | rfl | h
  · rw [Int.compare_eq_lt.2 h]
    have hr := rounds_round .negative (m := (-m).toNat) (by omega) e
    have hm : (((-m).toNat : ℤ) : ℚ) = -m := by
      rw [Int.toNat_of_nonneg (by omega), Int.cast_neg]
    rw [Int.cast_natCast] at hm
    rw [hm, Sign.apply] at hr
    simpa using hr
  · rw [Int.cast_zero, zero_mul]
    exact rounds_zero z
  · rw [Int.compare_eq_gt.2 h]
    have hr := rounds_round .positive (m := m.toNat) (by omega) e
    have hm : ((m.toNat : ℤ) : ℚ) = m := by rw [Int.toNat_of_nonneg h.le]
    rw [Int.cast_natCast] at hm
    rw [hm, Sign.apply] at hr
    simpa using hr

/-! ## What is unpacked -/

section
variable {u v : UnpackedFloat} {p q : ℚ}

theorem apply_neg (s : Sign) (n : ℤ) : (-s).apply n = -s.apply n := by
  cases s
  · exact (neg_neg n).symm
  · rfl

theorem apply_mul_apply (s t : Sign) (m n : ℤ) : s.apply m * t.apply n = (s * t).apply (m * n) := by
  cases s <;> cases t
  · exact neg_mul_neg m n
  · exact neg_mul m n
  · exact mul_neg m n
  · rfl

theorem rational?_neg (hv : rational? v = some q) : rational? v.neg = some (-q) := by
  cases v with
  | zero s =>
    cases hv
    exact congrArg some neg_zero.symm
  | finite s m e hm =>
    cases hv
    show some (((-s).apply m : ℚ) * 2 ^ e) = _
    rw [apply_neg, Int.cast_neg, neg_mul]
  | infinity | notANumber => cases hv

theorem Regular.neg (hv : Regular v) : Regular v.neg := by
  cases v <;> exact hv

theorem cast_shiftLeft_mul (s : Sign) (m : ℕ) {e k : ℤ} (h : k ≤ e) :
    ((s.apply (m <<< (e - k).toNat : ℕ) : ℤ) : ℚ) * 2 ^ k = (s.apply m : ℤ) * 2 ^ e := by
  rw [cast_apply, cast_apply s m, Nat.shiftLeft_eq, two_zpow_eq_mul h]
  push_cast
  ring

theorem rounds_add (hu : Regular u) (hv : Regular v) (hp : rational? u = some p)
    (hq : rational? v = some q) : Rounds (UnpackedFloat.add .binary64 u v) (p + q) := by
  cases u with
  | infinity | notANumber => cases hp
  | zero s =>
    cases hp
    rw [zero_add]
    cases v with
    | infinity | notANumber => cases hq
    | zero t =>
      cases hq
      simp only [UnpackedFloat.add]
      split <;> exact rounds_zero _
    | finite t n k hn => exact rounds_of_regular hv hq
  | finite s m e hm =>
    cases v with
    | infinity | notANumber => cases hq
    | zero t =>
      cases hq
      rw [add_zero]
      exact rounds_of_regular hu hp
    | finite t n k hn =>
      cases hp
      cases hq
      have h := rounds_normalize
        (s.apply (m <<< (e - min e k).toNat : ℕ) + t.apply (n <<< (k - min e k).toNat : ℕ)) (min e k) .positive
      rw [Int.cast_add, add_mul, cast_shiftLeft_mul s m (min_le_left e k),
        cast_shiftLeft_mul t n (min_le_right e k)] at h
      exact h

theorem unpacked_sub (f : Format) (u v : UnpackedFloat) :
    UnpackedFloat.sub f u v = UnpackedFloat.add f u v.neg := by
  cases u <;> cases v <;> try rfl
  rename_i s m e hm t n k hn
  simp only [UnpackedFloat.sub, UnpackedFloat.neg, UnpackedFloat.add, apply_neg]
  rfl

theorem rounds_sub (hu : Regular u) (hv : Regular v) (hp : rational? u = some p)
    (hq : rational? v = some q) : Rounds (UnpackedFloat.sub .binary64 u v) (p - q) := by
  rw [unpacked_sub, sub_eq_add_neg]
  exact rounds_add hu hv.neg hp (rational?_neg hq)

/-- A product of two mantissas has digits enough, unless it is finer than the grid. -/
theorem add_le_exponent {m n : ℕ} {e k : ℤ} (hm : 0 < m) (hn : 0 < n)
    (hu : 2 ^ 52 ≤ m ∨ e = -1074) (hv : 2 ^ 52 ≤ n ∨ k = -1074) :
    e + k ≤ exponent ((m * n : ℕ) * 2 ^ (e + k)) := by
  have hpow : (0 : ℚ) < 2 ^ (e + k) := two_zpow_pos _
  have hmn : 0 < m * n := Nat.mul_pos hm hn
  rw [exponent_eq_target hmn le_rfl (mul_lt_mul_of_pos_right (lt_add_one _) hpow)]
  simp only [Format.targetExponent, totalExponent, Format.mantissaBits, Format.minExponent]
  have hfull : 2 ^ 52 ≤ m ∨ 2 ^ 52 ≤ n → 52 ≤ (m * n).log2 := by
    rw [Nat.le_log2 hmn.ne']
    rintro (h | h)
    · exact h.trans (Nat.le_mul_of_pos_right m hn)
    · exact h.trans (Nat.le_mul_of_pos_left n hm)
  rcases hu with hu | hu
  · have := hfull (.inl hu)
    omega
  · rcases hv with hv | hv
    · have := hfull (.inr hv)
      omega
    · omega

theorem rounds_mul (hu : Regular u) (hv : Regular v) (hp : rational? u = some p)
    (hq : rational? v = some q) : Rounds (UnpackedFloat.mul .binary64 u v) (p * q) := by
  cases u with
  | infinity | notANumber => cases hp
  | zero s =>
    cases hp
    rw [zero_mul]
    cases v with
    | infinity | notANumber => cases hq
    | zero t | finite t => exact rounds_zero _
  | finite s m e hm =>
    cases v with
    | infinity | notANumber => cases hq
    | zero t =>
      cases hq
      rw [mul_zero]
      exact rounds_zero _
    | finite t n k hn =>
      cases hp
      cases hq
      have hpow : (0 : ℚ) < 2 ^ (e + k) := two_zpow_pos _
      have hpos : (0 : ℚ) < (m * n : ℕ) * 2 ^ (e + k) :=
        mul_pos (Nat.cast_pos.2 (Nat.mul_pos hm hn)) hpow
      have hstands : Stands (.ofMantissaAndAccuracy (m * n) .exact)
          ((m * n : ℕ) * 2 ^ (e + k) / 2 ^ (e + k)) := by
        rw [mul_div_cancel_right₀ _ hpow.ne']
        exact stands_exact _
      have h := rounds_roundWithAccuracy (s * t) hpos hstands
        (add_le_exponent hm hn hu.2.2 hv.2.2)
      have hvalue : (s.apply m : ℚ) * 2 ^ e * (t.apply n * 2 ^ k) =
          (s * t).apply 1 * ((m * n : ℕ) * 2 ^ (e + k)) := by
        rw [mul_mul_mul_comm, ← zpow_add₀ two_ne_zero, ← Int.cast_mul, apply_mul_apply, cast_apply]
        push_cast
        ring
      rw [hvalue]
      exact h

/-- A quotient of natural numbers is cut off with its remainder. -/
theorem stands_fraction (n : ℕ) {d : ℕ} (hd : 0 < d) :
    Stands (.ofMantissaAndAccuracy (n / d) (accuracyOfFraction (n % d) d)) ((n : ℚ) / d) := by
  have hd' : (0 : ℚ) < d := Nat.cast_pos.2 hd
  have hlt : ((n % d : ℕ) : ℚ) < d := Nat.cast_lt.2 (Nat.mod_lt n hd)
  have hq : (n : ℚ) / d = (n / d : ℕ) + (n % d : ℕ) / d := by
    rw [div_eq_iff hd'.ne', add_mul, div_mul_cancel₀ _ hd'.ne', mul_comm]
    exact_mod_cast (Nat.div_add_mod n d).symm
  rw [hq]
  generalize n / d = m
  generalize n % d = r at hlt
  unfold accuracyOfFraction
  split
  · rename_i h0
    rw [h0, Nat.cast_zero, zero_div, add_zero]
    exact stands_exact m
  · rename_i h0
    have hr : (0 : ℚ) < r := Nat.cast_pos.2 (Nat.pos_of_ne_zero h0)
    have hpos : (0 : ℚ) < r / d := div_pos hr hd'
    have hone : (r : ℚ) / d < 1 := (div_lt_one hd').2 hlt
    rcases lt_trichotomy (2 * r) d with h | h | h
    · have hhalf : (r : ℚ) / d < 1 / 2 := by
        rw [div_lt_div_iff₀ hd' two_pos]
        exact_mod_cast (by omega : r * 2 < 1 * d)
      rw [compare_lt_iff_lt.2 h]
      exact ⟨lt_add_of_pos_right _ hpos, add_lt_add_right hhalf _⟩
    · have hhalf : (r : ℚ) / d = 1 / 2 := by
        rw [div_eq_div_iff hd'.ne' two_ne_zero]
        exact_mod_cast (by omega : r * 2 = 1 * d)
      rw [compare_eq_iff_eq.2 h, hhalf]
      rfl
    · have hhalf : 1 / 2 < (r : ℚ) / d := by
        rw [div_lt_div_iff₀ two_pos hd']
        exact_mod_cast (by omega : 1 * d < r * 2)
      rw [compare_gt_iff_gt.2 h]
      exact ⟨add_lt_add_right hhalf _, add_lt_add_right hone _⟩

/-- A quotient of mantissas is computed to digits enough. -/
theorem target_le_exponent {m n : ℕ} {e k : ℤ} (hm : 0 < m) (hn : 0 < n) :
    Format.binary64.targetExponent (totalExponent m e - totalExponent n k) ≤
      exponent (m * 2 ^ e / (n * 2 ^ k)) := by
  have hm' : (0 : ℚ) < m * 2 ^ e := mul_pos (Nat.cast_pos.2 hm) (two_zpow_pos e)
  have hn' : (0 : ℚ) < n * 2 ^ k := mul_pos (Nat.cast_pos.2 hn) (two_zpow_pos k)
  have hhigh : (n : ℚ) * 2 ^ k ≤ 2 ^ (n.log2 + k + 1) :=
    (mul_le_mul_of_nonneg_right (lt_add_one _).le (two_zpow_pos k).le).trans
      (add_one_mul_le_two_zpow n k)
  have hle : (2 : ℚ) ^ (m.log2 + e - (n.log2 + k + 1)) ≤ m * 2 ^ e / (n * 2 ^ k) := by
    rw [le_div_iff₀ hn']
    calc (2 : ℚ) ^ (m.log2 + e - (n.log2 + k + 1)) * (n * 2 ^ k)
        ≤ 2 ^ (m.log2 + e - (n.log2 + k + 1)) * 2 ^ (n.log2 + k + 1) :=
          mul_le_mul_of_nonneg_left hhigh (two_zpow_pos _).le
      _ = 2 ^ (m.log2 + e) := by rw [← zpow_add₀ two_ne_zero, sub_add_cancel]
      _ ≤ m * 2 ^ e := two_zpow_log2_le hm e
  have hpos : (0 : ℚ) < m * 2 ^ e / (n * 2 ^ k) := div_pos hm' hn'
  have hlog : m.log2 + e - (n.log2 + k + 1) ≤ Int.log 2 ((m : ℚ) * 2 ^ e / (n * 2 ^ k)) :=
    (Int.zpow_le_iff_le_log one_lt_two hpos).1 (by exact_mod_cast hle)
  rw [exponent, abs_of_pos hpos]
  simp only [Format.targetExponent, totalExponent, Format.mantissaBits, Format.minExponent]
  omega

theorem rounds_div (hp : rational? u = some p) (hq : rational? v = some q) (h0 : q ≠ 0) :
    Rounds (UnpackedFloat.div .binary64 u v) (p / q) := by
  cases v with
  | infinity | notANumber => cases hq
  | zero t =>
    cases hq
    exact absurd rfl h0
  | finite t n k hn =>
    cases u with
    | infinity | notANumber => cases hp
    | zero s =>
      cases hp
      rw [zero_div]
      exact rounds_zero _
    | finite s m e hm =>
      cases hp
      cases hq
      have hn' : (0 : ℚ) < n * 2 ^ k := mul_pos (Nat.cast_pos.2 hn) (two_zpow_pos k)
      have hpos : (0 : ℚ) < m * 2 ^ e / (n * 2 ^ k) :=
        div_pos (mul_pos (Nat.cast_pos.2 hm) (two_zpow_pos e)) hn'
      let target := min (e - k)
        (Format.binary64.targetExponent (totalExponent m e - totalExponent n k))
      have hle : target ≤ exponent (m * 2 ^ e / (n * 2 ^ k)) :=
        (min_le_right _ _).trans (target_le_exponent hm hn)
      have hdiv : (m : ℚ) * 2 ^ e / (n * 2 ^ k) / 2 ^ target =
          (m <<< (e - k - target).toNat : ℕ) / n := by
        have hek : (2 : ℚ) ^ (e - k) = (2 ^ (e - k - target).toNat : ℤ) * 2 ^ target :=
          two_zpow_eq_mul (min_le_left _ _)
        rw [mul_div_mul_comm, ← zpow_sub₀ two_ne_zero, hek, Nat.shiftLeft_eq]
        have := (two_zpow_pos target).ne'
        push_cast
        field_simp
      have hstands := stands_fraction (m <<< (e - k - target).toNat) hn
      rw [← hdiv] at hstands
      have h := rounds_roundWithAccuracy (s / t) hpos hstands hle
      have hsign : (s.apply 1 : ℚ) / t.apply 1 = (s / t).apply 1 := by
        cases s <;> cases t <;> norm_num [Sign.apply] <;> rfl
      rw [cast_apply s, cast_apply t, mul_assoc, mul_assoc, mul_div_mul_comm, hsign]
      exact h

end

/-! ## Doubles -/

section
variable {a b : Float} {p q : ℚ}

theorem doubleValue?_of_rounds {v : Float} {u : UnpackedFloat} {q : ℚ} (hv : v.toModel = .pack u)
    (hu : Rounds u q) (hle : |nearest q| ≤ largest) : doubleValue? v = some (nearest q) := by
  rw [rational?_eq, hv, unpack_pack hu.regular hu.value hle]
  exact hu.value

theorem doubleValue?_add (ha : doubleValue? a = some p) (hb : doubleValue? b = some q)
    (hle : |nearest (p + q)| ≤ largest) : doubleValue? (a + b) = some (nearest (p + q)) := by
  rw [rational?_eq] at ha hb
  exact doubleValue?_of_rounds rfl (rounds_add (regular_unpack a) (regular_unpack b) ha hb) hle

theorem doubleValue?_sub (ha : doubleValue? a = some p) (hb : doubleValue? b = some q)
    (hle : |nearest (p - q)| ≤ largest) : doubleValue? (a - b) = some (nearest (p - q)) := by
  rw [rational?_eq] at ha hb
  exact doubleValue?_of_rounds rfl (rounds_sub (regular_unpack a) (regular_unpack b) ha hb) hle

theorem doubleValue?_mul (ha : doubleValue? a = some p) (hb : doubleValue? b = some q)
    (hle : |nearest (p * q)| ≤ largest) : doubleValue? (a * b) = some (nearest (p * q)) := by
  rw [rational?_eq] at ha hb
  exact doubleValue?_of_rounds rfl (rounds_mul (regular_unpack a) (regular_unpack b) ha hb) hle

theorem doubleValue?_div (ha : doubleValue? a = some p) (hb : doubleValue? b = some q) (h0 : q ≠ 0)
    (hle : |nearest (p / q)| ≤ largest) : doubleValue? (a / b) = some (nearest (p / q)) := by
  rw [rational?_eq] at ha hb
  exact doubleValue?_of_rounds rfl (rounds_div ha hb h0) hle

/-- The integer part of a double is the one of the number that it stands for. -/
theorem floor_eq (ha : doubleValue? a = some p) : Scalar.floor a = .ok ⌊p⌋ := by
  obtain ⟨d, hd, rfl⟩ := Option.map_eq_some_iff.1 ha
  show floorDouble a = _
  rw [floorDouble, hd, Expanded.value, Rat.floor_intCast_div_natCast]
  exact congrArg Except.ok (Int.fdiv_eq_ediv_of_nonneg _ (Int.natCast_nonneg _))

end

end FieldWalk.Numeral.Double
