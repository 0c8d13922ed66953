import FieldWalk.Proofs.Numeral.Extended
import FieldWalk.Proofs.Numeral.Ranged
import Mathlib.Data.Int.Log
import Mathlib.Algebra.Order.Floor.Ring
import Mathlib.Tactic.Linarith
import Mathlib.Tactic.FieldSimp
import Mathlib.Tactic.Ring
/-!
# The nearest double

A rational number is rounded to the nearest multiple of a power of two with a mantissa of 53 bits, and
to the even one of two that are equally near; the multiples of the least power are the grid on which all
doubles lie. Rounding keeps the order. It errs by a relative amount, and on the grid by no more than that.
-/

namespace FieldWalk.Numeral

/-! ## The nearest integer -/

/-- The nearest integer, the even one of two that are equally near. -/
def roundEven (q : ℚ) : ℤ :=
  if q - ⌊q⌋ < 1 / 2 ∨ (q - ⌊q⌋ = 1 / 2 ∧ Even ⌊q⌋) then ⌊q⌋ else ⌊q⌋ + 1

theorem roundEven_spec (q : ℚ) :
    |q - roundEven q| < 1 / 2 ∨ (|q - roundEven q| = 1 / 2 ∧ Even (roundEven q)) := by
  have hlo := Int.floor_le q
  have hhi := Int.lt_floor_add_one q
  unfold roundEven
  split
  · rename_i h
    rw [abs_of_nonneg (sub_nonneg.2 hlo)]
    exact h
  · rename_i h
    push Not at h
    have hodd : q - ⌊q⌋ = 1 / 2 → Even (⌊q⌋ + 1) := fun he =>
      Int.even_add_one.2 (h.2 he)
    push_cast
    rw [abs_of_neg (by linarith)]
    rcases h.1.eq_or_lt with he | hlt
    · exact .inr ⟨by linarith, hodd he.symm⟩
    · exact .inl (by linarith)

/-- No other integer is as near. -/
theorem roundEven_eq {q : ℚ} {n : ℤ} (h : |q - n| < 1 / 2 ∨ (|q - n| = 1 / 2 ∧ Even n)) :
    roundEven q = n := by
  have hspec := roundEven_spec q
  generalize roundEven q = m at hspec ⊢
  by_contra hne
  have hone : (1 : ℚ) ≤ |(m : ℚ) - n| := by
    exact_mod_cast Int.one_le_abs (sub_ne_zero.2 hne)
  have hsum : |(m : ℚ) - n| ≤ |q - m| + |q - n| := by
    rw [abs_sub_comm q m]
    exact abs_sub_le _ _ _
  -- two integers that are as near lie one apart, so they are not both even
  rcases hspec with hm | ⟨hm, hmeven⟩ <;> rcases h with hn | ⟨hn, hneven⟩
  · linarith
  · linarith
  · linarith
  · have hle : |m - n| ≤ 1 := by
      have : |(m : ℚ) - n| ≤ 1 := by linarith
      exact_mod_cast this
    obtain ⟨k, hk⟩ := hmeven.sub hneven
    have := abs_le.1 hle
    omega

theorem roundEven_intCast (n : ℤ) : roundEven n = n :=
  roundEven_eq (.inl (by norm_num))

theorem roundEven_neg (q : ℚ) : roundEven (-q) = -roundEven q := by
  apply roundEven_eq
  have h := roundEven_spec q
  have habs : |-q - ((-roundEven q : ℤ) : ℚ)| = |q - roundEven q| := by
    rw [← abs_neg]
    congr 1
    push_cast
    ring
  rw [habs, even_neg]
  exact h

theorem abs_roundEven_sub_le (q : ℚ) : |(roundEven q : ℚ) - q| ≤ 1 / 2 := by
  rw [abs_sub_comm]
  rcases roundEven_spec q with h | h
  · exact h.le
  · exact h.1.le

theorem roundEven_mono {p q : ℚ} (h : p ≤ q) : roundEven p ≤ roundEven q := by
  rcases h.eq_or_lt with rfl | hlt
  · exact le_rfl
  by_contra hgt
  have hgap : ((roundEven q : ℤ) : ℚ) + 1 ≤ roundEven p := by
    exact_mod_cast Int.add_one_le_iff.2 (not_le.1 hgt)
  have hp := (abs_le.1 (abs_roundEven_sub_le p)).2
  have hq := (abs_le.1 (abs_roundEven_sub_le q)).1
  linarith

theorem roundEven_le {q : ℚ} {n : ℤ} (h : q ≤ n) : roundEven q ≤ n :=
  (roundEven_mono h).trans_eq (roundEven_intCast n)

theorem le_roundEven {q : ℚ} {n : ℤ} (h : (n : ℚ) ≤ q) : n ≤ roundEven q :=
  (roundEven_intCast n).symm.trans_le (roundEven_mono h)

/-! ## Rounding to 53 bits -/

/-- The exponent of the multiples that a number is rounded to. -/
def exponent (q : ℚ) : ℤ :=
  max (Int.log 2 |q| - 52) (-1074)

/-- The nearest multiple of the power of two that leaves 53 bits, with no bound from above. -/
def nearest (q : ℚ) : ℚ :=
  roundEven (q / 2 ^ exponent q) * 2 ^ exponent q

theorem le_exponent (q : ℚ) : -1074 ≤ exponent q := le_max_right _ _

theorem exponent_neg (q : ℚ) : exponent (-q) = exponent q := by
  rw [exponent, exponent, abs_neg]

theorem two_zpow_pos (e : ℤ) : (0 : ℚ) < 2 ^ e := zpow_pos two_pos e

/-- The logarithm of a number between two powers of two. -/
theorem log_eq {q : ℚ} {k : ℤ} (hlow : 2 ^ k ≤ q) (hhigh : q < 2 ^ (k + 1)) : Int.log 2 q = k := by
  have hpos : 0 < q := (two_zpow_pos k).trans_le hlow
  have hle := (Int.zpow_le_iff_le_log one_lt_two hpos).1 (by exact_mod_cast hlow)
  have hlt := (Int.lt_zpow_iff_log_lt one_lt_two hpos).1 (by exact_mod_cast hhigh)
  omega

theorem two_zpow_eq_mul {e k : ℤ} (h : e ≤ k) :
    (2 : ℚ) ^ k = ((2 ^ (k - e).toNat : ℤ) : ℚ) * 2 ^ e := by
  push_cast
  rw [← zpow_natCast, Int.toNat_of_nonneg (by omega), ← zpow_add₀ two_ne_zero]
  congr 1
  omega

theorem abs_lt_zpow_exponent (q : ℚ) : |q| < 2 ^ (exponent q + 53) := by
  have hlog : |q| < 2 ^ (Int.log 2 |q| + 1) := by
    exact_mod_cast Int.lt_zpow_succ_log_self (b := 2) one_lt_two |q|
  refine hlog.trans_le (zpow_le_zpow_right₀ one_le_two ?_)
  unfold exponent
  omega

/-- What is a multiple of its own power is not changed. -/
theorem nearest_of_eq {q : ℚ} {m : ℤ} (h : q = m * 2 ^ exponent q) : nearest q = q := by
  have hdiv : q / 2 ^ exponent q = m := by
    rw [div_eq_iff (two_zpow_pos _).ne']
    exact h
  rw [nearest, hdiv, roundEven_intCast]
  exact h.symm

theorem exponent_le {q : ℚ} {e : ℤ} (h0 : q ≠ 0) (hq : |q| < 2 ^ (e + 53)) (he : -1074 ≤ e) :
    exponent q ≤ e := by
  have hlog : Int.log 2 |q| < e + 53 := by
    rw [← Int.lt_zpow_iff_log_lt one_lt_two (abs_pos.2 h0)]
    exact_mod_cast hq
  unfold exponent
  omega

/-- What has a mantissa of less than 53 bits is not changed. -/
theorem nearest_of_lt {m e : ℤ} (hm : |m| < 2 ^ 53) (he : -1074 ≤ e) :
    nearest (m * 2 ^ e) = m * 2 ^ e := by
  rcases eq_or_ne m 0 with rfl | h0
  · rw [Int.cast_zero, zero_mul, nearest, zero_div, ← Int.cast_zero, roundEven_intCast,
      Int.cast_zero, zero_mul]
  have hq : ((m : ℚ) * 2 ^ e) ≠ 0 := mul_ne_zero (Int.cast_ne_zero.2 h0) (two_zpow_pos e).ne'
  have hlt : |(m : ℚ) * 2 ^ e| < 2 ^ (e + 53) := by
    rw [abs_mul, abs_of_pos (two_zpow_pos e), zpow_add₀ two_ne_zero, mul_comm]
    refine mul_lt_mul_of_pos_left ?_ (two_zpow_pos e)
    exact_mod_cast hm
  have hle := exponent_le hq hlt he
  -- the power divides the one that the number is a multiple of
  refine nearest_of_eq (m := m * 2 ^ (e - exponent (m * 2 ^ e)).toNat) ?_
  rw [Int.cast_mul, mul_assoc, ← two_zpow_eq_mul hle]

theorem nearest_of_le {m e : ℤ} (hm : |m| ≤ 2 ^ 53) (he : -1074 ≤ e) :
    nearest (m * 2 ^ e) = m * 2 ^ e := by
  rcases hm.lt_or_eq with hlt | heq
  · exact nearest_of_lt hlt he
  -- at the very end one bit less will do
  obtain ⟨k, rfl⟩ : ∃ k, m = 2 * k := by
    rcases abs_choice m with h | h <;> exact ⟨m / 2, by omega⟩
  have hk : |k| < 2 ^ 53 := by
    rw [abs_mul, abs_two] at heq
    omega
  have htwo : ((2 * k : ℤ) : ℚ) * 2 ^ e = k * 2 ^ (e + 1) := by
    rw [zpow_add_one₀ two_ne_zero]
    push_cast
    ring
  rw [htwo]
  exact nearest_of_lt hk (by omega)

theorem nearest_natCast {n : ℕ} (h : n ≤ 2 ^ 53) : nearest n = n := by
  simpa using nearest_of_le (m := n) (e := 0) (by rw [Nat.abs_cast]; exact_mod_cast h) (by norm_num)

theorem abs_roundEven_exponent_le (q : ℚ) : |roundEven (q / 2 ^ exponent q)| ≤ 2 ^ 53 := by
  have hlt : |q / 2 ^ exponent q| ≤ 2 ^ 53 := by
    rw [abs_div, abs_of_pos (two_zpow_pos _), div_le_iff₀ (two_zpow_pos _)]
    refine (abs_lt_zpow_exponent q).le.trans_eq ?_
    rw [add_comm, zpow_add₀ two_ne_zero]
    rfl
  obtain ⟨hlo, hhi⟩ := abs_le.1 hlt
  refine abs_le.2 ⟨le_roundEven ?_, roundEven_le ?_⟩
  · exact_mod_cast hlo
  · exact_mod_cast hhi

/-- The quotient that is rounded has all 53 digits, unless the number is next to zero. -/
theorem two_pow_le_roundEven {q : ℚ} (hpos : 0 < q) (h : -1074 < exponent q) :
    2 ^ 52 ≤ roundEven (q / 2 ^ exponent q) := by
  have hlog : exponent q = Int.log 2 q - 52 := by
    rw [exponent, abs_of_pos hpos] at h ⊢
    omega
  have hlow : (2 : ℚ) ^ Int.log 2 q ≤ q := by
    exact_mod_cast Int.zpow_log_le_self (b := 2) one_lt_two hpos
  refine le_roundEven ?_
  rw [le_div_iff₀ (two_zpow_pos _), hlog]
  refine le_trans (le_of_eq ?_) hlow
  rw [zpow_sub₀ two_ne_zero]
  push_cast
  field_simp

theorem nearest_nearest (q : ℚ) : nearest (nearest q) = nearest q :=
  nearest_of_le (abs_roundEven_exponent_le q) (le_exponent q)

theorem nearest_zero : nearest 0 = 0 := by
  simpa using nearest_of_lt (m := 0) (e := 0) (by norm_num) (by norm_num)

theorem nearest_neg (q : ℚ) : nearest (-q) = -nearest q := by
  rw [nearest, exponent_neg, neg_div, roundEven_neg, Int.cast_neg, neg_mul, nearest]

/-! ## Order -/

/-- A power of two that is not too small is not passed, neither from below nor from above. -/
theorem nearest_le_zpow {q : ℚ} {k : ℤ} (hq : q ≤ 2 ^ k) (hk : exponent q ≤ k) :
    nearest q ≤ 2 ^ k := by
  rw [two_zpow_eq_mul hk] at hq ⊢
  refine mul_le_mul_of_nonneg_right ?_ (two_zpow_pos _).le
  exact_mod_cast roundEven_le ((div_le_iff₀ (two_zpow_pos _)).2 hq)

theorem zpow_le_nearest {q : ℚ} {k : ℤ} (hq : 2 ^ k ≤ q) (hk : exponent q ≤ k) :
    2 ^ k ≤ nearest q := by
  rw [two_zpow_eq_mul hk] at hq ⊢
  refine mul_le_mul_of_nonneg_right ?_ (two_zpow_pos _).le
  exact_mod_cast le_roundEven ((le_div_iff₀ (two_zpow_pos _)).2 hq)

theorem nearest_nonneg {q : ℚ} (h : 0 ≤ q) : 0 ≤ nearest q := by
  refine mul_nonneg ?_ (two_zpow_pos _).le
  have hdiv : ((0 : ℤ) : ℚ) ≤ q / 2 ^ exponent q := by
    rw [Int.cast_zero]
    exact div_nonneg h (two_zpow_pos _).le
  exact_mod_cast le_roundEven hdiv

theorem nearest_mono_of_nonneg {p q : ℚ} (hp : 0 ≤ p) (h : p ≤ q) : nearest p ≤ nearest q := by
  rcases hp.eq_or_lt with rfl | hpos
  · rw [nearest_zero]
    exact nearest_nonneg h
  have hlog : Int.log 2 |p| ≤ Int.log 2 |q| := by
    rw [abs_of_pos hpos, abs_of_pos (hpos.trans_le h)]
    exact Int.log_mono_right hpos h
  have hexp : exponent p ≤ exponent q := by
    unfold exponent
    omega
  rcases hexp.eq_or_lt with heq | hlt
  · rw [nearest, nearest, heq]
    refine mul_le_mul_of_nonneg_right ?_ (two_zpow_pos _).le
    exact_mod_cast roundEven_mono (div_le_div_of_nonneg_right h (two_zpow_pos _).le)
  · -- a power of two lies between them
    have hq : exponent q = Int.log 2 |q| - 52 := by
      unfold exponent at hlt ⊢
      omega
    have hlow : (2 : ℚ) ^ Int.log 2 |q| ≤ q := by
      rw [abs_of_pos (hpos.trans_le h)]
      exact_mod_cast Int.zpow_log_le_self (b := 2) one_lt_two (hpos.trans_le h)
    have hhigh : p ≤ 2 ^ Int.log 2 |q| := by
      refine (le_abs_self p).trans ((abs_lt_zpow_exponent p).le.trans ?_)
      exact zpow_le_zpow_right₀ one_le_two (by omega)
    exact (nearest_le_zpow hhigh (by omega)).trans (zpow_le_nearest hlow (by omega))

theorem nearest_mono {p q : ℚ} (h : p ≤ q) : nearest p ≤ nearest q := by
  rcases le_total 0 p with hp | hp
  · exact nearest_mono_of_nonneg hp h
  rcases le_total 0 q with hq | hq
  · have hnonpos : nearest p ≤ 0 := by
      rw [← neg_nonneg, ← nearest_neg]
      exact nearest_nonneg (neg_nonneg.2 hp)
    exact hnonpos.trans (nearest_nonneg hq)
  · rw [← neg_le_neg_iff, ← nearest_neg, ← nearest_neg]
    exact nearest_mono_of_nonneg (neg_nonneg.2 hq) (neg_le_neg h)

/-! ## Errors -/

theorem abs_nearest_sub_le (q : ℚ) : |nearest q - q| ≤ 2 ^ (exponent q - 1) := by
  have h := mul_le_mul_of_nonneg_right (abs_roundEven_sub_le (q / 2 ^ exponent q))
    (two_zpow_pos (exponent q)).le
  rw [← abs_of_pos (two_zpow_pos (exponent q)), ← abs_mul, abs_of_pos (two_zpow_pos (exponent q)),
    sub_mul, div_mul_cancel₀ _ (two_zpow_pos (exponent q)).ne'] at h
  refine h.trans_eq ?_
  rw [zpow_sub_one₀ two_ne_zero, one_div, mul_comm]

/-- The least positive number. -/
def least : ℚ := 2 ^ (-1074 : ℤ)

/-- The number is a multiple of the least one. -/
def OnGrid (q : ℚ) : Prop := ∃ m : ℤ, q = m * least

theorem least_pos : 0 < least := two_zpow_pos _

theorem onGrid_nearest (q : ℚ) : OnGrid (nearest q) := by
  refine ⟨roundEven (q / 2 ^ exponent q) * 2 ^ (exponent q - -1074).toNat, ?_⟩
  rw [Int.cast_mul, mul_assoc, least, ← two_zpow_eq_mul (le_exponent q)]
  rfl

theorem OnGrid.sub {p q : ℚ} (hp : OnGrid p) (hq : OnGrid q) : OnGrid (p - q) := by
  obtain ⟨m, rfl⟩ := hp
  obtain ⟨k, rfl⟩ := hq
  exact ⟨m - k, by push_cast; ring⟩

theorem OnGrid.natCast_mul {q : ℚ} (hq : OnGrid q) (n : ℕ) : OnGrid (n * q) := by
  obtain ⟨m, rfl⟩ := hq
  exact ⟨n * m, by push_cast; ring⟩

/-- A small number on the grid is not changed. -/
theorem OnGrid.nearest_eq {q : ℚ} (hq : OnGrid q) (h : |q| ≤ 2 ^ 53 * least) : nearest q = q := by
  obtain ⟨m, rfl⟩ := hq
  rw [abs_mul, abs_of_pos least_pos] at h
  have hm : |(m : ℚ)| ≤ 2 ^ 53 := le_of_mul_le_mul_right h least_pos
  exact nearest_of_le (by exact_mod_cast hm) le_rfl

/-- Above the least power the error is relative. -/
theorem abs_nearest_sub_le_of_lt {q : ℚ} (h0 : q ≠ 0) (h : -1074 < exponent q) :
    |nearest q - q| ≤ |q| / 2 ^ 53 := by
  refine (abs_nearest_sub_le q).trans ?_
  have hexp : exponent q = Int.log 2 |q| - 52 := by
    unfold exponent at h ⊢
    omega
  have hlow : (2 : ℚ) ^ Int.log 2 |q| ≤ |q| := by
    exact_mod_cast Int.zpow_log_le_self (b := 2) one_lt_two (abs_pos.2 h0)
  rw [le_div_iff₀ (by norm_num), hexp, ← zpow_natCast, ← zpow_add₀ two_ne_zero]
  refine le_trans (zpow_le_zpow_right₀ one_le_two ?_) hlow
  omega

/-- On the grid the error is relative. -/
theorem OnGrid.abs_nearest_sub_le {q : ℚ} (hq : OnGrid q) : |nearest q - q| ≤ |q| / 2 ^ 53 := by
  rcases (le_exponent q).eq_or_lt with heq | hlt
  · have hsmall : |q| ≤ 2 ^ 53 * least := by
      refine (abs_lt_zpow_exponent q).le.trans_eq ?_
      rw [← heq, zpow_add₀ two_ne_zero, mul_comm]
      rfl
    rw [hq.nearest_eq hsmall, sub_self, abs_zero]
    positivity
  · rcases eq_or_ne q 0 with rfl | h0
    · rw [nearest_zero, sub_self, abs_zero, zero_div]
    · exact abs_nearest_sub_le_of_lt h0 hlt

/-- Elsewhere it is relative but for half the least number. -/
theorem abs_nearest_sub_le_add (q : ℚ) : |nearest q - q| ≤ |q| / 2 ^ 53 + least / 2 := by
  have hleast := least_pos
  rcases (le_exponent q).eq_or_lt with heq | hlt
  · have hhalf : |nearest q - q| ≤ least / 2 := by
      refine (FieldWalk.Numeral.abs_nearest_sub_le q).trans_eq ?_
      rw [← heq, zpow_sub_one₀ two_ne_zero]
      rfl
    have hrel : 0 ≤ |q| / 2 ^ 53 := by positivity
    linarith
  · rcases eq_or_ne q 0 with rfl | h0
    · rw [nearest_zero, sub_self, abs_zero, zero_div]
      linarith
    · exact (abs_nearest_sub_le_of_lt h0 hlt).trans (by linarith)

/-! ## Bounds that rounding keeps -/

section
variable {q : ℚ} {k : ℤ}

theorem nearest_zpow (hk : -1074 ≤ k) : nearest (2 ^ k) = 2 ^ k := by
  have h := nearest_of_lt (m := 1) (e := k) (by norm_num) hk
  rwa [Int.cast_one, one_mul] at h

theorem abs_nearest_le (hk : -1074 ≤ k) (hq : |q| ≤ 2 ^ k) : |nearest q| ≤ 2 ^ k := by
  obtain ⟨hlow, hhigh⟩ := abs_le.1 hq
  refine abs_le.2 ⟨?_, (nearest_mono hhigh).trans_eq (nearest_zpow hk)⟩
  rw [← nearest_zpow hk, ← nearest_neg]
  exact nearest_mono hlow

/-- What is added to a power of two is not seen if it is too small. -/
theorem nearest_le_of_lt (hk : -1022 ≤ k) (hq : q < 2 ^ k + 2 ^ (k - 53)) : nearest q ≤ 2 ^ k := by
  have hpow : (0 : ℚ) < 2 ^ (k - 52) := two_zpow_pos _
  rcases le_or_gt q (2 ^ k) with hle | hgt
  · exact (nearest_mono hle).trans_eq (nearest_zpow (by omega))
  have hpos : 0 < q := (two_zpow_pos k).trans hgt
  have hfull : (2 : ℚ) ^ k = 2 ^ 52 * 2 ^ (k - 52) := by
    rw [← zpow_natCast, ← zpow_add₀ two_ne_zero]
    congr 1
    norm_num
  have hhalf : (2 : ℚ) ^ (k - 53) = 1 / 2 * 2 ^ (k - 52) := by
    rw [show k - 53 = k - 52 - 1 by ring, zpow_sub_one₀ two_ne_zero]
    ring
  have hexp : exponent q = k - 52 := by
    have hlog : Int.log 2 q = k := by
      refine log_eq hgt.le ?_
      rw [zpow_add_one₀ two_ne_zero, hfull]
      rw [hfull, hhalf] at hq
      linarith
    rw [exponent, abs_of_pos hpos, hlog]
    omega
  rw [nearest, hexp, hfull]
  refine mul_le_mul_of_nonneg_right ?_ hpow.le
  have hround : roundEven (q / 2 ^ (k - 52)) = (2 ^ 52 : ℤ) := by
    refine roundEven_eq (.inl ?_)
    rw [abs_lt, lt_sub_iff_add_lt, sub_lt_iff_lt_add, lt_div_iff₀ hpow, div_lt_iff₀ hpow]
    rw [hfull] at hgt
    rw [hfull, hhalf] at hq
    push_cast
    constructor <;> linarith
  rw [hround]
  norm_num

theorem abs_nearest_le_of_lt (hk : -1022 ≤ k) (hq : |q| < 2 ^ k + 2 ^ (k - 53)) :
    |nearest q| ≤ 2 ^ k := by
  obtain ⟨hlow, hhigh⟩ := abs_lt.1 hq
  refine abs_le.2 ⟨?_, nearest_le_of_lt hk hhigh⟩
  have h := nearest_le_of_lt hk (q := -q) (by linarith)
  rw [nearest_neg] at h
  linarith

theorem zpow_le_largest (hk : k ≤ 1023) : (2 : ℚ) ^ k ≤ largest := by
  have htop : (2 : ℚ) ^ (1023 : ℤ) = 2 ^ 52 * 2 ^ 971 := by
    rw [← pow_add]
    rfl
  refine (zpow_le_zpow_right₀ one_le_two hk).trans ?_
  rw [htop]
  exact mul_le_mul_of_nonneg_right (by norm_num) (pow_pos two_pos _).le

end

theorem largest_lt : largest < 2 ^ (1024 : ℤ) := by
  have htop : (2 : ℚ) ^ (1024 : ℤ) = 2 ^ 53 * 2 ^ 971 := by
    rw [← pow_add]
    rfl
  rw [htop]
  exact mul_lt_mul_of_pos_right (by norm_num) (pow_pos two_pos _)

/-! ## Doubles -/

/-- Doubles: to the nearest, and none beyond the largest. -/
def Rounding.nearest : Rounding where
  round q := if |Numeral.nearest q| ≤ largest then some (Numeral.nearest q) else none
  round_zero := by
    rw [nearest_zero, abs_zero, if_pos (by norm_num [largest])]
  round_round {q p} h := by
    split at h
    · rename_i hle
      cases h
      rw [nearest_nearest, if_pos hle]
    · cases h
  round_neg q := by
    rw [nearest_neg, abs_neg]
    split <;> rfl

end FieldWalk.Numeral
