import FieldWalk.Proofs.Numeral.Integer
import FieldWalk.Proofs.Playback.Steady
/-!
# A replay on doubles

The debt of a replay stays below a bound however long it lasts: near the bound the time between two
ticks is too small to be seen, and what is paid is no more than twice what is owed. So doubles are numbers
that a replay can rely on, as long as the clock has not counted `2^63` milliseconds.
-/

namespace FieldWalk.Playback

open Numeral Numeral.Double

/-! ## Rates on offer -/

theorem value_of_offered {fps : Number Float} (h : Offered fps) :
    ∃ n ∈ frameRates, fps.value? = some (n : ℚ) := by
  obtain ⟨n, hn, he⟩ := List.any_eq_true.1 h
  exact ⟨n, hn, (Number.eqInt_iff fps n).1 he⟩

/-- A rate on offer is read as it is. -/
theorem scalar_of_offered {fps : Number Float} (h : Offered fps) :
    ∃ n ∈ frameRates, ∃ w, fps.toScalar? = some w ∧ doubleValue? w = some (n : ℚ) := by
  obtain ⟨n, hn, hvalue⟩ := value_of_offered h
  refine ⟨n, hn, ?_⟩
  cases fps with
  | real w => exact ⟨w, rfl, hvalue⟩
  | int m =>
    obtain rfl : m = n := by exact_mod_cast Option.some.inj hvalue
    have hsmall : ∀ n ∈ frameRates, n ≤ 2 ^ 10 := by decide
    obtain ⟨w, hw, hq⟩ := ofInt?_eq (n := n) (lt_overflow ((hsmall n hn).trans (by norm_num)))
    rw [Int.cast_natCast, nearest_natCast ((hsmall n hn).trans (by norm_num))] at hq
    exact ⟨w, hw, hq⟩

/-- The time of a frame is at least a millisecond and at most a second. -/
theorem interval_of_offered {fps : Number Float} (h : Offered fps) :
    ∃ v p, (Player.intervalOf fps : Except (Fault Float) Float) = .ok v ∧
      doubleValue? v = some p ∧ 1 ≤ p ∧ p ≤ 1000 := by
  obtain ⟨n, hn, w, hw, hq⟩ := scalar_of_offered h
  have hbounds : ∀ n ∈ frameRates, 1 ≤ n ∧ n ≤ 1000 := by decide
  obtain ⟨hone, hthousand⟩ := hbounds n hn
  have hpos : (0 : ℚ) < n := by exact_mod_cast hone
  have hwhole : nearest (1000 : ℚ) = 1000 := nearest_natCast (n := 1000) (by norm_num)
  have hdividend : doubleValue? (Scalar.ofNat 1000) = some (1000 : ℚ) :=
    (ofDecimal_eq (n := 1000) (by norm_num)).trans (congrArg some hwhole)
  have hlow : 1 ≤ nearest (1000 / n) := by
    have h : (1 : ℚ) ≤ 1000 / n := (one_le_div hpos).2 (by exact_mod_cast hthousand)
    exact (nearest_natCast (n := 1) (by norm_num)).symm.trans_le (nearest_mono (by exact_mod_cast h))
  have hhigh : nearest (1000 / n) ≤ 1000 :=
    (nearest_mono (div_le_self (by norm_num) (by exact_mod_cast hone))).trans_eq hwhole
  refine ⟨Scalar.ofNat 1000 / w, nearest (1000 / n), ?_, doubleValue?_div hdividend hq hpos.ne' ?_,
    hlow, hhigh⟩
  · rw [Player.intervalOf, hw]
  · rw [abs_of_nonneg (zero_le_one.trans hlow)]
    have hlargest : (2 : ℚ) ^ (10 : ℤ) ≤ largest := zpow_le_largest (by norm_num)
    exact hhigh.trans (le_trans (by norm_num) hlargest)

/-! ## Debts -/

theorem abs_quotient_le {p q : ℚ} (h1 : 1 ≤ p) (hq : |q| ≤ 2 ^ (120 : ℤ)) :
    |nearest (q / p)| ≤ 2 ^ (120 : ℤ) := by
  refine abs_nearest_le (by norm_num) ?_
  rw [abs_div, abs_of_pos (zero_lt_one.trans_le h1)]
  exact (div_le_self (abs_nonneg q) h1).trans hq

/-- The frames in a debt are counted by the quotient, rounded. -/
theorem due_eq {v debt : Float} {p q : ℚ} (hv : doubleValue? v = some p) (h1 : 1 ≤ p)
    (hd : doubleValue? debt = some q) (hq : |q| ≤ 2 ^ (120 : ℤ)) :
    (Player.due v debt : Except (Fault Float) ℤ) = .ok ⌊nearest (q / p)⌋ := by
  have hpos : 0 < p := zero_lt_one.trans_le h1
  have hvalue := doubleValue?_div hd hv hpos.ne'
    ((abs_quotient_le h1 hq).trans (zpow_le_largest (by norm_num)))
  have hzero : (Scalar.compareInt v 0 == some Ordering.eq) = false := by
    rw [compareInt_eq hv, Int.cast_zero, compare_gt_iff_gt.2 hpos]
    rfl
  rw [Player.due, hzero, if_neg Bool.false_ne_true, floor_eq hvalue]

/-- Less than half a frame is not counted as one. -/
theorem half_le_of_one_le_nearest {q : ℚ} (h : 1 ≤ nearest q) : 1 / 2 ≤ q := by
  by_contra hlt
  have hhalf := nearest_zpow (k := -1) (by norm_num)
  rw [zpow_neg_one, ← one_div] at hhalf
  have := nearest_mono (not_le.1 hlt).le
  linarith

/-- What is paid for whole frames is no more than twice what is owed. -/
theorem paid_le {p q : ℚ} (h1 : 1 ≤ p) (h1000 : p ≤ 1000) {n : ℤ} (hn : 1 ≤ n)
    (hle : (n : ℚ) ≤ nearest (q / p)) :
    0 ≤ nearest (nearest n * p) ∧ nearest (nearest n * p) ≤ 2 * q := by
  have hpos : 0 < p := zero_lt_one.trans_le h1
  have hone : (1 : ℚ) ≤ n := by exact_mod_cast hn
  have hleast : least ≤ 1 / 2 ^ 20 := by
    rw [least, one_div, ← zpow_natCast, ← zpow_neg]
    exact zpow_le_zpow_right₀ one_le_two (by norm_num)
  have hhalf : 1 / 2 ≤ q / p := half_le_of_one_le_nearest (hone.trans hle)
  have hq : 1 / 2 ≤ q := by
    rw [le_div_iff₀ hpos] at hhalf
    linarith
  have hfixed : nearest n ≤ nearest (q / p) := by
    rw [← nearest_nearest (q / p)]
    exact nearest_mono hle
  have hnonneg : 0 ≤ nearest n := nearest_nonneg (by linarith)
  have hrel : nearest (q / p) ≤ q / p + (q / p / 2 ^ 53 + least / 2) := by
    have h := (abs_le.1 (abs_nearest_sub_le_add (q / p))).2
    rw [abs_of_nonneg (by linarith : 0 ≤ q / p)] at h
    linarith
  have hproduct : nearest n * p ≤ 3 / 2 * q := by
    have h := mul_le_mul_of_nonneg_right (hfixed.trans hrel) hpos.le
    have hcancel : q / p * p = q := div_mul_cancel₀ q hpos.ne'
    have hrounded : least / 2 * p ≤ 1 / 2 ^ 20 * 1000 := by
      refine mul_le_mul ?_ h1000 hpos.le (by norm_num)
      linarith [least_pos]
    have hexpand : (q / p + (q / p / 2 ^ 53 + least / 2)) * p = q + q / 2 ^ 53 + least / 2 * p := by
      rw [add_mul, add_mul, hcancel, div_right_comm, div_mul_cancel₀ _ hpos.ne', add_assoc]
    rw [hexpand] at h
    linarith
  have hproduct0 : 0 ≤ nearest n * p := mul_nonneg hnonneg hpos.le
  refine ⟨nearest_nonneg hproduct0, ?_⟩
  have h := (abs_le.1 (abs_nearest_sub_le_add (nearest n * p))).2
  rw [abs_of_nonneg hproduct0] at h
  linarith

/-- The double stands for a number that is not too large to be a debt. -/
def Moderate (v : Float) : Prop :=
  ∃ q, doubleValue? v = some q ∧ |q| ≤ 2 ^ (120 : ℤ)

theorem moderate_zero : Moderate (Scalar.ofNat 0) := by
  refine ⟨0, ?_, by rw [abs_zero]; positivity⟩
  have h := ofDecimal_eq (n := 0) (by norm_num)
  rwa [Int.cast_zero, nearest_zero] at h

/-- The times of a clock are far below the bound. -/
theorem value_of_time {N : ℕ} (hN : N < 2 ^ 63) {t : ℤ} (ht : t.natAbs ≤ N) :
    doubleValue? (Scalar.ofDecimal t 0) = some (nearest t) ∧ |nearest t| ≤ 2 ^ (63 : ℤ) := by
  refine ⟨ofDecimal_eq (by omega), abs_nearest_le (by norm_num) ?_⟩
  have : |t| ≤ 2 ^ 63 := by
    rw [Int.abs_eq_natAbs]
    omega
  exact_mod_cast this

/-- The time between two ticks is less than what rounding takes away next to the bound. -/
theorem Moderate.late {N : ℕ} (hN : N < 2 ^ 63) {debt : Float} (h : Moderate debt) {s t : ℤ}
    (hs : s.natAbs ≤ N) (ht : t.natAbs ≤ N) :
    Moderate (debt + (Scalar.ofDecimal t 0 - Scalar.ofDecimal s 0)) := by
  obtain ⟨q, hd, hq⟩ := h
  obtain ⟨hs, hs'⟩ := value_of_time hN hs
  obtain ⟨ht, ht'⟩ := value_of_time hN ht
  have hdiff : |nearest (nearest t - nearest s)| ≤ 2 ^ (64 : ℤ) := by
    refine abs_nearest_le (by norm_num) ((abs_sub _ _).trans ?_)
    have : (2 : ℚ) ^ (64 : ℤ) = 2 ^ (63 : ℤ) + 2 ^ (63 : ℤ) := by norm_num
    linarith
  have hsum : |nearest (q + nearest (nearest t - nearest s))| ≤ 2 ^ (120 : ℤ) := by
    refine abs_nearest_le_of_lt (by norm_num) ((abs_add_le _ _).trans_lt ?_)
    have : (2 : ℚ) ^ (64 : ℤ) < 2 ^ (120 - 53 : ℤ) := by norm_num
    linarith
  have hsub := doubleValue?_sub ht hs (hdiff.trans (zpow_le_largest (by norm_num)))
  exact ⟨_, doubleValue?_add hd hsub (hsum.trans (zpow_le_largest (by norm_num))), hsum⟩

section
variable {v : Float} {p : ℚ} (hv : doubleValue? v = some p) (h1 : 1 ≤ p) (h1000 : p ≤ 1000)
include hv h1 h1000

/-- A debt that is paid at twice its size has only changed its sign. -/
theorem Moderate.paid {debt : Float} (h : Moderate debt) {n : ℤ} (hn : 1 ≤ n)
    (hdue : (Player.due v debt : Except (Fault Float) ℤ) = .ok n) :
    Moderate (debt - (Scalar.ofInt? n).getD Scalar.nan * v) := by
  obtain ⟨q, hd, hq⟩ := h
  have hlargest : (2 : ℚ) ^ (121 : ℤ) ≤ largest := zpow_le_largest (by norm_num)
  rw [due_eq hv h1 hd hq] at hdue
  have hfloor : (n : ℚ) ≤ nearest (q / p) := by
    rw [← Except.ok.inj hdue]
    exact Int.floor_le _
  obtain ⟨hpaid0, hpaid⟩ := paid_le h1 h1000 hn hfloor
  have hsmall : n.natAbs ≤ 2 ^ 120 := by
    have h : (n : ℚ) ≤ 2 ^ (120 : ℤ) := hfloor.trans ((le_abs_self _).trans (abs_quotient_le h1 hq))
    have h' : n ≤ 2 ^ 120 := by exact_mod_cast h
    omega
  obtain ⟨w, hw, hwn⟩ := ofInt?_eq (lt_overflow hsmall)
  have hpos : 0 ≤ q := by linarith
  rw [abs_of_nonneg hpos] at hq
  have hproduct : |nearest (nearest n * p)| ≤ 2 ^ (121 : ℤ) := by
    rw [abs_of_nonneg hpaid0, show (121 : ℤ) = 120 + 1 by norm_num, zpow_add_one₀ two_ne_zero]
    linarith
  have hmul := doubleValue?_mul hwn hv (hproduct.trans hlargest)
  have hrest : |nearest (q - nearest (nearest n * p))| ≤ 2 ^ (120 : ℤ) := by
    refine abs_nearest_le (by norm_num) (abs_le.2 ?_)
    constructor <;> linarith
  rw [hw, Option.getD_some]
  exact ⟨_, doubleValue?_sub hd hmul (hrest.trans (zpow_le_largest (by norm_num))), hrest⟩

/-- The debts of a replay stay below the bound. -/
theorem moderate_of_owed {N : ℕ} (hN : N < 2 ^ 63) {debt : Float} (h : Owed N v debt) :
    Moderate debt := by
  induction h with
  | nothing => exact moderate_zero
  | late hs ht _ ih => exact ih.late hN hs ht
  | paid hn hdue _ ih => exact ih.paid hv h1 h1000 hn hdue

end

/-- Doubles are steady as long as the clock has counted less than `2^63` milliseconds. -/
theorem steady_double {N : ℕ} (hN : N < 2 ^ 63) : Steady Float N where
  positive fps h := by
    obtain ⟨n, hn, hvalue⟩ := value_of_offered h
    have hpos : ∀ n ∈ frameRates, 0 < n := by decide
    rw [Bool.eq_false_iff, Ne, Number.le_iff hvalue (rfl : (Number.int 0).value? = some ((0 : ℤ) : ℚ)),
      Int.cast_zero, not_le]
    exact_mod_cast hpos n hn
  interval fps h := by
    obtain ⟨v, -, hv, -⟩ := interval_of_offered h
    exact ⟨v, hv⟩
  due fps v debt h hv howed := by
    obtain ⟨v', p, hv', hp, h1, h1000⟩ := interval_of_offered h
    rw [hv] at hv'
    cases hv'
    obtain ⟨q, hd, hq⟩ := moderate_of_owed hp h1 h1000 hN howed
    exact ⟨_, due_eq hp h1 hd hq⟩

end FieldWalk.Playback
