import FieldWalk.Proofs.Numeral.Order
import FieldWalk.Proofs.Session.Outcome
/-!
# The points of an axis of doubles

The points of an axis keep their order, each rounding does. So an axis leads from one end to the other
exactly if its width does not overflow and the point before the last is not put beyond the end.
-/

namespace FieldWalk.Surface

open Numeral Numeral.Extended

/-! ## Axes -/

section
variable {α : Type} [Scalar α]

/-- The points begin at one end and end at the other, do not decrease, and are finite and between the
ends. -/
structure Spans (xs : List α) (a b : α) : Prop where
  head : xs.head? = some a
  last : xs.getLast? = some b
  sorted : xs.Pairwise fun x y => Scalar.le x y = true
  within : ∀ x ∈ xs, Scalar.isFinite x = true ∧ Scalar.le a x = true ∧ Scalar.le x b = true

/-- All points but the last are computed. -/
theorem axis_succ (a b : α) {n : ℕ} (hn : 1 ≤ n) :
    axis a b (n + 1) = (List.range n).map (axisPoint a b n) ++ [b] := by
  unfold axis
  rw [List.range_succ, List.map_append, List.map_singleton, Nat.add_sub_cancel,
    if_pos ⟨Nat.lt_succ_of_le hn, rfl⟩]
  congr 1
  refine List.map_congr_left fun i hi => if_neg ?_
  rintro ⟨-, rfl⟩
  exact lt_irrefl _ (List.mem_range.1 hi)

end

/-! ## Points -/

/-- How far a point lies from the lower end, of an axis of a width with `n` steps. A step that is rounded
to zero is not taken. -/
def offset (d : ℚ) (n i : ℕ) : ℚ :=
  if nearest (d / n) = 0 then nearest (i / n) * d else i * nearest (d / n)

theorem offset_zero (d : ℚ) (n : ℕ) : offset d n 0 = 0 := by
  unfold offset
  split
  · rw [Nat.cast_zero, zero_div, nearest_zero, zero_mul]
  · rw [Nat.cast_zero, zero_mul]

theorem offset_mono {d : ℚ} (hd : 0 ≤ d) (n : ℕ) {i j : ℕ} (h : i ≤ j) :
    offset d n i ≤ offset d n j := by
  have hij : (i : ℚ) ≤ j := Nat.cast_le.2 h
  unfold offset
  split
  · exact mul_le_mul_of_nonneg_right (nearest_mono (div_le_div_of_nonneg_right hij n.cast_nonneg)) hd
  · exact mul_le_mul_of_nonneg_right hij (nearest_nonneg (div_nonneg hd n.cast_nonneg))

/-- A part of the way is no more than all of it. -/
theorem nearest_part_le_one {n i : ℕ} (hi : i ≤ n) : nearest (i / n) ≤ 1 := by
  have hpart : (i : ℚ) / n ≤ (1 : ℕ) := by
    rw [Nat.cast_one]
    exact div_le_one_of_le₀ (Nat.cast_le.2 hi) n.cast_nonneg
  have h := nearest_mono hpart
  rwa [nearest_natCast (by norm_num), Nat.cast_one] at h

theorem natCast_le_largest {n : ℕ} (h : n ≤ 2 ^ 53) : (n : ℚ) ≤ largest :=
  calc (n : ℚ) ≤ 2 ^ 53 := by exact_mod_cast h
    _ ≤ (2 ^ 53 - 1) * 2 ^ 1 := by norm_num
    _ ≤ largest := mul_le_mul_of_nonneg_left (pow_le_pow_right₀ one_le_two (by norm_num)) (by norm_num)

theorem round_natCast {n : ℕ} (h : n ≤ 2 ^ 53) : Rounding.nearest.round n = some (n : ℚ) := by
  have hle : |nearest (n : ℚ)| ≤ largest := by
    rw [nearest_natCast h, Nat.abs_cast]
    exact natCast_le_largest h
  rw [round_nearest_of_le hle, nearest_natCast h]

theorem ofNat_eq {n : ℕ} (h : n ≤ 2 ^ 53) :
    (Scalar.ofNat n : Extended .nearest) = finite n (round_natCast h) := by
  have hdecimal : (((n : ℤ) : ℚ) * 10 ^ (0 : ℤ)) = n := by simp
  show ofRat .nearest (((n : ℤ) : ℚ) * 10 ^ (0 : ℤ)) = _
  rw [hdecimal]
  exact ofRat_of_some (round_natCast h)

theorem isZero_finite {r : Rounding} {q : ℚ} {hq : r.round q = some q} :
    isZero (finite q hq) = true ↔ q = 0 := by
  show (some (compare q ((0 : ℤ) : ℚ)) == some Ordering.eq) = true ↔ q = 0
  rw [beq_iff_eq, Option.some_inj, compare_eq_iff_eq, Int.cast_zero]

section
variable {a b : ℚ} {ha : Rounding.nearest.round a = some a} {hb : Rounding.nearest.round b = some b}
  {n i : ℕ}

theorem div_eq {p q : ℚ} {hp : Rounding.nearest.round p = some p}
    {hq : Rounding.nearest.round q = some q} (hq0 : q ≠ 0) :
    finite p hp / finite q hq = ofRat .nearest (p / q) := if_neg hq0

theorem sub_eq : (finite b hb - finite a ha : Extended .nearest) = ofRat .nearest (b - a) := by
  rw [sub_eq_add_neg b a]
  rfl

theorem axisPoint_eq (hab : a ≤ b) (hw : |nearest (b - a)| ≤ largest) (hn : 1 ≤ n)
    (hn' : n ≤ 2 ^ 53) (hi : i ≤ n) :
    axisPoint (finite a ha) (finite b hb) n i =
      ofRat .nearest (offset (nearest (b - a)) n i) + finite a ha := by
  have hn0 : (n : ℚ) ≠ 0 := Nat.cast_ne_zero.2 (by omega)
  have hn1 : (1 : ℚ) ≤ n := Nat.one_le_cast.2 hn
  have hdelta : (finite b hb - finite a ha : Extended .nearest) =
      finite (nearest (b - a)) (Rounding.nearest.round_round (round_nearest_of_le hw)) := by
    rw [sub_eq, ofRat_of_some (round_nearest_of_le hw)]
  have hd : 0 ≤ nearest (b - a) := nearest_nonneg (sub_nonneg.2 hab)
  have hs : |nearest (nearest (b - a) / n)| ≤ largest := by
    rw [abs_of_nonneg (nearest_nonneg (div_nonneg hd n.cast_nonneg))]
    refine (nearest_mono (div_le_self hd hn1)).trans ?_
    rw [nearest_nearest]
    exact (le_abs_self _).trans hw
  unfold axisPoint
  simp only [hdelta, ofNat_eq hn', ofNat_eq (hi.trans hn'), div_eq hn0]
  rw [if_neg (by omega), ofRat_of_some (round_nearest_of_le hs)]
  unfold offset
  by_cases hzero : nearest (nearest (b - a) / n) = 0
  · have hone : |nearest (i / n)| ≤ largest := by
      rw [abs_of_nonneg (nearest_nonneg (div_nonneg i.cast_nonneg n.cast_nonneg))]
      refine (nearest_part_le_one hi).trans ?_
      exact_mod_cast natCast_le_largest (n := 1) (by norm_num)
    rw [if_pos (isZero_finite.2 hzero), if_pos hzero, ofRat_of_some (round_nearest_of_le hone)]
    rfl
  · rw [if_neg (mt isZero_finite.1 hzero), if_neg hzero]
    rfl

theorem isFinite_sub_iff :
    Scalar.isFinite (finite b hb - finite a ha) = true ↔ |nearest (b - a)| ≤ largest := by
  rw [sub_eq]
  by_cases h : |nearest (b - a)| ≤ largest
  · rw [ofRat_of_some (round_nearest_of_le h)]
    exact iff_of_true rfl h
  · rw [ofRat_of_none (round_nearest_eq_none h)]
    exact iff_of_false Bool.false_ne_true h

/-- Nothing times an infinite step has no value. -/
theorem axisPoint_zero_of_overflow (hw : ¬ |nearest (b - a)| ≤ largest) (hn : 1 ≤ n)
    (hn' : n ≤ 2 ^ 53) : axisPoint (finite a ha) (finite b hb) n 0 = undefined := by
  have hdelta : (finite b hb - finite a ha : Extended .nearest) = infinite (b - a < 0) := by
    rw [sub_eq, ofRat_of_none (round_nearest_eq_none hw)]
  unfold axisPoint
  simp only [hdelta, ofNat_eq hn', ofNat_eq (n.zero_le.trans hn')]
  rw [if_neg (by omega)]
  generalize decide (b - a < 0) = m
  have hstep : (infinite m / finite (n : ℚ) (round_natCast hn') : Extended .nearest) =
      infinite (m != decide ((n : ℚ) < 0)) := rfl
  rw [hstep]
  generalize (m != decide ((n : ℚ) < 0)) = k
  have hzero : isZero (infinite k : Extended .nearest) = false := by
    cases k <;> rfl
  have hnone : (finite ((0 : ℕ) : ℚ) (round_natCast (Nat.zero_le _)) * infinite k :
      Extended .nearest) = undefined := if_pos Nat.cast_zero
  rw [hzero, if_neg Bool.false_ne_true, hnone]
  rfl

theorem axisPoint_zero (hab : a ≤ b) (hw : |nearest (b - a)| ≤ largest) (hn : 1 ≤ n)
    (hn' : n ≤ 2 ^ 53) : axisPoint (finite a ha) (finite b hb) n 0 = finite a ha := by
  have h0 : Rounding.nearest.round (0 + a) = some a := by rw [zero_add, ha]
  rw [axisPoint_eq hab hw hn hn' n.zero_le, offset_zero, ofRat_of_some Rounding.nearest.round_zero]
  exact ofRat_of_some h0

/-- The points keep their order. -/
theorem axisPoint_mono (hab : a ≤ b) (hw : |nearest (b - a)| ≤ largest) (hn : 1 ≤ n)
    (hn' : n ≤ 2 ^ 53) {j : ℕ} (hij : i ≤ j) (hj : j ≤ n) :
    Scalar.le (axisPoint (finite a ha) (finite b hb) n i)
      (axisPoint (finite a ha) (finite b hb) n j) = true := by
  rw [axisPoint_eq hab hw hn hn' (hij.trans hj), axisPoint_eq hab hw hn hn' hj]
  exact add_le_add_finite (ofRat_mono (offset_mono (nearest_nonneg (sub_nonneg.2 hab)) n hij))

/-- An axis leads from end to end exactly if its width does not overflow and the point before the last
does not lie beyond the end. -/
theorem spans_axis_iff (hab : a < b) (hn : 1 ≤ n) (hn' : n ≤ 2 ^ 53) :
    Spans (axis (finite a ha) (finite b hb) (n + 1)) (finite a ha) (finite b hb) ↔
      Scalar.isFinite (finite b hb - finite a ha) = true ∧
        Scalar.le (axisPoint (finite a ha) (finite b hb) n (n - 1)) (finite b hb) = true := by
  rw [isFinite_sub_iff, axis_succ _ _ hn]
  constructor
  · intro h
    refine ⟨?_, ?_⟩
    · by_contra hw
      have hhead := h.head
      obtain ⟨k, rfl⟩ := Nat.exists_eq_add_of_le' hn
      rw [List.range_succ_eq_map, List.map_cons, List.cons_append, List.head?_cons,
        axisPoint_zero_of_overflow hw hn hn'] at hhead
      cases hhead
    · exact (h.within _ (List.mem_append_left _
        (List.mem_map_of_mem (List.mem_range.2 (by omega))))).2.2
  · rintro ⟨hw, hlast⟩
    have hfirst : axisPoint (finite a ha) (finite b hb) n 0 = finite a ha :=
      axisPoint_zero hab.le hw hn hn'
    have hbegin : ∀ i < n, Scalar.le (finite a ha) (axisPoint (finite a ha) (finite b hb) n i) =
        true := by
      intro i hi
      have h : Scalar.le (axisPoint (finite a ha) (finite b hb) n 0)
          (axisPoint (finite a ha) (finite b hb) n i) = true :=
        axisPoint_mono hab.le hw hn hn' i.zero_le hi.le
      rwa [hfirst] at h
    have hend : ∀ i < n, Scalar.le (axisPoint (finite a ha) (finite b hb) n i) (finite b hb) = true :=
      fun i hi => le_trans_of_le (axisPoint_mono hab.le hw hn hn' (by omega) (by omega)) hlast
    refine ⟨?_, ?_, ?_, ?_⟩
    · obtain ⟨k, rfl⟩ := Nat.exists_eq_add_of_le' hn
      rw [List.range_succ_eq_map, List.map_cons, List.cons_append, List.head?_cons, hfirst]
    · rw [List.getLast?_append]
      rfl
    · refine List.pairwise_append.2 ⟨?_, List.pairwise_singleton _ _, ?_⟩
      · refine List.pairwise_map.2 ((List.pairwise_lt_range).imp_of_mem fun _ hj hij => ?_)
        exact axisPoint_mono hab.le hw hn hn' hij.le (List.mem_range.1 hj).le
      · intro x hx y hy
        obtain ⟨i, hi, rfl⟩ := List.mem_map.1 hx
        rw [List.mem_singleton.1 hy]
        exact hend i (List.mem_range.1 hi)
    · intro x hx
      rcases List.mem_append.1 hx with hx | hx
      · obtain ⟨i, hi, rfl⟩ := List.mem_map.1 hx
        have hlow := hbegin i (List.mem_range.1 hi)
        have hhigh := hend i (List.mem_range.1 hi)
        exact ⟨isFinite_of_le hlow hhigh, hlow, hhigh⟩
      · rw [List.mem_singleton.1 hx]
        exact ⟨rfl, le_finite.2 hab.le, le_finite.2 le_rfl⟩

/-- A point with no larger offset than the width does not lie beyond the end. -/
theorem axisPoint_le_end (hab : a ≤ b) (hw : |nearest (b - a)| ≤ largest) (hn : 1 ≤ n)
    (hn' : n ≤ 2 ^ 53) (hi : i ≤ n) (h : nearest (offset (nearest (b - a)) n i) ≤ b - a) :
    Scalar.le (axisPoint (finite a ha) (finite b hb) n i) (finite b hb) = true := by
  have hoffset : 0 ≤ offset (nearest (b - a)) n i := by
    rw [← offset_zero (nearest (b - a)) n]
    exact offset_mono (nearest_nonneg (sub_nonneg.2 hab)) n i.zero_le
  have hrange : |nearest (offset (nearest (b - a)) n i)| ≤ largest := by
    rw [abs_of_nonneg (nearest_nonneg hoffset), ← nearest_nearest]
    exact (nearest_mono h).trans ((le_abs_self _).trans hw)
  rw [axisPoint_eq hab hw hn hn' hi, ofRat_of_some (round_nearest_of_le hrange)]
  have hb' : finite b hb = ofRat .nearest b := (ofRat_of_some hb).symm
  rw [hb']
  exact ofRat_mono (by linarith)

end

/-! ## The point before the last -/

/-- All roundings together make up for less than the one step that is missing. -/
theorem shortfall {w d s n : ℚ} (hn : 1 ≤ n) (hn' : n ≤ 2 ^ 20) (hw : n ^ 2 * least ≤ w)
    (hd : d ≤ w + w / 2 ^ 53) (hs : s ≤ d / n + d / n / 2 ^ 53 + least / 2) :
    (n - 1) * s + (n - 1) * s / 2 ^ 53 ≤ w := by
  have hn0 : 0 < n := by linarith
  have hleast := least_pos
  have hw0 : 0 ≤ w := le_trans (by positivity) hw
  -- the sum of the steps, times their number
  have hsum : n * s ≤ w * (1 + 1 / 2 ^ 53) ^ 2 + n * least / 2 := by
    have hns : n * s ≤ d * (1 + 1 / 2 ^ 53) + n * least / 2 := by
      have := mul_le_mul_of_nonneg_left hs hn0.le
      refine this.trans_eq ?_
      field_simp
    nlinarith
  have hhalf : (n - 1) * (n * least / 2) ≤ w / 2 := by nlinarith
  have hmany : (n - 1) * (w * (1 + 1 / 2 ^ 53) ^ 3) ≤ (n - 1) * w + w / 4 := by
    have hcube : ((1 : ℚ) + 1 / 2 ^ 53) ^ 3 ≤ 1 + 1 / 2 ^ 51 := by norm_num
    have hfew : (n - 1) * (1 / 2 ^ 51) ≤ 1 / 4 := by
      rw [mul_one_div, div_le_iff₀ (by positivity)]
      norm_num
      linarith
    calc (n - 1) * (w * (1 + 1 / 2 ^ 53) ^ 3) ≤ (n - 1) * (w * (1 + 1 / 2 ^ 51)) := by
          gcongr
      _ = (n - 1) * w + w * ((n - 1) * (1 / 2 ^ 51)) := by ring
      _ ≤ (n - 1) * w + w * (1 / 4) := by gcongr
      _ = (n - 1) * w + w / 4 := by ring
  have htotal : n * ((n - 1) * s + (n - 1) * s / 2 ^ 53) ≤ n * w :=
    calc n * ((n - 1) * s + (n - 1) * s / 2 ^ 53)
        = (n - 1) * (n * s) * (1 + 1 / 2 ^ 53) := by ring
      _ ≤ (n - 1) * (w * (1 + 1 / 2 ^ 53) ^ 2 + n * least / 2) * (1 + 1 / 2 ^ 53) := by
          gcongr
      _ = (n - 1) * (w * (1 + 1 / 2 ^ 53) ^ 3) + (n - 1) * (n * least / 2) * (1 + 1 / 2 ^ 53) := by
          ring
      _ ≤ ((n - 1) * w + w / 4) + w / 2 * (1 + 1 / 2 ^ 53) := by gcongr
      _ ≤ n * w := by nlinarith
  exact le_of_mul_le_mul_left htotal hn0

section
variable {w : ℚ} {n i : ℕ}

theorem nearest_least : nearest least = least := by
  have hgrid : OnGrid least := ⟨1, by rw [Int.cast_one, one_mul]⟩
  refine hgrid.nearest_eq ?_
  rw [abs_of_pos least_pos]
  exact le_mul_of_one_le_left least_pos.le (by norm_num)

theorem nearest_pow_mul_least : nearest (2 ^ 53 * least) = 2 ^ 53 * least := by
  have hgrid : OnGrid (2 ^ 53 * least) := ⟨2 ^ 53, by norm_num⟩
  refine hgrid.nearest_eq (abs_of_nonneg ?_).le
  exact mul_nonneg (by norm_num) least_pos.le

/-- A step that is rounded to zero leaves an axis so narrow that nothing is rounded beyond its end. -/
theorem offset_le_of_zero (hw : OnGrid w) (hw0 : 0 ≤ w) (hn : 1 ≤ n) (hn' : n ≤ 2 ^ 53) (hi : i ≤ n)
    (hzero : nearest (nearest w / n) = 0) : nearest (offset (nearest w) n i) ≤ w := by
  have hn0 : (0 : ℚ) < n := Nat.cast_pos.2 hn
  have hstep : nearest w / n < least := by
    by_contra hle
    have := nearest_mono (not_lt.1 hle)
    rw [hzero, nearest_least] at this
    exact this.not_gt least_pos
  have hsmall : nearest w < 2 ^ 53 * least := by
    rw [div_lt_iff₀ hn0, mul_comm] at hstep
    refine hstep.trans_le (mul_le_mul_of_nonneg_right ?_ least_pos.le)
    exact_mod_cast hn'
  have hexact : nearest w = w := by
    refine hw.nearest_eq ?_
    rw [abs_of_nonneg hw0]
    by_contra hlt
    have := nearest_mono (not_le.1 hlt).le
    rw [nearest_pow_mul_least] at this
    linarith
  have hle : offset (nearest w) n i ≤ w := by
    unfold offset
    rw [if_pos hzero, hexact]
    exact mul_le_of_le_one_left hw0 (nearest_part_le_one hi)
  exact (nearest_mono hle).trans_eq hexact

/-- On an axis that is not too narrow the point before the last has a step to spare. -/
theorem offset_le_of_wide (hw : OnGrid w) (hn : 1 ≤ n) (hn' : n ≤ 2 ^ 20)
    (hwide : (n : ℚ) ^ 2 * least ≤ w) : nearest (offset (nearest w) n (n - 1)) ≤ w := by
  have hw0 : 0 ≤ w := le_trans (mul_nonneg (sq_nonneg _) least_pos.le) hwide
  have hd0 : 0 ≤ nearest w := nearest_nonneg hw0
  have hs0 : 0 ≤ nearest (nearest w / n) := nearest_nonneg (div_nonneg hd0 n.cast_nonneg)
  by_cases hzero : nearest (nearest w / n) = 0
  · exact offset_le_of_zero hw hw0 hn (hn'.trans (by norm_num)) (Nat.sub_le _ _) hzero
  have hd : nearest w ≤ w + w / 2 ^ 53 := by
    have h := (abs_le.1 hw.abs_nearest_sub_le).2
    rw [abs_of_nonneg hw0] at h
    linarith
  have hs : nearest (nearest w / n) ≤ nearest w / n + nearest w / n / 2 ^ 53 + least / 2 := by
    have h := (abs_le.1 (abs_nearest_sub_le_add (nearest w / n))).2
    rw [abs_of_nonneg (div_nonneg hd0 n.cast_nonneg)] at h
    linarith
  have hx : nearest ((n - 1 : ℕ) * nearest (nearest w / n)) ≤
      (n - 1 : ℕ) * nearest (nearest w / n) + (n - 1 : ℕ) * nearest (nearest w / n) / 2 ^ 53 := by
    have h := (abs_le.1 ((onGrid_nearest (nearest w / n)).natCast_mul (n - 1)).abs_nearest_sub_le).2
    rw [abs_of_nonneg (mul_nonneg (Nat.cast_nonneg _) hs0)] at h
    linarith
  unfold offset
  rw [if_neg hzero]
  refine hx.trans ?_
  rw [Nat.cast_sub hn, Nat.cast_one]
  exact shortfall (Nat.one_le_cast.2 hn) (by exact_mod_cast hn') hwide hd hs

end

/-! ## Axes of accepted settings -/

/-- The width does not overflow, and the point before the last does not lie beyond the end. -/
def Fits {α : Type} [Scalar α] (a b : α) (n : ℕ) : Prop :=
  Scalar.isFinite (b - a) = true ∧ Scalar.le (axisPoint a b (n - 1) (n - 2)) b = true

/-- The ends lie apart by as many of the least numbers as the square of the number of steps. -/
def Wide (a b : Extended .nearest) (n : ℕ) : Prop :=
  ((n - 1 : ℕ) : ℚ) ^ 2 * least ≤ b.value - a.value

instance (a b : Extended .nearest) (n : ℕ) : Decidable (Wide a b n) :=
  inferInstanceAs (Decidable (_ ≤ _))

theorem ends_of_checkRange {st : Settings (Extended .nearest)} {axis : Axis}
    {low high : Extended .nearest} (h : st.checkRange axis = .ok ())
    (hr : st.range axis = (.real low, .real high)) :
    ∃ a b ha hb, low = finite a ha ∧ high = finite b hb ∧ a < b := by
  simp only [Settings.checkRange, hr, Number.toScalar?] at h
  cases low with
  | infinite | undefined => cases h
  | finite a ha =>
    cases high with
    | infinite | undefined => cases h
    | finite b hb =>
      refine ⟨a, b, ha, hb, rfl, rfl, ?_⟩
      by_contra hle
      have hempty : (Number.real (finite b hb)).le (.real (finite a ha)) = true :=
        le_finite.2 (not_lt.1 hle)
      rw [hempty] at h
      cases h

theorem onGrid_of_round {q : ℚ} (h : Rounding.nearest.round q = some q) : OnGrid q := by
  have hq : nearest q = q := by
    by_cases hle : |nearest q| ≤ largest
    · rw [round_nearest_of_le hle] at h
      exact Option.some.inj h
    · rw [round_nearest_eq_none hle] at h
      cases h
  rw [← hq]
  exact onGrid_nearest q

theorem spans_iff_fits {st : Settings (Extended .nearest)} {axis : Axis}
    {low high : Extended .nearest} (h : st.checkRange axis = .ok ())
    (hr : st.range axis = (.real low, .real high)) {n : ℕ} (hn : 2 ≤ n) (hn' : n ≤ 2 ^ 20) :
    (Spans (Surface.axis low high n) low high ↔ Fits low high n) ∧
      (Wide low high n → (Fits low high n ↔ Scalar.isFinite (high - low) = true)) := by
  obtain ⟨a, b, ha, hb, rfl, rfl, hab⟩ := ends_of_checkRange h hr
  obtain ⟨k, rfl⟩ : ∃ k, n = k + 1 := ⟨n - 1, by omega⟩
  refine ⟨spans_axis_iff hab (by omega) (by omega), fun hwide => ?_⟩
  refine and_iff_left_of_imp fun hfin => ?_
  have hgrid : OnGrid (b - a) := (onGrid_of_round hb).sub (onGrid_of_round ha)
  exact axisPoint_le_end hab.le (isFinite_sub_iff.1 hfin) (by omega) (by omega) (by omega)
    (offset_le_of_wide hgrid (by omega) (by omega) hwide)

/-- The axes of accepted settings lead from end to end, without a step back and without a point that is
not finite or not between the ends, exactly if their widths do not overflow and the point before the last
does not lie beyond the end. The latter is so wherever the ends lie apart by as many of the least numbers
as the square of the number of steps. -/
theorem sample_spans_iff (st : Settings (Extended .nearest)) (hv : st.validate = .ok ())
    {a b c d : Extended .nearest} (hx : st.range .x = (.real a, .real b))
    (hy : st.range .y = (.real c, .real d))
    (height : Extended .nearest → Extended .nearest → Extended .nearest)
    (n : ℕ) (hn : 2 ≤ n) (hn' : n ≤ 2 ^ 20) :
    let g := Grid.sample height (a, b) (c, d) n
    (Spans g.xs a b ↔ Fits a b n) ∧ (Spans g.ys c d ↔ Fits c d n) ∧
      (Wide a b n → (Fits a b n ↔ Scalar.isFinite (b - a) = true)) ∧
      (Wide c d n → (Fits c d n ↔ Scalar.isFinite (d - c) = true)) := by
  intro g
  obtain ⟨hcx, hcy⟩ := Session.checkRange_of_validate hv
  obtain ⟨hxs, hxw⟩ := spans_iff_fits hcx hx hn hn'
  obtain ⟨hys, hyw⟩ := spans_iff_fits hcy hy hn hn'
  exact ⟨hxs, hys, hxw, hyw⟩

/-- Settings with an axis nearly as wide as all doubles, and one that a step hardly moves along. -/
def extreme : Settings (Extended .nearest) :=
  { (Settings.usual : Settings (Extended .nearest)) with
    xMin := .real (Scalar.ofDecimal (-89) 306), xMax := .real (Scalar.ofDecimal 89 306)
    yMin := .real (Scalar.ofNat 0), yMax := .real (Scalar.ofDecimal 1 (-300)) }

theorem extreme_spanned :
    let low : Extended .nearest := Scalar.ofDecimal (-89) 306
    let high : Extended .nearest := Scalar.ofDecimal 89 306
    let tiny : Extended .nearest := Scalar.ofDecimal 1 (-300)
    let g := Grid.sample (fun x _ => x) (low, high) (Scalar.ofNat 0, tiny) 80
    extreme.validate = .ok () ∧ Spans g.xs low high ∧ Spans g.ys (Scalar.ofNat 0) tiny := by
  intro low high tiny g
  have hv : extreme.validate = .ok () := Session.eq_ok_of_isOk (by decide +kernel)
  obtain ⟨hx, hy, hxw, hyw⟩ := sample_spans_iff extreme hv rfl rfl (fun x _ => x) 80
    (by norm_num) (by norm_num)
  have hwide : Wide low high 80 := by decide +kernel
  have hwide' : Wide (Scalar.ofNat 0) tiny 80 := by decide +kernel
  exact ⟨hv, hx.2 ((hxw hwide).2 (by decide +kernel)), hy.2 ((hyw hwide').2 (by decide +kernel))⟩

/-- Settings with an axis wider than all doubles, and one that is a few of the least numbers wide. -/
def tooWide : Settings (Extended .nearest) :=
  { (Settings.usual : Settings (Extended .nearest)) with
    xMin := .real (Scalar.ofDecimal (-17) 307), xMax := .real (Scalar.ofDecimal 17 307)
    yMin := .real (Scalar.ofNat 0), yMax := .real (Scalar.ofDecimal 15 (-324)) }

/-- The wide axis begins at no number, and the narrow one leads beyond its end and back. -/
theorem accepted_not_spanned :
    let low : Extended .nearest := Scalar.ofDecimal (-17) 307
    let high : Extended .nearest := Scalar.ofDecimal 17 307
    let tiny : Extended .nearest := Scalar.ofDecimal 15 (-324)
    let g := Grid.sample (fun x _ => x) (low, high) (Scalar.ofNat 0, tiny) 6
    tooWide.validate = .ok () ∧ ¬ Spans g.xs low high ∧ ¬ Spans g.ys (Scalar.ofNat 0) tiny := by
  intro low high tiny g
  refine ⟨Session.eq_ok_of_isOk (by decide +kernel), ?_, ?_⟩
  · intro h
    have hhead : g.xs.head? ≠ some low := by decide +kernel
    exact hhead h.head
  · intro h
    have hbeyond : ∃ y ∈ g.ys, Scalar.le y tiny = false := by decide +kernel
    obtain ⟨y, hy, hle⟩ := hbeyond
    rw [(h.within y hy).2.2] at hle
    cases hle

end FieldWalk.Surface
