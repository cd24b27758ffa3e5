import EntityQuery.Proofs.Decimal.OfBinary

/-!
# How near the decimal of a binary number is

Three things are lost on the way from a binary number to its decimal: what halvings cut off, the
places beyond the 28th, and the digits beyond 52 bits. The first and the last are parts of the
number, and of the places it is less than one unit in all. So the decimal is apart from the number
by at most one part in `2 ^ 49` and two units of the 28th place
(`abs_value_ofBinary64?_sub_le`).
-/

namespace EntityQuery.Decimal

open Binary

namespace Scaled

/-- A digit that is dropped counts at most half of what the digit before it counts. -/
theorem abs_quotient_drop_sub_le (c n : ℕ) :
    |quotient ((c + 5) / 10) n - quotient c (n + 1)| ≤ 5 / 10 ^ (n + 1) := by
  have above : 10 * ((c + 5) / 10) ≤ c + 5 := Nat.mul_div_le _ _
  have below : c ≤ 10 * ((c + 5) / 10) + 5 := by omega
  have above : (10 * ((c + 5) / 10 : ℕ) : ℚ) ≤ c + 5 := by exact_mod_cast above
  have below : (c : ℚ) ≤ 10 * ((c + 5) / 10 : ℕ) + 5 := by exact_mod_cast below
  have difference : |10 * (((c + 5) / 10 : ℕ) : ℚ) - c| ≤ 5 := by
    rw [abs_le]
    constructor <;> linarith
  rw [← quotient_append_zero, quotient, quotient, ← sub_div, abs_div,
    abs_of_pos (by positivity : (0 : ℚ) < 10 ^ (n + 1))]
  push_cast
  gcongr

/-! ### Far places -/

theorem near_of_le {n : ℕ} (c : ℕ) (h : n ≤ maxScale) : near c n = ofPlaces c n := by
  cases n with
  | zero => rfl
  | succ n => rw [near_succ, if_pos h]

/-- All far places together count less than a unit of the last place that is not far. -/
theorem abs_value_near_sub_le_of_le {n : ℕ} (h : maxScale ≤ n) (c : ℕ) :
    |(near c n).value - quotient c n| ≤ 1 / 10 ^ maxScale - 1 / 10 ^ n := by
  induction n, h using Nat.le_induction generalizing c with
  | base => simp [near_of_le c le_rfl]
  | succ n hn ih =>
    have tenth : (1 / 10 ^ n : ℚ) = 10 * (1 / 10 ^ (n + 1)) := by
      rw [pow_succ]
      field_simp
    have least : (0 : ℚ) ≤ 1 / 10 ^ (n + 1) := by positivity
    rw [near_succ, if_neg (by omega)]
    split_ifs with hc
    · -- What vanishes has a single digit.
      have unit : (1 / 10 ^ n : ℚ) ≤ 1 / 10 ^ maxScale := by
        gcongr
        norm_num
      have digit : (c : ℚ) ≤ 9 := by exact_mod_cast (by omega : c ≤ 9)
      calc |(ofPlaces 0 0).value - quotient c (n + 1)| = quotient c (n + 1) := by
            rw [value_ofPlaces, quotient_zero_right, Nat.cast_zero, zero_sub, abs_neg,
              abs_of_nonneg (quotient_nonneg _ _)]
        _ ≤ 9 / 10 ^ (n + 1) := by
            unfold quotient
            gcongr
        _ = 9 * (1 / 10 ^ (n + 1)) := div_eq_mul_one_div _ _
        _ ≤ 1 / 10 ^ maxScale - 1 / 10 ^ (n + 1) := by linarith
    · calc |(near ((c + 5) / 10) n).value - quotient c (n + 1)|
          ≤ |(near ((c + 5) / 10) n).value - quotient ((c + 5) / 10) n| +
            |quotient ((c + 5) / 10) n - quotient c (n + 1)| := abs_sub_le _ _ _
        _ ≤ 1 / 10 ^ maxScale - 1 / 10 ^ n + 5 / 10 ^ (n + 1) :=
            add_le_add (ih _) (abs_quotient_drop_sub_le c n)
        _ = 1 / 10 ^ maxScale - 1 / 10 ^ n + 5 * (1 / 10 ^ (n + 1)) := by
            rw [div_eq_mul_one_div (5 : ℚ)]
        _ ≤ 1 / 10 ^ maxScale - 1 / 10 ^ (n + 1) := by linarith

theorem abs_value_near_sub_le (c n : ℕ) :
    |(near c n).value - quotient c n| ≤ 1 / 10 ^ maxScale := by
  rcases le_total n maxScale with h | h
  · rw [near_of_le c h, value_ofPlaces, sub_self, abs_zero]
    positivity
  · exact (abs_value_near_sub_le_of_le h c).trans (sub_le_self _ (by positivity))

/-! ### Long coefficients -/

theorem short_of_lt {c : ℕ} (n : ℕ) (h : c < longLimit) : short c n = ofPlaces c n := by
  cases n with
  | zero => rfl
  | succ n => rw [short_succ, if_neg (Nat.not_le.mpr h)]

/-- The digits dropped from a long coefficient count little beside it: most of all the one that is
dropped last, from a coefficient that is still long. -/
theorem abs_value_short_sub_le_of_long {c : ℕ} (n : ℕ) (h : longLimit ≤ c) :
    |(short c n).value - quotient c n| ≤ (6 * (c / longLimit) - 1) / 10 ^ n := by
  have many : (8 : ℚ) ≤ longLimit := by exact_mod_cast (by decide : 8 ≤ longLimit)
  have long {c : ℕ} (h : longLimit ≤ c) : (1 : ℚ) ≤ c / longLimit := by
    rw [one_le_div (by linarith)]
    exact_mod_cast h
  induction n generalizing c with
  | zero =>
    rw [short_zero, value_ofPlaces, sub_self, abs_zero, pow_zero, div_one]
    linarith [long h]
  | succ n ih =>
    have drop := abs_quotient_drop_sub_le c n
    rw [short_succ, if_pos h]
    rcases Nat.lt_or_ge ((c + 5) / 10) longLimit with last | more
    · rw [short_of_lt n last, value_ofPlaces]
      refine drop.trans ?_
      gcongr
      linarith [long h]
    · have parts : 10 * (((c + 5) / 10 : ℕ) / longLimit : ℚ) ≤ c / longLimit + 5 / 8 := by
        have tenth : (10 * ((c + 5) / 10 : ℕ) : ℚ) ≤ c + 5 := by
          exact_mod_cast Nat.mul_div_le (c + 5) 10
        calc 10 * (((c + 5) / 10 : ℕ) / longLimit : ℚ)
            = 10 * ((c + 5) / 10 : ℕ) / longLimit := mul_div_assoc' _ _ _
          _ ≤ (c + 5) / longLimit := by gcongr
          _ = c / longLimit + 5 / longLimit := add_div _ _ _
          _ ≤ c / longLimit + 5 / 8 := by gcongr
      calc |(short ((c + 5) / 10) n).value - quotient c (n + 1)|
          ≤ |(short ((c + 5) / 10) n).value - quotient ((c + 5) / 10) n| +
            |quotient ((c + 5) / 10) n - quotient c (n + 1)| := abs_sub_le _ _ _
        _ ≤ (6 * (((c + 5) / 10 : ℕ) / longLimit) - 1) / 10 ^ n + 5 / 10 ^ (n + 1) :=
            add_le_add (ih more) drop
        _ = (10 * (6 * (((c + 5) / 10 : ℕ) / longLimit)) - 5) / 10 ^ (n + 1) := by
            rw [pow_succ]
            field_simp
            ring
        _ ≤ (6 * (c / longLimit) - 1) / 10 ^ (n + 1) :=
            div_le_div_of_nonneg_right (by linarith) (by positivity)

theorem abs_value_short_sub_le (c n : ℕ) :
    |(short c n).value - quotient c n| ≤ quotient c n * (6 / longLimit) := by
  rcases Nat.lt_or_ge c longLimit with h | h
  · rw [short_of_lt n h, value_ofPlaces, sub_self, abs_zero]
    exact mul_nonneg (quotient_nonneg c n) (by positivity)
  · calc |(short c n).value - quotient c n| ≤ (6 * (c / longLimit) - 1) / 10 ^ n :=
          abs_value_short_sub_le_of_long n h
      _ ≤ 6 * (c / longLimit) / 10 ^ n := by gcongr; linarith
      _ = quotient c n * (6 / longLimit) := by
          unfold quotient
          ring

/-! ### Fitting -/

theorem abs_value_fit_sub_le (c n : ℕ) :
    |(ofPlaces c n).fit.value - quotient c n| ≤
      quotient c n * (6 / longLimit) + 2 / 10 ^ maxScale := by
  obtain ⟨k, m, far, fitted⟩ := exists_value_fit c n
  have dropped := abs_value_near_sub_le c n
  rw [far] at dropped
  have few : (6 / longLimit : ℚ) ≤ 1 := by norm_num [longLimit, twoPow_eq]
  have unit : (0 : ℚ) ≤ 1 / 10 ^ maxScale := by positivity
  rw [fitted]
  calc |(short k m).value - quotient c n|
      ≤ |(short k m).value - quotient k m| + |quotient k m - quotient c n| := abs_sub_le _ _ _
    _ ≤ quotient k m * (6 / longLimit) + 1 / 10 ^ maxScale :=
        add_le_add (abs_value_short_sub_le k m) dropped
    _ ≤ (quotient c n + 1 / 10 ^ maxScale) * (6 / longLimit) + 1 / 10 ^ maxScale := by
        gcongr
        linarith [(abs_le.mp dropped).2]
    _ ≤ quotient c n * (6 / longLimit) + (1 / 10 ^ maxScale + 1 / 10 ^ maxScale) := by
        rw [add_mul, add_assoc]
        gcongr
        exact mul_le_of_le_one_right unit few
    _ = quotient c n * (6 / longLimit) + 2 / 10 ^ maxScale := by ring

theorem StandsFor.abs_value_fit_sub_le {k m code : ℕ} (h : StandsFor k m code) :
    |(ofPlaces k m).fit.value - magnitude code| ≤ magnitude code / 2 ^ 49 + 2 / 10 ^ maxScale := by
  have fitted := Scaled.abs_value_fit_sub_le k m
  have parts : quotient k m * (6 / longLimit) ≤ magnitude code * (6 / 2 ^ 52) := by
    have : (longLimit : ℚ) = 2 ^ 52 := by norm_num [longLimit, twoPow_eq]
    rw [this]
    gcongr
    exact h.le
  have := magnitude_nonneg code
  have := h.le
  have := h.close
  obtain ⟨lower, upper⟩ := abs_le.mp fitted
  rw [abs_le]
  constructor <;> linarith

end Scaled

/-- The decimal of a number is apart from it by little. -/
theorem abs_value_ofBinary64?_sub_le {x : Binary64} {d : Decimal} (h : ofBinary64? x = some d) :
    |d.value - x.value| ≤ |x.value| / 2 ^ 49 + 2 / 10 ^ maxScale := by
  obtain ⟨k, m, standing, value⟩ := exists_standsFor h
  rw [abs_value_eq_magnitude, value, value_eq_magnitude]
  split_ifs
  · rw [← neg_sub', abs_neg]
    exact standing.abs_value_fit_sub_le
  · exact standing.abs_value_fit_sub_le

end EntityQuery.Decimal
