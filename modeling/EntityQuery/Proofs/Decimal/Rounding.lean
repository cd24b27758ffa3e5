import EntityQuery.Decimal.Parser
import EntityQuery.Proofs.Decimal.Scaled
import EntityQuery.Proofs.Decimal.Value
import Mathlib.Tactic.Linarith
import Mathlib.Tactic.Ring

/-!
# Rounding to a decimal

A decimal has at most 28 places, and no more than its 96 bits take. The digits of a number that has
more places are kept as long as they fit, and the first one that does not fit rounds the number, a
half upwards in size. What comes out is the number itself if that is a decimal at all
(`RoundedFrom.value_eq_iff`), and another one in silence if not. Nothing is rounded that is
`2 ^ 96 - 1 / 2` or more in size.

The main result is `roundBy_spec`.
-/

namespace EntityQuery.Decimal

open Text Scaled

/-- The least size that is not rounded to a decimal. -/
def roundedLimit : ℚ := limit - 1 / 2

/-- A decimal is what a number is rounded to. -/
structure RoundedFrom (d : Decimal) (q : ℚ) : Prop where
  sign : 0 ≤ d.value * q
  /-- At most half a unit of the last place is added. -/
  least : d.coefficient - 1 / 2 ≤ |q| * 10 ^ d.scale
  /-- Less than half a unit of the last place is left out. -/
  most : |q| * 10 ^ d.scale < d.coefficient + 1 / 2
  /-- A number is changed only where one more place does not fit. -/
  full : d.value = q ∨ d.scale = maxScale ∨ roundedLimit ≤ |q| * 10 ^ (d.scale + 1)

/-! ### Numbers that are decimals -/

section Exact

variable {d e : Decimal} {q : ℚ} {k : ℤ}

theorem abs_value_mul_pow {s : ℕ} (h : d.scale ≤ s) :
    |d.value| * 10 ^ s = (d.coefficient * 10 ^ (s - d.scale) : ℕ) := by
  have size : |(d.signed : ℚ)| = d.coefficient := by
    unfold Decimal.signed
    split <;> simp
  obtain ⟨k, rfl⟩ := Nat.exists_eq_add_of_le h
  rw [value, abs_div, size, abs_of_pos (by positivity), pow_add, Nat.add_sub_cancel_left]
  push_cast
  field_simp

theorem coefficient_add_one_le (d : Decimal) : (d.coefficient : ℚ) + 1 ≤ limit := by
  exact_mod_cast d.coefficient_lt

theorem abs_value_mul_pow_lt {s : ℕ} (h : s ≤ d.scale) : |d.value| * 10 ^ s < roundedLimit := by
  calc |d.value| * 10 ^ s ≤ |d.value| * 10 ^ d.scale := by
        gcongr
        norm_num
    _ = d.coefficient := by
        rw [abs_value_mul_pow le_rfl, Nat.sub_self, pow_zero, mul_one]
    _ < roundedLimit := by
        unfold roundedLimit
        linarith [d.coefficient_add_one_le]

theorem abs_value_lt_roundedLimit (d : Decimal) : |d.value| < roundedLimit := by
  simpa using d.abs_value_mul_pow_lt (Nat.zero_le _)

/-- What is rounded is in the range. -/
theorem RoundedFrom.abs_lt (h : d.RoundedFrom q) : |q| < roundedLimit := by
  calc |q| ≤ |q| * 10 ^ d.scale :=
        le_mul_of_one_le_right (abs_nonneg q) (one_le_pow₀ (by norm_num))
    _ < d.coefficient + 1 / 2 := h.most
    _ ≤ roundedLimit := by
        unfold roundedLimit
        linarith [d.coefficient_add_one_le]

/-- A number is not changed if its places fit. -/
theorem RoundedFrom.value_eq_of_scale_le (h : d.RoundedFrom e.value) (fits : e.scale ≤ d.scale) :
    d.value = e.value := by
  have unit : (0 : ℚ) < 10 ^ d.scale := by positivity
  obtain ⟨sign, least, most, -⟩ := h
  have whole := abs_value_mul_pow fits
  rw [whole] at least most
  set n := e.coefficient * 10 ^ (d.scale - e.scale)
  have above : (d.coefficient : ℚ) < (n + 1 : ℕ) := by
    push_cast
    linarith
  have below : (n : ℚ) < (d.coefficient + 1 : ℕ) := by
    push_cast
    linarith
  rw [Nat.cast_lt] at above below
  have size : |d.value| = |e.value| := by
    refine mul_right_cancel₀ unit.ne' ?_
    rw [whole, abs_value_mul_pow le_rfl, Nat.sub_self, pow_zero, mul_one]
    exact congrArg _ (by omega)
  rcases abs_eq_abs.mp size with equal | opposite
  · exact equal
  · rw [opposite, neg_mul, neg_nonneg] at sign
    have zero : e.value = 0 := mul_self_eq_zero.mp (le_antisymm sign (mul_self_nonneg _))
    rw [opposite, zero, neg_zero]

/-- A number is rounded to itself just if it is a decimal. -/
theorem RoundedFrom.value_eq_iff (h : d.RoundedFrom q) :
    d.value = q ↔ ∃ e : Decimal, e.value = q := by
  refine ⟨fun exact => ⟨d, exact⟩, ?_⟩
  rintro ⟨e, rfl⟩
  rcases h.full with exact | last | full
  · exact exact
  · exact h.value_eq_of_scale_le (last ▸ e.scale_le)
  · refine h.value_eq_of_scale_le (not_lt.mp fun finer => ?_)
    exact full.not_gt (abs_value_mul_pow_lt finer)

/-- The integer of a decimal is its value. -/
theorem toInt?_eq_some_iff : d.toInt? = some k ↔ d.value = k := by
  have unit : (0 : ℤ) < 10 ^ d.scale := by positivity
  have cast : ((tenPow d.scale : ℕ) : ℤ) = 10 ^ d.scale := by
    rw [tenPow_eq]
    exact Nat.cast_pow 10 d.scale
  have value : d.value = k ↔ d.signed = k * 10 ^ d.scale := by
    rw [Decimal.value, div_eq_iff (by positivity)]
    exact_mod_cast Iff.rfl
  rw [toInt?, cast, value]
  constructor
  · intro h
    split at h
    · next whole =>
      rw [← Option.some.inj h]
      exact (Int.ediv_mul_cancel (Int.dvd_of_emod_eq_zero whole)).symm
    · cases h
  · intro h
    rw [h, if_pos (Int.mul_emod_left _ _), Int.mul_ediv_cancel _ unit.ne']

end Exact

/-! ### Sign and size -/

/-- A number from its sign and its size. -/
def withSign (negative : Bool) (m : ℚ) : ℚ := if negative then -m else m

theorem abs_withSign (negative : Bool) {m : ℚ} (h : 0 ≤ m) : |withSign negative m| = m := by
  unfold withSign
  split
  · rw [abs_neg, abs_of_nonneg h]
  · exact abs_of_nonneg h

theorem withSign_mul_withSign (negative : Bool) (m n : ℚ) :
    withSign negative m * withSign negative n = m * n := by
  unfold withSign
  split
  · exact neg_mul_neg m n
  · rfl

/-! ### Rounding -/

variable {negative : Bool} {c s digit : ℕ} {m : ℚ}

theorem ofUnsignedZeroParts?_spec (hc : c < limit) (hs : s ≤ maxScale) (negative : Bool) :
    ∃ d, ofUnsignedZeroParts? negative c s = some d ∧ d.coefficient = c ∧ d.scale = s ∧
      d.value = withSign negative (quotient c s) := by
  refine ⟨⟨negative && c != 0, c, s, hc, hs⟩, dif_pos ⟨hc, hs⟩, rfl, rfl, ?_⟩
  unfold value Decimal.signed withSign quotient
  rcases Nat.eq_zero_or_pos c with rfl | pos
  · simp
  · cases negative <;> simp [pos.ne', neg_div]

/-- The parts of what a number is rounded to. -/
structure RoundedParts (c s : ℕ) (m : ℚ) : Prop where
  coefficient_lt : c < limit
  scale_le : s ≤ maxScale
  least : c - 1 / 2 ≤ m * 10 ^ s
  most : m * 10 ^ s < c + 1 / 2
  full : quotient c s = m ∨ s = maxScale ∨ roundedLimit ≤ m * 10 ^ (s + 1)

theorem RoundedParts.exists_roundedFrom (h : RoundedParts c s m) (hm : 0 ≤ m) (negative : Bool) :
    ∃ d, ofUnsignedZeroParts? negative c s = some d ∧ d.RoundedFrom (withSign negative m) := by
  obtain ⟨d, hd, rfl, rfl, value⟩ :=
    ofUnsignedZeroParts?_spec h.coefficient_lt h.scale_le negative
  have size := abs_withSign negative hm
  refine ⟨d, hd, ?_, ?_, ?_, ?_⟩
  · rw [value, withSign_mul_withSign]
    exact mul_nonneg (quotient_nonneg _ _) hm
  · rw [size]
    exact h.least
  · rw [size]
    exact h.most
  · rw [size, value]
    exact h.full.imp_left (congrArg _)

/-- Rounding by the first digit that does not fit. -/
theorem roundBy_spec (hm : 0 ≤ m) (hc : c < limit) (hs : s ≤ maxScale) (hd : digit ≤ 9)
    (lower : (10 * c + digit : ℕ) ≤ m * 10 ^ (s + 1))
    (upper : m * 10 ^ (s + 1) < (10 * c + digit + 1 : ℕ))
    (full : s = maxScale ∨ limit ≤ 10 * c + digit) :
    (∃ d, roundBy negative c s digit = some d ∧ d.RoundedFrom (withSign negative m)) ∨
      roundBy negative c s digit = none ∧ roundedLimit ≤ m := by
  have unit : m * 10 ^ (s + 1) = 10 * (m * 10 ^ s) := by ring
  have full : s = maxScale ∨ roundedLimit ≤ m * 10 ^ (s + 1) := by
    refine full.imp_right fun long => le_trans ?_ lower
    have : (limit : ℚ) ≤ (10 * c + digit : ℕ) := by exact_mod_cast long
    unfold roundedLimit
    linarith
  have small : (digit : ℚ) ≤ 9 := by exact_mod_cast hd
  rw [unit] at lower upper
  push_cast at lower upper
  have last (up : ¬c + 1 < limit) : (c : ℚ) = limit - 1 := by
    rw [eq_sub_iff_add_eq]
    exact_mod_cast (by omega : c + 1 = limit)
  have high (down : ¬digit < 5) : (5 : ℚ) ≤ digit := by exact_mod_cast not_lt.mp down
  unfold roundBy
  split_ifs with down up whole
  · -- The digit is dropped.
    have low : (digit : ℚ) ≤ 4 := by exact_mod_cast Nat.le_of_lt_succ down
    have nonneg : (0 : ℚ) ≤ digit := Nat.cast_nonneg _
    refine .inl (RoundedParts.exists_roundedFrom ⟨hc, hs, ?_, ?_, .inr full⟩ hm negative)
    · linarith
    · linarith
  · -- The digit carries.
    have := high down
    refine .inl (RoundedParts.exists_roundedFrom ⟨up, hs, ?_, ?_, .inr full⟩ hm negative)
    · push_cast
      linarith
    · push_cast
      linarith
  · -- The carry leaves the range.
    have := high down
    refine .inr ⟨rfl, ?_⟩
    rw [whole, pow_zero, mul_one, last up] at lower
    unfold roundedLimit
    linarith
  · -- The carry takes the last place.
    have := high down
    obtain ⟨t, rfl⟩ := Nat.exists_eq_add_one_of_ne_zero whole
    have tenth : ((c + 1 + 4) / 10 : ℕ) * 10 = c + 5 := by
      unfold limit at hc up
      omega
    have tenth : (((c + 1 + 4) / 10 : ℕ) : ℚ) * 10 = c + 5 := by exact_mod_cast tenth
    have place : m * 10 ^ (t + 1) = 10 * (m * 10 ^ t) := by ring
    rw [place] at lower upper
    rw [Nat.add_sub_cancel]
    refine .inl (RoundedParts.exists_roundedFrom ⟨by omega, by omega, ?_, ?_, .inr (.inr ?_)⟩ hm
      negative)
    · linarith
    · linarith
    · rw [place]
      have := last up
      unfold roundedLimit
      linarith

end EntityQuery.Decimal
