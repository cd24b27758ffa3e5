import EntityQuery.Proofs.Binary.Value
import Mathlib.Tactic.FieldSimp
import Mathlib.Tactic.NormNum

/-!
# How near the nearest number is

The numbers of a format are all the significands of its bits, doubled any number of times. So
rounding is exact for every fraction of that form in range (`Binary.value_ofFraction_of_exact`),
and for every other it changes at most one part in `2 ^ (fractionBits + 1)`, or half of the least
positive number where fractions are that small (`Binary.abs_value_ofFraction_sub_le`).
-/

namespace EntityQuery.Binary

/-- Rounding to a whole number changes at most a half. -/
theorem abs_divideToEven_sub_le {a d : ℕ} (hd : 0 < d) :
    |(divideToEven a d * d : ℚ) - a| ≤ d / 2 := by
  have split := Nat.div_add_mod a d
  have rest := Nat.mod_lt a hd
  rw [Nat.mul_comm] at split
  have bounds : 2 * (divideToEven a d * d) ≤ 2 * a + d ∧
      2 * a ≤ 2 * (divideToEven a d * d) + d := by
    unfold divideToEven
    dsimp only
    split
    · rw [Nat.add_mul, Nat.one_mul]
      omega
    · omega
  have above : (2 * (divideToEven a d * d) : ℚ) ≤ 2 * a + d := by exact_mod_cast bounds.1
  have below : (2 * a : ℚ) ≤ 2 * (divideToEven a d * d) + d := by exact_mod_cast bounds.2
  rw [abs_le]
  constructor <;> linarith

namespace Format

variable (F : Format)

/-! ### Significands -/

/-- The number of a significand that is doubled, or is not doubled and may lack the leading bit. A
significand of one bit too many is the leading bit doubled once more. -/
theorem units_of_significand {s k : ℕ} (hs : s ≤ 2 * 2 ^ F.fractionBits)
    (lead : k = 0 ∨ 2 ^ F.fractionBits ≤ s) :
    F.units (k * 2 ^ F.fractionBits + s) = s * 2 ^ k := by
  have one := Nat.two_pow_pos F.fractionBits
  -- How often the bits fit into the code, and what is left, are known from the quotient.
  have parts {q r : ℕ} (hr : r < 2 ^ F.fractionBits) :
      F.units (q * 2 ^ F.fractionBits + r) =
        (if q = 0 then r else 2 ^ F.fractionBits + r) * 2 ^ (q - 1) := by
    have quot : (q * 2 ^ F.fractionBits + r) / 2 ^ F.fractionBits = q := by
      rw [Nat.mul_comm, Nat.mul_add_div one, Nat.div_eq_of_lt hr, Nat.add_zero]
    have rest : (q * 2 ^ F.fractionBits + r) % 2 ^ F.fractionBits = r := by
      rw [Nat.mul_comm, Nat.mul_add_mod, Nat.mod_eq_of_lt hr]
    simp only [units, significand, doublings, twoPow_eq, quot, rest]
    by_cases hq : q = 0
    · simp [hq]
    · simp only [if_neg hq]
  rcases Nat.lt_or_ge s (2 ^ F.fractionBits) with small | large
  · obtain rfl := lead.resolve_right (Nat.not_le.mpr small)
    rw [parts small, if_pos rfl]
  · rcases Nat.lt_or_eq_of_le hs with fits | rfl
    · have code : k * 2 ^ F.fractionBits + s =
          (k + 1) * 2 ^ F.fractionBits + (s - 2 ^ F.fractionBits) := by
        rw [Nat.add_mul, Nat.one_mul]
        omega
      rw [code, parts (by omega), if_neg (Nat.succ_ne_zero k), Nat.add_sub_cancel' large,
        Nat.add_sub_cancel]
    · have code : k * 2 ^ F.fractionBits + 2 * 2 ^ F.fractionBits =
          (k + 2) * 2 ^ F.fractionBits + 0 := by ring
      rw [code, parts one, if_neg (Nat.succ_ne_zero _), Nat.add_zero]
      change 2 ^ F.fractionBits * 2 ^ (k + 1) = _
      ring

/-- A significand of no more bits than a format has, doubled any number of times, is a number of the
format, if there is one so large. -/
theorem exists_units {s : ℕ} (hs : s ≤ 2 * 2 ^ F.fractionBits) (k : ℕ) :
    ∃ c, F.units c = s * 2 ^ k ∧ c ≤ (k + 2) * 2 ^ F.fractionBits := by
  induction k generalizing s with
  | zero =>
    have whole := F.units_of_significand hs (.inl rfl)
    rw [Nat.zero_mul, Nat.zero_add] at whole
    exact ⟨s, whole, by omega⟩
  | succ k ih =>
    -- A significand that lacks its leading bit takes up one of the doublings.
    rcases Nat.lt_or_ge s (2 ^ F.fractionBits) with small | large
    · obtain ⟨c, eq, hc⟩ := ih (s := 2 * s) (by omega)
      refine ⟨c, by rw [eq]; ring, hc.trans ?_⟩
      exact Nat.mul_le_mul_right _ (by omega)
    · refine ⟨_, F.units_of_significand hs (.inr large), ?_⟩
      calc (k + 1) * 2 ^ F.fractionBits + s
          ≤ (k + 1) * 2 ^ F.fractionBits + 2 * 2 ^ F.fractionBits := Nat.add_le_add_left hs _
        _ = (k + 1 + 2) * 2 ^ F.fractionBits := by ring

/-! ### Rounding -/

/-- The nearest number to a fraction, where it is finite, is apart from it by at most one part in
`2 ^ (fractionBits + 1)`, or by half a unit. -/
theorem abs_units_nearest_sub_le {a b : ℕ} (hb : 0 < b) (finite : F.nearest a b < F.infinity) :
    |(F.units (F.nearest a b) * b : ℚ) - a| ≤ a / 2 ^ (F.fractionBits + 1) + b / 2 := by
  obtain ⟨-, lower⟩ := F.doublings_nearest (a := a) hb
  obtain ⟨significand, lead⟩ := F.significand_nearest (a := a) hb
  unfold nearest at finite ⊢
  dsimp only at finite ⊢
  simp only [twoPow_eq] at finite ⊢
  generalize (a / b).log2 - F.fractionBits = k at *
  -- What the last bit counts is a part of the fraction, or a unit.
  have bit : (b * 2 ^ k : ℚ) ≤ a / 2 ^ F.fractionBits + b := by
    rcases lower with rfl | lower
    · rw [pow_zero, mul_one]
      exact le_add_of_nonneg_left (by positivity)
    · have lower : (b * 2 ^ (k + F.fractionBits) : ℚ) ≤ a := by exact_mod_cast lower
      have part : (b * 2 ^ k : ℚ) ≤ a / 2 ^ F.fractionBits := by
        rwa [le_div_iff₀ (by positivity), mul_assoc, ← pow_add]
      exact part.trans (le_add_of_nonneg_right (by positivity))
  have rounded := abs_divideToEven_sub_le (a := a) (d := b * 2 ^ k) (by positivity)
  rw [min_eq_left (by omega), F.units_of_significand significand lead]
  generalize divideToEven a (b * 2 ^ k) = s at *
  push_cast at rounded ⊢
  calc |(s * 2 ^ k * b : ℚ) - a| = |(s * (b * 2 ^ k) : ℚ) - a| := by
        congr 1
        ring
    _ ≤ b * 2 ^ k / 2 := rounded
    _ ≤ (a / 2 ^ F.fractionBits + b) / 2 := by gcongr
    _ = a / 2 ^ (F.fractionBits + 1) + b / 2 := by
        rw [pow_succ, ← div_div]
        ring

end Format

/-! ### Values -/

variable {F G : Format}

theorem negative_ofFraction (s : Bool) (a b : ℕ) : (ofFraction F s a b).negative = s := rfl

/-- A fraction that is a number of the format is not rounded. -/
theorem value_ofFraction_of_exact {s : Bool} {a b c : ℕ} (hb : 0 < b) (hc : c < F.infinity)
    (exact : F.units c * b = a * 2 ^ F.unitExponent) :
    (ofFraction F s a b).isFinite = true ∧
      (ofFraction F s a b).value = (signed s a : ℚ) / b := by
  have code : (ofFraction F s a b).code = c := by
    rw [code_ofFraction, twoPow_eq, ← exact, F.nearest_units hc.le hb]
  refine ⟨isFinite_iff.mpr (code ▸ hc), ?_⟩
  have exact : (signed s (F.units c) : ℚ) * b = signed s a * 2 ^ F.unitExponent := by
    rw [← Int.cast_natCast b, ← Int.cast_mul, ← signed_mul, exact, signed_mul]
    push_cast
    rfl
  rw [value, negative_ofFraction, code, div_eq_div_iff (by positivity) (by exact_mod_cast hb.ne')]
  exact exact

/-- A finite number is apart from the fraction that it is the nearest one of by at most one part in
`2 ^ (fractionBits + 1)`, or by half of the least positive number. -/
theorem abs_value_ofFraction_sub_le {s : Bool} {a b : ℕ} (hb : 0 < b)
    (finite : (ofFraction F s a b).isFinite = true) :
    |(ofFraction F s a b).value - (signed s a : ℚ) / b| ≤
      |(signed s a : ℚ) / b| / 2 ^ (F.fractionBits + 1) + 1 / 2 ^ (F.unitExponent + 1) := by
  rw [isFinite_iff, code_ofFraction] at finite
  have near := F.abs_units_nearest_sub_le hb finite
  have whole : (0 : ℚ) < b := by exact_mod_cast hb
  have size (n : ℕ) (d : ℚ) : (signed s n : ℚ) / d = (if s then -1 else 1) * (n / d) := by
    cases s <;> simp [neg_div]
  have sign : |(if s then -1 else 1 : ℚ)| = 1 := by cases s <;> simp
  rw [value, negative_ofFraction, code_ofFraction, size, size, ← mul_sub, abs_mul, abs_mul, sign,
    one_mul, one_mul, abs_of_nonneg (by positivity : (0 : ℚ) ≤ a / b)]
  rw [twoPow_eq] at near ⊢
  generalize F.units (F.nearest (a * 2 ^ F.unitExponent) b) = u at *
  push_cast at near
  calc |(u / 2 ^ F.unitExponent - a / b : ℚ)|
      = |((u * b - a * 2 ^ F.unitExponent) / (2 ^ F.unitExponent * b) : ℚ)| := by
        congr 1
        field_simp
    _ = |(u * b : ℚ) - a * 2 ^ F.unitExponent| / (2 ^ F.unitExponent * b) := by
        rw [abs_div, abs_of_pos (by positivity : (0 : ℚ) < 2 ^ F.unitExponent * b)]
    _ ≤ (a * 2 ^ F.unitExponent / 2 ^ (F.fractionBits + 1) + b / 2) / (2 ^ F.unitExponent * b) := by
        gcongr
    _ = a / b / 2 ^ (F.fractionBits + 1) + 1 / 2 ^ (F.unitExponent + 1) := by
        rw [pow_succ _ F.unitExponent]
        field_simp

end EntityQuery.Binary
