import EntityQuery.Binary.Basic
import Mathlib.Algebra.Order.Ring.Int
import Mathlib.Algebra.Order.Ring.Nat
import Mathlib.Data.Nat.Log
import Mathlib.Tactic.Positivity
import Mathlib.Tactic.Ring

/-!
# Rounding to a binary format

Rounding a fraction to the nearest number of a format keeps the order, however the fraction is
written, and it changes no fraction that is a number of the format. Both are said of codes first,
and then of places, where the sign counts: `Binary.place_ofFraction_le` and
`Binary.place_ofFraction_units`.
-/

namespace EntityQuery

theorem twoPow_eq (n : ℕ) : twoPow n = 2 ^ n := rfl

namespace Binary

/-! ### Whole numbers -/

/-- A larger quotient is not rounded to a smaller number. -/
theorem divideToEven_le_of_mul_le {a b c d : ℕ} (hb : 0 < b) (hd : 0 < d) (h : a * d ≤ c * b) :
    divideToEven a b ≤ divideToEven c d := by
  have ha := Nat.div_add_mod a b
  have hc := Nat.div_add_mod c d
  have hr := Nat.mod_lt a hb
  have hs := Nat.mod_lt c hd
  have hq : a / b ≤ c / d := by
    rw [Nat.le_div_iff_mul_le hd]
    refine Nat.le_of_mul_le_mul_right ?_ hb
    calc a / b * d * b = b * (a / b) * d := by ring
      _ ≤ a * d := Nat.mul_le_mul_right d (Nat.mul_div_le a b)
      _ ≤ c * b := h
  unfold divideToEven
  dsimp only
  rcases Nat.lt_or_eq_of_le hq with hlt | heq
  · split <;> split <;> omega
  · -- With one quotient, the rests are in the order of the fractions.
    have rests : a % b * d ≤ c % d * b := by
      rw [← ha, ← hc, heq] at h
      have hl : (b * (c / d) + a % b) * d = b * d * (c / d) + a % b * d := by ring
      have hr : (d * (c / d) + c % d) * b = b * d * (c / d) + c % d * b := by ring
      omega
    rw [heq]
    have up (hu : b ≤ 2 * (a % b)) : d ≤ 2 * (c % d) := by
      refine Nat.le_of_mul_le_mul_right ?_ hb
      calc d * b = b * d := Nat.mul_comm d b
        _ ≤ 2 * (a % b) * d := Nat.mul_le_mul_right d hu
        _ = 2 * (a % b * d) := Nat.mul_assoc 2 _ d
        _ ≤ 2 * (c % d * b) := Nat.mul_le_mul_left 2 rests
        _ = 2 * (c % d) * b := (Nat.mul_assoc 2 _ b).symm
    have above (hu : b < 2 * (a % b)) : d < 2 * (c % d) := by
      refine Nat.lt_of_mul_lt_mul_right (a := b) ?_
      calc d * b = b * d := Nat.mul_comm d b
        _ < 2 * (a % b) * d := Nat.mul_lt_mul_of_pos_right hu hd
        _ = 2 * (a % b * d) := Nat.mul_assoc 2 _ d
        _ ≤ 2 * (c % d * b) := Nat.mul_le_mul_left 2 rests
        _ = 2 * (c % d) * b := (Nat.mul_assoc 2 _ b).symm
    split
    · next hu =>
      have hv : d < 2 * (c % d) ∨ 2 * (c % d) = d ∧ c / d % 2 = 1 := by
        rcases hu with hu | ⟨hu, odd⟩
        · exact .inl (above hu)
        · have := up hu.ge
          omega
      rw [if_pos hv]
    · split <;> omega

theorem divideToEven_mul_self {d : ℕ} (hd : 0 < d) (n : ℕ) : divideToEven (n * d) d = n := by
  have := hd.ne
  simp [divideToEven, Nat.mul_div_cancel n hd, this]

theorem le_divideToEven {n a d : ℕ} (hd : 0 < d) (h : n * d ≤ a) : n ≤ divideToEven a d := by
  have := divideToEven_le_of_mul_le (a := n * 1) (b := 1) (c := a) Nat.one_pos hd (by simpa using h)
  rwa [divideToEven_mul_self Nat.one_pos] at this

theorem divideToEven_le {n a d : ℕ} (hd : 0 < d) (h : a ≤ n * d) : divideToEven a d ≤ n := by
  have := divideToEven_le_of_mul_le (a := a) (c := n * 1) (d := 1) hd Nat.one_pos (by simpa using h)
  rwa [divideToEven_mul_self Nat.one_pos] at this

/-! ### Codes -/

namespace Format

variable (F : Format)

/-- A code is the number of its doublings above its significand. -/
theorem doublings_add_significand (c : ℕ) :
    F.doublings c * 2 ^ F.fractionBits + F.significand c = c := by
  have split := Nat.div_add_mod c (2 ^ F.fractionBits)
  change (c / 2 ^ F.fractionBits - 1) * 2 ^ F.fractionBits +
    (if c / 2 ^ F.fractionBits = 0 then c else 2 ^ F.fractionBits + c % 2 ^ F.fractionBits) = c
  split_ifs with h
  · rw [h, Nat.zero_sub, Nat.zero_mul, Nat.zero_add]
  · obtain ⟨k, hk⟩ := Nat.exists_eq_succ_of_ne_zero h
    rw [hk, Nat.mul_succ] at split
    rw [hk, Nat.succ_sub_one, Nat.mul_comm]
    omega

theorem significand_lt (c : ℕ) : F.significand c < 2 * 2 ^ F.fractionBits := by
  have rest := Nat.mod_lt c (Nat.two_pow_pos F.fractionBits)
  change (if c / 2 ^ F.fractionBits = 0 then c else 2 ^ F.fractionBits + c % 2 ^ F.fractionBits) < _
  split_ifs with h
  · have := (Nat.div_eq_zero_iff_lt (Nat.two_pow_pos _)).mp h
    omega
  · omega

/-- A significand that is doubled has its leading bit. -/
theorem le_significand {c : ℕ} (h : F.doublings c ≠ 0) :
    2 ^ F.fractionBits ≤ F.significand c := by
  change c / 2 ^ F.fractionBits - 1 ≠ 0 at h
  change _ ≤ if c / 2 ^ F.fractionBits = 0 then c else 2 ^ F.fractionBits + c % 2 ^ F.fractionBits
  rw [if_neg (by omega)]
  exact Nat.le_add_right _ _

theorem units_eq (c : ℕ) : F.units c = F.significand c * 2 ^ F.doublings c := rfl

theorem units_zero : F.units 0 = 0 := by
  have zero := F.doublings_add_significand 0
  rw [units_eq, Nat.eq_zero_of_add_eq_zero_left zero, Nat.zero_mul]

theorem units_lt (c : ℕ) : F.units c < 2 ^ (F.fractionBits + 1) * 2 ^ F.doublings c := by
  rw [units_eq, Nat.pow_succ']
  exact Nat.mul_lt_mul_of_pos_right (F.significand_lt c) (Nat.two_pow_pos _)

/-- Two numbers of a format are apart by at least half of what the last bit of the larger one
counts. -/
theorem units_add_doublings_le {b c : ℕ} (h : b < c) :
    2 * F.units b + 2 ^ F.doublings c ≤ 2 * F.units c := by
  have hb := F.doublings_add_significand b
  have hc := F.doublings_add_significand c
  have sb := F.significand_lt b
  rw [units_eq, units_eq]
  rcases Nat.lt_trichotomy (F.doublings b) (F.doublings c) with hlt | heq | hgt
  · -- The larger number has its leading bit, and more doublings make up for all bits of the other.
    have lead := F.le_significand (c := c) (by omega)
    obtain ⟨j, hj⟩ := Nat.exists_eq_add_of_lt hlt
    have hj' : 2 ^ F.doublings c = 2 * 2 ^ j * 2 ^ F.doublings b := by
      rw [hj]
      ring
    have room : F.significand b + 2 ^ j ≤ F.significand c * (2 * 2 ^ j) := by
      have := Nat.one_le_two_pow (n := j)
      calc F.significand b + 2 ^ j ≤ (2 * 2 ^ F.fractionBits - 1) * 1 + 2 ^ j := by omega
        _ ≤ (2 * 2 ^ F.fractionBits - 1) * 2 ^ j + 2 ^ j :=
          Nat.add_le_add_right (Nat.mul_le_mul_left _ this) _
        _ = (2 * 2 ^ F.fractionBits - 1 + 1) * 2 ^ j := by ring
        _ = 2 * 2 ^ F.fractionBits * 2 ^ j := by
          rw [Nat.sub_add_cancel (by have := Nat.two_pow_pos F.fractionBits; omega)]
        _ = 2 ^ F.fractionBits * (2 * 2 ^ j) := by ring
        _ ≤ F.significand c * (2 * 2 ^ j) := Nat.mul_le_mul_right _ lead
    calc 2 * (F.significand b * 2 ^ F.doublings b) + 2 ^ F.doublings c
        = 2 * ((F.significand b + 2 ^ j) * 2 ^ F.doublings b) := by rw [hj']; ring
      _ ≤ 2 * (F.significand c * (2 * 2 ^ j) * 2 ^ F.doublings b) :=
        Nat.mul_le_mul_left 2 (Nat.mul_le_mul_right _ room)
      _ = 2 * (F.significand c * 2 ^ F.doublings c) := by rw [hj']; ring
  · rw [heq] at hb ⊢
    have lt : F.significand b + 1 ≤ F.significand c := by omega
    calc 2 * (F.significand b * 2 ^ F.doublings c) + 2 ^ F.doublings c
        ≤ 2 * ((F.significand b + 1) * 2 ^ F.doublings c) := by
          rw [Nat.add_mul, Nat.one_mul, Nat.mul_add]
          exact Nat.add_le_add_left (Nat.le_mul_of_pos_left _ Nat.two_pos) _
      _ ≤ 2 * (F.significand c * 2 ^ F.doublings c) :=
        Nat.mul_le_mul_left 2 (Nat.mul_le_mul_right _ lt)
  · -- More doublings make a larger code.
    have lead := F.le_significand (c := b) (by omega)
    have sc := F.significand_lt c
    have more : (F.doublings c + 1) * 2 ^ F.fractionBits ≤ F.doublings b * 2 ^ F.fractionBits :=
      Nat.mul_le_mul_right _ hgt
    rw [Nat.add_mul, Nat.one_mul] at more
    omega

/-- A larger code is not a smaller number. -/
theorem units_le_units {b c : ℕ} (h : b ≤ c) : F.units b ≤ F.units c := by
  rcases Nat.lt_or_eq_of_le h with hlt | rfl
  · exact Nat.le_of_mul_le_mul_left (Nat.le_of_add_right_le (F.units_add_doublings_le hlt)) Nat.two_pos
  · exact le_rfl

/-- Two numbers of a format are apart by a `2 ^ (fractionBits + 2)`th part of the larger one. -/
theorem units_gap {b c : ℕ} (h : b < c) :
    2 ^ (F.fractionBits + 2) * F.units b + F.units c ≤ 2 ^ (F.fractionBits + 2) * F.units c := by
  calc 2 ^ (F.fractionBits + 2) * F.units b + F.units c
      ≤ 2 ^ (F.fractionBits + 2) * F.units b + 2 ^ (F.fractionBits + 1) * 2 ^ F.doublings c :=
        Nat.add_le_add_left (F.units_lt c).le _
    _ = 2 ^ (F.fractionBits + 1) * (2 * F.units b + 2 ^ F.doublings c) := by ring
    _ ≤ 2 ^ (F.fractionBits + 1) * (2 * F.units c) :=
        Nat.mul_le_mul_left _ (F.units_add_doublings_le h)
    _ = 2 ^ (F.fractionBits + 2) * F.units c := by ring

/-- How often the significand of the number nearest to a fraction is doubled. -/
theorem doublings_nearest {a b : ℕ} (hb : 0 < b) :
    a < b * 2 ^ ((a / b).log2 - F.fractionBits + F.fractionBits + 1) ∧
      ((a / b).log2 - F.fractionBits = 0 ∨
        b * 2 ^ ((a / b).log2 - F.fractionBits + F.fractionBits) ≤ a) := by
  constructor
  · rw [Nat.mul_comm, ← Nat.div_lt_iff_lt_mul hb]
    exact Nat.lt_log2_self.trans_le (Nat.pow_le_pow_right (by decide) (by omega))
  · by_cases h : (a / b).log2 ≤ F.fractionBits
    · left
      omega
    · right
      have hq : a / b ≠ 0 := by
        intro h0
        simp [h0] at h
      rw [Nat.sub_add_cancel (by omega), Nat.mul_comm, ← Nat.le_div_iff_mul_le hb]
      exact Nat.log2_self_le hq

/-- The significand of the number nearest to a fraction may be one bit too long, and it has its
leading bit if it is doubled. -/
theorem significand_nearest {a b : ℕ} (hb : 0 < b) :
    divideToEven a (b * 2 ^ ((a / b).log2 - F.fractionBits)) ≤ 2 * 2 ^ F.fractionBits ∧
      ((a / b).log2 - F.fractionBits = 0 ∨
        2 ^ F.fractionBits ≤ divideToEven a (b * 2 ^ ((a / b).log2 - F.fractionBits))) := by
  obtain ⟨upper, lower⟩ := F.doublings_nearest (a := a) hb
  generalize (a / b).log2 - F.fractionBits = k at *
  constructor
  · refine divideToEven_le (by positivity) ?_
    calc a ≤ b * 2 ^ (k + F.fractionBits + 1) := upper.le
      _ = 2 * 2 ^ F.fractionBits * (b * 2 ^ k) := by ring
  · refine lower.imp_right fun lower => le_divideToEven (by positivity) ?_
    calc 2 ^ F.fractionBits * (b * 2 ^ k) = b * 2 ^ (k + F.fractionBits) := by ring
      _ ≤ a := lower

/-- A larger fraction does not have a smaller nearest code. -/
theorem nearest_le_of_mul_le {a b c d : ℕ} (hb : 0 < b) (hd : 0 < d) (h : a * d ≤ c * b) :
    F.nearest a b ≤ F.nearest c d := by
  obtain ⟨upper, -⟩ := F.significand_nearest (a := a) hb
  obtain ⟨-, lower⟩ := F.significand_nearest (a := c) hd
  have hk : (a / b).log2 - F.fractionBits ≤ (c / d).log2 - F.fractionBits := by
    refine Nat.sub_le_sub_right ?_ _
    by_cases hq : a / b = 0
    · simp [hq]
    have hle : a / b ≤ c / d := by
      rw [Nat.le_div_iff_mul_le hd]
      refine Nat.le_of_mul_le_mul_right ?_ hb
      calc a / b * d * b = b * (a / b) * d := by ring
        _ ≤ a * d := Nat.mul_le_mul_right d (Nat.mul_div_le a b)
        _ ≤ c * b := h
    have := Nat.log2_self_le hq
    exact (Nat.le_log2 (Nat.pos_of_ne_zero hq |>.trans_le hle).ne').mpr (this.trans hle)
  unfold nearest
  dsimp only
  simp only [twoPow_eq]
  generalize (a / b).log2 - F.fractionBits = k at *
  generalize (c / d).log2 - F.fractionBits = l at *
  refine min_le_min_right _ ?_
  rcases Nat.lt_or_eq_of_le hk with hlt | rfl
  · -- The smaller fraction reaches at most the next number of doublings, where the larger begins.
    have lower := lower.resolve_left (by omega)
    calc k * 2 ^ F.fractionBits + divideToEven a (b * 2 ^ k)
        ≤ k * 2 ^ F.fractionBits + 2 * 2 ^ F.fractionBits := Nat.add_le_add_left upper _
      _ = (k + 1) * 2 ^ F.fractionBits + 2 ^ F.fractionBits := by ring
      _ ≤ l * 2 ^ F.fractionBits + divideToEven c (d * 2 ^ l) :=
        Nat.add_le_add (Nat.mul_le_mul_right _ hlt) lower
  · refine Nat.add_le_add_left (divideToEven_le_of_mul_le (by positivity) (by positivity) ?_) _
    calc a * (d * 2 ^ k) = a * d * 2 ^ k := by ring
      _ ≤ c * b * 2 ^ k := Nat.mul_le_mul_right _ h
      _ = c * (b * 2 ^ k) := by ring

/-- A number of the format is its own nearest code. -/
theorem nearest_units {c : ℕ} (hc : c ≤ F.infinity) {m : ℕ} (hm : 0 < m) :
    F.nearest (F.units c * m) m = c := by
  have code := F.doublings_add_significand c
  have bits := F.significand_lt c
  have doublings : (F.units c).log2 - F.fractionBits = F.doublings c := by
    rw [units_eq]
    by_cases h0 : F.significand c = 0
    · have : F.doublings c = 0 := by
        by_contra h
        have := F.le_significand h
        have := Nat.two_pow_pos F.fractionBits
        omega
      simp [h0, this]
    have exact : F.significand c * 2 ^ F.doublings c ≠ 0 := by positivity
    have upper : (F.significand c * 2 ^ F.doublings c).log2 <
        F.fractionBits + 1 + F.doublings c := by
      rw [Nat.log2_lt exact, Nat.pow_add, Nat.pow_succ']
      exact Nat.mul_lt_mul_of_pos_right bits (Nat.two_pow_pos _)
    by_cases h : F.doublings c = 0
    · omega
    · have lower : F.fractionBits + F.doublings c ≤
          (F.significand c * 2 ^ F.doublings c).log2 := by
        rw [Nat.le_log2 exact, Nat.pow_add]
        exact Nat.mul_le_mul_right _ (F.le_significand h)
      omega
  have whole : F.units c * m = F.significand c * (m * 2 ^ F.doublings c) := by
    rw [units_eq]
    ring
  unfold nearest
  dsimp only
  rw [Nat.mul_div_cancel _ hm, doublings, whole, twoPow_eq, twoPow_eq,
    divideToEven_mul_self (by positivity), code, min_eq_left hc]

theorem nearest_zero {b : ℕ} (hb : 0 < b) : F.nearest 0 b = 0 := by
  have zero := F.nearest_units (Nat.zero_le _) hb
  rwa [units_zero, Nat.zero_mul] at zero

theorem nearest_le_infinity (a b : ℕ) : F.nearest a b ≤ F.infinity := min_le_right _ _

theorem infinity_lt_codes : F.infinity < F.codes := by
  have h : F.codes = 2 ^ F.exponentBits * 2 ^ F.fractionBits := Nat.pow_add 2 _ _
  rw [h]
  exact Nat.mul_lt_mul_of_pos_right (Nat.sub_lt (Nat.two_pow_pos _) Nat.one_pos)
    (Nat.two_pow_pos _)

end Format

end Binary

end EntityQuery
