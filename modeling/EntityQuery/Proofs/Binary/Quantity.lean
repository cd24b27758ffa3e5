import EntityQuery.Proofs.Binary.Nearest
import Mathlib.Order.WithBotTop

/-!
# What binary numbers mean

A binary number means a rational number, or more or less than all of them. The order of 64-bit
numbers is the order of what they mean (`Binary.compare_quantity`), and a 32-bit number means the
same in the 64-bit format (`Binary.quantity_widen`).
-/

namespace EntityQuery

/-- Pairs in the same order compare alike. -/
theorem compare_congr {α β : Type*} [LinearOrder α] [LinearOrder β] {a b : α} {c d : β}
    (le : a ≤ b ↔ c ≤ d) (ge : b ≤ a ↔ d ≤ c) : compare a b = compare c d := by
  rcases lt_trichotomy c d with h | h | h
  · rw [compare_lt_iff_lt.mpr h, compare_lt_iff_lt, ← not_le, ge, not_le]
    exact h
  · rw [compare_eq_iff_eq.mpr h, compare_eq_iff_eq]
    exact le_antisymm (le.mpr h.le) (ge.mpr h.ge)
  · rw [compare_gt_iff_gt.mpr h, compare_gt_iff_gt, ← not_le, le, not_le]
    exact h

/-- A rational number, or more or less than all of them. -/
abbrev Quantity := WithBotTop ℚ

theorem compare_coe (p q : ℚ) : compare (p : Quantity) (q : Quantity) = compare p q :=
  compare_congr WithBotTop.coe_le_coe WithBotTop.coe_le_coe

namespace Binary

section

variable {F : Format} {x : Binary F} {q : Quantity}

/-- What a number means that is not a not-a-number. -/
def quantity (x : Binary F) : Quantity :=
  if x.isFinite then (x.value : Quantity) else if x.negative then ⊥ else ⊤

/-- What a number means, if it means anything. -/
def quantity? (x : Binary F) : Option Quantity := if x.isNaN then none else some x.quantity

theorem quantity?_eq_some_iff : x.quantity? = some q ↔ x.isNaN = false ∧ x.quantity = q := by
  unfold quantity?
  cases x.isNaN <;> simp

theorem quantity_of_isFinite (h : x.isFinite = true) : x.quantity = (x.value : Quantity) := if_pos h

theorem quantity_of_infinite (h : x.isFinite = false) :
    x.quantity = if x.negative then ⊥ else ⊤ :=
  if_neg (by simp [h])

theorem quantity?_of_toInt? {n : ℤ} (h : x.toInt? = some n) :
    x.quantity? = some ((n : ℚ) : Quantity) := by
  obtain ⟨finite, value⟩ := toInt?_eq_some_iff.mp h
  rw [quantity?_eq_some_iff, quantity_of_isFinite finite, value]
  exact ⟨isNaN_of_isFinite finite, rfl⟩

end

/-! ### The order -/

section

variable {x y : Binary64}

/-- An infinity is beyond what all finite numbers mean. -/
theorem quantity_le_quantity_iff (hx : x.isNaN = false) (hy : y.isNaN = false) :
    x.quantity ≤ y.quantity ↔ x.place ≤ y.place := by
  have pos : 0 < Format.binary64.infinity := by decide
  cases fx : x.isFinite <;> cases fy : y.isFinite
  · rw [quantity_of_infinite fx, quantity_of_infinite fy, place_eq, place_eq,
      code_of_infinite hx fx, code_of_infinite hy fy]
    cases x.negative <;> cases y.negative <;> simp [pos.ne']
  · rw [quantity_of_infinite fx, quantity_of_isFinite fy, place_eq, code_of_infinite hx fx]
    obtain ⟨lower, upper⟩ := abs_lt.mp (abs_place_lt fy)
    cases x.negative
    · simpa using upper
    · simpa using lower.le
  · rw [quantity_of_isFinite fx, quantity_of_infinite fy, place_eq y, code_of_infinite hy fy]
    obtain ⟨lower, upper⟩ := abs_lt.mp (abs_place_lt fx)
    cases y.negative
    · simpa using upper.le
    · simpa using lower
  · rw [quantity_of_isFinite fx, quantity_of_isFinite fy, WithBotTop.coe_le_coe,
      value_le_value_iff fx fy]

/-- The order of numbers is the order of what they mean. -/
theorem compare_quantity (hx : x.isNaN = false) (hy : y.isNaN = false) :
    compare x.quantity y.quantity = compare x.place y.place :=
  compare_congr (quantity_le_quantity_iff hx hy) (quantity_le_quantity_iff hy hx)

end

/-! ### Widening -/

/-- A 32-bit number means the same as a 64-bit number. -/
theorem quantity_widen {x : Binary32} (h : x.isNaN = false) :
    (x.convert .binary64).quantity = x.quantity := by
  cases fx : x.isFinite with
  | false =>
    have infinite : x.convert .binary64 = Binary.infinite .binary64 x.negative := by
      rw [convert, h, fx]
      rfl
    have beyond (s : Bool) : (Binary.infinite .binary64 s).isFinite = false := by
      cases s <;> decide
    rw [quantity_of_infinite fx, infinite, quantity_of_infinite (beyond _)]
    rfl
  | true =>
    have converted : x.convert .binary64 = ofFraction .binary64 x.negative
        (Format.binary32.units x.code) (twoPow Format.binary32.unitExponent) := by
      rw [convert, h, fx]
      rfl
    -- All bits of the significand fit, and its doublings are in the range.
    obtain ⟨c, units, hc⟩ := Format.binary64.exists_units
      (s := Format.binary32.significand x.code)
      ((Format.binary32.significand_lt x.code).le.trans (by decide))
      (Format.binary32.doublings x.code + 925)
    have range : c < Format.binary64.infinity := by
      refine hc.trans_lt (Nat.mul_lt_mul_of_pos_right ?_ (Nat.two_pow_pos _))
      have code : x.code < 255 * 2 ^ 23 := isFinite_iff.mp fx
      have doublings : Format.binary32.doublings x.code * 2 ^ 23 ≤ x.code :=
        Nat.le_of_add_right_le (Format.binary32.doublings_add_significand x.code).le
      change _ < 2047
      omega
    have exact : Format.binary64.units c * twoPow Format.binary32.unitExponent =
        Format.binary32.units x.code * 2 ^ Format.binary64.unitExponent := by
      have exponents : 2 ^ 925 * twoPow Format.binary32.unitExponent =
          2 ^ Format.binary64.unitExponent := by decide +kernel
      rw [units, Format.units_eq, ← exponents, pow_add]
      simp only [Nat.mul_assoc]
    obtain ⟨finite, value⟩ :=
      value_ofFraction_of_exact (s := x.negative) (twoPow_pos _) range exact
    rw [converted, quantity_of_isFinite finite, quantity_of_isFinite fx, value, Binary.value,
      twoPow_eq, Nat.cast_pow, Nat.cast_ofNat]

end Binary

end EntityQuery
