import EntityQuery.Decimal.Basic
import EntityQuery.Proofs.Binary.Value
import Mathlib.Algebra.Order.Ring.Abs
import Mathlib.Tactic.FieldSimp
import Mathlib.Tactic.NormNum

/-!
# Values of decimals

The exact value of a decimal is a rational number, less than `2 ^ 96` in size, and decimals are in
the order of their values.
-/

namespace EntityQuery

theorem tenPow_eq (n : ℕ) : tenPow n = 10 ^ n := rfl

namespace Decimal

/-- The exact value. -/
def value (d : Decimal) : ℚ := d.signed / 10 ^ d.scale

/-- Integers compare as the rational numbers they are. -/
theorem compare_intCast (n m : ℤ) : compare (n : ℚ) (m : ℚ) = compare n m := by
  rw [← cmp_eq_compare, ← cmp_eq_compare, (Int.cast_strictMono (R := ℚ)).cmp_map_eq]

/-- Decimals are in the order of their values. -/
theorem order_eq_compare (d e : Decimal) : d.order e = compare d.value e.value := by
  have common : (0 : ℚ) < 10 ^ d.scale * 10 ^ e.scale := by positivity
  unfold order value
  rw [← compare_intCast, ← cmp_eq_compare, ← cmp_eq_compare,
    ← cmp_mul_pos_right common (d.signed / _)]
  congr 1
  · rw [tenPow_eq]
    push_cast
    field_simp
  · rw [tenPow_eq]
    push_cast
    field_simp

/-- The value is the fraction that is rounded to a binary number. -/
theorem value_eq_fraction (d : Decimal) :
    d.value = (EntityQuery.signed d.negative d.coefficient : ℚ) / (tenPow d.scale : ℕ) := by
  rw [value, tenPow_eq]
  push_cast
  rfl

theorem value_ofInt64 (n : Int64) : (ofInt64 n).value = n.toInt := by
  rw [value, signed_ofInt64]
  simp [ofInt64]

theorem abs_value_lt (d : Decimal) : |d.value| < limit := by
  have size : |(d.signed : ℚ)| = d.coefficient := by
    unfold Decimal.signed
    split <;> simp
  rw [value, abs_div, size, abs_of_nonneg (by positivity)]
  calc (d.coefficient : ℚ) / 10 ^ d.scale ≤ d.coefficient :=
        div_le_self (Nat.cast_nonneg _) (one_le_pow₀ (by norm_num))
    _ < limit := by exact_mod_cast d.coefficient_lt

end Decimal

end EntityQuery
