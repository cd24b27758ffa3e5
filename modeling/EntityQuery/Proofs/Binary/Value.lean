import EntityQuery.Proofs.Binary.Rounding
import Mathlib.Algebra.Order.Field.Basic
import Mathlib.Algebra.Order.Ring.Rat
import Mathlib.Tactic.Linarith

/-!
# Values of binary numbers

The exact value of a finite number is a rational number, and the order of places is the order of
values. The nearest number of a fraction depends on the value of the fraction alone, keeps the
order, and is the number itself where the fraction is one. So a fraction is on the same side of a
number as its nearest number, unless it is rounded to that number.
-/

namespace EntityQuery

/-- A number under a sign. -/
def signed (negative : Bool) (n : ℕ) : ℤ := if negative then -(n : ℤ) else n

@[simp] theorem signed_false (n : ℕ) : signed false n = n := rfl

@[simp] theorem signed_true (n : ℕ) : signed true n = -(n : ℤ) := rfl

@[simp] theorem signed_zero (s : Bool) : signed s 0 = 0 := by cases s <;> rfl

theorem signed_mul (s : Bool) (n m : ℕ) : signed s (n * m) = signed s n * m := by
  cases s <;> simp

theorem natAbs_signed (s : Bool) (n : ℕ) : (signed s n).natAbs = n := by
  cases s <;> simp

theorem signed_natAbs (n : ℤ) : signed (n < 0) n.natAbs = n := by
  unfold signed
  simp only [decide_eq_true_eq]
  split <;> omega

namespace Binary

variable {F : Format}

/-! ### The order -/

theorem place_eq (x : Binary F) : x.place = signed x.negative x.code := rfl

theorem compare?_of_not_isNaN {x y : Binary F} (hx : x.isNaN = false) (hy : y.isNaN = false) :
    x.compare? y = some (compare x.place y.place) := by
  simp [compare?, hx, hy]

theorem compare?_of_isNaN {x y : Binary F} (h : x.isNaN = true ∨ y.isNaN = true) :
    x.compare? y = none := by
  rw [compare?, if_pos (by simpa using h)]

theorem compare?_swap (x y : Binary F) : y.compare? x = (x.compare? y).map Ordering.swap := by
  unfold compare?
  rw [Bool.or_comm]
  split
  · rfl
  · exact congrArg some Std.OrientedCmp.eq_swap

theorem isFinite_iff {x : Binary F} : x.isFinite = true ↔ x.code < F.infinity := by
  simp [isFinite]

theorem isNaN_eq_false_iff {x : Binary F} : x.isNaN = false ↔ x.code ≤ F.infinity := by
  simp [isNaN]

theorem abs_place (x : Binary F) : |x.place| = x.code := by
  rw [place_eq, Int.abs_eq_natAbs, natAbs_signed]

theorem isNaN_of_isFinite {x : Binary F} (h : x.isFinite = true) : x.isNaN = false := by
  exact isNaN_eq_false_iff.mpr (isFinite_iff.mp h).le

theorem code_of_infinite {x : Binary F} (hn : x.isNaN = false) (h : x.isFinite = false) :
    x.code = F.infinity := by
  refine le_antisymm (isNaN_eq_false_iff.mp hn) (not_lt.mp (mt isFinite_iff.mpr ?_))
  rw [h]
  exact Bool.false_ne_true

theorem abs_place_lt {x : Binary F} (h : x.isFinite = true) : |x.place| < F.infinity := by
  rw [abs_place]
  exact_mod_cast isFinite_iff.mp h

/-! ### Rounding -/

theorem code_ofFraction (s : Bool) (a b : ℕ) :
    (ofFraction F s a b).code = F.nearest (a * twoPow F.unitExponent) b := by
  have := F.nearest_le_infinity (a * twoPow F.unitExponent) b
  have := F.infinity_lt_codes
  exact min_eq_left (by omega)

theorem place_ofFraction (s : Bool) (a b : ℕ) :
    (ofFraction F s a b).place = signed s (F.nearest (a * twoPow F.unitExponent) b) := by
  rw [place_eq, code_ofFraction]
  rfl

theorem isNaN_ofFraction (s : Bool) (a b : ℕ) : (ofFraction F s a b).isNaN = false := by
  rw [isNaN_eq_false_iff, code_ofFraction]
  exact F.nearest_le_infinity _ _

/-- A number of one format is a number in every other. -/
theorem isNaN_convert {G : Format} {x : Binary F} (h : x.isNaN = false) :
    (x.convert G).isNaN = false := by
  rw [convert, h]
  simp only [Bool.false_eq_true, if_false]
  split
  · exact isNaN_ofFraction _ _ _
  · exact isNaN_eq_false_iff.mpr (Nat.min_le_left _ _)

theorem code_convert {G : Format} {x : Binary F} (h : x.isFinite = true) : (x.convert G).code =
    G.nearest (F.units x.code * twoPow G.unitExponent) (twoPow F.unitExponent) := by
  rw [convert, isNaN_of_isFinite h, h]
  exact code_ofFraction _ _ _

/-- Of two numbers the one with the larger code does not have the smaller code in another format. -/
theorem code_convert_le {G : Format} {x y : Binary F} (hx : x.isFinite = true)
    (hy : y.isFinite = true) (h : x.code ≤ y.code) : (x.convert G).code ≤ (y.convert G).code := by
  rw [code_convert hx, code_convert hy]
  refine G.nearest_le_of_mul_le (twoPow_pos _) (twoPow_pos _) ?_
  exact Nat.mul_le_mul_right _ (Nat.mul_le_mul_right _ (F.units_le_units h))

/-- The nearest number to a larger fraction is not smaller. -/
theorem place_ofFraction_le {s t : Bool} {a b c d : ℕ} (hb : 0 < b) (hd : 0 < d)
    (h : (signed s a : ℚ) / b ≤ signed t c / d) :
    (ofFraction F s a b).place ≤ (ofFraction F t c d).place := by
  have cross : signed s a * d ≤ signed t c * b := by
    rw [div_le_div_iff₀ (by exact_mod_cast hb) (by exact_mod_cast hd)] at h
    exact_mod_cast h
  have mono {a b c d : ℕ} (hb : 0 < b) (hd : 0 < d) (h : a * d ≤ c * b) :
      F.nearest (a * twoPow F.unitExponent) b ≤ F.nearest (c * twoPow F.unitExponent) d := by
    refine F.nearest_le_of_mul_le hb hd ?_
    rw [Nat.mul_right_comm, Nat.mul_right_comm c]
    exact Nat.mul_le_mul_right _ h
  rw [place_ofFraction, place_ofFraction]
  cases s <;> cases t <;> simp only [signed_false, signed_true] at cross ⊢
  case false.false => exact_mod_cast mono hb hd (by exact_mod_cast cross)
  case true.true =>
    rw [Int.neg_mul, Int.neg_mul, Int.neg_le_neg_iff] at cross
    exact Int.neg_le_neg (by exact_mod_cast mono hd hb (by exact_mod_cast cross))
  case true.false => omega
  case false.true =>
    -- Only zero is both at least and at most zero.
    have hl : (0 : ℤ) ≤ a * d := by positivity
    have hr : (0 : ℤ) ≤ c * b := by positivity
    have ha : a * d = 0 := by exact_mod_cast (by linarith : (a * d : ℤ) = 0)
    have hc : c * b = 0 := by exact_mod_cast (by linarith : (c * b : ℤ) = 0)
    rw [(Nat.mul_eq_zero.mp ha).resolve_right hd.ne', (Nat.mul_eq_zero.mp hc).resolve_right hb.ne',
      Nat.zero_mul, F.nearest_zero hb, F.nearest_zero hd]
    rfl

/-! ### Values -/

/-- The exact value of a finite number. -/
def value (x : Binary F) : ℚ := signed x.negative (F.units x.code) / 2 ^ F.unitExponent

/-- A finite number is its own nearest number. -/
theorem place_ofFraction_self {x : Binary F} (h : x.isFinite = true) :
    (ofFraction F x.negative (F.units x.code) (2 ^ F.unitExponent)).place = x.place := by
  rw [place_ofFraction, place_eq, twoPow_eq,
    F.nearest_units (isFinite_iff.mp h).le (Nat.two_pow_pos _)]

/-- A fraction below a finite number is not rounded to a larger one. -/
theorem place_ofFraction_le_place {x : Binary F} (hx : x.isFinite = true) {s : Bool} {a b : ℕ}
    (hb : 0 < b) (h : (signed s a : ℚ) / b ≤ x.value) : (ofFraction F s a b).place ≤ x.place := by
  rw [← place_ofFraction_self hx]
  refine place_ofFraction_le hb (Nat.two_pow_pos _) ?_
  simpa [value] using h

/-- A fraction above a finite number is not rounded to a smaller one. -/
theorem place_le_place_ofFraction {x : Binary F} (hx : x.isFinite = true) {s : Bool} {a b : ℕ}
    (hb : 0 < b) (h : x.value ≤ (signed s a : ℚ) / b) : x.place ≤ (ofFraction F s a b).place := by
  rw [← place_ofFraction_self hx]
  refine place_ofFraction_le (Nat.two_pow_pos _) hb ?_
  simpa [value] using h

/-- An integer above a finite number is not rounded to a smaller one. -/
theorem place_le_place_ofInt {x : Binary F} (hx : x.isFinite = true) {n : ℤ} (h : x.value ≤ n) :
    x.place ≤ (ofInt F n).place := by
  refine place_le_place_ofFraction hx Nat.one_pos ?_
  rwa [signed_natAbs, Nat.cast_one, div_one]

/-- A finite number is an integer if that is its value. -/
theorem toInt?_eq_some_iff {x : Binary F} {n : ℤ} :
    x.toInt? = some n ↔ x.isFinite = true ∧ x.value = n := by
  have one : (2 : ℤ) ^ F.unitExponent ≠ 0 := by positivity
  have whole : x.value = n ↔ signed x.negative (F.units x.code) = n * 2 ^ F.unitExponent := by
    rw [value, div_eq_iff (by exact_mod_cast one)]
    exact_mod_cast Iff.rfl
  have cut : x.toInt? = if x.isFinite = true ∧ 2 ^ F.unitExponent ∣ F.units x.code then
      some (signed x.negative (F.units x.code / 2 ^ F.unitExponent)) else none := by
    simp only [toInt?, Bool.and_eq_true, beq_iff_eq, twoPow_eq, Nat.dvd_iff_mod_eq_zero]
    rfl
  rw [cut, whole]
  split
  · next h =>
    obtain ⟨finite, q, hq⟩ := h
    rw [hq, Nat.mul_div_cancel_left _ (Nat.two_pow_pos _), Nat.mul_comm, signed_mul,
      Option.some.injEq, Nat.cast_pow, Nat.cast_ofNat, mul_left_inj' one]
    exact ⟨fun h => ⟨finite, h⟩, fun h => h.2⟩
  · next h =>
    refine iff_of_false nofun fun ⟨finite, equal⟩ => h ⟨finite, n.natAbs, ?_⟩
    have := congrArg Int.natAbs equal
    rwa [natAbs_signed, Int.natAbs_mul, Int.natAbs_pow, Nat.mul_comm] at this

/-- Only the two zeros share a place. -/
theorem eq_or_code_eq_zero {x y : Binary F} (h : x.place = y.place) :
    x = y ∨ x.code = 0 ∧ y.code = 0 := by
  rw [place_eq, place_eq] at h
  have code : x.code = y.code := by simpa [natAbs_signed] using congrArg Int.natAbs h
  by_cases hs : x.negative = y.negative
  · left
    cases x
    cases y
    simp_all
  · right
    rw [code, and_self]
    rw [code] at h
    cases hx : x.negative <;> cases hy : y.negative <;> simp_all

theorem value_of_code_eq_zero {x : Binary F} (h : x.code = 0) : x.value = 0 := by
  rw [value, h, F.units_zero, signed_zero, Int.cast_zero, zero_div]

/-- Numbers in one place have one value. -/
theorem value_eq_of_place_eq {x y : Binary F} (h : x.place = y.place) : x.value = y.value := by
  rcases eq_or_code_eq_zero h with rfl | ⟨hx, hy⟩
  · rfl
  · rw [value_of_code_eq_zero hx, value_of_code_eq_zero hy]

/-- The order of places is the order of values. -/
theorem value_le_value_iff {x y : Binary F} (hx : x.isFinite = true) (hy : y.isFinite = true) :
    x.value ≤ y.value ↔ x.place ≤ y.place := by
  have mono {x y : Binary F} (hx : x.isFinite = true) (hy : y.isFinite = true)
      (h : x.value ≤ y.value) : x.place ≤ y.place := by
    rw [← place_ofFraction_self hx]
    refine place_ofFraction_le_place hy (Nat.two_pow_pos _) ?_
    simpa [value] using h
  refine ⟨mono hx hy, fun h => ?_⟩
  by_contra hlt
  have hlt := not_le.mp hlt
  have same := le_antisymm h (mono hy hx hlt.le)
  exact hlt.ne' (value_eq_of_place_eq same)

end Binary

end EntityQuery
