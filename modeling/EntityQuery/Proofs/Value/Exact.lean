import EntityQuery.Proofs.Binary.Quantity
import EntityQuery.Proofs.Decimal.Nearness
import EntityQuery.Proofs.Value.Coherence
import Mathlib.Algebra.Order.Group.Pointwise.Interval

/-!
# Numbers as what they mean

A number of any width means a rational number, or more or less than all of them. Numbers of one kind
are in the order of what they mean, and so are most pairs of an exact number and a float. The others
are *blurred*: rounding takes the exact number to the float, or the float to the exact number or
past it. Being blurred is all that can go wrong (`Value.compare?_exact_iff`), and only numbers that
are next to each other are blurred.
-/

namespace EntityQuery

open Binary

/-! ### Orders after rounding -/

section Order

variable {α : Type*} [LinearOrder α] {a b r : α}

/-- Rounding that keeps to its side of a number changes the order with that number just by reaching
it. -/
theorem compare_left_eq_iff (le : a ≤ b → r ≤ b) (ge : b ≤ a → b ≤ r) :
    compare r b = compare a b ↔ ¬ (r = b ∧ a ≠ b) := by
  rcases lt_trichotomy a b with h | h | h
  · rw [compare_lt_iff_lt.mpr h, compare_lt_iff_lt]
    simp [h.ne, lt_iff_le_and_ne, le h.le]
  · have reached : r = b := le_antisymm (le h.le) (ge h.ge)
    simp [h, reached]
  · rw [compare_gt_iff_gt.mpr h, compare_gt_iff_gt]
    simp [h.ne', lt_iff_le_and_ne, ge h.le, eq_comm]

/-- Replacing a number changes its order with another just by reaching or passing that. -/
theorem compare_right_eq_iff : compare a r = compare a b ↔ ¬ (r ≠ b ∧ a ∈ Set.uIcc b r) := by
  rw [Set.mem_uIcc]
  rcases lt_trichotomy a b with h | rfl | h
  · rw [compare_lt_iff_lt.mpr h, compare_lt_iff_lt]
    simp only [h.not_ge, h.le, false_and, false_or, and_true, not_and, not_le]
    exact ⟨fun lt _ => lt, fun lt => (eq_or_ne r b).elim (fun eq => eq ▸ h) lt⟩
  · rw [compare_eq_iff_eq.mpr rfl, compare_eq_iff_eq]
    simp [le_total, eq_comm]
  · rw [compare_gt_iff_gt.mpr h, compare_gt_iff_gt]
    simp only [h.not_ge, h.le, true_and, and_false, or_false, not_and, not_le]
    exact ⟨fun lt _ => lt, fun lt => (eq_or_ne r b).elim (fun eq => eq ▸ h) lt⟩

end Order

namespace AnyNumber

/-- What a number means, if it is not a not-a-number. -/
def quantity : AnyNumber → Quantity
  | .integer n => ((n.toInt : ℚ) : Quantity)
  | .decimal d => (d.value : Quantity)
  | .float x => x.quantity

/-- A number that is not a float is blurred into one: rounding takes one of the two to the other, or
past it. -/
inductive Blurs : AnyNumber → Binary64 → Prop where
  /-- The float is the nearest one to the number, as which the number is compared, but not the
  number itself. -/
  | nearest {a : AnyNumber} {x : Binary64} : a.isFloat = false → x.isFinite = true →
      (∃ n, a = .integer n) ∨ Decimal.ofBinary64? x = none →
      a.rounded.value = x.value → a.value ≠ x.value → Blurs a x
  /-- The decimal, as which the float is compared, is not the float, and the number is at or between
  the two. -/
  | between {d e : Decimal} {x : Binary64} : Decimal.ofBinary64? x = some e → e.value ≠ x.value →
      d.value ∈ Set.uIcc x.value e.value → Blurs (.decimal d) x

variable {a b : AnyNumber} {x : Binary64}

theorem quantity_of_exact (h : a.isFloat = false) : a.quantity = (a.value : Quantity) := by
  cases a <;> first | rfl | contradiction

theorem abs_value_lt (h : a.isFloat = false) : |a.value| < Decimal.limit := by
  cases a with
  | integer n => simpa [value, Decimal.value_ofInt64] using (Decimal.ofInt64 n).abs_value_lt
  | decimal d => exact d.abs_value_lt
  | float => contradiction

/-- The nearest float of an exact number is finite. -/
theorem isFinite_rounded (h : a.isFloat = false) : a.rounded.isFinite = true := by
  obtain ⟨lower, upper⟩ := abs_lt.mp (abs_value_lt h)
  -- The bounds of the decimals are floats.
  obtain ⟨finite, most⟩ := toInt?_eq_some_iff.mp
    (by decide +kernel : (ofBits .binary64 0x45f0000000000000).toInt? = some (Decimal.limit : ℤ))
  obtain ⟨finite', least⟩ := toInt?_eq_some_iff.mp
    (by decide +kernel : (ofBits .binary64 0xc5f0000000000000).toInt? = some (-Decimal.limit : ℤ))
  have above : a.rounded.place ≤ (ofBits .binary64 0x45f0000000000000).place :=
    place_rounded_le_place h finite (by rw [most]; exact_mod_cast upper.le)
  have below : (ofBits .binary64 0xc5f0000000000000).place ≤ a.rounded.place :=
    place_le_place_rounded h finite' (by rw [least]; push_cast; exact lower.le)
  have size : |a.rounded.place| < Format.binary64.infinity :=
    abs_lt.mpr ⟨lt_of_lt_of_le (by decide +kernel) below, above.trans_lt (by decide +kernel)⟩
  rw [abs_place] at size
  exact isFinite_iff.mpr (by exact_mod_cast size)

/-! ### An exact number and a float -/

/-- A number that is not a float is in the order with a float that the values of the two are in,
unless it is blurred. -/
theorem order_float_eq_iff (ha : a.isFloat = false) (hx : x.isFinite = true) :
    a.order (.float x) = compare a.value x.value ↔ ¬ a.Blurs x := by
  rcases order_exact_float ha (isNaN_of_isFinite hx) with ⟨eq, way⟩ | ⟨d, e, rfl, he, eq⟩
  · have finite := isFinite_rounded ha
    have rounded : compare a.rounded.place x.place = compare a.rounded.value x.value :=
      compare_congr (value_le_value_iff finite hx).symm (value_le_value_iff hx finite).symm
    rw [eq, rounded, compare_left_eq_iff
      (fun h => (value_le_value_iff finite hx).mpr (place_rounded_le_place ha hx h))
      (fun h => (value_le_value_iff hx finite).mpr (place_le_place_rounded ha hx h)),
      not_iff_not]
    constructor
    · rintro ⟨reached, other⟩
      exact .nearest ha hx way reached other
    · intro blurs
      cases blurs with
      | nearest _ _ _ reached other => exact ⟨reached, other⟩
      | between he => simp [he] at way
  · rw [eq, compare_right_eq_iff, not_iff_not]
    constructor
    · rintro ⟨other, passed⟩
      exact .between he other passed
    · intro blurs
      cases blurs with
      | nearest _ _ way => simp [he] at way
      | between he' other passed =>
        obtain rfl := Option.some.inj (he.symm.trans he')
        exact ⟨other, passed⟩

/-- All exact numbers are on one side of an infinity. -/
theorem order_infinite (ha : a.isFloat = false) (hx : x.isNaN = false)
    (infinite : x.isFinite = false) :
    a.order (.float x) = compare a.quantity (AnyNumber.float x).quantity := by
  rcases order_exact_float ha hx with ⟨eq, -⟩ | ⟨d, e, -, he, -⟩
  · rw [eq, ← compare_quantity (isNaN_rounded ha) hx, quantity_of_isFinite (isFinite_rounded ha),
      quantity_of_exact ha, quantity, quantity_of_infinite infinite]
    cases x.negative <;> exact compare_congr (by simp) (by simp)
  · exact absurd (Decimal.isFinite_of_ofBinary64? he) (by simp [infinite])

theorem Blurs.isFinite (h : a.Blurs x) : x.isFinite = true := by
  cases h with
  | nearest _ finite => exact finite
  | between he => exact Decimal.isFinite_of_ofBinary64? he

theorem Blurs.isFloat (h : a.Blurs x) : a.isFloat = false := by
  cases h with
  | nearest exact => exact exact
  | between => rfl

/-- What blurs is next to what it is blurred into. -/
theorem Blurs.abs_sub_le (h : a.Blurs x) :
    |a.value - x.value| ≤ max |a.value| |x.value| / 2 ^ 49 + 2 / 10 ^ Decimal.maxScale := by
  cases h with
  | nearest exact _ _ reached =>
    obtain ⟨s, num, den, hd, eq, val⟩ := exists_rounded exact
    have near := abs_value_ofFraction_sub_le hd (eq ▸ isFinite_rounded exact)
    rw [← eq, ← val, reached, abs_sub_comm] at near
    have tiny : (1 : ℚ) / 2 ^ 1075 ≤ 2 / 10 ^ Decimal.maxScale :=
      calc (1 : ℚ) / 2 ^ 1075 ≤ 1 / 2 ^ 100 := by gcongr <;> norm_num
        _ ≤ 2 / 10 ^ Decimal.maxScale := by norm_num [Decimal.maxScale]
    calc |a.value - x.value| ≤ |a.value| / 2 ^ 53 + 1 / 2 ^ 1075 := near
      _ ≤ |a.value| / 2 ^ 49 + 2 / 10 ^ Decimal.maxScale := by
          gcongr
          · norm_num
          · norm_num
      _ ≤ max |a.value| |x.value| / 2 ^ 49 + 2 / 10 ^ Decimal.maxScale := by
          gcongr
          exact le_max_left _ _
  | @between d e _ he _ passed =>
    calc |d.value - x.value| ≤ |e.value - x.value| := Set.abs_sub_left_of_mem_uIcc passed
      _ ≤ |x.value| / 2 ^ 49 + 2 / 10 ^ Decimal.maxScale := Decimal.abs_value_ofBinary64?_sub_le he
      _ ≤ max |d.value| |x.value| / 2 ^ 49 + 2 / 10 ^ Decimal.maxScale := by
          gcongr
          exact le_max_right _ _

/-! ### Two numbers -/

/-- One of two numbers is blurred into the other. -/
def Blurred (a b : AnyNumber) : Prop :=
  (∃ x, b = .float x ∧ a.Blurs x) ∨ ∃ x, a = .float x ∧ b.Blurs x

theorem blurred_comm : Blurred a b ↔ Blurred b a := or_comm

theorem blurred_float_iff (ha : a.isFloat = false) : Blurred a (.float x) ↔ a.Blurs x := by
  constructor
  · rintro (⟨y, eq, blurs⟩ | ⟨y, rfl, -⟩)
    · cases eq
      exact blurs
    · contradiction
  · exact fun blurs => .inl ⟨x, rfl, blurs⟩

theorem not_blurred_of_kind (h : a.isFloat = b.isFloat) : ¬ Blurred a b := by
  rintro (⟨x, rfl, blurs⟩ | ⟨x, rfl, blurs⟩)
  · cases h.symm.trans blurs.isFloat
  · cases h.trans blurs.isFloat

/-- Blurred numbers mean rational numbers that are next to each other. -/
theorem Blurred.exists_near (h : Blurred a b) :
    ∃ x y : ℚ, a.quantity = (x : Quantity) ∧ b.quantity = (y : Quantity) ∧
      |x - y| ≤ max |x| |y| / 2 ^ 49 + 2 / 10 ^ Decimal.maxScale := by
  rcases h with ⟨x, rfl, blurs⟩ | ⟨x, rfl, blurs⟩
  · exact ⟨_, _, quantity_of_exact blurs.isFloat, quantity_of_isFinite blurs.isFinite,
      blurs.abs_sub_le⟩
  · refine ⟨_, _, quantity_of_isFinite blurs.isFinite, quantity_of_exact blurs.isFloat, ?_⟩
    rw [abs_sub_comm, max_comm]
    exact blurs.abs_sub_le

theorem compare?_eq_order (ha : a.isNaN = false) (hb : b.isNaN = false) :
    a.compare? b = some (a.order b) := by
  obtain ⟨o, ho⟩ := exists_compare? ha hb
  rw [order, ho, Option.getD_some]

/-- Two numbers are in the order of what they mean, unless they are blurred. -/
theorem order_eq_iff (ha : a.isNaN = false) (hb : b.isNaN = false) :
    a.order b = compare a.quantity b.quantity ↔ ¬ Blurred a b := by
  have mixed {a : AnyNumber} {x : Binary64} (exact : a.isFloat = false) (hx : x.isNaN = false) :
      a.order (.float x) = compare a.quantity (AnyNumber.float x).quantity ↔
        ¬ Blurred a (.float x) := by
    rw [blurred_float_iff exact]
    cases finite : x.isFinite with
    | false =>
      refine iff_of_true (order_infinite exact hx finite) fun blurs => ?_
      exact absurd (finite.symm.trans blurs.isFinite) (by decide)
    | true =>
      rw [← order_float_eq_iff exact finite, quantity_of_exact exact, quantity,
        quantity_of_isFinite finite, compare_coe]
  cases ka : a.isFloat <;> cases kb : b.isFloat
  · refine iff_of_true ?_ (not_blurred_of_kind (ka.trans kb.symm))
    rw [order, compare?_of_exact ka kb, Option.getD_some, quantity_of_exact ka,
      quantity_of_exact kb, compare_coe]
  · obtain ⟨y, rfl⟩ := exists_float kb
    exact mixed ka hb
  · -- The mirror image of the case before.
    obtain ⟨x, rfl⟩ := exists_float ka
    rw [blurred_comm, ← mixed kb ha, order_swap b,
      (Std.OrientedCmp.eq_swap : compare (AnyNumber.float x).quantity b.quantity = _),
      Ordering.swap_inj]
  · obtain ⟨x, rfl⟩ := exists_float ka
    obtain ⟨y, rfl⟩ := exists_float kb
    refine iff_of_true ?_ (not_blurred_of_kind rfl)
    rw [order, compare?, Binary.compare?_of_not_isNaN ha hb, Option.getD_some]
    exact (compare_quantity ha hb).symm

end AnyNumber

namespace Value

/-- What a number means; a not-a-number means nothing, and other values are no numbers. -/
def quantity? : Value → Option Quantity
  | .int32 n => some ((n.toInt : ℚ) : Quantity)
  | .int64 n => some ((n.toInt : ℚ) : Quantity)
  | .decimal d => some (d.value : Quantity)
  | .float32 x => x.quantity?
  | .float64 x => x.quantity?
  | _ => none

/-- One of two values is a number that is blurred into the other. -/
def Blurred (v w : Value) : Prop :=
  ∃ a b, v.number? = some a ∧ w.number? = some b ∧ a.Blurred b

variable {v w : Value} {p q : Quantity}

/-- A value means what the number means that it is compared as, of whatever width it is. -/
theorem exists_number_of_quantity? (h : v.quantity? = some p) :
    ∃ a, v.number? = some a ∧ a.isNaN = false ∧ a.quantity = p := by
  cases v with
  | int32 n =>
    refine ⟨_, rfl, rfl, ?_⟩
    rw [← Option.some.inj h, AnyNumber.quantity, Int32.toInt_toInt64]
  | int64 n => exact ⟨_, rfl, rfl, Option.some.inj h⟩
  | decimal d => exact ⟨_, rfl, rfl, Option.some.inj h⟩
  | float32 x =>
    obtain ⟨hx, meaning⟩ := quantity?_eq_some_iff.mp h
    exact ⟨_, rfl, isNaN_convert hx, (quantity_widen hx).trans meaning⟩
  | float64 x =>
    obtain ⟨hx, meaning⟩ := quantity?_eq_some_iff.mp h
    exact ⟨_, rfl, hx, meaning⟩
  | _ => cases h

theorem blurred_iff {a b : AnyNumber} (ha : v.number? = some a) (hb : w.number? = some b) :
    Blurred v w ↔ a.Blurred b := by
  simp [Blurred, ha, hb]

/-- **Numbers of all widths compare as what they mean, unless one is blurred into the other.**
Numbers that are not blurred are equal just if they mean the same, and blurred ones mean rational
numbers that are next to each other. -/
theorem compare?_exact_iff (hv : v.quantity? = some p) (hw : w.quantity? = some q) :
    (∃ o, compare? v w = some o ∧ (o = compare p q ↔ ¬ Blurred v w)) ∧
      (¬ Blurred v w → (equal v w = true ↔ p = q)) ∧
      (Blurred v w → ∃ x y : ℚ, p = (x : Quantity) ∧ q = (y : Quantity) ∧
        |x - y| ≤ max |x| |y| / 2 ^ 49 + 2 / 10 ^ Decimal.maxScale) := by
  obtain ⟨a, ha, na, rfl⟩ := exists_number_of_quantity? hv
  obtain ⟨b, hb, nb, rfl⟩ := exists_number_of_quantity? hw
  have compared : compare? v w = some (a.order b) := by
    rw [compare?, ha, hb]
    exact AnyNumber.compare?_eq_order na nb
  rw [blurred_iff ha hb]
  refine ⟨⟨_, compared, AnyNumber.order_eq_iff na nb⟩, fun exact => ?_,
    AnyNumber.Blurred.exists_near⟩
  rw [equal_number hb, compared, beq_iff_eq, (AnyNumber.order_eq_iff na nb).mpr exact,
    Option.some.injEq, compare_eq_iff_eq]

/-- A decimal between `0.1` and the float nearest to that is blurred: it means less than the float,
which is taken for `0.1`, and compares as greater. -/
theorem compare?_exact_iff_tenth :
    ∃ p q, quantity? (.decimal ⟨false, 100000000000000003, 18, by decide, by decide⟩) = some p ∧
      quantity? (.float64 (ofBits _ 0x3fb999999999999a)) = some q ∧ p < q ∧
      compare? (.decimal ⟨false, 100000000000000003, 18, by decide, by decide⟩)
        (.float64 (ofBits _ 0x3fb999999999999a)) = some .gt ∧
      Blurred (.decimal ⟨false, 100000000000000003, 18, by decide, by decide⟩)
        (.float64 (ofBits _ 0x3fb999999999999a)) := by
  have float : quantity? (.float64 (ofBits _ 0x3fb999999999999a)) =
      some ((ofBits .binary64 0x3fb999999999999a).value : Quantity) :=
    quantity?_eq_some_iff.mpr ⟨by decide +kernel, quantity_of_isFinite (by decide +kernel)⟩
  have less : (⟨false, 100000000000000003, 18, by decide, by decide⟩ : Decimal).value <
      (ofBits .binary64 0x3fb999999999999a).value := by
    rw [Decimal.value, Binary.value, div_lt_div_iff₀ (by positivity) (by positivity)]
    exact_mod_cast (by decide +kernel : _)
  have less := WithBotTop.coe_lt_coe.mpr less
  have greater : compare? (.decimal ⟨false, 100000000000000003, 18, by decide, by decide⟩)
      (.float64 (ofBits _ 0x3fb999999999999a)) = some .gt := by decide +kernel
  refine ⟨_, _, rfl, float, less, greater, ?_⟩
  obtain ⟨o, ho, exact⟩ := (compare?_exact_iff (v := .decimal _) rfl float).1
  have order : o = .gt := Option.some.inj (ho.symm.trans greater)
  by_contra sharp
  have := exact.mpr sharp
  rw [order, compare_lt_iff_lt.mpr less] at this
  cases this

/-- The largest integer compares as equal to the float next to it, which means more. -/
theorem compare?_not_exact :
    ∃ p q, quantity? (.int64 9223372036854775807) = some p ∧
      quantity? (.float64 (ofBits _ 0x43e0000000000000)) = some q ∧ p < q ∧
      compare? (.int64 9223372036854775807) (.float64 (ofBits _ 0x43e0000000000000)) = some .eq ∧
      equal (.int64 9223372036854775807) (.float64 (ofBits _ 0x43e0000000000000)) = true := by
  refine ⟨_, _, rfl, quantity?_of_toInt? (n := 9223372036854775808) (by decide +kernel), ?_,
    by decide +kernel, by decide +kernel⟩
  exact WithBotTop.coe_lt_coe.mpr (Int.cast_lt.mpr (by decide))

end Value

end EntityQuery
