import EntityQuery.Proofs.Decimal.OfBinary
import EntityQuery.Value.Order

/-!
# The order of numbers

Numbers of one kind, floats or exact numbers, are in the order of their values. A float meets an
integer as a float and a decimal as a decimal, and rounding can make it equal to a number that it
is not. What holds between the kinds is weaker: numbers of one kind that are separated by a number
of the other are in the order in which it separates them (`AnyNumber.not_separated`). So the order
is transitive wherever no float ties with an exact number that a third number tells apart from it
(`AnyNumber.order_trans`).
-/

namespace EntityQuery

open Binary

namespace AnyNumber

/-- Is it a float? -/
def isFloat : AnyNumber → Bool
  | .float _ => true
  | _ => false

/-- Is it a not-a-number? -/
def isNaN : AnyNumber → Bool
  | .float x => x.isNaN
  | _ => false

/-- The exact value of a finite number. -/
def value : AnyNumber → ℚ
  | .integer n => n.toInt
  | .decimal d => d.value
  | .float x => x.value

/-- The place among the numbers of its kind. -/
def place : AnyNumber → ℚ
  | .float x => x.place
  | a => a.value

/-- The nearest float. -/
def rounded : AnyNumber → Binary64
  | .integer n => ofInt .binary64 n.toInt
  | .decimal d => d.toBinary64
  | .float x => x

/-! ### Exact numbers -/

/-- Exact numbers are in the order of their values. -/
theorem compare?_of_exact {a b : AnyNumber} (ha : a.isFloat = false) (hb : b.isFloat = false) :
    a.compare? b = some (compare a.value b.value) := by
  cases a <;> cases b <;> first | contradiction | skip
  all_goals
    simp only [compare?, value, Decimal.order_eq_compare, Decimal.value_ofInt64,
      ← Decimal.compare_intCast]

/-- The nearest float of an exact number is that of a fraction. -/
theorem exists_rounded {a : AnyNumber} (ha : a.isFloat = false) :
    ∃ s num den, 0 < den ∧ a.rounded = ofFraction .binary64 s num den ∧
      a.value = (signed s num : ℚ) / den := by
  cases a with
  | integer n => exact ⟨_, _, 1, Nat.one_pos, rfl, by simp [value, signed_natAbs]⟩
  | decimal d => exact ⟨_, _, _, tenPow_pos d.scale, rfl, d.value_eq_fraction⟩
  | float => contradiction

theorem isNaN_rounded {a : AnyNumber} (ha : a.isFloat = false) : a.rounded.isNaN = false := by
  obtain ⟨s, num, den, -, eq, -⟩ := exists_rounded ha
  rw [eq, isNaN_ofFraction]

theorem place_rounded_le {a b : AnyNumber} (ha : a.isFloat = false) (hb : b.isFloat = false)
    (h : a.value ≤ b.value) : a.rounded.place ≤ b.rounded.place := by
  obtain ⟨s, num, den, hd, eq, val⟩ := exists_rounded ha
  obtain ⟨t, num', den', hd', eq', val'⟩ := exists_rounded hb
  rw [eq, eq']
  rw [val, val'] at h
  exact place_ofFraction_le hd hd' h

/-- An exact number below a float is not rounded to a larger one. -/
theorem place_rounded_le_place {a : AnyNumber} (ha : a.isFloat = false) {x : Binary64}
    (hx : x.isFinite = true) (h : a.value ≤ x.value) : a.rounded.place ≤ x.place := by
  obtain ⟨s, num, den, hd, eq, val⟩ := exists_rounded ha
  rw [eq]
  rw [val] at h
  exact place_ofFraction_le_place hx hd h

theorem place_le_place_rounded {a : AnyNumber} (ha : a.isFloat = false) {x : Binary64}
    (hx : x.isFinite = true) (h : x.value ≤ a.value) : x.place ≤ a.rounded.place := by
  obtain ⟨s, num, den, hd, eq, val⟩ := exists_rounded ha
  rw [eq]
  rw [val] at h
  exact place_le_place_ofFraction hx hd h

/-! ### The order -/

variable {a b c : AnyNumber} {x y : Binary64}

/-- A float meets a decimal as the decimal meets the float, the other way round. -/
theorem compareFloatDecimal?_eq_swap (x : Binary64) (d : Decimal) :
    compareFloatDecimal? x d = (compareDecimalFloat? d x).map Ordering.swap := by
  unfold compareFloatDecimal? compareDecimalFloat?
  cases Decimal.ofBinary64? x with
  | some e =>
    have swap : e.order d = (d.order e).swap := by
      rw [Decimal.order_eq_compare, Decimal.order_eq_compare]
      exact Std.OrientedCmp.eq_swap
    exact congrArg some swap
  | none => exact Binary.compare?_swap _ _

theorem compare?_swap (a b : AnyNumber) : b.compare? a = (a.compare? b).map Ordering.swap := by
  have left {b : AnyNumber} {x : Binary64} (hb : b.isFloat = false) :
      (AnyNumber.float x).compare? b = (b.compare? (.float x)).map Ordering.swap := by
    cases b with
    | integer n => exact Binary.compare?_swap _ _
    | decimal d => exact compareFloatDecimal?_eq_swap x d
    | float => contradiction
  cases ha : a.isFloat <;> cases hb : b.isFloat
  · rw [compare?_of_exact ha hb, compare?_of_exact hb ha, Option.map_some]
    exact congrArg some Std.OrientedCmp.eq_swap
  · cases b with
    | float x => exact left ha
    | _ => contradiction
  · cases a with
    | float x =>
      rw [left hb, Option.map_map]
      simp [Function.comp_def]
    | _ => contradiction
  · cases a <;> cases b <;> first | exact Binary.compare?_swap _ _ | contradiction

theorem compare?_of_isNaN (a : AnyNumber) (h : b.isNaN = true) : a.compare? b = none := by
  cases b with
  | float x =>
    have none (y : Binary64) : y.compare? x = none := Binary.compare?_of_isNaN (.inr h)
    cases a with
    | integer n => exact none _
    | decimal d =>
      simp only [compare?, compareDecimalFloat?, Decimal.ofBinary64?_of_isNaN h]
      exact none _
    | float y => exact none y
  | _ => contradiction

/-- The order of numbers, with a place for not-a-numbers. -/
def order (a b : AnyNumber) : Ordering := (a.compare? b).getD (compare a.nanRank b.nanRank)

theorem order_swap (a b : AnyNumber) : b.order a = (a.order b).swap := by
  unfold order
  rw [compare?_swap a b]
  cases a.compare? b with
  | none =>
    rw [Option.map_none, Option.getD_none, Option.getD_none]
    exact Std.OrientedCmp.eq_swap
  | some o => rfl

/-- A not-a-number is in the place of its rank, whatever it is compared with. -/
theorem order_of_isNaN (h : a.isNaN = true ∨ b.isNaN = true) :
    a.order b = compare a.nanRank b.nanRank := by
  have none : a.compare? b = none := by
    rcases h with h | h
    · rw [compare?_swap b a, compare?_of_isNaN b h, Option.map_none]
    · exact compare?_of_isNaN a h
  rw [order, none, Option.getD_none]

theorem exists_float (h : a.isFloat = true) : ∃ x, a = .float x := by
  cases a with
  | float x => exact ⟨x, rfl⟩
  | _ => contradiction

/-- Two numbers have an order, unless one of them is a not-a-number. -/
theorem exists_compare? (ha : a.isNaN = false) (hb : b.isNaN = false) :
    ∃ o, a.compare? b = some o := by
  have mixed {a : AnyNumber} {x : Binary64} (hk : a.isFloat = false) (hx : x.isNaN = false) :
      ∃ o, a.compare? (.float x) = some o := by
    have rounded := Binary.compare?_of_not_isNaN (isNaN_rounded hk) hx
    cases a with
    | integer n => exact ⟨_, rounded⟩
    | decimal d =>
      simp only [compare?, compareDecimalFloat?]
      cases Decimal.ofBinary64? x with
      | some e => exact ⟨_, rfl⟩
      | none => exact ⟨_, rounded⟩
    | float => contradiction
  cases hka : a.isFloat <;> cases hkb : b.isFloat
  · exact ⟨_, compare?_of_exact hka hkb⟩
  · obtain ⟨y, rfl⟩ := exists_float hkb
    exact mixed hka hb
  · obtain ⟨x, rfl⟩ := exists_float hka
    obtain ⟨o, ho⟩ := mixed hkb ha
    rw [compare?_swap b, ho]
    exact ⟨_, rfl⟩
  · obtain ⟨x, rfl⟩ := exists_float hka
    obtain ⟨y, rfl⟩ := exists_float hkb
    exact ⟨_, Binary.compare?_of_not_isNaN ha hb⟩

theorem place_of_exact (h : a.isFloat = false) : a.place = a.value := by
  cases a <;> first | rfl | contradiction

/-- Numbers of one kind are in the order of their places. -/
theorem order_of_kind (ha : a.isNaN = false) (hb : b.isNaN = false)
    (h : a.isFloat = b.isFloat) : a.order b = compare a.place b.place := by
  cases hk : a.isFloat with
  | false =>
    rw [hk] at h
    rw [order, compare?_of_exact hk h.symm, Option.getD_some, place_of_exact hk,
      place_of_exact h.symm]
  | true =>
    rw [hk] at h
    obtain ⟨x, rfl⟩ := exists_float hk
    obtain ⟨y, rfl⟩ := exists_float h.symm
    rw [place, place, Decimal.compare_intCast]
    exact congrArg (Option.getD · _) (Binary.compare?_of_not_isNaN ha hb)

/-- An integer, or a decimal where the float has none, meets a float as its nearest float; another
decimal meets the decimal of the float. -/
theorem order_exact_float (ha : a.isFloat = false) (hx : x.isNaN = false) :
    (a.order (.float x) = compare a.rounded.place x.place ∧
        ((∃ n, a = .integer n) ∨ Decimal.ofBinary64? x = none)) ∨
      ∃ d e, a = .decimal d ∧ Decimal.ofBinary64? x = some e ∧
        a.order (.float x) = compare a.value e.value := by
  have rounded : (a.rounded.compare? x).getD (compare a.nanRank (AnyNumber.float x).nanRank) =
      compare a.rounded.place x.place :=
    congrArg (Option.getD · _) (Binary.compare?_of_not_isNaN (isNaN_rounded ha) hx)
  cases a with
  | integer n => exact .inl ⟨rounded, .inl ⟨n, rfl⟩⟩
  | decimal d =>
    cases he : Decimal.ofBinary64? x with
    | none =>
      refine .inl ⟨?_, .inr rfl⟩
      simp only [order, compare?, compareDecimalFloat?, he]
      exact rounded
    | some e =>
      refine .inr ⟨d, e, rfl, rfl, ?_⟩
      simp only [order, compare?, compareDecimalFloat?, he, Decimal.order_eq_compare]
      rfl
  | float => contradiction

/-! ### Separation -/

/-- An integer rounded to the one side of a float is on that side of the decimal of the float. -/
theorem value_le_of_place_rounded_lt {n : Int64} {e : Decimal}
    (he : Decimal.ofBinary64? x = some e)
    (h : (AnyNumber.integer n).rounded.place < x.place) :
    (AnyNumber.integer n).value ≤ e.value := by
  have finite := Decimal.isFinite_of_ofBinary64? he
  refine Decimal.int_le_value_ofBinary64? he (le_of_lt (not_le.mp fun hle => ?_))
  exact h.not_ge (place_le_place_rounded rfl finite hle)

theorem le_value_of_lt_place_rounded {n : Int64} {e : Decimal}
    (he : Decimal.ofBinary64? x = some e)
    (h : x.place < (AnyNumber.integer n).rounded.place) :
    e.value ≤ (AnyNumber.integer n).value := by
  have finite := Decimal.isFinite_of_ofBinary64? he
  refine Decimal.value_ofBinary64?_le_int he (le_of_lt (not_le.mp fun hle => ?_))
  exact h.not_ge (place_rounded_le_place rfl finite hle)

/-- A float does not separate exact numbers against their order. -/
theorem not_separated_by_float (ha : a.isFloat = false) (hb : b.isFloat = false)
    (hx : x.isNaN = false) (h : a.value ≤ b.value) (hgt : a.order (.float x) = .gt) :
    b.order (.float x) ≠ .lt := by
  intro hlt
  rcases order_exact_float ha hx with ⟨ea, wa⟩ | ⟨d, e, rfl, he, ea⟩ <;>
    rcases order_exact_float hb hx with ⟨eb, wb⟩ | ⟨d', e', rfl, he', eb⟩ <;>
    rw [ea, compare_gt_iff_gt] at hgt <;> rw [eb, compare_lt_iff_lt] at hlt
  · exact hlt.not_ge (hgt.le.trans (place_rounded_le ha hb h))
  · obtain ⟨n, rfl⟩ := wa.resolve_right (by simp [he'])
    exact hlt.not_ge ((le_value_of_lt_place_rounded he' hgt).trans h)
  · obtain ⟨n, rfl⟩ := wb.resolve_right (by simp [he])
    exact hgt.not_ge (h.trans (value_le_of_place_rounded_lt he hlt))
  · obtain rfl := Option.some.inj (he.symm.trans he')
    exact hlt.not_ge (hgt.le.trans h)

/-- An exact number does not separate floats against their order. -/
theorem not_separated_by_exact (ha : a.isFloat = false) (hx : x.isNaN = false)
    (hy : y.isNaN = false) (h : x.place ≤ y.place) (hlt : a.order (.float x) = .lt) :
    a.order (.float y) ≠ .gt := by
  intro hgt
  rcases order_exact_float ha hx with ⟨ex, wx⟩ | ⟨d, e, rfl, he, ex⟩ <;>
    rcases order_exact_float ha hy with ⟨ey, wy⟩ | ⟨d', e', eq, he', ey⟩ <;>
    rw [ex, compare_lt_iff_lt] at hlt <;> rw [ey, compare_gt_iff_gt] at hgt
  · exact hgt.not_ge (hlt.le.trans h)
  · subst eq
    rcases Decimal.beyond_of_ofBinary64?_eq_none hx (wx.resolve_left (by simp)) with
      ⟨-, above⟩ | ⟨below, -⟩
    · exact (above y e' he').not_ge h
    · exact hlt.not_ge (below d')
  · rcases Decimal.beyond_of_ofBinary64?_eq_none hy (wy.resolve_left (by simp)) with
      ⟨above, -⟩ | ⟨-, below⟩
    · exact hgt.not_ge (above d)
    · exact (below x e he).not_ge h
  · exact hgt.not_ge (hlt.le.trans (Decimal.value_ofBinary64?_le he he' h))

/-- Numbers of one kind are not separated against their order by a number of the other kind. -/
theorem not_separated (ha : a.isNaN = false) (hb : b.isNaN = false) (hc : c.isNaN = false)
    (kind : a.isFloat = b.isFloat) (other : a.isFloat ≠ c.isFloat) (h : a.order b ≠ .gt)
    (hlt : c.order a = .lt) : b.order c ≠ .lt := by
  rw [order_of_kind ha hb kind, compare_le_iff_le] at h
  cases hk : a.isFloat with
  | false =>
    rw [hk] at kind other
    obtain ⟨x, rfl⟩ := exists_float (eq_true_of_ne_false other.symm)
    refine not_separated_by_float hk kind.symm hc ?_ ?_
    · rwa [← place_of_exact hk, ← place_of_exact kind.symm]
    · rw [order_swap, hlt]
      rfl
  | true =>
    obtain ⟨x, rfl⟩ := exists_float hk
    obtain ⟨y, rfl⟩ := exists_float kind.symm
    intro hbc
    refine not_separated_by_exact (eq_false_of_ne_true other.symm) ha hb (Int.cast_le.mp h) hlt ?_
    rw [order_swap, hbc]
    rfl

/-! ### Transitivity -/

/-- No number tells a float and an exact number apart that are equal in order. -/
def TiesAgree (R : AnyNumber → Prop) : Prop :=
  ∀ a b c, R a → R b → R c → a.isFloat ≠ b.isFloat → a.order b = .eq → a.order c = b.order c

theorem nanRank_eq_zero_iff : a.nanRank = 0 ↔ a.isNaN = false := by
  cases a with
  | float x => cases hx : x.isNaN <;> cases hs : x.negative <;> simp [nanRank, isNaN, hx, hs]
  | _ => simp [nanRank, isNaN]

theorem nanRank_le (h : a.order b ≠ .gt) : a.nanRank ≤ b.nanRank := by
  by_cases hn : a.isNaN = true ∨ b.isNaN = true
  · rw [order_of_isNaN hn] at h
    exact compare_le_iff_le.mp h
  · simp only [not_or, Bool.not_eq_true] at hn
    rw [nanRank_eq_zero_iff.mpr hn.1, nanRank_eq_zero_iff.mpr hn.2]

/-- The order of numbers is transitive where ties agree. -/
theorem order_trans {R : AnyNumber → Prop} (ties : TiesAgree R) (ra : R a) (rb : R b) (rc : R c)
    (hab : a.order b ≠ .gt) (hbc : b.order c ≠ .gt) : a.order c ≠ .gt := by
  have lower := nanRank_le hab
  have upper := nanRank_le hbc
  by_cases hn : a.isNaN = true ∨ c.isNaN = true
  · rw [order_of_isNaN hn]
    exact compare_le_iff_le.mpr (lower.trans upper)
  simp only [not_or, Bool.not_eq_true] at hn
  obtain ⟨ha, hc⟩ := hn
  have hb : b.isNaN = false := by
    rw [← nanRank_eq_zero_iff] at ha hc ⊢
    omega
  intro hac
  have hca : c.order a = .lt := by
    rw [order_swap, hac]
    rfl
  -- A tie of the second number with one of the others puts the others in their order after all.
  have first (kind : a.isFloat ≠ b.isFloat) (tie : a.order b = .eq) : False := by
    rw [ties a b c ra rb rc kind tie] at hac
    exact hbc hac
  have second (kind : b.isFloat ≠ c.isFloat) (tie : b.order c = .eq) : False := by
    rw [← ties b c a rb rc ra kind tie] at hca
    exact hab (by rw [order_swap, hca]; rfl)
  by_cases kab : a.isFloat = b.isFloat <;> by_cases kbc : b.isFloat = c.isFloat
  · -- All are of one kind.
    rw [order_of_kind ha hb kab, compare_le_iff_le] at hab
    rw [order_of_kind hb hc kbc, compare_le_iff_le] at hbc
    rw [order_of_kind ha hc (kab.trans kbc), compare_gt_iff_gt] at hac
    exact hac.not_ge (hab.trans hbc)
  · -- The third number is of the other kind and would separate the first two.
    have apart := not_separated ha hb hc kab (kab ▸ kbc) hab hca
    exact second kbc (by cases h : b.order c <;> simp_all)
  · -- The first number is of the other kind.
    have apart : a.order b ≠ .lt := fun h =>
      not_separated hb hc ha kbc (Ne.symm kab) hbc h hca
    exact first kab (by cases h : a.order b <;> simp_all)
  · -- The second number is of the other kind.
    have kca : c.isFloat = a.isFloat := by
      cases ha : a.isFloat <;> cases hb : b.isFloat <;> cases hc : c.isFloat <;> simp_all
    cases h : a.order b with
    | gt => exact hab h
    | eq => exact first kab h
    | lt =>
      have apart : b.order c ≠ .lt := fun h' =>
        not_separated hc ha hb kca (Ne.symm kbc) (by simp [hca]) h' h
      exact second kbc (by cases h : b.order c <;> simp_all)

end AnyNumber

end EntityQuery
