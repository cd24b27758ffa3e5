import EntityQuery.Proofs.Decimal.Trade
import EntityQuery.Proofs.Decimal.Value

/-!
# Binary numbers as decimals

A binary number is converted to a decimal exactly if its value is less than `2 ^ 96` in size, and
the conversion, though it rounds in several steps, keeps the order (`value_ofBinary64?_le`) and
passes no whole number (`int_le_value_ofBinary64?` and `value_ofBinary64?_le_int`). A number
without a decimal is above or below everything that has one
(`beyond_of_ofBinary64?_eq_none`).
-/

namespace EntityQuery.Decimal

open Binary Scaled

theorem value_eq_magnitude (x : Binary64) :
    x.value = if x.negative then -magnitude x.code else magnitude x.code := by
  unfold Binary.value magnitude
  cases x.negative
  · simp
  · simp [neg_div]

theorem abs_value_eq_magnitude (x : Binary64) : |x.value| = magnitude x.code := by
  rw [value_eq_magnitude]
  split_ifs
  · rw [abs_neg, abs_of_nonneg (magnitude_nonneg _)]
  · rw [abs_of_nonneg (magnitude_nonneg _)]

/-- A decimal made of a fitted coefficient. -/
theorem toDecimal?_fit {k m : ℕ} (hk : k < limit) (s : Bool) :
    ∃ d, (ofPlaces k m).fit.toDecimal? s = some d ∧
      d.value = if s then -(ofPlaces k m).fit.value else (ofPlaces k m).fit.value := by
  obtain ⟨r, p, eq, hr, hp⟩ := exists_fit k m
  have fits : r < limit ∧ p ≤ maxScale := ⟨hr.trans_lt hk, hp⟩
  refine ⟨⟨s, r, p, fits.1, fits.2⟩, ?_, ?_⟩
  · rw [eq, toDecimal?, coefficient_ofPlaces, places_ofPlaces, ofParts?, dif_pos fits]
  · rw [eq, value_ofPlaces, quotient]
    cases s
    · simp [value, Decimal.signed]
    · simp [value, Decimal.signed, neg_div]

/-- A finite number is converted to the fitted decimal of what stands for it, with its sign, or it
is too large. -/
theorem ofBinary64?_spec {x : Binary64} (hx : x.isFinite = true) :
    (∃ d k m, ofBinary64? x = some d ∧ StandsFor k m x.code ∧
      d.value = if x.negative then -(ofPlaces k m).fit.value else (ofPlaces k m).fit.value) ∨
    ofBinary64? x = none ∧ limit ≤ |x.value| := by
  by_cases zero : x.code = 0
  · have standing : StandsFor 0 0 x.code :=
      standsFor_of_eq (by decide) (by rw [zero, magnitude_zero]; simp [quotient])
        (by rw [zero, magnitude_zero]; norm_num [limit])
    refine .inl ⟨⟨false, 0, 0, by decide, by decide⟩, 0, 0, ?_, standing, ?_⟩
    · simp only [ofBinary64?, hx, zero]
      rfl
    · simp [value, Decimal.signed, fit_whole, quotient]
  · have eq : ofBinary64? x = ((ofCode? x.code).map fit).bind (toDecimal? x.negative) := by
      simp only [ofBinary64?, hx, zero]
      rfl
    rcases ofCode?_spec x.code with ⟨k, m, traded, standing⟩ | ⟨traded, large⟩
    · obtain ⟨d, hd, value⟩ := toDecimal?_fit standing.coefficient_lt (m := m) x.negative
      refine .inl ⟨d, k, m, ?_, standing, value⟩
      rw [eq, traded]
      exact hd
    · refine .inr ⟨?_, ?_⟩
      · rw [eq, traded]
        rfl
      · rwa [abs_value_eq_magnitude]

/-- Infinities and not-a-numbers have no decimal. -/
theorem isFinite_of_ofBinary64? {x : Binary64} {d : Decimal} (h : ofBinary64? x = some d) :
    x.isFinite = true := by
  by_contra hx
  simp [ofBinary64?, hx] at h

theorem ofBinary64?_of_isNaN {x : Binary64} (h : x.isNaN = true) : ofBinary64? x = none := by
  cases hd : ofBinary64? x with
  | none => rfl
  | some d => exact absurd h (by simp [isNaN_of_isFinite (isFinite_of_ofBinary64? hd)])

/-- A number that has no decimal is not in reach of any decimal. -/
theorem limit_le_of_ofBinary64?_eq_none {x : Binary64} (hx : x.isFinite = true)
    (h : ofBinary64? x = none) : limit ≤ |x.value| := by
  rcases ofBinary64?_spec hx with ⟨d, k, m, hd, -, -⟩ | ⟨-, large⟩
  · exact absurd (h.symm.trans hd) (by simp)
  · exact large

section Converted

variable {x y : Binary64} {d e : Decimal}

theorem exists_standsFor (h : ofBinary64? x = some d) : ∃ k m, StandsFor k m x.code ∧
    d.value = if x.negative then -(ofPlaces k m).fit.value else (ofPlaces k m).fit.value := by
  rcases ofBinary64?_spec (isFinite_of_ofBinary64? h) with
    ⟨d', k, m, hd, standing, value⟩ | ⟨none, -⟩
  · obtain rfl := Option.some.inj (hd.symm.trans h)
    exact ⟨k, m, standing, value⟩
  · exact absurd (none.symm.trans h) (by simp)

/-- The decimal of a number is at least every whole number that the number is at least. -/
theorem int_le_value_ofBinary64? (h : ofBinary64? x = some d) {n : ℤ} (hn : n ≤ x.value) :
    n ≤ d.value := by
  obtain ⟨k, m, standing, value⟩ := exists_standsFor h
  rw [value_eq_magnitude] at hn
  rw [value]
  split_ifs at hn ⊢
  · have := standing.value_fit_le_int (n := -n) (by push_cast; linarith)
    push_cast at this
    linarith
  · exact standing.int_le_value_fit hn

/-- The decimal of a number is at most every whole number that the number is at most. -/
theorem value_ofBinary64?_le_int (h : ofBinary64? x = some d) {n : ℤ} (hn : x.value ≤ n) :
    d.value ≤ n := by
  obtain ⟨k, m, standing, value⟩ := exists_standsFor h
  rw [value_eq_magnitude] at hn
  rw [value]
  split_ifs at hn ⊢
  · have := standing.int_le_value_fit (n := -n) (by push_cast; linarith)
    push_cast at this
    linarith
  · exact standing.value_fit_le_int hn

/-- A number that has a decimal is in the reach of decimals. -/
theorem abs_value_lt_of_ofBinary64? (h : ofBinary64? x = some d) : |x.value| < limit := by
  obtain ⟨k, m, standing, -⟩ := exists_standsFor h
  rw [abs_value_eq_magnitude]
  exact standing.magnitude_lt

theorem value_eq_zero_of_ofBinary64? (h : ofBinary64? x = some d) (hx : x.code = 0) :
    d.value = 0 := by
  have zero := value_of_code_eq_zero hx
  exact_mod_cast le_antisymm (value_ofBinary64?_le_int h (n := 0) (by simp [zero]))
    (int_le_value_ofBinary64? h (n := 0) (by simp [zero]))

/-- The decimals of two numbers are in the order of the numbers. -/
theorem value_ofBinary64?_le (hx : ofBinary64? x = some d) (hy : ofBinary64? y = some e)
    (h : x.place ≤ y.place) : d.value ≤ e.value := by
  rcases lt_or_eq_of_le h with hlt | heq
  · obtain ⟨k, m, sx, vx⟩ := exists_standsFor hx
    obtain ⟨l, p, sy, vy⟩ := exists_standsFor hy
    rw [place_eq, place_eq] at hlt
    rw [vx, vy]
    cases hs : x.negative <;> cases ht : y.negative <;>
      simp only [hs, ht, signed_false, signed_true, if_true, Bool.false_eq_true, if_false] at hlt ⊢
    case false.false => exact sx.value_fit_le sy (by omega)
    case true.true => exact neg_le_neg (sy.value_fit_le sx (by omega))
    case false.true => omega
    case true.false =>
      have lower := sx.int_le_value_fit (n := 0) (by simpa using magnitude_nonneg _)
      have upper := sy.int_le_value_fit (n := 0) (by simpa using magnitude_nonneg _)
      push_cast at lower upper
      linarith
  · rcases eq_or_code_eq_zero heq with rfl | ⟨zx, zy⟩
    · exact (congrArg value (Option.some.inj (hx.symm.trans hy))).le
    · rw [value_eq_zero_of_ofBinary64? hx zx, value_eq_zero_of_ofBinary64? hy zy]

/-- A number without a decimal is above or below all decimals, and all numbers that have one. -/
theorem beyond_of_ofBinary64?_eq_none (hy : y.isNaN = false) (h : ofBinary64? y = none) :
    (∀ d : Decimal, d.toBinary64.place ≤ y.place) ∧
        (∀ x e, ofBinary64? x = some e → x.place < y.place) ∨
      (∀ d : Decimal, y.place ≤ d.toBinary64.place) ∧
        ∀ x e, ofBinary64? x = some e → y.place < x.place := by
  by_cases finite : y.isFinite = true
  · rcases le_abs.mp (limit_le_of_ofBinary64?_eq_none finite h) with large | large
    · refine .inl ⟨fun d => ?_, fun x e hx => ?_⟩
      · refine place_ofFraction_le_place finite (tenPow_pos _) ?_
        rw [← value_eq_fraction]
        exact ((abs_lt.mp d.abs_value_lt).2.trans_le large).le
      · have := (abs_lt.mp (abs_value_lt_of_ofBinary64? hx)).2
        rw [← not_le, ← value_le_value_iff finite (isFinite_of_ofBinary64? hx)]
        linarith
    · refine .inr ⟨fun d => ?_, fun x e hx => ?_⟩
      · refine place_le_place_ofFraction finite (tenPow_pos _) ?_
        rw [← value_eq_fraction]
        linarith [(abs_lt.mp d.abs_value_lt).1]
      · have := (abs_lt.mp (abs_value_lt_of_ofBinary64? hx)).1
        rw [← not_le, ← value_le_value_iff (isFinite_of_ofBinary64? hx) finite]
        linarith
  · -- An infinity is beyond everything.
    have code : y.code = Format.binary64.infinity :=
      code_of_infinite hy (eq_false_of_ne_true finite)
    have decimals (d : Decimal) : |d.toBinary64.place| ≤ Format.binary64.infinity := by
      rw [abs_place]
      exact_mod_cast isNaN_eq_false_iff.mp (isNaN_ofFraction _ _ _)
    have floats {x : Binary64} {e : Decimal} (hx : ofBinary64? x = some e) :
        |x.place| < Format.binary64.infinity :=
      abs_place_lt (isFinite_of_ofBinary64? hx)
    rw [place_eq, code]
    cases y.negative
    · exact .inl ⟨fun d => (abs_le.mp (decimals d)).2, fun x e hx => (abs_lt.mp (floats hx)).2⟩
    · exact .inr ⟨fun d => (abs_le.mp (decimals d)).1, fun x e hx => (abs_lt.mp (floats hx)).1⟩

end Converted

end EntityQuery.Decimal
