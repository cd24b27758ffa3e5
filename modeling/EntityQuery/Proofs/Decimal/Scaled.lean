import EntityQuery.Decimal.OfBinary
import Mathlib.Algebra.Order.Field.Basic
import Mathlib.Algebra.Order.Ring.Rat
import Mathlib.Tactic.FieldSimp
import Mathlib.Tactic.Positivity

/-!
# Scaled coefficients

A coefficient with a number of places is a rational number, its value. Fitting it into the range
of a decimal drops places, by rules that ask for the digits and not for the value. All the same,
what comes out depends on the value alone and keeps the order: `Scaled.value_fit_le`. The reason
is that each stage treats a coefficient as it does the one with a zero appended, and keeps the
order of coefficients with equally many places.
-/

namespace EntityQuery.Decimal.Scaled

/-- A coefficient with a number of places. -/
def ofPlaces (c n : ℕ) : Scaled := ⟨c, -(n : ℤ)⟩

/-- The number that a coefficient with a number of places is. -/
def quotient (c n : ℕ) : ℚ := c / 10 ^ n

/-- The value of a scaled coefficient without a positive power of ten. -/
def value (x : Scaled) : ℚ := quotient x.coefficient (-x.exponent).toNat

@[simp] theorem coefficient_ofPlaces (c n : ℕ) : (ofPlaces c n).coefficient = c := rfl

@[simp] theorem places_ofPlaces (c n : ℕ) : (-(ofPlaces c n).exponent).toNat = n := by
  simp [ofPlaces]

@[simp] theorem value_ofPlaces (c n : ℕ) : (ofPlaces c n).value = quotient c n := by
  simp [value]

theorem quotient_nonneg (c n : ℕ) : 0 ≤ quotient c n := by
  unfold quotient
  positivity

theorem quotient_zero_right (c : ℕ) : quotient c 0 = c := by simp [quotient]

theorem quotient_append_zero (c n : ℕ) : quotient (10 * c) (n + 1) = quotient c n := by
  unfold quotient
  rw [pow_succ']
  push_cast
  field_simp

theorem quotient_le_quotient {c c' : ℕ} (n : ℕ) (h : c ≤ c') : quotient c n ≤ quotient c' n := by
  unfold quotient
  gcongr

theorem quotient_le_quotient_iff {c n c' n' : ℕ} :
    quotient c n ≤ quotient c' n' ↔ 10 ^ n' * c ≤ 10 ^ n * c' := by
  unfold quotient
  rw [div_le_div_iff₀ (by positivity) (by positivity), mul_comm, mul_comm (c' : ℚ)]
  exact_mod_cast Iff.rfl

/-- What does not change when a zero is appended, and keeps the order of coefficients with equally
many places, keeps the order of values. -/
theorem le_of_quotient_le {f : ℕ → ℕ → ℚ} (append : ∀ c n, f (10 * c) (n + 1) = f c n)
    (mono : ∀ n c c', c ≤ c' → f c n ≤ f c' n) {c n c' n' : ℕ}
    (h : quotient c n ≤ quotient c' n') : f c n ≤ f c' n' := by
  have appends (c n k : ℕ) : f (10 ^ k * c) (n + k) = f c n := by
    induction k with
    | zero => rw [pow_zero, one_mul, Nat.add_zero]
    | succ k ih => rw [pow_succ', mul_assoc, ← Nat.add_assoc, append, ih]
  calc f c n = f (10 ^ n' * c) (n + n') := (appends c n n').symm
    _ ≤ f (10 ^ n * c') (n + n') := mono _ _ _ (quotient_le_quotient_iff.mp h)
    _ = f (10 ^ n * c') (n' + n) := by rw [Nat.add_comm]
    _ = f c' n' := appends c' n' n

/-! ### Dropping a digit -/

theorem dropDigit_ofPlaces (c n : ℕ) :
    (ofPlaces c (n + 1)).dropDigit = ofPlaces ((c + 5) / 10) n := by
  have he : -((n + 1 : ℕ) : ℤ) + 1 = -(n : ℤ) := by omega
  change Scaled.mk (if 5 ≤ c % 10 then c / 10 + 1 else c / 10) (-((n + 1 : ℕ) : ℤ) + 1) = _
  rw [he, ofPlaces]
  congr 1
  split <;> omega

/-! ### Far places -/

/-- What is left of a coefficient when its far places are dropped. -/
def near (c n : ℕ) : Scaled := (ofPlaces c n).dropFarPlaces n

theorem near_zero (c : ℕ) : near c 0 = ofPlaces c 0 := rfl

theorem near_succ (c n : ℕ) : near c (n + 1) =
    if n + 1 ≤ maxScale then ofPlaces c (n + 1)
    else if c / 10 = 0 then ofPlaces 0 0 else near ((c + 5) / 10) n := by
  have he : -(maxScale : ℤ) ≤ -((n + 1 : ℕ) : ℤ) ↔ n + 1 ≤ maxScale := by omega
  rw [near, dropFarPlaces, dropDigit_ofPlaces]
  simp only [ofPlaces, he]
  rfl

theorem near_append_zero (c n : ℕ) : (near (10 * c) (n + 1)).value = (near c n).value := by
  have half : (10 * c + 5) / 10 = c := by omega
  have tenth : 10 * c / 10 = c := by omega
  rw [near_succ, half, tenth]
  split_ifs with h hc
  · -- No place is far.
    cases n with
    | zero => rw [near_zero, value_ofPlaces, value_ofPlaces, quotient_append_zero]
    | succ n => rw [near_succ, if_pos (by omega), value_ofPlaces, value_ofPlaces,
        quotient_append_zero]
  · subst hc
    cases n with
    | zero => rfl
    | succ n =>
      rw [near_succ]
      split_ifs <;> simp [quotient]
  · rfl

theorem near_le {n c c' : ℕ} (h : c ≤ c') : (near c n).value ≤ (near c' n).value := by
  induction n generalizing c c' with
  | zero =>
    rw [near_zero, near_zero, value_ofPlaces, value_ofPlaces]
    exact quotient_le_quotient 0 h
  | succ n ih =>
    rw [near_succ, near_succ]
    split_ifs with hn hc hc'
    · rw [value_ofPlaces, value_ofPlaces]
      exact quotient_le_quotient _ h
    · exact le_rfl
    · rw [value_ofPlaces, quotient_zero_right, Nat.cast_zero]
      exact quotient_nonneg _ _
    · omega
    · exact ih (by omega)

/-- Where no place is far, nothing is dropped; otherwise the places that are not far are left. -/
theorem exists_near (c n : ℕ) : ∃ k m, near c n = ofPlaces k m ∧ k ≤ c ∧ m ≤ maxScale := by
  induction n generalizing c with
  | zero => exact ⟨c, 0, rfl, le_rfl, Nat.zero_le _⟩
  | succ n ih =>
    rw [near_succ]
    split_ifs with hn hc
    · exact ⟨c, n + 1, rfl, le_rfl, hn⟩
    · exact ⟨0, 0, rfl, Nat.zero_le _, Nat.zero_le _⟩
    · obtain ⟨k, m, eq, hk, hm⟩ := ih ((c + 5) / 10)
      exact ⟨k, m, eq, by omega, hm⟩

/-! ### Long coefficients -/

/-- What is left of a coefficient when places are dropped for its length. -/
def short (c n : ℕ) : Scaled := (ofPlaces c n).dropLongPlaces n

theorem short_zero (c : ℕ) : short c 0 = ofPlaces c 0 := rfl

theorem short_succ (c n : ℕ) : short c (n + 1) =
    if longLimit ≤ c then short ((c + 5) / 10) n else ofPlaces c (n + 1) := by
  have he : (ofPlaces c (n + 1)).exponent < 0 := by
    simp only [ofPlaces]
    omega
  rw [short, dropLongPlaces, dropDigit_ofPlaces]
  simp only [he, true_and]
  rfl

theorem short_append_zero (c n : ℕ) : (short (10 * c) (n + 1)).value = (short c n).value := by
  have half : (10 * c + 5) / 10 = c := by omega
  rw [short_succ, half]
  split_ifs with h
  · rfl
  · rw [value_ofPlaces, quotient_append_zero]
    cases n with
    | zero => rw [short_zero, value_ofPlaces]
    | succ n => rw [short_succ, if_neg (by omega), value_ofPlaces]

/-- What the least long coefficient is rounded to without its last digit. -/
def longTenth : ℕ := (longLimit + 5) / 10

/-- Rounding does not take a coefficient below the tenth of a long one. -/
theorem longTenth_le_short {c n : ℕ} (h : longTenth ≤ c) :
    quotient longTenth n ≤ (short c n).value := by
  induction n generalizing c with
  | zero =>
    rw [short_zero, value_ofPlaces]
    exact quotient_le_quotient 0 h
  | succ n ih =>
    rw [short_succ]
    split_ifs with hc
    · have next : longTenth ≤ (c + 5) / 10 := Nat.div_le_div_right (by omega)
      refine le_trans ?_ (ih next)
      rw [← quotient_append_zero longTenth n]
      exact quotient_le_quotient _ (by omega)
    · rw [value_ofPlaces]
      exact quotient_le_quotient _ h

theorem short_le {n c c' : ℕ} (h : c ≤ c') : (short c n).value ≤ (short c' n).value := by
  induction n generalizing c c' with
  | zero =>
    rw [short_zero, short_zero, value_ofPlaces, value_ofPlaces]
    exact quotient_le_quotient 0 h
  | succ n ih =>
    rw [short_succ, short_succ]
    split_ifs with hc hc' hc'
    · exact ih (by omega)
    · omega
    · -- A long coefficient is not rounded below a short one.
      have short : c ≤ 10 * longTenth := by
        have : longLimit ≤ 10 * longTenth := by decide
        omega
      calc (ofPlaces c (n + 1)).value ≤ quotient (10 * longTenth) (n + 1) := by
            rw [value_ofPlaces]
            exact quotient_le_quotient _ short
        _ = quotient longTenth n := quotient_append_zero _ _
        _ ≤ _ := longTenth_le_short (Nat.div_le_div_right (by omega))
    · rw [value_ofPlaces, value_ofPlaces]
      exact quotient_le_quotient _ h

theorem exists_short (c n : ℕ) : ∃ k m, short c n = ofPlaces k m ∧ k ≤ c ∧ m ≤ n := by
  induction n generalizing c with
  | zero => exact ⟨c, 0, rfl, le_rfl, le_rfl⟩
  | succ n ih =>
    rw [short_succ]
    split_ifs with hc
    · obtain ⟨k, m, eq, hk, hm⟩ := ih ((c + 5) / 10)
      exact ⟨k, m, eq, by omega, by omega⟩
    · exact ⟨c, n + 1, rfl, le_rfl, le_rfl⟩

/-! ### Zeros -/

/-- What is left of a coefficient when its last zeros are dropped. -/
def plain (c n : ℕ) : Scaled := (ofPlaces c n).dropZeroPlaces n

theorem plain_succ (c n : ℕ) : plain c (n + 1) =
    if c % 10 = 0 then plain (c / 10) n else ofPlaces c (n + 1) := by
  have he : (ofPlaces c (n + 1)).exponent < 0 := by
    simp only [ofPlaces]
    omega
  have hn : -((n + 1 : ℕ) : ℤ) + 1 = -(n : ℤ) := by omega
  rw [plain, dropZeroPlaces]
  simp only [he, true_and]
  simp only [ofPlaces, hn]
  rfl

theorem value_plain (c n : ℕ) : (plain c n).value = quotient c n := by
  induction n generalizing c with
  | zero => exact value_ofPlaces c 0
  | succ n ih =>
    rw [plain_succ]
    split_ifs with hc
    · have tens : c = 10 * (c / 10) := by omega
      rw [ih]
      conv_rhs => rw [tens]
      rw [quotient_append_zero]
    · exact value_ofPlaces c (n + 1)

theorem exists_plain (c n : ℕ) : ∃ k m, plain c n = ofPlaces k m ∧ k ≤ c ∧ m ≤ n := by
  induction n generalizing c with
  | zero => exact ⟨c, 0, rfl, le_rfl, le_rfl⟩
  | succ n ih =>
    rw [plain_succ]
    split_ifs with hc
    · obtain ⟨k, m, eq, hk, hm⟩ := ih (c / 10)
      exact ⟨k, m, eq, by omega, by omega⟩
    · exact ⟨c, n + 1, rfl, le_rfl, le_rfl⟩

/-! ### Fitting -/

/-- Fitting goes through the three stages. -/
theorem fit_eq_plain {c n k m k' m' : ℕ} (hn : near c n = ofPlaces k m)
    (hs : short k m = ofPlaces k' m') : (ofPlaces c n).fit = plain k' m' := by
  simp only [near, short] at hn hs
  simp only [fit, plain, places_ofPlaces, hn, hs]

/-- What is fitted is what is left when far places are dropped, and places for its length. -/
theorem exists_value_fit (c n : ℕ) : ∃ k m, (near c n).value = quotient k m ∧
    (ofPlaces c n).fit.value = (short k m).value := by
  obtain ⟨k, m, hn, -, -⟩ := exists_near c n
  obtain ⟨k', m', hs, -, -⟩ := exists_short k m
  exact ⟨k, m, by rw [hn, value_ofPlaces],
    by rw [fit_eq_plain hn hs, value_plain, hs, value_ofPlaces]⟩

/-- Fitting keeps the order of values. -/
theorem value_fit_le {c n c' n' : ℕ} (h : quotient c n ≤ quotient c' n') :
    (ofPlaces c n).fit.value ≤ (ofPlaces c' n').fit.value := by
  obtain ⟨k, m, hk, hv⟩ := exists_value_fit c n
  obtain ⟨k', m', hk', hv'⟩ := exists_value_fit c' n'
  have first := le_of_quotient_le (f := fun c n => (near c n).value) near_append_zero
    (fun _ _ _ => near_le) h
  rw [hk, hk'] at first
  rw [hv, hv']
  exact le_of_quotient_le (f := fun c n => (short c n).value) short_append_zero
    (fun _ _ _ => short_le) first

/-- A whole number fits as it is. -/
theorem fit_whole (c : ℕ) : (ofPlaces c 0).fit = ofPlaces c 0 := rfl

/-- What is fitted has the places of a decimal, and no larger a coefficient. -/
theorem exists_fit (c n : ℕ) : ∃ k m, (ofPlaces c n).fit = ofPlaces k m ∧ k ≤ c ∧ m ≤ maxScale := by
  obtain ⟨k, m, hn, hk, hm⟩ := exists_near c n
  obtain ⟨k', m', hs, hk', hm'⟩ := exists_short k m
  obtain ⟨k'', m'', hp, hk'', hm''⟩ := exists_plain k' m'
  exact ⟨k'', m'', (fit_eq_plain hn hs).trans hp, by omega, by omega⟩

end EntityQuery.Decimal.Scaled
