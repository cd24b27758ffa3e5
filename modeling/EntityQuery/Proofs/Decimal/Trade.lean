import EntityQuery.Proofs.Binary.Rounding
import EntityQuery.Proofs.Decimal.Scaled
import Mathlib.Algebra.Order.Ring.Pow
import Mathlib.Data.Nat.Cast.Order.Field
import Mathlib.Tactic.Linarith
import Mathlib.Tactic.NormNum

/-!
# Powers of two for powers of ten

The number of a code is a significand times a power of two. Doubles are multiplied out, exactly or
not at all. Halves are traded for tenths one by one; each of them loses at most the part `loss`, and
all of them together less than half of the gap to the next number. What comes out *stands for* the
code: it is close enough not to change the order of codes, and passes no whole number
(`Scaled.ofCode?_spec`). Fitting keeps both.
-/

namespace EntityQuery.Decimal

open Binary

namespace Scaled

/-! ### Trading powers of two for powers of ten -/

/-- The part of a number that a halving may lose. -/
def loss : ℚ := 5 / limit

theorem loss_nonneg : 0 ≤ loss := by
  unfold loss
  positivity

theorem loss_le_one : loss ≤ 1 := by
  unfold loss limit
  norm_num

theorem quotient_mul_five (c j : ℕ) : quotient (c * 5) (j + 1) = quotient c j / 2 := by
  unfold quotient
  rw [pow_succ]
  push_cast
  field_simp
  ring

/-- Half an odd number that leaves room is five tenths of it. -/
theorem tradeHalves_of_odd {c j n : ℕ} (h : c % 2 = 1 ∧ c * 5 < limit) :
    (ofPlaces c (j + (n + 1))).tradeHalves (n + 1) =
      (ofPlaces (c * 5) (j + 1 + n)).tradeHalves n := by
  have places : j + (n + 1) = j + 1 + n := by omega
  rw [tradeHalves, coefficient_ofPlaces, if_pos h, places]
  rfl

theorem tradeHalves_of_not_odd {c j n : ℕ} (h : ¬ (c % 2 = 1 ∧ c * 5 < limit)) :
    (ofPlaces c (j + (n + 1))).tradeHalves (n + 1) = (ofPlaces (c / 2) (j + n)).tradeHalves n := by
  have exponent : (ofPlaces c (j + (n + 1))).exponent + 1 = -((j + n : ℕ) : ℤ) := by
    simp only [ofPlaces]
    omega
  rw [tradeHalves, coefficient_ofPlaces, if_neg h, exponent]
  rfl

/-- A halving loses nothing of an even number, and little of an odd one that is too long to be
multiplied by five. -/
theorem quotient_half {c : ℕ} (j : ℕ) (h : ¬ (c % 2 = 1 ∧ c * 5 < limit)) :
    quotient (c / 2) j ≤ quotient c j / 2 ∧
      quotient c j / 2 * (1 - loss) ≤ quotient (c / 2) j := by
  unfold quotient
  constructor
  · rw [div_right_comm]
    gcongr
    exact Nat.cast_div_le
  · have kept : (c : ℚ) / 2 * (1 - loss) ≤ (c / 2 : ℕ) := by
      have rest : (c : ℚ) = 2 * (c / 2 : ℕ) + (c % 2 : ℕ) := by
        exact_mod_cast (Nat.div_add_mod c 2).symm
      rcases Nat.mod_two_eq_zero_or_one c with even | odd
      · rw [even, Nat.cast_zero, add_zero] at rest
        have : (0 : ℚ) ≤ (c / 2 : ℕ) := Nat.cast_nonneg _
        rw [rest]
        nlinarith [loss_nonneg]
      · have long : (limit : ℚ) ≤ c * 5 := by
          exact_mod_cast not_lt.mp fun hlt => h ⟨odd, hlt⟩
        have lost : 1 ≤ c * loss := by
          unfold loss
          rw [mul_div_assoc', le_div_iff₀ (by unfold limit; norm_num), one_mul]
          exact long
        rw [odd, Nat.cast_one] at rest
        linarith
    calc (c : ℚ) / 10 ^ j / 2 * (1 - loss) = c / 2 * (1 - loss) / 10 ^ j := by ring
      _ ≤ (c / 2 : ℕ) / 10 ^ j := by gcongr

/-- Trading halves loses at most the given part for each. -/
theorem exists_tradeHalves {c : ℕ} (hc : c < limit) (j n : ℕ) :
    ∃ k m, (ofPlaces c (j + n)).tradeHalves n = ofPlaces k m ∧ k < limit ∧
      quotient k m ≤ quotient c j / 2 ^ n ∧
      quotient c j / 2 ^ n * (1 - loss) ^ n ≤ quotient k m := by
  induction n generalizing c j with
  | zero => exact ⟨c, j, rfl, hc, by simp, by simp⟩
  | succ n ih =>
    -- What the other halves lose after a step that loses at most one part.
    have after {c' j' : ℕ} (hc' : c' < limit) (upper : quotient c' j' ≤ quotient c j / 2)
        (lower : quotient c j / 2 * (1 - loss) ≤ quotient c' j') :
        ∃ k m, (ofPlaces c' (j' + n)).tradeHalves n = ofPlaces k m ∧ k < limit ∧
          quotient k m ≤ quotient c j / 2 ^ (n + 1) ∧
          quotient c j / 2 ^ (n + 1) * (1 - loss) ^ (n + 1) ≤ quotient k m := by
      obtain ⟨k, m, eq, hk, hle, hge⟩ := ih hc' j'
      have rest : 0 ≤ (1 - loss) ^ n := pow_nonneg (by linarith [loss_le_one]) n
      refine ⟨k, m, eq, hk, hle.trans ?_, le_trans ?_ hge⟩
      · calc quotient c' j' / 2 ^ n ≤ quotient c j / 2 / 2 ^ n := by gcongr
          _ = quotient c j / 2 ^ (n + 1) := by rw [pow_succ', div_div]
      · calc quotient c j / 2 ^ (n + 1) * (1 - loss) ^ (n + 1)
            = quotient c j / 2 * (1 - loss) / 2 ^ n * (1 - loss) ^ n := by
              rw [pow_succ' (2 : ℚ), pow_succ (1 - loss), ← div_div]
              ring
          _ ≤ quotient c' j' / 2 ^ n * (1 - loss) ^ n := by gcongr
    by_cases h : c % 2 = 1 ∧ c * 5 < limit
    · rw [tradeHalves_of_odd h]
      refine after h.2 (quotient_mul_five c j).le ?_
      rw [quotient_mul_five]
      exact mul_le_of_le_one_right (div_nonneg (quotient_nonneg c j) zero_le_two)
        (by linarith [loss_nonneg])
    · rw [tradeHalves_of_not_odd h]
      obtain ⟨upper, lower⟩ := quotient_half j h
      exact after (by omega) upper lower

/-- Trading halves for tenths is exact where all of them divide the coefficient. -/
theorem tradeHalves_exact (c j n : ℕ) :
    (ofPlaces (c * 2 ^ n) (j + n)).tradeHalves n = ofPlaces c j := by
  induction n with
  | zero => rw [pow_zero, mul_one]; rfl
  | succ n ih =>
    have even : c * 2 ^ (n + 1) % 2 = 0 := by
      rw [pow_succ, ← mul_assoc, Nat.mul_mod_left]
    have half : c * 2 ^ (n + 1) / 2 = c * 2 ^ n := by
      rw [pow_succ, ← mul_assoc, Nat.mul_div_cancel _ Nat.two_pos]
    rw [tradeHalves_of_not_odd (by omega), half, ih]

/-- Trading doubles for tens doubles the coefficient, or fails. -/
theorem tradeDoubles_eq {c : ℕ} (hc : c < limit) (n : ℕ) :
    (Scaled.mk c n).tradeDoubles n =
      if c * 2 ^ n < limit then some (ofPlaces (c * 2 ^ n) 0) else none := by
  induction n generalizing c with
  | zero => simp [tradeDoubles, hc, ofPlaces]
  | succ n ih =>
    have doubled : c * 2 ^ (n + 1) = c * 2 * 2 ^ n := by ring
    rw [tradeDoubles]
    simp only
    by_cases room : c * 2 < limit
    · have exponent : ((n + 1 : ℕ) : ℤ) - 1 = n := by omega
      rw [if_pos room, exponent, ih room, doubled]
    · have full : ¬ c * 2 ^ (n + 1) < limit := by
        have : c * 2 ≤ c * 2 * 2 ^ n := Nat.le_mul_of_pos_right _ (Nat.two_pow_pos n)
        omega
      rw [if_neg room, if_neg full, if_pos (by omega)]

/-! ### Codes -/

/-- The number without sign of a code. -/
def magnitude (code : ℕ) : ℚ := Format.binary64.units code / 2 ^ Format.binary64.unitExponent

/-- What the number of a code is traded for. -/
def ofCode? (code : ℕ) : Option Scaled :=
  let power : ℤ := Format.binary64.doublings code - Format.binary64.unitExponent
  let start : Scaled := ⟨Format.binary64.significand code, power⟩
  (if power < 0 then some (start.tradeHalves (-power).toNat)
    else start.tradeDoubles power.toNat).bind multiplyOut?

/-- A coefficient with places stands for the number of a code: it is no larger, loses less than
half of the gap to the number below, and passes no whole number. -/
structure StandsFor (k m code : ℕ) : Prop where
  coefficient_lt : k < limit
  magnitude_lt : magnitude code < limit
  le : quotient k m ≤ magnitude code
  close : magnitude code * (1 - 1 / 2 ^ 54) ≤ quotient k m
  whole : ∀ i : ℕ, (i : ℚ) ≤ magnitude code → (i : ℚ) ≤ quotient k m

theorem magnitude_nonneg (code : ℕ) : 0 ≤ magnitude code := by
  unfold magnitude
  positivity

theorem multiplyOut?_ofPlaces (k m : ℕ) : (ofPlaces k m).multiplyOut? = some (ofPlaces k m) :=
  if_pos (by simp [ofPlaces])

/-- The significand of a 64-bit number. -/
theorem significand_lt_two_pow (code : ℕ) : Format.binary64.significand code < 2 ^ 53 :=
  (Format.binary64.significand_lt code).trans_eq (by norm_num [Format.binary64])

theorem significand_lt_limit (code : ℕ) : Format.binary64.significand code < limit :=
  (significand_lt_two_pow code).trans (by norm_num [limit])

/-- A number that is exact stands for itself. -/
theorem standsFor_of_eq {k m code : ℕ} (hk : k < limit) (h : quotient k m = magnitude code)
    (hm : magnitude code < limit) : StandsFor k m code where
  coefficient_lt := hk
  magnitude_lt := hm
  le := h.le
  close := h ▸ mul_le_of_le_one_right (quotient_nonneg k m) (by norm_num)
  whole _ hi := h ▸ hi

/-- Fewer halves are traded than lose half the gap between neighbours. -/
theorem close_le_pow {n : ℕ} (hn : n ≤ 1074) : 1 - 1 / 2 ^ 54 ≤ (1 - loss) ^ n := by
  have small : (n : ℚ) * loss ≤ 1 / 2 ^ 54 := by
    have hn : (n : ℚ) ≤ 1074 := by exact_mod_cast hn
    calc (n : ℚ) * loss ≤ 1074 * loss := mul_le_mul_of_nonneg_right hn loss_nonneg
      _ ≤ 1 / 2 ^ 54 := by
        unfold loss limit
        norm_num
  have bernoulli := one_add_mul_le_pow (a := -loss) (by linarith [loss_le_one]) n
  rw [← sub_eq_add_neg] at bernoulli
  linarith

/-- A number whose significand is halved. -/
theorem exists_ofCode?_of_halves {code n : ℕ} (hn : 0 < n)
    (h : Format.binary64.doublings code + n = 1074) :
    ∃ k m, ofCode? code = some (ofPlaces k m) ∧ StandsFor k m code := by
  have bits := significand_lt_two_pow code
  have traded : ofCode? code =
      ((ofPlaces (Format.binary64.significand code) (0 + n)).tradeHalves n).multiplyOut? := by
    have power :
        (Format.binary64.doublings code : ℤ) - Format.binary64.unitExponent = -(n : ℤ) := by
      have : Format.binary64.unitExponent = 1074 := rfl
      omega
    unfold ofCode?
    dsimp only
    rw [power, if_pos (by omega), Option.bind_some, Int.neg_neg, Int.toNat_natCast, Nat.zero_add]
    rfl
  have size : magnitude code = Format.binary64.significand code / 2 ^ n := by
    have : Format.binary64.unitExponent = Format.binary64.doublings code + n := by
      rw [h]
      rfl
    rw [magnitude, Format.units_eq, this, pow_add]
    push_cast
    field_simp
  generalize Format.binary64.significand code = s at *
  obtain ⟨k, m, eq, hk, hle, hge⟩ := exists_tradeHalves (c := s)
    (bits.trans (by norm_num [limit])) 0 n
  rw [quotient_zero_right, ← size] at hle hge
  rw [eq, multiplyOut?_ofPlaces] at traded
  have close : magnitude code * (1 - 1 / 2 ^ 54) ≤ quotient k m :=
    (mul_le_mul_of_nonneg_left (close_le_pow (by omega)) (magnitude_nonneg code)).trans hge
  refine ⟨k, m, traded, hk, ?_, hle, close, fun i hi => ?_⟩
  · calc magnitude code ≤ s := size ▸ div_le_self (Nat.cast_nonneg _) (one_le_pow₀ (by norm_num))
      _ < limit := by exact_mod_cast bits.trans (by norm_num [limit])
  · -- A whole number is either the number itself or below it by more than can be lost.
    have hi' : i * 2 ^ n ≤ s := by
      rw [size, le_div_iff₀ (by positivity)] at hi
      exact_mod_cast hi
    rcases Nat.lt_or_eq_of_le hi' with hlt | heq
    · refine le_trans ?_ close
      have gap : (i : ℚ) + 1 / 2 ^ n ≤ magnitude code := by
        have : (i : ℚ) * 2 ^ n + 1 ≤ s := by exact_mod_cast hlt
        rw [size, le_div_iff₀ (by positivity), add_mul, div_mul_cancel₀ _ (by positivity)]
        exact this
      have part : magnitude code * (1 / 2 ^ 54) ≤ 1 / 2 ^ n := by
        have : (s : ℚ) ≤ 2 ^ 54 := by exact_mod_cast (bits.trans (by norm_num)).le
        rw [size, div_mul_div_comm, mul_one, div_le_div_iff₀ (by positivity) (by positivity),
          one_mul, mul_comm]
        gcongr
      linarith
    · have exact := tradeHalves_exact i 0 n
      rw [heq, eq] at exact
      have := congrArg value exact
      rw [value_ofPlaces, value_ofPlaces, quotient_zero_right] at this
      exact this.ge

/-- A number whose significand is doubled. -/
theorem ofCode?_of_doubles {code n : ℕ} (h : Format.binary64.doublings code = 1074 + n) :
    magnitude code = (Format.binary64.significand code * 2 ^ n : ℕ) ∧
      ofCode? code = if Format.binary64.significand code * 2 ^ n < limit then
        some (ofPlaces (Format.binary64.significand code * 2 ^ n) 0) else none := by
  have one : Format.binary64.unitExponent = 1074 := rfl
  rw [← one] at h
  constructor
  · rw [magnitude, Format.units_eq, h, pow_add]
    push_cast
    field_simp
  · have power : (Format.binary64.doublings code : ℤ) - Format.binary64.unitExponent = n := by
      omega
    unfold ofCode?
    dsimp only
    rw [power, if_neg (by omega), Int.toNat_natCast, tradeDoubles_eq (significand_lt_limit code)]
    split
    · exact multiplyOut?_ofPlaces _ 0
    · rfl

/-- A code is traded for what stands for it, unless it is too large for a decimal. -/
theorem ofCode?_spec (code : ℕ) :
    (∃ k m, ofCode? code = some (ofPlaces k m) ∧ StandsFor k m code) ∨
      ofCode? code = none ∧ limit ≤ magnitude code := by
  rcases Nat.lt_or_ge (Format.binary64.doublings code) 1074 with h | h
  · exact .inl (exists_ofCode?_of_halves (Nat.sub_pos_of_lt h) (Nat.add_sub_cancel' h.le))
  · obtain ⟨n, hn⟩ := Nat.exists_eq_add_of_le h
    obtain ⟨size, eq⟩ := ofCode?_of_doubles hn
    split_ifs at eq with fits
    · refine .inl ⟨_, 0, eq, standsFor_of_eq fits ?_ ?_⟩
      · rw [size, quotient_zero_right]
      · rw [size]
        exact_mod_cast fits
    · refine .inr ⟨eq, ?_⟩
      rw [size]
      exact_mod_cast not_lt.mp fits

/-! ### Fitted codes -/

theorem magnitude_zero : magnitude 0 = 0 := by
  rw [magnitude, Format.units_zero, Nat.cast_zero, zero_div]

/-- Neighbouring codes are further apart than what one of them may lose. -/
theorem magnitude_le_close {b c : ℕ} (h : b < c) :
    magnitude b ≤ magnitude c * (1 - 1 / 2 ^ 54) := by
  have gap : (2 ^ 54 * Format.binary64.units b + Format.binary64.units c : ℚ) ≤
      2 ^ 54 * Format.binary64.units c := by
    exact_mod_cast Format.binary64.units_gap h
  unfold magnitude
  rw [div_mul_eq_mul_div]
  gcongr
  linarith

namespace StandsFor

variable {k m k' m' b c : ℕ}

/-- What stands for codes is fitted in the order of the codes. -/
theorem value_fit_le (hb : StandsFor k m b) (hc : StandsFor k' m' c) (h : b < c) :
    (ofPlaces k m).fit.value ≤ (ofPlaces k' m').fit.value :=
  Scaled.value_fit_le ((hb.le.trans (magnitude_le_close h)).trans hc.close)

/-- Fitting does not take a number below a whole number. -/
theorem int_le_value_fit (h : StandsFor k m c) {n : ℤ} (hn : n ≤ magnitude c) :
    n ≤ (ofPlaces k m).fit.value := by
  have whole (i : ℕ) (hi : (i : ℚ) ≤ magnitude c) : (i : ℚ) ≤ (ofPlaces k m).fit.value := by
    have below : quotient i 0 ≤ quotient k m := by
      rw [quotient_zero_right]
      exact h.whole i hi
    have := Scaled.value_fit_le below
    rwa [fit_whole, value_ofPlaces, quotient_zero_right] at this
  rcases le_total 0 n with h0 | h0
  · have size : (n.toNat : ℚ) = n := by exact_mod_cast Int.toNat_of_nonneg h0
    rw [← size] at hn ⊢
    exact whole _ hn
  · have zero := whole 0 (by simpa using magnitude_nonneg c)
    have : (n : ℚ) ≤ 0 := by exact_mod_cast h0
    exact this.trans (by simpa using zero)

/-- Fitting does not take a number above a whole number. -/
theorem value_fit_le_int (h : StandsFor k m c) {n : ℤ} (hn : magnitude c ≤ n) :
    (ofPlaces k m).fit.value ≤ n := by
  have h0 : (0 : ℤ) ≤ n := by exact_mod_cast (magnitude_nonneg c).trans hn
  have size : (n.toNat : ℚ) = n := by exact_mod_cast Int.toNat_of_nonneg h0
  rw [← size] at hn ⊢
  have above : quotient k m ≤ quotient n.toNat 0 := by
    rw [quotient_zero_right]
    exact h.le.trans hn
  have := Scaled.value_fit_le above
  rwa [fit_whole, value_ofPlaces, quotient_zero_right] at this

end StandsFor

end Scaled

end EntityQuery.Decimal
