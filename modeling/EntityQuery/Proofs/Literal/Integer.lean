import EntityQuery.Proofs.Literal.Typing

/-!
# Integers from numbers

A number of JSON is converted to an integer exactly or not at all. It may be an integer with or
without a sign, or a float; what decides is its exact value. An integer that fits 64 bits only
without a sign is looked at as a float and may be rounded, but not down to the range of integers with
a sign: the first number beyond this range is a float itself, and rounding keeps the order.

The main result is `Literal.convert_number_iff`.
-/

namespace EntityQuery

/-- The exact value of a number. -/
def JsonNumber.value : JsonNumber → ℚ
  | .integer n _ => n
  | .float x _ => x.value

namespace Literal

/-! ### The ranges of integers -/

/-- The integers of 64 bits. -/
theorem exists_int64_iff {n : ℤ} : (∃ m : Int64, m.toInt = n) ↔ -2 ^ 63 ≤ n ∧ n < 2 ^ 63 := by
  constructor
  · rintro ⟨m, rfl⟩
    exact ⟨m.le_toInt, m.toInt_lt⟩
  · rintro ⟨least, most⟩
    exact ⟨.ofInt n, Int64.toInt_ofInt_of_le least most⟩

/-- The integers of 32 bits. -/
theorem exists_int32_iff {n : ℤ} : (∃ m : Int32, m.toInt = n) ↔ -2 ^ 31 ≤ n ∧ n < 2 ^ 31 := by
  constructor
  · rintro ⟨m, rfl⟩
    exact ⟨m.le_toInt, m.toInt_lt⟩
  · rintro ⟨least, most⟩
    exact ⟨.ofInt n, Int32.toInt_ofInt_of_le least most⟩

theorem fitInt64?_eq_some_iff {n : ℤ} {m : Int64} : fitInt64? n = some m ↔ m.toInt = n := by
  have most : Int64.maxValue.toInt = 2 ^ 63 - 1 := rfl
  have range : Int64.minValue.toInt ≤ n ∧ n ≤ Int64.maxValue.toInt ↔ -2 ^ 63 ≤ n ∧ n < 2 ^ 63 := by
    rw [most, Int.le_sub_one_iff]
    rfl
  unfold fitInt64?
  split
  · next fits =>
    have exact := Int64.toInt_ofInt_of_le (range.mp fits).1 (range.mp fits).2
    rw [Option.some.injEq, ← Int64.toInt_inj, exact, eq_comm]
  · next far =>
    refine iff_of_false nofun fun equal => far (range.mpr ?_)
    exact exists_int64_iff.mp ⟨m, equal⟩

theorem fitInt32?_eq_some_iff {n : Int64} {m : Int32} :
    fitInt32? n = some m ↔ m.toInt = n.toInt := by
  have most : Int32.maxValue.toInt = 2 ^ 31 - 1 := rfl
  have range : Int32.minValue.toInt ≤ n.toInt ∧ n.toInt ≤ Int32.maxValue.toInt ↔
      -2 ^ 31 ≤ n.toInt ∧ n.toInt < 2 ^ 31 := by
    rw [most, Int.le_sub_one_iff]
    rfl
  unfold fitInt32?
  split
  · next fits =>
    have exact := Int32.toInt_ofInt_of_le (range.mp fits).1 (range.mp fits).2
    rw [Option.some.injEq, ← Int32.toInt_inj, exact, eq_comm]
  · next far =>
    refine iff_of_false nofun fun equal => far (range.mpr ?_)
    exact exists_int32_iff.mp ⟨m, equal⟩

/-- A 32-bit integer comes from the 64-bit one that it is. -/
theorem bind_fitInt32?_eq_some_iff {o : Option Int64} {q : ℚ}
    (h : ∀ n : Int64, o = some n ↔ q = n.toInt) {m : Int32} :
    o.bind fitInt32? = some m ↔ q = m.toInt := by
  rw [Option.bind_eq_some_iff]
  constructor
  · rintro ⟨n, hn, fits⟩
    rw [(h n).mp hn, fitInt32?_eq_some_iff.mp fits]
  · intro equal
    obtain ⟨n, hn⟩ : ∃ n : Int64, n.toInt = m.toInt := by
      have := m.le_toInt
      have := m.toInt_lt
      exact exists_int64_iff.mpr ⟨by omega, by omega⟩
    exact ⟨n, (h n).mpr (by rw [equal, hn]), fitInt32?_eq_some_iff.mpr hn.symm⟩

/-! ### Numbers -/

/-- The first integer beyond the range, as a float. -/
def beyondInt64 : Binary64 := Binary.ofInt .binary64 (2 ^ 63)

theorem value_beyondInt64 : beyondInt64.isFinite = true ∧ beyondInt64.value = 2 ^ 63 := by
  have read : beyondInt64.toInt? = some (2 ^ 63) := by decide +kernel
  obtain ⟨finite, value⟩ := Binary.toInt?_eq_some_iff.mp read
  exact ⟨finite, by exact_mod_cast value⟩

/-- An integer beyond the range is not rounded into it. -/
theorem bind_fitInt64?_toInt?_ofInt {n : ℤ} (h : 2 ^ 63 ≤ n) :
    (Binary.ofInt .binary64 n).toInt?.bind fitInt64? = none := by
  rw [Option.eq_none_iff_forall_ne_some]
  intro m read
  obtain ⟨k, hk, fits⟩ := Option.bind_eq_some_iff.mp read
  obtain ⟨finite, value⟩ := Binary.toInt?_eq_some_iff.mp hk
  obtain ⟨limit, limitValue⟩ := value_beyondInt64
  have above : beyondInt64.value ≤ (Binary.ofInt .binary64 n).value := by
    rw [Binary.value_le_value_iff limit finite]
    refine Binary.place_le_place_ofInt limit ?_
    rw [limitValue]
    exact_mod_cast h
  rw [limitValue, value] at above
  have large : 2 ^ 63 ≤ k := by exact_mod_cast above
  have small := m.toInt_lt
  rw [fitInt64?_eq_some_iff.mp fits] at small
  omega

/-- The integer that a number is, if it is one of 64 bits. -/
theorem integral?_eq_some_iff {n : JsonNumber} {m : Int64} :
    integral? n = some m ↔ n.value = m.toInt := by
  cases n with
  | float x finite =>
    rw [integral?, JsonNumber.toInt64?, Option.none_or, Option.bind_eq_some_iff]
    simp only [JsonNumber.toFloat, Binary.toInt?_eq_some_iff, fitInt64?_eq_some_iff]
    constructor
    · rintro ⟨k, ⟨-, value⟩, equal⟩
      rw [equal, ← value]
      rfl
    · exact fun value => ⟨m.toInt, ⟨finite, value⟩, rfl⟩
  | integer n fits =>
    have value : (JsonNumber.integer n fits).value = m.toInt ↔ m.toInt = n := by
      rw [JsonNumber.value, Int.cast_inj, eq_comm]
    rw [integral?, value, JsonNumber.toInt64?, JsonNumber.toFloat]
    by_cases within : n ≤ Int64.maxValue.toInt
    · have plain : fitInt64? n = some (Int64.ofInt n) := if_pos ⟨fits.1, within⟩
      rw [if_pos within, Option.some_or, ← plain, fitInt64?_eq_some_iff]
    · have far : 2 ^ 63 ≤ n := Int.lt_iff_add_one_le.mp (not_le.mp within)
      rw [if_neg within, Option.none_or, bind_fitInt64?_toInt?_ofInt far]
      refine iff_of_false (Option.some_ne_none m).symm fun equal => ?_
      have := m.toInt_lt
      omega

/-- **Numbers become integers exactly.** A number is converted to an integer of 64 or of 32 bits
just if its exact value is one, that is, a whole number in the range; and then to this integer.
Nothing is wrapped around, cut off or rounded. -/
theorem convert_number_iff (n : JsonNumber) :
    (∀ v, convert .int64 (.number n) = .ok v ↔ ∃ m : Int64, v = .int64 m ∧ n.value = m.toInt) ∧
    ((∃ v, convert .int64 (.number n) = .ok v) ↔
      ∃ k : ℤ, n.value = k ∧ -2 ^ 63 ≤ k ∧ k < 2 ^ 63) ∧
    (∀ v, convert .int32 (.number n) = .ok v ↔ ∃ m : Int32, v = .int32 m ∧ n.value = m.toInt) ∧
    ((∃ v, convert .int32 (.number n) = .ok v) ↔
      ∃ k : ℤ, n.value = k ∧ -2 ^ 31 ≤ k ∧ k < 2 ^ 31) := by
  have long (v : Value) : convert .int64 (.number n) = .ok v ↔
      ∃ m : Int64, v = .int64 m ∧ n.value = m.toInt := by
    refine (scalar_eq_ok_iff_exists (t := .int64) (j := .number n) rfl rfl).trans ?_
    exact exists_congr fun _ => and_congr_right' integral?_eq_some_iff
  have short (v : Value) : convert .int32 (.number n) = .ok v ↔
      ∃ m : Int32, v = .int32 m ∧ n.value = m.toInt := by
    refine (scalar_eq_ok_iff_exists (t := .int32) (j := .number n) rfl rfl).trans ?_
    exact exists_congr fun _ => and_congr_right'
      (bind_fitInt32?_eq_some_iff fun _ => integral?_eq_some_iff)
  refine ⟨long, ?_, short, ?_⟩
  · simp only [long, ← exists_int64_iff]
    constructor
    · rintro ⟨_, m, -, value⟩
      exact ⟨m.toInt, value, m, rfl⟩
    · rintro ⟨_, value, m, rfl⟩
      exact ⟨_, m, rfl, value⟩
  · simp only [short, ← exists_int32_iff]
    constructor
    · rintro ⟨_, m, -, value⟩
      exact ⟨m.toInt, value, m, rfl⟩
    · rintro ⟨_, value, m, rfl⟩
      exact ⟨_, m, rfl, value⟩

end Literal

end EntityQuery
