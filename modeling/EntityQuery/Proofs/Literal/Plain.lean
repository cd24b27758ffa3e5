import EntityQuery.Proofs.Decimal.Plain
import EntityQuery.Proofs.Literal.Integer

/-!
# Numbers written as text

A text in plain notation is converted by way of the decimal that its number is rounded to, to an
integer as well, unless it is the text of one. So the text of a number that is a decimal is converted
exactly or not at all. But the rounding goes unnoticed: a text with more places than a decimal has
room for is converted to another number than it denotes, and its fraction may be lost on the way to
an integer.

The main result is `Literal.convert_plain`.
-/

namespace EntityQuery.Literal

open Decimal Text

variable {p : PlainNumber} {v : Value}

theorem toDecimal?_text (p : PlainNumber) :
    toDecimal? (.string p.text) = Decimal.ofText? p.chars := by
  rw [toDecimal?, PlainNumber.text, String.toList_ofList, PlainNumber.trim_chars]

/-- The integer of a text is that of its decimal. -/
theorem toInt64?_text_eq_some_iff {n : Int64} : toInt64? (.string p.text) = some n ↔
    ∃ d, Decimal.ofText? p.chars = some d ∧ d.value = n.toInt := by
  have read : toInt64? (.string p.text) = ((integer? p.chars).bind fitInt64?).or
      (((Decimal.ofText? p.chars).bind Decimal.toInt?).bind fitInt64?) := by
    rw [toInt64?, PlainNumber.text, String.toList_ofList, PlainNumber.trim_chars]
  have rounded (n : Int64) :
      ((Decimal.ofText? p.chars).bind Decimal.toInt?).bind fitInt64? = some n ↔
        ∃ d, Decimal.ofText? p.chars = some d ∧ d.value = n.toInt := by
    simp only [Option.bind_eq_some_iff, toInt?_eq_some_iff, fitInt64?_eq_some_iff]
    constructor
    · rintro ⟨k, ⟨d, hd, value⟩, rfl⟩
      exact ⟨d, hd, value⟩
    · rintro ⟨d, hd, value⟩
      exact ⟨n.toInt, ⟨d, hd, value⟩, rfl⟩
  have written {n : Int64} (h : (integer? p.chars).bind fitInt64? = some n) :
      ∃ d, Decimal.ofText? p.chars = some d ∧ d.value = n.toInt := by
    obtain ⟨k, hk, fits⟩ := Option.bind_eq_some_iff.mp h
    have value := PlainNumber.value_of_integer? hk
    rw [← fitInt64?_eq_some_iff.mp fits, ← value_ofInt64] at value
    obtain ⟨d, hd, exact⟩ := PlainNumber.exists_ofText?_of_value_eq value.symm
    exact ⟨d, hd, by rw [exact, value, value_ofInt64]⟩
  rw [read, Option.or_eq_some_iff, rounded]
  constructor
  · rintro (h | ⟨-, h⟩)
    · exact written h
    · exact h
  · intro h
    cases direct : (integer? p.chars).bind fitInt64? with
    | none => exact .inr ⟨rfl, h⟩
    | some m =>
      obtain ⟨d, hd, value⟩ := written direct
      obtain ⟨e, he, value'⟩ := h
      obtain rfl := Option.some.inj (hd.symm.trans he)
      rw [value, Int.cast_inj, Int64.toInt_inj] at value'
      exact .inl (congrArg some value')

theorem bind_fitInt32?_toInt64?_text {m : Int32} :
    (toInt64? (.string p.text)).bind fitInt32? = some m ↔
      ∃ d, Decimal.ofText? p.chars = some d ∧ d.value = m.toInt := by
  cases read : Decimal.ofText? p.chars with
  | none =>
    have none : toInt64? (.string p.text) = none :=
      Option.eq_none_iff_forall_ne_some.mpr fun n hn => by
        obtain ⟨d, hd, -⟩ := toInt64?_text_eq_some_iff.mp hn
        exact absurd (read.symm.trans hd) nofun
    simp [none]
  | some d =>
    have long (n : Int64) : toInt64? (.string p.text) = some n ↔ d.value = n.toInt := by
      simp [toInt64?_text_eq_some_iff, read]
    simpa using bind_fitInt32?_eq_some_iff long

/-! ### Conversion -/

theorem convert_decimal_text_iff : convert .decimal (.string p.text) = .ok v ↔
    ∃ d, v = .decimal d ∧ Decimal.ofText? p.chars = some d := by
  rw [← toDecimal?_text]
  exact scalar_eq_ok_iff_exists (t := .decimal) (j := .string p.text) rfl rfl

theorem convert_int64_text_iff : convert .int64 (.string p.text) = .ok v ↔
    ∃ n, v = .int64 n ∧ ∃ d, Decimal.ofText? p.chars = some d ∧ d.value = n.toInt := by
  refine (scalar_eq_ok_iff_exists (t := .int64) (j := .string p.text) rfl rfl).trans ?_
  exact exists_congr fun _ => and_congr_right' toInt64?_text_eq_some_iff

theorem convert_int32_text_iff : convert .int32 (.string p.text) = .ok v ↔
    ∃ n, v = .int32 n ∧ ∃ d, Decimal.ofText? p.chars = some d ∧ d.value = n.toInt := by
  refine (scalar_eq_ok_iff_exists (t := .int32) (j := .string p.text) rfl rfl).trans ?_
  exact exists_congr fun _ => and_congr_right' bind_fitInt32?_toInt64?_text

/-- **Numbers in plain notation are rounded.** To an integer or a decimal, a text is converted exactly
or not at all if its number is a decimal; if not, it is converted to another number or not at all. As
a decimal it becomes what its number is rounded to, and every number is converted that is not too
large. It becomes an integer just if its decimal is one. -/
theorem convert_plain (p : PlainNumber) :
    (∀ t v, t = .int32 ∨ t = .int64 ∨ t = .decimal → convert t (.string p.text) = .ok v →
      ∃ a, v.number? = some a ∧ (a.value = p.value ↔ ∃ e : Decimal, e.value = p.value)) ∧
    (∀ v, convert .decimal (.string p.text) = .ok v →
      ∃ d, v = .decimal d ∧ d.RoundedFrom p.value) ∧
    ((∃ v, convert .decimal (.string p.text) = .ok v) ↔ |p.value| < roundedLimit) ∧
    (∀ v, convert .int64 (.string p.text) = .ok v ↔ ∃ n, v = .int64 n ∧
      ∃ d, convert .decimal (.string p.text) = .ok (.decimal d) ∧ d.value = n.toInt) ∧
    ∀ v, convert .int32 (.string p.text) = .ok v ↔ ∃ n, v = .int32 n ∧
      ∃ d, convert .decimal (.string p.text) = .ok (.decimal d) ∧ d.value = n.toInt := by
  have decimal (d : Decimal) : convert .decimal (.string p.text) = .ok (.decimal d) ↔
      Decimal.ofText? p.chars = some d := by
    rw [convert_decimal_text_iff]
    simp
  have rounded {d : Decimal} (hd : Decimal.ofText? p.chars = some d) : d.RoundedFrom p.value := by
    rcases p.ofText?_spec with ⟨e, he, rounded⟩ | ⟨none, -⟩
    · obtain rfl := Option.some.inj (he.symm.trans hd)
      exact rounded
    · exact absurd (none.symm.trans hd) nofun
  refine ⟨?_, ?_, ?_, ?_, ?_⟩
  · rintro t v (rfl | rfl | rfl) h
    · obtain ⟨n, rfl, d, hd, value⟩ := convert_int32_text_iff.mp h
      refine ⟨_, rfl, ?_⟩
      rw [← (rounded hd).value_eq_iff, value, AnyNumber.value, Int32.toInt_toInt64]
    · obtain ⟨n, rfl, d, hd, value⟩ := convert_int64_text_iff.mp h
      refine ⟨_, rfl, ?_⟩
      rw [← (rounded hd).value_eq_iff, value, AnyNumber.value]
    · obtain ⟨d, rfl, hd⟩ := convert_decimal_text_iff.mp h
      exact ⟨_, rfl, (rounded hd).value_eq_iff⟩
  · intro v h
    obtain ⟨d, rfl, hd⟩ := convert_decimal_text_iff.mp h
    exact ⟨d, rfl, rounded hd⟩
  · constructor
    · rintro ⟨v, h⟩
      obtain ⟨d, -, hd⟩ := convert_decimal_text_iff.mp h
      exact (rounded hd).abs_lt
    · intro small
      rcases p.ofText?_spec with ⟨d, hd, -⟩ | ⟨-, large⟩
      · exact ⟨_, (decimal d).mpr hd⟩
      · exact absurd small large.not_gt
  · intro v
    simp only [decimal]
    exact convert_int64_text_iff
  · intro v
    simp only [decimal]
    exact convert_int32_text_iff

/-- A number with two places is converted exactly. -/
theorem convert_plain_places : ∃ p : PlainNumber, p.text = "-12.50" ∧
    ∃ v a, convert .decimal (.string p.text) = .ok v ∧ v.number? = some a ∧
      a.value = p.value := by
  let p : PlainNumber := ⟨some true, [1, 2], some [5, 0], by decide⟩
  have read : Decimal.ofText? p.chars = some ⟨true, 1250, 2, by decide, by decide⟩ := by
    decide +kernel
  have converted := convert_decimal_text_iff.mpr ⟨_, rfl, read⟩
  obtain ⟨a, ha, exact⟩ := (convert_plain p).1 .decimal _ (.inr (.inr rfl)) converted
  exact ⟨p, by decide +kernel, _, a, converted, ha,
    exact.mpr (PlainNumber.exists_value_eq (by decide +kernel) (by decide))⟩

/-- A number that is next to one, by a place more than there is room for. -/
def nextToOne : PlainNumber := ⟨none, [1], some (List.replicate 28 0 ++ [1]), by decide⟩

/-- The last place is lost, also on the way to an integer. -/
theorem convert_nextToOne :
    nextToOne.text = "1.00000000000000000000000000001" ∧ nextToOne.value ≠ 1 ∧
      convert .int32 (.string nextToOne.text) = .ok (.int32 1) ∧
      convert .int64 (.string nextToOne.text) = .ok (.int64 1) ∧
      ∃ d, convert .decimal (.string nextToOne.text) = .ok (.decimal d) ∧ d.value = 1 := by
  let one : Decimal := ⟨false, 10 ^ 28, 28, by decide, by decide⟩
  have read : Decimal.ofText? nextToOne.chars = some one := by decide +kernel
  have whole : one.toInt? = some 1 := by decide +kernel
  have value : one.value = (1 : ℤ) := toInt?_eq_some_iff.mp whole
  have digits : numberAfter 0 (nextToOne.whole ++ nextToOne.places) = 10 ^ 29 + 1 := by
    decide +kernel
  refine ⟨by decide +kernel, ?_, convert_int32_text_iff.mpr ⟨1, rfl, one, read, value⟩,
    convert_int64_text_iff.mpr ⟨1, rfl, one, read, value⟩, one,
    convert_decimal_text_iff.mpr ⟨one, rfl, read⟩, by exact_mod_cast value⟩
  change Scaled.quotient (numberAfter 0 (nextToOne.whole ++ nextToOne.places)) 29 ≠ 1
  rw [digits, Scaled.quotient]
  norm_num

end EntityQuery.Literal
