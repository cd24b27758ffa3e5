import EntityQuery.Literal
import EntityQuery.Proofs.Text.Boundary

/-!
# Literals in errors

A literal that does not fit a type is named by the error: its kind, the type, and its compact text.
A text of at most 64 bytes is shown whole. Of a longer one the error shows the longest start of at
most 61 bytes, and three dots. The start is a text again, with no character cut in two, and it has
at least 58 bytes, since the first character that is left out has at most four.

The main result is `Literal.convert_error_excerpt`.
-/

namespace EntityQuery

open Text

variable {t : ValueType} {j : Json} {e : CompileError}

/-! ### The excerpt of a literal -/

namespace Json

theorem excerpt_of_le (h : j.text.utf8ByteSize ≤ 64) : j.excerpt = j.text := if_pos h

theorem excerpt_of_lt (h : 64 < j.text.utf8ByteSize) :
    j.excerpt = truncate j.text 61 ++ "..." :=
  if_neg (Nat.not_le.mpr h)

/-- An excerpt has at most 64 bytes, the three dots counted. -/
theorem utf8ByteSize_excerpt_le (j : Json) : j.excerpt.utf8ByteSize ≤ 64 := by
  by_cases h : j.text.utf8ByteSize ≤ 64
  · rw [excerpt_of_le h]
    exact h
  · have left := utf8ByteSize_truncate_le j.text 61
    have dots : "...".utf8ByteSize = 3 := by decide +kernel
    rw [excerpt_of_lt (Nat.lt_of_not_le h), String.utf8ByteSize_append, dots]
    omega

end Json

/-! ### Errors of a conversion -/

namespace Literal

theorem convert_eq_scalar (single : t.isCollection = false) (j : Json) :
    convert t j = scalar t j := by
  cases t with
  | list u => cases single
  | _ => rfl

/-- A literal fails to be a single value just if it is not null and nothing of the type. -/
theorem scalar_eq_error_iff :
    scalar t j = .error e ↔ j.isNull = false ∧ toScalar? j t = none ∧ e = mismatch j t := by
  cases null : j.isNull with
  | true => simp [scalar, null]
  | false =>
    rw [scalar, null]
    cases toScalar? j t <;> simp [eq_comm]

/-- **Errors show an excerpt of the literal.** When a literal does not convert to a type that is no
list, the error names the kind of the literal and the type, and shows the compact text of the
literal: all of it if that has at most 64 bytes, and otherwise its longest start of at most 61 bytes
with three dots after it. The search for the place of the cut never falls back on the start of the
text: it finds a boundary with at least 58 bytes before it, and these bytes are what is shown. With
the dots they are at most 64, and a text. -/
theorem convert_error_excerpt (single : t.isCollection = false)
    (failed : convert t j = .error e) :
    ∃ shown : String,
      (e = .conversion shown (.literal j.kind) (.type t) ∧ e.code = "coercion" ∧
        e.message =
          "Cannot convert " ++ j.kind.name ++ " value " ++ shown ++ " to " ++ t.text) ∧
      (j.text.utf8ByteSize ≤ 64 → shown = j.text) ∧
      (64 < j.text.utf8ByteSize → ∃ (cut : j.text.Pos) (start : String),
        lastBoundary? j.text 61 = some cut ∧ 58 ≤ cut.offset.byteIdx ∧
        cut.offset.byteIdx ≤ 61 ∧
        start.toByteArray = j.text.toByteArray.extract 0 cut.offset.byteIdx ∧
        LongestStart j.text 61 start ∧ 58 ≤ start.utf8ByteSize ∧ shown = start ++ "...") ∧
      shown.utf8ByteSize ≤ 64 ∧ shown.toByteArray.IsValidUTF8 := by
  rw [convert_eq_scalar single] at failed
  obtain ⟨-, -, rfl⟩ := scalar_eq_error_iff.mp failed
  refine ⟨j.excerpt, ⟨rfl, rfl, rfl⟩, Json.excerpt_of_le, fun long => ?_,
    j.utf8ByteSize_excerpt_le, j.excerpt.isValidUTF8⟩
  have near : 61 < (j.text.posLE ⟨61⟩).offset.byteIdx + 4 := lt_posLE_add_four (by omega)
  have size := utf8ByteSize_truncate j.text 61
  refine ⟨j.text.posLE ⟨61⟩, truncate j.text 61, lastBoundary?_eq_posLE _ _, by omega,
    byteIdx_posLE_le _ _, ?_, longestStart_truncate _ _, by omega, Json.excerpt_of_lt long⟩
  exact (splits_truncate j.text 61).toByteArray_left_eq

/-- A letter and sixteen characters of four bytes, in quotation marks, make 67 bytes. The fifteenth
of these characters starts at the 59th byte and would end at the 62nd, so the text is cut before it. -/
theorem convert_error_excerpt_faces :
    let j : Json := .string (String.ofList ('a' :: List.replicate 16 '😀'))
    let start := String.ofList ('"' :: 'a' :: List.replicate 14 '😀')
    ValueType.int32.isCollection = false ∧
    convert .int32 j = .error (mismatch j .int32) ∧
    j.text.utf8ByteSize = 67 ∧ start.utf8ByteSize = 58 ∧
    LongestStart j.text 61 start ∧
    mismatch j .int32 = .conversion (start ++ "...") (.literal .string) (.type .int32) ∧
    (mismatch j .int32).message =
      "Cannot convert string value " ++ (start ++ "...") ++ " to int32" := by
  intro j start
  have failed : convert .int32 j = .error (mismatch j .int32) :=
    scalar_eq_error_iff.mpr ⟨rfl, by decide +kernel, rfl⟩
  have size : j.text.utf8ByteSize = 67 := by decide +kernel
  obtain ⟨shown, ⟨error, -, message⟩, -, long, -⟩ := convert_error_excerpt rfl failed
  obtain ⟨-, left, -, -, -, -, longest, -, rfl⟩ := long (by omega)
  have same : left = start := (longestStart_iff.mp longest).trans (by decide +kernel)
  rw [same] at error message longest
  exact ⟨rfl, failed, size, by decide +kernel, longest, error, message⟩

end Literal

end EntityQuery
