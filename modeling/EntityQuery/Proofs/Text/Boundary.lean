import EntityQuery.Text.Piece
import Mathlib.Data.List.Basic

/-!
# Where a text is cut

The search for a boundary finds the last one within the bytes that may be left, and so what is left
of the text is its longest start of so many bytes. The search never fails, since the start of a text
is a boundary, and it does not go far back either: a character has at most four bytes, so that a
text with more bytes loses at most three of those that might have been left.

The main results are `lastBoundary?_eq_posLE`, `lt_posLE_add_four` and `longestStart_iff`.
-/

namespace EntityQuery.Text

variable {s start : String} {bytes : Nat}

/-- A text is the longest start of another one that has at most so many bytes. -/
structure LongestStart (s : String) (bytes : Nat) (start : String) : Prop where
  /-- Both are texts, so the start ends where a character of the other text does. -/
  isStart : ∃ rest, s = start ++ rest
  within : start.utf8ByteSize ≤ bytes
  longest : ∀ other rest, s = other ++ rest → other.utf8ByteSize ≤ bytes →
    other.utf8ByteSize ≤ start.utf8ByteSize

/-! ### One byte -/

theorem pos?_of_isValid {i : String.Pos.Raw} (h : i.IsValid s) : s.pos? i = some (s.pos i h) := by
  have test : i.isValidForSlice s.toSlice = true := by simpa using h
  rw [String.pos?, String.Slice.pos?, dif_pos test]
  rfl

theorem pos?_of_not_isValid {i : String.Pos.Raw} (h : ¬ i.IsValid s) : s.pos? i = none := by
  have test : ¬ i.isValidForSlice s.toSlice = true := by simpa using h
  rw [String.pos?, String.Slice.pos?, dif_neg test]
  rfl

theorem posLE_of_isValid {i : String.Pos.Raw} (h : i.IsValid s) : s.posLE i = s.pos i h := by
  rw [String.posLE_eq_iff]
  simp [String.Pos.le_iff]

/-- Where there is no boundary, the last one is that of the byte before. -/
theorem posLE_succ {n : Nat} (h : ¬ String.Pos.Raw.IsValid s ⟨n + 1⟩) :
    s.posLE ⟨n + 1⟩ = s.posLE ⟨n⟩ := by
  rw [String.posLE_eq_iff]
  constructor
  · exact Std.le_trans String.offset_posLE_le (Nat.le_succ n)
  · intro p within
    have other : p.offset ≠ ⟨n + 1⟩ := fun same => h (same ▸ p.isValid)
    simp only [String.le_posLE_iff, String.Pos.Raw.le_iff, ne_eq, String.Pos.Raw.ext_iff] at *
    omega

/-! ### The search -/

theorem lastBoundary?_zero (s : String) : lastBoundary? s 0 = some s.startPos := by
  have first : lastBoundary? s 0 = s.pos? 0 := by
    simp [lastBoundary?]
  rw [first, pos?_of_isValid String.Pos.Raw.isValid_zero]
  rfl

/-- A step of the search: the last byte is a boundary, or the search goes on before it. -/
theorem lastBoundary?_succ (s : String) (n : Nat) :
    lastBoundary? s (n + 1) = (s.pos? ⟨n + 1⟩).or (lastBoundary? s n) := by
  rw [lastBoundary?, List.range_succ, List.reverse_append, List.findSome?_append, lastBoundary?]
  simp

/-- The search finds the last boundary within the bytes. -/
theorem lastBoundary?_eq_posLE (s : String) (bytes : Nat) :
    lastBoundary? s bytes = some (s.posLE ⟨bytes⟩) := by
  induction bytes with
  | zero =>
    rw [lastBoundary?_zero]
    exact congrArg some (posLE_of_isValid String.Pos.Raw.isValid_zero).symm
  | succ n ih =>
    rw [lastBoundary?_succ]
    by_cases h : String.Pos.Raw.IsValid s ⟨n + 1⟩
    · rw [pos?_of_isValid h, posLE_of_isValid h, Option.some_or]
    · rw [pos?_of_not_isValid h, posLE_succ h, Option.none_or, ih]

theorem byteIdx_posLE_le (s : String) (bytes : Nat) : (s.posLE ⟨bytes⟩).offset.byteIdx ≤ bytes :=
  String.offset_posLE_le

/-- In a text with more bytes, the last boundary is one of the last four places looked at: the
character that starts there reaches beyond the bytes. -/
theorem lt_posLE_add_four (h : bytes < s.utf8ByteSize) :
    bytes < (s.posLE ⟨bytes⟩).offset.byteIdx + 4 := by
  have within := byteIdx_posLE_le s bytes
  have inside : s.posLE ⟨bytes⟩ ≠ s.endPos := by
    intro atEnd
    rw [atEnd, String.offset_endPos, String.byteIdx_rawEndPos] at within
    omega
  have beyond : bytes < ((s.posLE ⟨bytes⟩).next inside).offset.byteIdx :=
    String.posLE_lt_iff.mp String.Pos.lt_next
  rw [String.Pos.byteIdx_offset_next] at beyond
  have size := ((s.posLE ⟨bytes⟩).get inside).utf8Size_le_four
  omega

/-! ### What is left of a text -/

theorem splits_truncate (s : String) (bytes : Nat) :
    (s.posLE ⟨bytes⟩).Splits (truncate s bytes) (s.sliceFrom (s.posLE ⟨bytes⟩)).copy := by
  rw [truncate, lastBoundary?_eq_posLE, Option.getD_some]
  exact String.Pos.splits _

theorem utf8ByteSize_truncate (s : String) (bytes : Nat) :
    (truncate s bytes).utf8ByteSize = (s.posLE ⟨bytes⟩).offset.byteIdx := by
  rw [(splits_truncate s bytes).offset_eq_rawEndPos, String.byteIdx_rawEndPos]

theorem utf8ByteSize_truncate_le (s : String) (bytes : Nat) :
    (truncate s bytes).utf8ByteSize ≤ bytes := by
  rw [utf8ByteSize_truncate]
  exact byteIdx_posLE_le s bytes

/-- A start of a text within some bytes ends at or before the last boundary. -/
theorem utf8ByteSize_le_truncate {other rest : String} (whole : s = other ++ rest)
    (within : other.utf8ByteSize ≤ bytes) :
    other.utf8ByteSize ≤ (truncate s bytes).utf8ByteSize := by
  have valid : other.rawEndPos.IsValid s :=
    String.Pos.Raw.isValid_iff_exists_append.mpr ⟨other, rest, whole, rfl⟩
  have le : s.pos _ valid ≤ s.posLE ⟨bytes⟩ := String.le_posLE_iff.mpr within
  rw [utf8ByteSize_truncate]
  exact le

theorem longestStart_truncate (s : String) (bytes : Nat) :
    LongestStart s bytes (truncate s bytes) where
  isStart := ⟨_, (splits_truncate s bytes).eq_append⟩
  within := utf8ByteSize_truncate_le s bytes
  longest := fun _ _ => utf8ByteSize_le_truncate

/-- What is left of a text is its longest start within the bytes, and there is only one. -/
theorem longestStart_iff : LongestStart s bytes start ↔ start = truncate s bytes := by
  constructor
  · intro h
    obtain ⟨rest, whole⟩ := h.isStart
    have left := longestStart_truncate s bytes
    have size : (truncate s bytes).utf8ByteSize = start.utf8ByteSize :=
      Nat.le_antisymm (h.longest _ _ (splits_truncate s bytes).eq_append left.within)
        (left.longest _ _ whole h.within)
    -- Two starts of one size end at the same position.
    have split : (s.posLE ⟨bytes⟩).Splits start rest :=
      ⟨whole, String.Pos.Raw.ext ((utf8ByteSize_truncate s bytes).symm.trans size)⟩
    exact split.eq_left (splits_truncate s bytes)
  · rintro rfl
    exact longestStart_truncate s bytes

example : truncate "día" 2 = "d" ∧ truncate "día" 3 = "dí" := by decide +kernel

end EntityQuery.Text
