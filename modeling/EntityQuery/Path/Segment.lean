import EntityQuery.Error
import EntityQuery.Text.Piece

/-!
# Property paths

A path is a text of segments with points between them. A segment names a member; a pair of
brackets after the name marks a collection whose elements the rest of the path is about. A name
has at least one character and no brackets.

`Path.segments` formalizes `parse_path`, and `Segment.ofChars` what it does with each segment.
-/

namespace EntityQuery

open Text

/-- One step of a path. -/
structure Segment where
  name : String
  /-- Marked as a collection. -/
  many : Bool
deriving DecidableEq, Repr

namespace Segment

/-- The mark of a collection. -/
def marker : List Char := ['[', ']']

/-- The segment of a text between points, or what is wrong with it. -/
def ofChars (raw : List Char) : Except PathFault Segment :=
  let unmarked := stripEnd? marker raw
  let name := unmarked.getD raw
  if name.isEmpty then .error .emptySegment
  else if name.contains '[' || name.contains ']' then
    .error (.malformedMarker (String.ofList raw))
  else .ok ⟨String.ofList name, unmarked.isSome⟩

/-- The characters of a segment as it is written. -/
def chars (s : Segment) : List Char := s.name.toList ++ if s.many then marker else []

/-- A segment that a path can hold: its name has a character, and no point and no bracket. -/
def WellFormed (s : Segment) : Prop :=
  s.name.toList ≠ [] ∧ ∀ c ∈ s.name.toList, c ≠ '.' ∧ c ≠ '[' ∧ c ≠ ']'

end Segment

namespace Path

/-- The path of some segments. -/
def ofSegments (segments : List Segment) : String :=
  String.ofList (['.'].intercalate (segments.map Segment.chars))

/-- The segments of a path, or what is wrong with the first one that is malformed. -/
def segments (path : String) : Except PathFault (List Segment) :=
  if path.isEmpty then .error .empty
  else (path.toList.splitOn '.').mapM Segment.ofChars

end Path

end EntityQuery
