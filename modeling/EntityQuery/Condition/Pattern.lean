import EntityQuery.Config
import EntityQuery.Text.Piece

/-!
# Text patterns

What a rule looks for in a text: a piece of it at the start, at the end, or anywhere. A pattern
is written with a percent sign at the open end; with one at both ends or at neither the piece
may stand anywhere. Other percent signs are characters like any.

Where case is ignored, piece and text are both taken in their lower-case forms.

`Pattern` formalizes `LikePattern` and the three operators that need no percent signs:
`Pattern.ofText` is `parse`, `Pattern.accepts` is `matches`, and `StringComparison.fold` is `fold`.
-/

namespace EntityQuery

open Text

/-- The form of a text that is compared. -/
def StringComparison.fold (mode : StringComparison) (s : String) : String :=
  match mode with
  | .ordinal => s
  | .ignoreCase => lowercase s

/-- What is looked for in a text. -/
inductive Pattern where
  | contains (piece : String)
  | startsWith (piece : String)
  | endsWith (piece : String)
deriving DecidableEq, Repr

namespace Pattern

/-- The pattern written with percent signs at its open ends. -/
def ofText (text : String) : Pattern :=
  let openStart := stripStart? ['%'] text.toList
  let rest := openStart.getD text.toList
  let openEnd := stripEnd? ['%'] rest
  let piece := String.ofList (openEnd.getD rest)
  match openStart.isSome, openEnd.isSome with
  | false, true => .startsWith piece
  | true, false => .endsWith piece
  | _, _ => .contains piece

/-- Does a text match? -/
def accepts (mode : StringComparison) (p : Pattern) (text : String) : Bool :=
  let s := (mode.fold text).toList
  match p with
  | .contains piece => occursIn (mode.fold piece).toList s
  | .startsWith piece => Text.startsWith (mode.fold piece).toList s
  | .endsWith piece => Text.endsWith (mode.fold piece).toList s

end Pattern

end EntityQuery
