/-!
# Pieces of a text

A text is trimmed at its ends, searched for a piece, and cut.

Every literal is trimmed before it is read as a number, a date or a name, so the blank characters
decide which texts are literals at all: a no-break space is blank, a zero-width space is not. The
three tests of a text against a piece are at the start, at the end, and anywhere; the empty piece
passes all three. Texts are lists of characters there; UTF-8 never starts a character inside another
one, so the tests agree with the same tests on bytes.

A text is as long as its UTF-8 form has bytes, and it can be cut only at a boundary: where one of
its characters starts, or at its end. A byte that stands inside a character is told by its bits, so
the place for a cut is searched backwards, byte by byte, from the most bytes that may be left.

`trim` formalizes the `trim` of texts, `startsWith`, `endsWith` and `occursIn` their `starts_with`,
`ends_with` and `contains`, and `stripStart?` and `stripEnd?` their `strip_prefix` and
`strip_suffix`; `lastBoundary?` is the search by `is_char_boundary` that precedes a `truncate`.
-/

namespace EntityQuery.Text

/-! ### Blank characters -/

/-- A character with the Unicode property `White_Space`. -/
def isBlank (c : Char) : Bool :=
  let n := c.toNat
  (0x9 ≤ n && n ≤ 0xD) || n == 0x20 || n == 0x85 || n == 0xA0 || n == 0x1680 ||
    (0x2000 ≤ n && n ≤ 0x200A) || n == 0x2028 || n == 0x2029 || n == 0x202F || n == 0x205F ||
    n == 0x3000

/-- The text without its leading blanks. -/
def trimStart (s : List Char) : List Char := s.dropWhile isBlank

/-- The text without its leading and trailing blanks. -/
def trim (s : List Char) : List Char := ((trimStart s).reverse.dropWhile isBlank).reverse

/-! ### Searching -/

/-- Does `s` start with `piece`? -/
def startsWith (piece s : List Char) : Bool := piece.isPrefixOf s

/-- Does `s` end with `piece`? -/
def endsWith (piece s : List Char) : Bool := piece.isSuffixOf s

/-- Does `piece` stand somewhere in `s`? -/
def occursIn (piece : List Char) : List Char → Bool
  | [] => piece.isEmpty
  | c :: rest => startsWith piece (c :: rest) || occursIn piece rest

/-- `s` without `piece` at its start; nothing when `s` does not start with it. -/
def stripStart? : List Char → List Char → Option (List Char)
  | [], s => some s
  | _ :: _, [] => none
  | p :: piece, c :: rest => if p == c then stripStart? piece rest else none

/-- `s` without `piece` at its end; nothing when `s` does not end with it. -/
def stripEnd? (piece s : List Char) : Option (List Char) :=
  (stripStart? piece.reverse s.reverse).map List.reverse

/-! ### Cutting -/

/-- The last boundary of a text that has at most so many bytes before it, searched backwards. -/
def lastBoundary? (s : String) (bytes : Nat) : Option s.Pos :=
  (List.range (bytes + 1)).reverse.findSome? fun i => s.pos? ⟨i⟩

/-- The start of a text up to the last boundary within so many bytes; nothing of the text if no
boundary is found. -/
def truncate (s : String) (bytes : Nat) : String :=
  (s.sliceTo ((lastBoundary? s bytes).getD s.startPos)).copy

end EntityQuery.Text
