import EntityQuery.Binary.Numeral
import EntityQuery.Json.Basic
import EntityQuery.Json.NumberToken

/-!
# Reading JSON text

A text is one value with blanks around and between its tokens. Objects keep their fields in the
order of the text, repeated ones included: whether a repeated name is an error is up to the
reader of the value.

A text is read under a *scope*, which says what the reader wants of it. Fields outside the scope
are passed over: they are checked for their grammar alone, while what is read must also hold no
unpaired surrogates, no number beyond the range of floats, and nothing nested 128 deep.
-/

namespace EntityQuery.Json

open EntityQuery.Binary EntityQuery.Text

/-- The part of a text that its reader wants. -/
inductive Scope where
  /-- All of it. -/
  | whole
  /-- Nothing. -/
  | passed
  /-- Of an object the named fields; an array lists them in this order. -/
  | record (fields : List (String × Scope))
  /-- Of each item of an array this part. -/
  | each (item : Scope)

/-- The scope of a field of an object. -/
def Scope.field (name : String) : Scope → Scope
  | .whole => .whole
  | .passed => .passed
  | .record fields => ((fields.find? fun f => f.1 == name).map Prod.snd).getD .passed
  | .each _ => .whole

/-- The scope of the item of an array at a position. -/
def Scope.item (position : Nat) : Scope → Scope
  | .whole => .whole
  | .passed => .passed
  | .record fields => (fields[position]?.map Prod.snd).getD .whole
  | .each item => item

/-- Is nothing wanted? -/
def Scope.isPassed : Scope → Bool
  | .passed => true
  | _ => false

namespace Parser

/-- Reads a value off the front of a text. -/
abbrev Reader (α : Type) := List Char → Option (α × List Char)

/-- A blank of JSON. -/
def isBlank (c : Char) : Bool := c == ' ' || c == '\n' || c == '\t' || c == '\r'

/-- The text without leading blanks. -/
def skipBlanks (s : List Char) : List Char := s.dropWhile isBlank

/-- The code unit of four hexadecimal digits. -/
def codeUnit? (a b c d : Char) : Option Nat := do
  some ((((← hexDigit? a) * 16 + (← hexDigit? b)) * 16 + (← hexDigit? c)) * 16 + (← hexDigit? d))

/-- The character that an escape letter stands for. -/
def escaped? (c : Char) : Option Nat :=
  match c with
  | '"' => some 0x22
  | '\\' => some 0x5C
  | '/' => some 0x2F
  | 'b' => some 0x8
  | 'f' => some 0xC
  | 'n' => some 0xA
  | 'r' => some 0xD
  | 't' => some 0x9
  | _ => none

/-- Reads the rest of a string after its opening quotation mark, as code points; a surrogate
from an escape is kept as it is. -/
def codePoints : Reader (List Nat)
  | [] => none
  | '"' :: s => some ([], s)
  | '\\' :: 'u' :: a :: b :: c :: d :: s => do
    let unit ← codeUnit? a b c d
    let (points, s) ← codePoints s
    some (unit :: points, s)
  | '\\' :: c :: s => do
    let point ← escaped? c
    let (points, s) ← codePoints s
    some (point :: points, s)
  | c :: s => do
    if c.toNat < 0x20 then none
    else
      let (points, s) ← codePoints s
      some (c.toNat :: points, s)

/-- The characters of code points; surrogates must come in pairs. -/
def joinSurrogates : List Nat → Option (List Char)
  | [] => some []
  | p :: points =>
    if 0xD800 ≤ p ∧ p < 0xDC00 then
      match points with
      | q :: rest =>
        if 0xDC00 ≤ q ∧ q < 0xE000 then
          (joinSurrogates rest).map
            (Char.ofNat (0x10000 + (p - 0xD800) * 0x400 + (q - 0xDC00)) :: ·)
        else none
      | [] => none
    else if 0xDC00 ≤ p ∧ p < 0xE000 then none
    else (joinSurrogates points).map (Char.ofNat p :: ·)

/-- Reads the rest of a string after its opening quotation mark. -/
def string : Reader String := fun s => do
  let (points, s) ← codePoints s
  let chars ← joinSurrogates points
  some (String.ofList chars, s)

/-- Reads at least one digit. -/
def digits : Reader (List Nat) := fun s =>
  let (ds, rest) := takeDigits s
  if ds.isEmpty then none else some (ds, rest)

/-- Reads the fraction of a number, if there is one. -/
def fraction : Reader (Option (List Nat))
  | '.' :: s => (digits s).map fun r => (some r.1, r.2)
  | s => some (none, s)

/-- Reads the exponent of a number after its mark. -/
def exponentValue : Reader Int
  | '-' :: s => (digits s).map fun r => (-(extendBy 0 r.1 : Int), r.2)
  | '+' :: s => (digits s).map fun r => ((extendBy 0 r.1 : Int), r.2)
  | s => (digits s).map fun r => ((extendBy 0 r.1 : Int), r.2)

/-- Reads the exponent of a number, if there is one. -/
def exponent : Reader (Option Int)
  | 'e' :: s => (exponentValue s).map fun r => (some r.1, r.2)
  | 'E' :: s => (exponentValue s).map fun r => (some r.1, r.2)
  | s => some (none, s)

/-- Reads a number token without its sign. -/
def unsignedNumber (negative : Bool) : Reader NumberToken := fun s => do
  let (whole, s) ← digits s
  if whole.head? = some 0 ∧ whole.length ≠ 1 then none
  else
    let (f, s) ← fraction s
    let (e, s) ← exponent s
    some (⟨negative, whole, f, e⟩, s)

/-- Reads a number token. -/
def number : Reader NumberToken
  | '-' :: s => unsignedNumber true s
  | s => unsignedNumber false s

/-- Reads a string value; one that is passed over may hold unpaired surrogates. -/
def stringValue (scope : Scope) : Reader Json := fun s =>
  if scope.isPassed then (codePoints s).map fun r => (.null, r.2)
  else (string s).map fun r => (.string r.1, r.2)

/-- Reads a number value; one that is passed over may be out of range. -/
def numberValue (scope : Scope) : Reader Json := fun s => do
  let (token, s) ← number s
  if scope.isPassed then some (.null, s) else some (.number (← token.value?), s)

/-- The room left for nesting inside an array or object of the scope; a value that is passed
over needs none. -/
def enter (scope : Scope) (room : Nat) : Option Nat :=
  if scope.isPassed then some room else if room = 0 then none else some (room - 1)

/-- Reads the name of a field and the colon after it, blanks included; in an object that is
passed over the name may hold unpaired surrogates. -/
def fieldName (scope : Scope) : Reader String := fun s =>
  match skipBlanks s with
  | '"' :: s => do
    let (name, s) ← if scope.isPassed then (codePoints s).map fun r => ("", r.2) else string s
    match skipBlanks s with
    | ':' :: s => some (name, s)
    | _ => none
  | _ => none

mutual
/-- Reads a value, blanks before it included. The first number bounds the steps, the second is
the room left for nesting. -/
def value : Nat → Nat → Scope → Reader Json
  | 0, _, _, _ => none
  | fuel + 1, room, scope, s =>
    match skipBlanks s with
    | 'n' :: 'u' :: 'l' :: 'l' :: s => some (.null, s)
    | 't' :: 'r' :: 'u' :: 'e' :: s => some (.bool true, s)
    | 'f' :: 'a' :: 'l' :: 's' :: 'e' :: s => some (.bool false, s)
    | '"' :: s => stringValue scope s
    | '[' :: s => do
      let room ← enter scope room
      match skipBlanks s with
      | ']' :: s => some (.array [], s)
      | s =>
        let (xs, s) ← items fuel room scope 0 s
        some (.array xs, s)
    | '\x7b' :: s => do
      let room ← enter scope room
      match skipBlanks s with
      | '\x7d' :: s => some (.object [], s)
      | s =>
        let (fs, s) ← fields fuel room scope s
        some (.object fs, s)
    | s => numberValue scope s
/-- Reads the items of an array from a position on, and its closing bracket. -/
def items : Nat → Nat → Scope → Nat → Reader (List Json)
  | 0, _, _, _, _ => none
  | fuel + 1, room, scope, position, s => do
    let (x, s) ← value fuel room (scope.item position) s
    match skipBlanks s with
    | ',' :: s =>
      let (xs, s) ← items fuel room scope (position + 1) s
      some (x :: xs, s)
    | ']' :: s => some ([x], s)
    | _ => none
/-- Reads the fields of an object and its closing brace, leaving out those passed over. -/
def fields : Nat → Nat → Scope → Reader (List (String × Json))
  | 0, _, _, _ => none
  | fuel + 1, room, scope, s => do
    let (name, s) ← fieldName scope s
    let wanted := scope.field name
    let (x, s) ← value fuel room wanted s
    let kept := if wanted.isPassed then [] else [(name, x)]
    match skipBlanks s with
    | ',' :: s =>
      let (fs, s) ← fields fuel room scope s
      some (kept ++ fs, s)
    | '\x7d' :: s => some (kept, s)
    | _ => none
end

/-- How deep arrays and objects may nest. -/
def nestingLimit : Nat := 127

end Parser

/-- The value of a text, or of the part of it in a scope. -/
def ofText? (scope : Scope) (text : String) : Option Json := do
  let s := text.toList
  let (j, rest) ← Parser.value (2 * s.length + 2) Parser.nestingLimit scope s
  if (Parser.skipBlanks rest).isEmpty then some j else none

end EntityQuery.Json
