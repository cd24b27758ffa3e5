import EntityQuery.Calendar.Timestamp
import EntityQuery.Text.Digits
import EntityQuery.Text.Piece

/-!
# Reading dates and timestamps

Two notations of a point of time are read. The *exact* one gives each field its full width and
ends with the distance from universal time. The *loose* one allows blanks before each number and
short numbers, has `T` or any amount of blanks between date and time, and means universal time.
A date alone is read loosely.

A reader takes a text and gives what it read with the rest of the text; a text counts only if
nothing is left.

`Date.ofText?` formalizes the format `%Y-%m-%d`, and `Timestamp.ofText?` formalizes
`parse_datetime`.
-/

namespace EntityQuery.Calendar

open Text

/-- Reads a value off the front of a text. -/
abbrev Reader (α : Type) := List Char → Option (α × List Char)

/-- Reads at least `least` and at most `most` digits. -/
def number (least most : Nat) : Reader Nat := fun s =>
  let digits := (s.take most).takeWhile isDigit
  if least ≤ digits.length then
    some (extendBy 0 (digits.filterMap digit?), s.drop digits.length)
  else none

/-- Reads one given character. -/
def char (c : Char) : Reader Unit
  | d :: s => if d == c then some ((), s) else none
  | [] => none

/-- Reads a number of at most two digits after blanks. -/
def looseNumber : Reader Nat := fun s => number 1 2 (trimStart s)

/-- Reads a year after blanks: up to four digits, or a sign and any number of digits. -/
def looseYear : Reader Int := fun s =>
  match trimStart s with
  | '-' :: s => (number 1 s.length s).map fun r => (-(r.1 : Int), r.2)
  | '+' :: s => (number 1 s.length s).map fun r => ((r.1 : Int), r.2)
  | s => (number 1 4 s).map fun r => ((r.1 : Int), r.2)

/-- Reads nanoseconds: a point and digits, those past the ninth without effect; no point is no
fraction. -/
def nanoseconds : Reader Nat
  | '.' :: s => do
    let (n, rest) ← number 1 9 s
    let places := s.length - rest.length
    some (n * tenPow (9 - places), rest.dropWhile isDigit)
  | s => some (0, s)

/-- Reads a date loosely. -/
def looseDate : Reader Date := fun s => do
  let (year, s) ← looseYear s
  let ((), s) ← char '-' s
  let (month, s) ← looseNumber s
  let ((), s) ← char '-' s
  let (day, s) ← looseNumber s
  some (← Date.ofCivil? year month day, s)

/-- Reads a time of the given day loosely. -/
def looseTime (d : Date) : Reader Timestamp := fun s => do
  let (hour, s) ← looseNumber s
  let ((), s) ← char ':' s
  let (minute, s) ← looseNumber s
  let ((), s) ← char ':' s
  let (second, s) ← looseNumber s
  let (nanos, s) ← nanoseconds s
  some (← Timestamp.ofClock? d hour minute second nanos, s)

/-- Reads a point of time loosely: date and time with `T` between them. -/
def looseWithMark : Reader Timestamp := fun s => do
  let (d, s) ← looseDate s
  let ((), s) ← char 'T' s
  looseTime d s

/-- Reads a point of time loosely: date and time with blanks between them, or nothing. -/
def looseWithBlanks : Reader Timestamp := fun s => do
  let (d, s) ← looseDate s
  looseTime d (trimStart s)

/-- Reads the sign of a distance from universal time: plus, hyphen, or minus sign. -/
def offsetSign : Reader Int
  | '+' :: s => some (1, s)
  | '-' :: s => some (-1, s)
  | '\u2212' :: s => some (-1, s)
  | _ => none

/-- Reads the distance from universal time in seconds: none is `Z`; hours and minutes have two
digits each and stay below a day. -/
def offset : Reader Int
  | 'Z' :: s => some (0, s)
  | 'z' :: s => some (0, s)
  | s => do
    let (sign, s) ← offsetSign s
    let (hours, s) ← number 2 2 s
    let ((), s) ← char ':' s
    let (minutes, s) ← number 2 2 s
    if hours < 24 ∧ minutes < 60 then some (sign * (hours * 3600 + minutes * 60 : Nat), s) else none

/-- Reads the mark between date and time in the exact notation. -/
def timeMark : Reader Unit
  | 'T' :: s => some ((), s)
  | 't' :: s => some ((), s)
  | ' ' :: s => some ((), s)
  | _ => none

/-- Reads a point of time exactly. -/
def exact : Reader Timestamp := fun s => do
  let (year, s) ← number 4 4 s
  let ((), s) ← char '-' s
  let (month, s) ← number 2 2 s
  let ((), s) ← char '-' s
  let (day, s) ← number 2 2 s
  let ((), s) ← timeMark s
  let (hour, s) ← number 2 2 s
  let ((), s) ← char ':' s
  let (minute, s) ← number 2 2 s
  let ((), s) ← char ':' s
  let (second, s) ← number 2 2 s
  let (nanos, s) ← nanoseconds s
  let (ahead, s) ← offset s
  let d ← Date.ofCivil? year month day
  let t ← Timestamp.ofClock? d hour minute second nanos
  some (t.behind ahead, s)

/-- What a reader makes of a whole text. -/
def whole {α : Type} (read : Reader α) (s : List Char) : Option α :=
  (read s).bind fun r => if r.2.isEmpty then some r.1 else none

end Calendar

open Calendar

/-- A date from its own notation. -/
def Date.ofText? (s : List Char) : Option Date := whole looseDate s

/-- A point of time from one of its notations. -/
def Timestamp.ofText? (s : List Char) : Option Timestamp :=
  ((whole exact s).or (whole looseWithMark s)).or (whole looseWithBlanks s)

end EntityQuery
