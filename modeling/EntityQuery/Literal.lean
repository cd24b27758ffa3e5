import EntityQuery.Binary.Numeral
import EntityQuery.Calendar.Parser
import EntityQuery.Decimal.Parser
import EntityQuery.Error
import EntityQuery.Json.Printer
import EntityQuery.Text.Piece
import EntityQuery.Value.Basic

/-!
# Literals

A literal of a rule is a JSON value; compared with a property it becomes a value of the
property's type. The conversion is checked: a literal that does not fit its type is an error,
and nothing is cut off or wrapped around. Null converts to every type. A text is trimmed before
it is read as anything but a string; a text with commas stands for a list.

The error shows the literal, shortened to 64 bytes.

`Literal.convert` formalizes `coerce`, and `Literal.convertList` formalizes `coerce_list`. A scalar
is found by `toBool?`, `toInt64?` with `integral?`, `toFloat?`, `toDecimal?`, `toDate?` and
`toTimestamp?`, which are `coerce_bool`, `coerce_integer` with `integral`, `coerce_float`,
`coerce_decimal`, `coerce_date` and `coerce_datetime`. The error is that of `mismatch`.
-/

namespace EntityQuery

open Text

namespace Json

/-- The most bytes of a literal that an error shows. -/
def excerptLength : Nat := 64

/-- The compact text of a value for an error: all of it, or its start and three dots. -/
def excerpt (j : Json) : String :=
  if j.text.utf8ByteSize ≤ excerptLength then j.text
  else truncate j.text (excerptLength - 3) ++ "..."

end Json

/-- The error for a literal that does not fit a type. -/
def mismatch (j : Json) (t : ValueType) : CompileError :=
  .conversion j.excerpt (.literal j.kind) (.type t)

namespace Literal

/-- A truth value: itself, one or zero, or the word or digit for it in any case. -/
def toBool? : Json → Option Bool
  | .bool b => some b
  | .number n =>
    match n.toInt64? with
    | some 1 => some true
    | some 0 => some false
    | _ => none
  | .string s =>
    let word := lowercase (String.ofList (trim s.toList))
    if word = "true" ∨ word = "1" then some true
    else if word = "false" ∨ word = "0" then some false
    else none
  | _ => none

/-- An integer as a 64-bit one. -/
def fitInt64? (n : Int) : Option Int64 :=
  if Int64.minValue.toInt ≤ n ∧ n ≤ Int64.maxValue.toInt then some (Int64.ofInt n) else none

/-- An integer as a 32-bit one. -/
def fitInt32? (n : Int64) : Option Int32 :=
  if Int32.minValue.toInt ≤ n.toInt ∧ n.toInt ≤ Int32.maxValue.toInt then
    some (Int32.ofInt n.toInt)
  else none

/-- A number that is a 64-bit integer: an integer, or a float without fraction. -/
def integral? (n : JsonNumber) : Option Int64 :=
  n.toInt64?.or (n.toFloat.toInt?.bind fitInt64?)

/-- An integer: a number that is one, or a text that writes one, as a decimal without fraction
if not plainly. The decimal is read by `from_str` alone, where `toDecimal?` tries `from_scientific`
as well. Both are `Decimal.ofText?`, since `from_str` itself goes on to a text with an exponent
where the plain notation fails, and `from_scientific` then accepts nothing more. -/
def toInt64? : Json → Option Int64
  | .number n => integral? n
  | .string s =>
    let s := trim s.toList
    ((integer? s).bind fitInt64?).or
      (((Decimal.ofText? s).bind Decimal.toInt?).bind fitInt64?)
  | _ => none

/-- A finite float: a number, or a text that writes one. -/
def toFloat? (j : Json) : Option Binary64 :=
  let x := match j with
    | .number n => some n.toFloat
    | .string s => Binary.ofText? .binary64 (trim s.toList)
    | _ => none
  x.bind fun x => if x.isFinite then some x else none

/-- The largest finite number of the 32-bit format, in the 64-bit one. -/
def maxFloat32 : Binary64 :=
  (Binary.ofCode .binary32 false (Binary.Format.binary32.infinity - 1)).convert .binary64

/-- A float of the 32-bit format: not beyond its largest number, and then the nearest one. -/
def toFloat32? (j : Json) : Option Binary32 :=
  (toFloat? j).bind fun x =>
    if x.code ≤ maxFloat32.code then some (x.convert .binary32) else none

/-- A decimal: an integer, or the text of another number or of the literal. -/
def toDecimal? : Json → Option Decimal
  | .number n => (n.toInt64?.map Decimal.ofInt64).or (Decimal.ofText? n.text)
  | .string s => Decimal.ofText? (trim s.toList)
  | _ => none

/-- A date: a text in its notation, or the day of a point of time. -/
def toDate? : Json → Option Date
  | .string s =>
    let s := trim s.toList
    (Date.ofText? s).or ((Timestamp.ofText? s).map Timestamp.date)
  | _ => none

/-- A point of time: a text in one of its notations, the start of a day, or seconds since the
start of 1970. -/
def toTimestamp? : Json → Option Timestamp
  | .string s =>
    let s := trim s.toList
    (Timestamp.ofText? s).or ((Date.ofText? s).map Timestamp.midnight)
  | .number n => n.toInt64?.bind fun n => Timestamp.ofSeconds? n.toInt
  | _ => none

/-- A variant of an enum: its name, or its ordinal as a number or in digits. -/
def toOrdinal? (e : EnumType) : Json → Option Nat
  | .string s =>
    let s := trim s.toList
    (e.ordinal? (String.ofList s)).or ((unsigned? s).filter e.contains)
  | .number n => n.toNat?.filter e.contains
  | _ => none

/-- An identifier: a text in one of its forms. -/
def toUuid? : Json → Option Uuid
  | .string s => Uuid.ofText? (trim s.toList)
  | _ => none

/-- A string: a text as it is, or the text of a number or truth value. -/
def toString? : Json → Option String
  | .string s => some s
  | .number n => some (String.ofList n.text)
  | .bool b => some (if b then "true" else "false")
  | _ => none

/-- A value of a type that is no list, from a literal that is not null. -/
def toScalar? (j : Json) : ValueType → Option Value
  | .bool => (toBool? j).map .bool
  | .int32 => ((toInt64? j).bind fitInt32?).map .int32
  | .int64 => (toInt64? j).map .int64
  | .float32 => (toFloat32? j).map .float32
  | .float64 => (toFloat? j).map .float64
  | .decimal => (toDecimal? j).map .decimal
  | .string => (toString? j).map .string
  | .uuid => (toUuid? j).map .uuid
  | .date => (toDate? j).map .date
  | .timestamp => (toTimestamp? j).map .timestamp
  | .enum e => (toOrdinal? e j).map .enum
  | .record _ => none
  | .list _ => none

/-- The value of a type that is no list. -/
def scalar (t : ValueType) (j : Json) : Except CompileError Value :=
  if j.isNull then .ok .null
  else match toScalar? j t with
    | some v => .ok v
    | none => .error (mismatch j t)

/-- The pieces of a text between commas, trimmed; none if it has no comma. -/
def pieces? (s : String) : Option (List String) :=
  if s.toList.contains ',' then
    some ((s.toList.splitOn ',').map fun piece => String.ofList (trim piece))
  else none

/-- The list of a literal, given how one element is converted: the items of an array, the pieces
of a text with commas, or the literal itself as the only element. Pieces are strings already if
the elements are to be strings. -/
def listOf (element : Json → Except CompileError Value) (strings : Bool) :
    Json → Except CompileError Value
  | .null => .ok .null
  | .array items => (items.mapM element).map .list
  | .string s =>
    match pieces? s with
    | some pieces =>
      if strings then .ok (.list (pieces.map .string))
      else (pieces.mapM fun piece => element (.string piece)).map .list
    | none => (element (.string s)).map fun v => .list [v]
  | j => (element j).map fun v => .list [v]

/-- The value of a type that a literal stands for. -/
def convert : ValueType → Json → Except CompileError Value
  | .list t, j => listOf (convert t) t.isString j
  | t, j => scalar t j

/-- The list of values of a type that a literal stands for. -/
def convertList (t : ValueType) (j : Json) : Except CompileError Value :=
  listOf (convert t) t.isString j

end Literal

end EntityQuery
