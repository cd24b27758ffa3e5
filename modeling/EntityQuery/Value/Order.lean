import EntityQuery.Decimal.OfBinary
import EntityQuery.Value.Basic

/-!
# Orders on values

Three relations on values. `compare?` orders values of one category, numbers of all widths among
each other; null, records and lists are in no order. `equal` is the equality that filters test:
nulls are equal, records are equal, lists are equal item by item, and other values if they
compare as equal. `sortOrder` places every two values: null first, a not-a-number before or
after all numbers according to its sign, and values without order by the names of their kinds.

Integers and decimals compare exactly. An integer meets a float as the float nearest to it, and
a float meets a decimal as a decimal where it has one, and otherwise as floats.

`compare?` formalizes `compare`, and `AnyNumber.compare?` the function `compare_numbers` behind it;
`equal` formalizes the equality of values, `sortOrder` the function `sort_cmp`, and
`AnyNumber.nanRank` its `nan_rank`.
-/

namespace EntityQuery

/-- A number of any width, as it is compared. -/
inductive AnyNumber where
  | integer (n : Int64)
  | decimal (d : Decimal)
  | float (x : Binary64)

namespace AnyNumber

/-- The order of a decimal and a float. -/
def compareDecimalFloat? (d : Decimal) (x : Binary64) : Option Ordering :=
  match Decimal.ofBinary64? x with
  | some e => some (d.order e)
  | none => d.toBinary64.compare? x

/-- The order of a float and a decimal. -/
def compareFloatDecimal? (x : Binary64) (d : Decimal) : Option Ordering :=
  match Decimal.ofBinary64? x with
  | some e => some (e.order d)
  | none => x.compare? d.toBinary64

/-- The order of two numbers; none if either is a not-a-number. -/
def compare? : AnyNumber → AnyNumber → Option Ordering
  | .integer n, .integer m => some (compare n.toInt m.toInt)
  | .decimal d, .decimal e => some (d.order e)
  | .integer n, .decimal e => some ((Decimal.ofInt64 n).order e)
  | .decimal d, .integer m => some (d.order (Decimal.ofInt64 m))
  | .float x, .float y => x.compare? y
  | .integer n, .float y => (Binary.ofInt .binary64 n.toInt).compare? y
  | .float x, .integer m => x.compare? (Binary.ofInt .binary64 m.toInt)
  | .decimal d, .float y => compareDecimalFloat? d y
  | .float x, .decimal e => compareFloatDecimal? x e

/-- The place of a not-a-number beside the numbers: below them if its sign is set, above them
otherwise. -/
def nanRank : AnyNumber → Int
  | .float x => if x.isNaN then (if x.negative then -1 else 1) else 0
  | _ => 0

end AnyNumber

namespace Value

/-- The number that a value is. -/
def number? : Value → Option AnyNumber
  | .int32 n => some (.integer n.toInt64)
  | .int64 n => some (.integer n)
  | .decimal d => some (.decimal d)
  | .float32 x => some (.float (x.convert .binary64))
  | .float64 x => some (.float x)
  | _ => none

/-- The order of two values that are not numbers. -/
def compareOther? : Value → Value → Option Ordering
  | .bool a, .bool b => some (compare a b)
  | .string s, .string t => some (compare s t)
  | .uuid u, .uuid v => some (compare u.value v.value)
  | .date d, .date e => some (compare d.day e.day)
  | .timestamp t, .timestamp u => some (t.order u)
  | .date d, .timestamp u => some ((Timestamp.midnight d).order u)
  | .timestamp t, .date e => some (t.order (Timestamp.midnight e))
  | .enum a, .enum b => some (compare a b)
  | _, _ => none

/-- The order of two values of one category. -/
def compare? (v w : Value) : Option Ordering :=
  match v.number?, w.number? with
  | some a, some b => a.compare? b
  | _, _ => compareOther? v w

mutual
/-- Equality of values. -/
def equal : Value → Value → Bool
  | .null, .null => true
  | .record, .record => true
  | .list vs, .list ws => equalItems vs ws
  | v, w => compare? v w == some .eq
/-- Equality of lists, item by item. -/
def equalItems : List Value → List Value → Bool
  | [], [] => true
  | v :: vs, w :: ws => equal v w && equalItems vs ws
  | _, _ => false
end

/-- The order of two values neither of which is null. -/
def sortOrderPresent (v w : Value) : Ordering :=
  match v.number?, w.number? with
  | some a, some b => (a.compare? b).getD (compare a.nanRank b.nanRank)
  | _, _ => (compare? v w).getD (compare v.kind w.kind)

/-- The total order by which entities are sorted. -/
def sortOrder : Value → Value → Ordering
  | .null, .null => .eq
  | .null, _ => .lt
  | _, .null => .gt
  | v, w => sortOrderPresent v w

end Value

end EntityQuery
