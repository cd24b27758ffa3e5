import EntityQuery.Calendar.Timestamp
import EntityQuery.Decimal.Basic
import EntityQuery.Uuid

/-!
# Values

What is read from an entity, and what a literal becomes. A missing value is null; of a related
entity only its presence is a value; a variant of an enum is its ordinal.

`Value` formalizes the value enum, `isNull`, `items?`, `string?` and `kind` its `is_null`,
`as_list`, `as_str` and `kind`.
-/

namespace EntityQuery

/-- A property value. -/
inductive Value where
  | null
  | bool (b : Bool)
  | int32 (n : Int32)
  | int64 (n : Int64)
  | float32 (x : Binary32)
  | float64 (x : Binary64)
  | decimal (d : Decimal)
  | string (s : String)
  | uuid (u : Uuid)
  | date (d : Date)
  | timestamp (t : Timestamp)
  /-- A variant of an enum, by its ordinal. -/
  | enum (ordinal : Nat)
  /-- The presence of a related entity. -/
  | record
  | list (items : List Value)

namespace Value

/-- Is it null? -/
def isNull : Value → Bool
  | .null => true
  | _ => false

/-- The items of a list. -/
def items? : Value → Option (List Value)
  | .list items => some items
  | _ => none

/-- The text of a string. -/
def string? : Value → Option String
  | .string s => some s
  | _ => none

/-- The name of the kind of a value. -/
def kind : Value → String
  | .null => "null"
  | .bool _ => "bool"
  | .int32 _ => "int32"
  | .int64 _ => "int64"
  | .float32 _ => "float32"
  | .float64 _ => "float64"
  | .decimal _ => "decimal"
  | .string _ => "string"
  | .uuid _ => "uuid"
  | .date _ => "date"
  | .timestamp _ => "datetime"
  | .enum _ => "enum"
  | .record => "record"
  | .list _ => "list"

end Value

end EntityQuery
