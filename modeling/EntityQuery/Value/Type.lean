import EntityQuery.Text.Case

/-!
# Value types

The static type of a property. Types fall into categories, and two properties may be compared
with each other only within a category; enums compare only with themselves, records and lists
with nothing.

`EnumType` formalizes `EnumDef`, with `ordinal?`, `variant?` and `contains` for its `parse`,
`variant` and `contains`. `ValueType` formalizes the type enum: `category`, `isOrdered` and
`comparableWith` are its `category`, `is_ordered` and `is_comparable_with`, and `text` is how it is
displayed.
-/

namespace EntityQuery

/-- An enumeration: its name, and its variants in the order of their ordinals. -/
structure EnumType where
  name : String
  variants : List String
deriving DecidableEq, Repr

namespace EnumType

/-- The ordinal of a variant, found by name up to the case of ASCII letters. -/
def ordinal? (e : EnumType) (name : String) : Option Nat :=
  e.variants.findIdx? fun v => Text.sameIgnoringAsciiCase v name

/-- The name of the variant with an ordinal. -/
def variant? (e : EnumType) (ordinal : Nat) : Option String := e.variants[ordinal]?

/-- Is there a variant with this ordinal? -/
def contains (e : EnumType) (ordinal : Nat) : Bool := ordinal < e.variants.length

end EnumType

/-- The type of a property. -/
inductive ValueType where
  | bool
  | int32
  | int64
  | float32
  | float64
  | decimal
  | string
  | uuid
  | date
  | timestamp
  | enum (type : EnumType)
  /-- A related entity; all that is known of it is whether it is there. -/
  | record (name : String)
  | list (element : ValueType)
deriving DecidableEq, Repr

/-- What kinds of types compare with each other. -/
inductive Category where
  | bool
  | numeric
  | string
  | uuid
  | temporal
  | enum
  | record
  | collection
deriving DecidableEq, Repr

namespace ValueType

/-- The category of a type. -/
def category : ValueType → Category
  | .bool => .bool
  | .int32 | .int64 | .float32 | .float64 | .decimal => .numeric
  | .string => .string
  | .uuid => .uuid
  | .date | .timestamp => .temporal
  | .enum _ => .enum
  | .record _ => .record
  | .list _ => .collection

/-- The type of the elements of a list. -/
def element? : ValueType → Option ValueType
  | .list t => some t
  | _ => none

/-- The type of the elements of a list, and any other type itself. -/
def leaf : ValueType → ValueType
  | .list t => t
  | t => t

/-- Is it a list? -/
def isCollection : ValueType → Bool
  | .list _ => true
  | _ => false

/-- Is it the type of strings? -/
def isString : ValueType → Bool
  | .string => true
  | _ => false

/-- Is it the type of a related entity? -/
def isRecord : ValueType → Bool
  | .record _ => true
  | _ => false

/-- Do the values have a meaningful order? -/
def isOrdered (t : ValueType) : Bool :=
  match t.category with
  | .numeric | .string | .temporal | .enum => true
  | _ => false

/-- May properties of the two types be compared with each other? -/
def comparableWith : ValueType → ValueType → Bool
  | .enum a, .enum b => a = b
  | .record _, _ | _, .record _ | .list _, _ | _, .list _ => false
  | a, b => a.category = b.category

/-- The name of a type in messages. -/
def text : ValueType → String
  | .bool => "bool"
  | .int32 => "int32"
  | .int64 => "int64"
  | .float32 => "float32"
  | .float64 => "float64"
  | .decimal => "decimal"
  | .string => "string"
  | .uuid => "uuid"
  | .date => "date"
  | .timestamp => "datetime"
  | .enum e => "enum " ++ e.name
  | .record name => "record " ++ name
  | .list t => "list<" ++ t.text ++ ">"

end ValueType

end EntityQuery
