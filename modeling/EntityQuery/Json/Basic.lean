import EntityQuery.Json.Number

/-!
# JSON values

Literals of rules are JSON values, and every model object has a JSON form. An object is kept as
the list of its fields. In its canonical form, at every depth, the names ascend and none repeats;
of a repeated name the last field counts. Canonical values are the same when they are equal up
to the sign of a float zero.

`Json.kind` with `JsonKind.name` formalizes `json_kind`; `Json.same` is the equality of values.
-/

namespace EntityQuery

/-- A value of JSON. -/
inductive Json where
  | null
  | bool (b : Bool)
  | number (n : JsonNumber)
  | string (s : String)
  | array (items : List Json)
  | object (fields : List (String × Json))

/-- The kind of a JSON value. -/
inductive JsonKind where
  | null
  | bool
  | integer
  | float
  | string
  | array
  | object
deriving DecidableEq, Repr

/-- The name of a kind in messages. -/
def JsonKind.name : JsonKind → String
  | .null => "null"
  | .bool => "bool"
  | .integer => "integer"
  | .float => "float"
  | .string => "string"
  | .array => "array"
  | .object => "object"

namespace Json

/-- The kind of a value. -/
def kind : Json → JsonKind
  | .null => .null
  | .bool _ => .bool
  | .number n => if n.isFloat then .float else .integer
  | .string _ => .string
  | .array _ => .array
  | .object _ => .object

/-- Is it null? -/
def isNull : Json → Bool
  | .null => true
  | _ => false

/-- Is it an array? -/
def isArray : Json → Bool
  | .array _ => true
  | _ => false

mutual
/-- Equality of values. -/
def same : Json → Json → Bool
  | .null, .null => true
  | .bool a, .bool b => a == b
  | .number n, .number m => n.same m
  | .string s, .string t => s == t
  | .array xs, .array ys => sameItems xs ys
  | .object fs, .object gs => sameFields fs gs
  | _, _ => false
/-- Equality of lists of values. -/
def sameItems : List Json → List Json → Bool
  | [], [] => true
  | x :: xs, y :: ys => same x y && sameItems xs ys
  | _, _ => false
/-- Equality of lists of fields. -/
def sameFields : List (String × Json) → List (String × Json) → Bool
  | [], [] => true
  | (k, x) :: fs, (l, y) :: gs => k == l && same x y && sameFields fs gs
  | _, _ => false
end

/-- Puts a field into ascending fields; a field of the same name is replaced. -/
def putField (name : String) (value : Json) : List (String × Json) → List (String × Json)
  | [] => [(name, value)]
  | (k, v) :: fields =>
    match compare name k with
    | .lt => (name, value) :: (k, v) :: fields
    | .eq => (name, value) :: fields
    | .gt => (k, v) :: putField name value fields

mutual
/-- The canonical form of a value. -/
def canonical : Json → Json
  | .array items => .array (canonicalItems items)
  | .object fields => .object (canonicalFields fields [])
  | j => j
/-- The canonical forms of values. -/
def canonicalItems : List Json → List Json
  | [] => []
  | x :: xs => canonical x :: canonicalItems xs
/-- Puts fields into ascending ones, one after the other. -/
def canonicalFields : List (String × Json) → List (String × Json) → List (String × Json)
  | [], ascending => ascending
  | (k, v) :: fields, ascending => canonicalFields fields (putField k (canonical v) ascending)
end

end Json

end EntityQuery
