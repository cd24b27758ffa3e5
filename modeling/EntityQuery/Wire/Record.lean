import EntityQuery.Json.Basic
import EntityQuery.Json.Parser

/-!
# Records on the wire

A model object has a JSON form as an object with named fields. It may also be written as an
array of its fields in their order, from which the last ones may be missing. A record form says
which fields there are; reading a value in that form gives one slot for each field, empty where
the field is missing.

In a closed form a field with another name is an error, in an open one it is passed over. A field
that is there twice is an error in both; only a text can have one, since a canonical value does
not. What is not wanted of a text is left out before it is read.

The forms are those derived for the model types: `required`, `withDefault` and `nullable` stand for
what is declared of a field.
-/

namespace EntityQuery

/-- Why a JSON value is no model object. -/
inductive WireError where
  /-- No operator has this name. -/
  | unknownOperator (text : String)
  /-- No connective has this name. -/
  | unknownConnective (text : String)
  /-- The value has not the form of the object. -/
  | malformed
deriving DecidableEq, Repr

/-- The error in words, where it has any. -/
def WireError.message? : WireError → Option String
  | .unknownOperator text => some ("unknown filter operator '" ++ text ++ "'")
  | .unknownConnective text => some ("unknown logical operator '" ++ text ++ "'")
  | .malformed => none

/-- The form of a record. -/
structure RecordForm where
  /-- The names of the fields, in their order. -/
  names : List String
  /-- Is a field with another name an error? -/
  closed : Bool

namespace RecordForm

/-- Does a field of this name occur among the fields? -/
def occurs (name : String) (fields : List (String × Json)) : Bool := fields.any fun f => f.1 == name

/-- Is any of the record's own fields there twice? -/
def repeats (form : RecordForm) : List (String × Json) → Bool
  | [] => false
  | (k, _) :: fields => (form.names.contains k && occurs k fields) || form.repeats fields

/-- Has every field a name of the record? -/
def knowsAll (form : RecordForm) (fields : List (String × Json)) : Bool :=
  fields.all fun f => form.names.contains f.1

/-- The slots of the fields of an object. -/
def slotsOfFields (form : RecordForm) (fields : List (String × Json)) :
    Except WireError (List (Option Json)) :=
  if form.repeats fields || (form.closed && !form.knowsAll fields) then .error .malformed
  else .ok (form.names.map fun name => fields.lookup name)

/-- The slots of the items of an array. -/
def slotsOfItems (form : RecordForm) (items : List Json) :
    Except WireError (List (Option Json)) :=
  if form.names.length < items.length then .error .malformed
  else .ok (items.map some ++ List.replicate (form.names.length - items.length) none)

/-- The slots of a value in the form. -/
def slots (form : RecordForm) : Json → Except WireError (List (Option Json))
  | .object fields => form.slotsOfFields fields
  | .array items => form.slotsOfItems items
  | _ => .error .malformed

/-- What is wanted of the text of a record, given what is wanted of its fields. -/
def scope (form : RecordForm) (fields : List Json.Scope) : Json.Scope :=
  .record (form.names.zip fields)

end RecordForm

namespace Wire

/-- A string. -/
def string : Json → Except WireError String
  | .string s => .ok s
  | _ => .error .malformed

/-- A truth value. -/
def bool : Json → Except WireError Bool
  | .bool b => .ok b
  | _ => .error .malformed

/-- A list, given how an item is read. -/
def list {α : Type} (item : Json → Except WireError α) : Json → Except WireError (List α)
  | .array items => items.mapM item
  | _ => .error .malformed

/-- A value that may be null. -/
def nullable {α : Type} (read : Json → Except WireError α) : Json → Except WireError (Option α)
  | .null => .ok none
  | j => (read j).map some

/-- A field that must be there. -/
def required {α : Type} (read : Json → Except WireError α) : Option Json → Except WireError α
  | some j => read j
  | none => .error .malformed

/-- A field that has a value of its own when it is missing. -/
def withDefault {α : Type} (value : α) (read : Json → Except WireError α) :
    Option Json → Except WireError α
  | some j => read j
  | none => .ok value

/-- One of a few values by its exact name, written as the name or as an object with the name
alone, whose value is null. -/
def choice {α : Type} (names : List (String × α)) : Json → Except WireError α
  | .string s => (names.lookup s).elim (.error .malformed) .ok
  | .object [(s, .null)] => (names.lookup s).elim (.error .malformed) .ok
  | _ => .error .malformed

/-- A model object from a text. The text as written must have the form of the object, and the
object is read from its canonical form. -/
def ofText {α : Type} (scope : Json.Scope) (decode : Json → Except WireError α) (text : String) :
    Except WireError α :=
  match Json.ofText? scope text with
  | none => .error .malformed
  | some j => (decode j).bind fun _ => decode j.canonical

end Wire

end EntityQuery
