import EntityQuery.Value.Basic
import EntityQuery.Value.Type

/-!
# Schemas

A schema describes a family of entity types that may refer to each other, also in circles. An
entity type has named members. A value member has a type and is read by a getter; a relation
leads to one entity or to many of another type, and may be missing.

Entities themselves are whatever the family says they are: only the getters look into them. A schema
is well typed if they read what the types promise. Null belongs to every type, and so every property
may be missing. An ordinal belongs to its enum whether or not a variant has it: entities are not
checked, only literals are.

`Schema`, `Field` and `Member` formalize `Schema`, `Field` and `FieldKind`, the family being all
types that are entities; `Schema.member?` is `field`.
-/

namespace EntityQuery

/-- A member of the entity type `owner`, in a family with the entity types `Kind`. -/
inductive Member (Kind : Type) (Entity : Kind → Type) (owner : Kind) where
  /-- A value, or a list of values. -/
  | value (type : ValueType) (get : Entity owner → Value)
  /-- A relation to one entity. -/
  | one (target : Kind) (get : Entity owner → Option (Entity target))
  /-- A relation to many entities. -/
  | many (target : Kind) (get : Entity owner → Option (List (Entity target)))

/-- A member with its name. -/
structure Field (Kind : Type) (Entity : Kind → Type) (owner : Kind) where
  name : String
  member : Member Kind Entity owner

/-- A family of entity types. -/
structure Schema where
  /-- The entity types. -/
  Kind : Type
  /-- The entities of a type. -/
  Entity : Kind → Type
  /-- The name of a type. -/
  name : Kind → String
  /-- The members of a type. -/
  fields : (kind : Kind) → List (Field Kind Entity kind)

namespace Schema

/-- The members of a type in the schema. -/
abbrev Member (S : Schema) (kind : S.Kind) : Type := EntityQuery.Member S.Kind S.Entity kind

/-- The member of a type with a name; of several the first. -/
def member? (S : Schema) (kind : S.Kind) (name : String) : Option (S.Member kind) :=
  ((S.fields kind).find? fun f => f.name == name).map Field.member

end Schema

/-! ### Typing -/

/-- A value belongs to a type. -/
inductive Value.HasType : Value → ValueType → Prop where
  | null (t : ValueType) : HasType .null t
  | bool (b : Bool) : HasType (.bool b) .bool
  | int32 (n : Int32) : HasType (.int32 n) .int32
  | int64 (n : Int64) : HasType (.int64 n) .int64
  | float32 (x : Binary32) : HasType (.float32 x) .float32
  | float64 (x : Binary64) : HasType (.float64 x) .float64
  | decimal (d : Decimal) : HasType (.decimal d) .decimal
  | string (s : String) : HasType (.string s) .string
  | uuid (u : Uuid) : HasType (.uuid u) .uuid
  | date (d : Date) : HasType (.date d) .date
  | timestamp (t : Timestamp) : HasType (.timestamp t) .timestamp
  | enum (e : EnumType) (ordinal : Nat) : HasType (.enum ordinal) (.enum e)
  | record (name : String) : HasType .record (.record name)
  /-- The items of a list belong to its element type. -/
  | list {t : ValueType} {items : List Value} (h : ∀ v ∈ items, HasType v t) :
      HasType (.list items) (.list t)

/-- Every value member reads values of its type. -/
def Schema.WellTyped (S : Schema) : Prop :=
  ∀ (kind : S.Kind) (name : String) (type : ValueType) (get : S.Entity kind → Value),
    S.member? kind name = some (.value type get) → ∀ e, (get e).HasType type

end EntityQuery
