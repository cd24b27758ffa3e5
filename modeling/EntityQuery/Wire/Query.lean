import EntityQuery.Query.Basic
import EntityQuery.Wire.Filter

/-!
# Sort orders, queries and configurations on the wire

Their forms are open: fields of other names are passed over. All fields are always written.

`decode` and `encode` formalize the derived forms of `SortRule`, `SortOrder`, `Query` and
`CompilerConfig`.
-/

namespace EntityQuery

open Wire

namespace SortRule

/-- The form of a sort rule. -/
def form : RecordForm := ⟨["Property", "Descending"], false⟩

/-- A sort rule from its slots. -/
def ofSlots : List (Option Json) → Except WireError SortRule
  | [property, descending] => do
    return ⟨← required string property, ← withDefault false bool descending⟩
  | _ => .error .malformed

/-- A sort rule from its JSON form. -/
def decode (j : Json) : Except WireError SortRule := (form.slots j).bind ofSlots

/-- The JSON form of a sort rule. -/
def encode (r : SortRule) : Json :=
  .object [("Descending", .bool r.descending), ("Property", .string r.property)]

/-- What is wanted of the text of a sort rule. -/
def scope : Json.Scope := form.scope [.whole, .whole]

end SortRule

namespace SortOrder

/-- A sort order from its JSON form. -/
def decode (j : Json) : Except WireError SortOrder := list SortRule.decode j

/-- The JSON form of a sort order. -/
def encode (o : SortOrder) : Json := .array (o.map SortRule.encode)

/-- What is wanted of the text of a sort order. -/
def scope : Json.Scope := .each SortRule.scope

end SortOrder

namespace Query

/-- The form of a query. -/
def form : RecordForm := ⟨["Name", "Filters", "Sorts"], false⟩

/-- A query from its slots. -/
def ofSlots : List (Option Json) → Except WireError Query
  | [name, filters, sorts] => do
    return ⟨← withDefault "" string name, ← withDefault [] (list Group.decode) filters,
      ← withDefault [] SortOrder.decode sorts⟩
  | _ => .error .malformed

/-- A query from its JSON form. -/
def decode (j : Json) : Except WireError Query := (form.slots j).bind ofSlots

/-- The JSON form of a query. -/
def encode (q : Query) : Json :=
  .object [("Filters", .array (q.filters.map Group.encode)), ("Name", .string q.name),
    ("Sorts", q.sorts.encode)]

/-- What is wanted of the text of a query. -/
def scope : Json.Scope := form.scope [.whole, .whole, SortOrder.scope]

end Query

/-- A comparison of strings by its canonical name. -/
def StringComparison.decode : Json → Except WireError StringComparison :=
  choice ([.ordinal, .ignoreCase].map fun (c : StringComparison) => (c.name, c))

/-- An aggregate by its canonical name. -/
def Aggregate.decode : Json → Except WireError Aggregate :=
  choice ([.min, .max, .first].map fun (a : Aggregate) => (a.name, a))

namespace Config

/-- The form of a configuration. -/
def form : RecordForm :=
  ⟨["string_comparison", "skip_collection_paths", "collection_aggregate"], false⟩

/-- A configuration from its slots. -/
def ofSlots : List (Option Json) → Except WireError Config
  | [comparison, skip, aggregate] => do
    return ⟨← withDefault default.stringComparison StringComparison.decode comparison,
      ← withDefault default.skipCollections bool skip,
      ← withDefault default.aggregate (nullable Aggregate.decode) aggregate⟩
  | _ => .error .malformed

/-- A configuration from its JSON form. -/
def decode (j : Json) : Except WireError Config := (form.slots j).bind ofSlots

/-- The JSON form of a configuration. -/
def encode (c : Config) : Json :=
  .object [
    ("collection_aggregate", (c.aggregate.map fun a => Json.string a.name).getD .null),
    ("skip_collection_paths", .bool c.skipCollections),
    ("string_comparison", .string c.stringComparison.name)]

/-- What is wanted of the text of a configuration. -/
def scope : Json.Scope := form.scope [.whole, .whole, .whole]

end Config

end EntityQuery
