import EntityQuery.Condition.Group
import EntityQuery.Sort.Comparator

/-!
# Queries

A query is a sequence of filter groups and a sort order. Compiled against an entity type it
selects the entities that the groups keep and puts them in order.

`Query` and `CompiledQuery` formalize the types of these names: `Query.compile` and
`Query.compileWith` are `compile_with` and `compile`, `CompiledQuery.apply` and
`CompiledQuery.count` are `apply` and `count`.
-/

namespace EntityQuery

/-- A filter and a sort order, under a name. -/
structure Query where
  name : String
  filters : List Group
  sorts : SortOrder

namespace Query

/-- The query that keeps all entities in their order. -/
def empty (name : String) : Query := ⟨name, [], []⟩

/-- Has a group of the query a child? -/
def hasFilters (q : Query) : Bool := q.filters.any fun g => !g.isEmpty

/-- Has the query a sort rule? -/
def hasSorts (q : Query) : Bool := !q.sorts.isEmpty

/-- The rules of all groups, depth first. -/
def rules (q : Query) : List Rule := q.filters.flatMap Group.rules

end Query

/-- A query compiled against an entity type. -/
structure CompiledQuery (α : Type) where
  predicate : Predicate α
  comparator : Comparator α

namespace CompiledQuery

variable {α : Type}

/-- The entities that the query keeps, in order. -/
def apply (q : CompiledQuery α) (es : List α) : List α :=
  q.comparator.sort (q.predicate.filter es)

/-- The number of entities that the query keeps. -/
def count (q : CompiledQuery α) (es : List α) : Nat := es.countP q.predicate.holds

end CompiledQuery

namespace Query

/-- The query compiled: its groups first, then its sort order. -/
def compile (S : Schema) (kind : S.Kind) (f : FilterOptions) (s : SortOptions) (q : Query) :
    Except CompileError (CompiledQuery (S.Entity kind)) := do
  let predicate ← Group.compileAll S kind f q.filters
  let comparator ← q.sorts.compile S kind s
  return ⟨predicate, comparator⟩

/-- The query compiled as a configuration says. -/
def compileWith (S : Schema) (kind : S.Kind) (c : Config) (q : Query) :
    Except CompileError (CompiledQuery (S.Entity kind)) :=
  q.compile S kind (.ofConfig c) (.ofConfig c)

end Query

end EntityQuery
