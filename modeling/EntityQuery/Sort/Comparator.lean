import EntityQuery.Error
import EntityQuery.Path.Cache
import EntityQuery.Sort.Aggregate
import EntityQuery.Sort.Rule

/-!
# Comparators

A sort order compiles into a comparator, whose keys are compared one after the other until two
differ. A rule that reaches a collection becomes a key if an aggregate is given; otherwise it is
dropped or refused, as the options say. The presence of an entity is no key.

Sorting is stable: entities that compare as equal keep their order.

`SortOrder.compile` formalizes `compile_sort`, and `SortOrder.partition` formalizes
`partition_sort_rules`; `SortRule.reachesMany` is `needs_aggregate`. Of a comparator `order`, `sort`
and `rules` are `compare`, `sorted` and `directives`.
-/

namespace EntityQuery

/-- How sort orders compile. -/
structure SortOptions where
  /-- Are rules on collections dropped where there is no aggregate? -/
  skipCollections : Bool
  /-- Which value of a collection counts. -/
  aggregate : Option Aggregate
deriving DecidableEq, Repr

namespace SortOptions

/-- The options where nothing is said. -/
def default : SortOptions := ⟨false, none⟩

/-- The options of a configuration. -/
def ofConfig (c : Config) : SortOptions := ⟨c.skipCollections, c.aggregate⟩

end SortOptions

/-- A key of a comparator: the rule it comes from, and how it is read. -/
structure SortKey (α : Type) where
  rule : SortRule
  extract : α → Value

/-- The order of two entities by a key. -/
def SortKey.order {α : Type} (k : SortKey α) (a b : α) : Ordering :=
  let o := Value.sortOrder (k.extract a) (k.extract b)
  if k.rule.descending then o.swap else o

/-- Keys, the first one taking precedence. -/
structure Comparator (α : Type) where
  keys : List (SortKey α)

namespace Comparator

variable {α : Type}

/-- The order of two entities by keys. -/
def orderBy : List (SortKey α) → α → α → Ordering
  | [], _, _ => .eq
  | k :: keys, a, b => (k.order a b).then (orderBy keys a b)

/-- The order of two entities. -/
def order (c : Comparator α) (a b : α) : Ordering := orderBy c.keys a b

/-- The entities in order. -/
def sort (c : Comparator α) (es : List α) : List α := es.mergeSort fun a b => c.order a b != .gt

/-- The rules that became keys. -/
def rules (c : Comparator α) : List SortRule := c.keys.map SortKey.rule

end Comparator

namespace SortRule

variable {S : Schema} {kind : S.Kind}

/-- Does the rule reach more than one value of an entity? The presence of entities cannot be
sorted by. -/
def reachesMany {α : Type} (r : SortRule) (p : Resolved α) : Except CompileError Bool :=
  if p.type.leaf.isRecord then .error (.unsupported .sort r.property p.type)
  else .ok (p.isQuantified || p.isCollection)

/-- The rule with its path resolved, and whether it reaches more than one value. -/
def classify (r : SortRule) : Resolving S kind (Resolved (S.Entity kind) × Bool) := do
  let p ← PathCache.resolve r.property
  return (p, ← liftExcept (r.reachesMany p))

/-- The key of a rule, or none if it is dropped. -/
def key? (o : SortOptions) (r : SortRule) : Resolving S kind (Option (SortKey (S.Entity kind))) := do
  let (p, many) ← r.classify
  if !many then return some ⟨r, p.accessor.read⟩
  else match o.aggregate with
    | some a => return some ⟨r, fun e => a.choose (p.accessor.reached e)⟩
    | none =>
      if o.skipCollections then return none
      else throw (.ambiguousSort r.property)

end SortRule

namespace SortOrder

/-- The comparator of a sort order. -/
def compile (S : Schema) (kind : S.Kind) (o : SortOptions) (rules : SortOrder) :
    Except CompileError (Comparator (S.Entity kind)) :=
  let keys : Resolving S kind _ := rules.mapM (SortRule.key? o)
  ((keys.run.run PathCache.empty).1).map fun keys => ⟨keys.filterMap id⟩

/-- The rules of a sort order that are keys by themselves, and those that need an aggregate. -/
def partition (S : Schema) (kind : S.Kind) (rules : SortOrder) :
    Except CompileError (List SortRule × List SortRule) :=
  let classified : Resolving S kind _ := rules.mapM fun r => do return (r, (← r.classify).2)
  ((classified.run.run PathCache.empty).1).map fun classified =>
    ((classified.filter fun c => !c.2).map Prod.fst, (classified.filter Prod.snd).map Prod.fst)

end SortOrder

end EntityQuery
