/-!
# Sort rules

A sort rule names a property and a direction; a list of sort rules is a sort order, in which
earlier rules take precedence.

`SortRule` and `SortOrder` formalize the types of these names; `asc`, `desc`, `direction` and
`thenBy` are `asc`, `desc`, `direction` and `then`.
-/

namespace EntityQuery

/-- The direction of a sort. -/
inductive Direction where
  /-- Null first. -/
  | ascending
  /-- Null last. -/
  | descending
deriving DecidableEq, Repr

/-- One key of a sort order. -/
structure SortRule where
  /-- The path of the property. -/
  property : String
  descending : Bool
deriving DecidableEq, Repr

namespace SortRule

/-- The rule for a property and a direction. -/
def ofDirection (property : String) (d : Direction) : SortRule := ⟨property, d == .descending⟩

/-- The direction of a rule. -/
def direction (r : SortRule) : Direction := if r.descending then .descending else .ascending

/-- The rule for ascending order. -/
def asc (property : String) : SortRule := ofDirection property .ascending

/-- The rule for descending order. -/
def desc (property : String) : SortRule := ofDirection property .descending

end SortRule

/-- Sort rules, the first one taking precedence. -/
abbrev SortOrder := List SortRule

/-- The sort order with one more rule, which the others precede. -/
def SortOrder.thenBy (o : SortOrder) (r : SortRule) : SortOrder := o ++ [r]

end EntityQuery
