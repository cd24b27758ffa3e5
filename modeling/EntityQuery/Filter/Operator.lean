import EntityQuery.Text.Case

/-!
# Operators and connectives

The comparison operators of rules and the connectives of groups, with their names. An operator
is read from its symbol or, in any case, from its name or a short form of it. Six operators are
the negated forms of others, and everything that is said of an operator is said of its positive
form first.

`Operator` and `Connective` formalize `FilterOperator` and `LogicalOperator`: `ofText?` is
`from_str`, `name` is `as_str`, and `positive`, `comparesProperties` and `ignoresProperty` are
`positive`, `supports_property_comparison` and `ignores_compare_to_property`.
-/

namespace EntityQuery

/-- How a rule compares a property. -/
inductive Operator where
  /-- Is equal to the literal, or to one of a list of them. -/
  | equal
  | notEqual
  | greaterThan
  | greaterThanOrEqual
  | lessThan
  | lessThanOrEqual
  /-- Matches a pattern with a wildcard at its ends. -/
  | like
  | notLike
  /-- Contains a piece of text; a property of another type is equal to the literal. -/
  | contains
  | notContains
  | startsWith
  | endsWith
  /-- Is one of a list. -/
  | isIn
  | notIn
  /-- Lies within two bounds. -/
  | between
  | notBetween
  /-- A collection has an element, or one equal to the literal. -/
  | any
  | notAny
deriving DecidableEq, Repr

namespace Operator

/-- The canonical name. -/
def name : Operator → String
  | equal => "Equal"
  | notEqual => "NotEqual"
  | greaterThan => "GreaterThan"
  | greaterThanOrEqual => "GreaterThanOrEqual"
  | lessThan => "LessThan"
  | lessThanOrEqual => "LessThanOrEqual"
  | like => "Like"
  | notLike => "NotLike"
  | contains => "Contains"
  | notContains => "NotContains"
  | startsWith => "StartsWith"
  | endsWith => "EndsWith"
  | isIn => "In"
  | notIn => "NotIn"
  | between => "Between"
  | notBetween => "NotBetween"
  | any => "Any"
  | notAny => "NotAny"

/-- The symbols of operators. -/
def symbols : List (String × Operator) := [
  ("=", equal), ("==", equal), ("!=", notEqual), ("<>", notEqual), (">", greaterThan),
  (">=", greaterThanOrEqual), ("<", lessThan), ("<=", lessThanOrEqual), ("~", contains),
  ("!~", notContains)]

/-- The names of operators in lower case. -/
def names : List (String × Operator) := [
  ("equal", equal), ("equals", equal), ("eq", equal),
  ("notequal", notEqual), ("notequals", notEqual), ("ne", notEqual),
  ("greaterthan", greaterThan), ("gt", greaterThan),
  ("greaterthanorequal", greaterThanOrEqual), ("gte", greaterThanOrEqual),
  ("lessthan", lessThan), ("lt", lessThan),
  ("lessthanorequal", lessThanOrEqual), ("lte", lessThanOrEqual),
  ("like", like), ("notlike", notLike), ("contains", contains), ("notcontains", notContains),
  ("startswith", startsWith), ("endswith", endsWith), ("in", isIn), ("notin", notIn),
  ("between", between), ("notbetween", notBetween), ("any", any), ("notany", notAny)]

/-- The operator of a symbol, or of a name in any case. -/
def ofText? (text : String) : Option Operator :=
  (symbols.lookup text).or (names.lookup (Text.lowercase text))

/-- The positive form of an operator. -/
def positive : Operator → Operator
  | notEqual => equal
  | notLike => like
  | notContains => contains
  | notIn => isIn
  | notBetween => between
  | notAny => any
  | op => op

/-- A canonical name is read as its operator. -/
theorem ofText?_name (op : Operator) : ofText? op.name = some op := by
  cases op <;> decide +kernel

/-- Is it the negated form of another operator? -/
def isNegative (op : Operator) : Bool := op.positive != op

/-- May it compare a property with another property? -/
def comparesProperties : Operator → Bool
  | equal | notEqual | greaterThan | greaterThanOrEqual | lessThan | lessThanOrEqual => true
  | _ => false

/-- Does it take the literal even where another property is named? -/
def ignoresProperty : Operator → Bool
  | isIn | notIn | between | notBetween => true
  | _ => false

end Operator

/-- What joins the children of a group, or a group to the next one. -/
inductive Connective where
  | and
  | or
deriving DecidableEq, Repr

namespace Connective

/-- The canonical name. -/
def name : Connective → String
  | and => "And"
  | or => "Or"

/-- The names and symbols of connectives in lower case. -/
def names : List (String × Connective) := [("and", and), ("&&", and), ("or", or), ("||", or)]

/-- The connective of a name or symbol in any case. -/
def ofText? (text : String) : Option Connective := names.lookup (Text.lowercase text)

/-- A canonical name is read as its connective. -/
theorem ofText?_name (c : Connective) : ofText? c.name = some c := by
  cases c <;> decide +kernel

end Connective

end EntityQuery
