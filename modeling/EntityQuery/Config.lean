import EntityQuery.Text.Case

/-!
# Configuration

The defaults of compilation: how strings compare, and what becomes of a sort rule that reaches a
collection. Each may be set by a variable of the environment, read through a lookup; a variable
that is not set leaves its default, and one with an unknown value is an error.

`Config` formalizes `CompilerConfig`, and `Config.ofLookup` its `from_lookup`;
`StringComparison.ofText?` and `Aggregate.ofText?` are the functions `from_str` of
`StringComparison` and `CollectionAggregate`.
-/

namespace EntityQuery

/-- How strings compare. -/
inductive StringComparison where
  /-- Character by character. -/
  | ordinal
  /-- By their lower-case forms. -/
  | ignoreCase
deriving DecidableEq, Repr

namespace StringComparison

/-- The canonical name. -/
def name : StringComparison → String
  | ordinal => "ordinal"
  | ignoreCase => "ignore_case"

/-- The names in lower case. -/
def names : List (String × StringComparison) := [
  ("ordinal", ordinal), ("exact", ordinal),
  ("ignore_case", ignoreCase), ("ignorecase", ignoreCase), ("insensitive", ignoreCase)]

/-- The comparison of a name in any case. -/
def ofText? (text : String) : Option StringComparison := names.lookup (Text.lowercase text)

/-- A canonical name is read as its comparison. -/
theorem ofText?_name (c : StringComparison) : ofText? c.name = some c := by
  cases c <;> decide +kernel

end StringComparison

/-- Which value of a collection counts as its sort key. -/
inductive Aggregate where
  /-- The least value that is not null. -/
  | min
  /-- The greatest value that is not null. -/
  | max
  /-- The first value. -/
  | first
deriving DecidableEq, Repr

namespace Aggregate

/-- The canonical name. -/
def name : Aggregate → String
  | min => "min"
  | max => "max"
  | first => "first"

/-- The names in lower case. -/
def names : List (String × Aggregate) := [("min", min), ("max", max), ("first", first)]

/-- The aggregate of a name in any case. -/
def ofText? (text : String) : Option Aggregate := names.lookup (Text.lowercase text)

/-- A canonical name is read as its aggregate. -/
theorem ofText?_name (a : Aggregate) : ofText? a.name = some a := by
  cases a <;> decide +kernel

end Aggregate

/-- The defaults of compilation. -/
structure Config where
  stringComparison : StringComparison
  /-- Are sort rules on collections dropped rather than refused? -/
  skipCollections : Bool
  /-- Which value of a collection counts as its sort key, if any. -/
  aggregate : Option Aggregate
deriving DecidableEq, Repr

/-- A variable of the environment has an unknown value. -/
structure ConfigError where
  key : String
  /-- What values were expected. -/
  expected : String
  /-- The value that was found. -/
  found : String
deriving DecidableEq, Repr

/-- The error in words. -/
def ConfigError.message (e : ConfigError) : String :=
  "Invalid value for " ++ e.key ++ ": expected " ++ e.expected ++ ", got '" ++ e.found ++ "'"

namespace Config

/-- The configuration where nothing is set. -/
def default : Config := ⟨.ordinal, false, none⟩

/-- The variable for the comparison of strings. -/
def comparisonKey : String := "PQ_STRING_COMPARISON"

/-- The variable for sort rules on collections. -/
def skipKey : String := "PQ_SKIP_COLLECTION_SORTS"

/-- The variable for the aggregate. -/
def aggregateKey : String := "PQ_COLLECTION_SORT_AGGREGATE"

/-- The words for truth values in lower case. -/
def truthWords : List (String × Bool) := [
  ("true", true), ("1", true), ("yes", true), ("false", false), ("0", false), ("no", false)]

/-- A truth value in words, in any case. -/
def truth? (text : String) : Option Bool := truthWords.lookup (Text.lowercase text)

/-- An aggregate or, as the empty text or by a word, none. -/
def optionalAggregate? (text : String) : Option (Option Aggregate) :=
  if Text.lowercase text = "" ∨ Text.lowercase text = "none" then some none
  else (Aggregate.ofText? text).map some

/-- The value of a variable: its default, or what is read from the text that is set. -/
def setting {α : Type} (lookup : String → Option String) (key expected : String)
    (unset : α) (read : String → Option α) : Except ConfigError α :=
  match lookup key with
  | none => .ok unset
  | some text =>
    match read text with
    | some a => .ok a
    | none => .error ⟨key, expected, text⟩

/-- The configuration of an environment; the first variable with an unknown value is the error.
-/
def ofLookup (lookup : String → Option String) : Except ConfigError Config := do
  let comparison ← setting lookup comparisonKey "'ordinal' or 'ignore_case'"
    default.stringComparison StringComparison.ofText?
  let skip ← setting lookup skipKey "a boolean" default.skipCollections truth?
  let aggregate ← setting lookup aggregateKey "'min', 'max', 'first' or 'none'"
    default.aggregate optionalAggregate?
  return ⟨comparison, skip, aggregate⟩

end Config

end EntityQuery
