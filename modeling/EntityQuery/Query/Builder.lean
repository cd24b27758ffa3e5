import EntityQuery.Query.Basic

/-!
# Building queries

A query grows by steps. Filters go to the last group, and start one if there is none; the steps
that change a group change the last one, and nothing if there is none. A builder is a value, so
one that has been kept can be continued in several ways.

Each constructor of `BuildStep` is a call of the builder, in the order in which it declares them,
and `QueryBuilder.step` formalizes what the call does; `joinNext` is `then`. `QueryBuilder.new` and
`QueryBuilder.build` are `new` and `build`.
-/

namespace EntityQuery

/-- A step in building a query. -/
inductive BuildStep where
  /-- Names the query. -/
  | name (name : String)
  /-- Starts an empty group. -/
  | group (connective : Connective)
  /-- Appends a whole group. -/
  | withGroup (g : Group)
  /-- Says how the last group joins the next one. -/
  | joinNext (inter : Connective)
  /-- Reverses the last group. -/
  | negateGroup
  /-- Adds a child to the last group. -/
  | filter (child : Node)
  /-- Adds a comparison with a literal. -/
  | rule (property : String) (operator : Operator) (literal : Json)
  /-- Adds that the property is a value. -/
  | equal (property : String) (literal : Json)
  /-- Adds that the property is not a value. -/
  | notEqual (property : String) (literal : Json)
  /-- Adds that the property is above a value. -/
  | greaterThan (property : String) (literal : Json)
  /-- Adds that the property is below a value. -/
  | lessThan (property : String) (literal : Json)
  /-- Adds that the property matches a pattern. -/
  | like (property pattern : String)
  /-- Adds that the property lies within two bounds. -/
  | between (property : String) (least most : Json)
  /-- Adds that the collection has an element. -/
  | any (property : String)
  /-- Adds that the collection is missing or empty. -/
  | notAny (property : String)
  /-- Adds a comparison with another property. -/
  | compare (property : String) (operator : Operator) (other : String)
  /-- Replaces the sort order. -/
  | sort (rules : SortOrder)
  /-- Replaces the sort order by ascending order. -/
  | sortByAsc (property : String)
  /-- Replaces the sort order by descending order. -/
  | sortByDesc (property : String)
  /-- Appends ascending order. -/
  | thenByAsc (property : String)
  /-- Appends descending order. -/
  | thenByDesc (property : String)

/-- A query under construction. -/
structure QueryBuilder where
  name : String
  groups : List Group
  sorts : SortOrder

namespace QueryBuilder

/-- The builder that nothing has been said to. -/
def new : QueryBuilder := ⟨"New Query", [], []⟩

/-- Changes the last of some groups. -/
def changeLast (change : Group → Group) : List Group → List Group
  | [] => []
  | [g] => [change g]
  | g :: groups => g :: changeLast change groups

/-- Adds a child to the last of some groups; without any, to a new group where all children must
hold. -/
def addToLast (child : Node) (groups : List Group) : List Group :=
  if groups.isEmpty then [(Group.empty .and).add child]
  else changeLast (fun g => g.add child) groups

/-- The builder with one more child in the last group. -/
def filter (b : QueryBuilder) (child : Node) : QueryBuilder :=
  { b with groups := addToLast child b.groups }

/-- The builder after a step. -/
def step (b : QueryBuilder) : BuildStep → QueryBuilder
  | .name name => { b with name := name }
  | .group connective => { b with groups := b.groups ++ [Group.empty connective] }
  | .withGroup g => { b with groups := b.groups ++ [g] }
  | .joinNext inter => { b with groups := changeLast (fun g => g.joinNext inter) b.groups }
  | .negateGroup => { b with groups := changeLast Group.negate b.groups }
  | .filter child => b.filter child
  | .rule property operator literal => b.filter (.rule (.withLiteral property operator literal))
  | .equal property literal => b.filter (.rule (.withLiteral property .equal literal))
  | .notEqual property literal => b.filter (.rule (.withLiteral property .notEqual literal))
  | .greaterThan property literal => b.filter (.rule (.withLiteral property .greaterThan literal))
  | .lessThan property literal => b.filter (.rule (.withLiteral property .lessThan literal))
  | .like property pattern => b.filter (.rule (.like property pattern))
  | .between property least most => b.filter (.rule (.between property least most))
  | .any property => b.filter (.rule (.any property))
  | .notAny property => b.filter (.rule (.notAny property))
  | .compare property operator other => b.filter (.rule (.withProperty property operator other))
  | .sort rules => { b with sorts := rules }
  | .sortByAsc property => { b with sorts := [.asc property] }
  | .sortByDesc property => { b with sorts := [.desc property] }
  | .thenByAsc property => { b with sorts := b.sorts.thenBy (.asc property) }
  | .thenByDesc property => { b with sorts := b.sorts.thenBy (.desc property) }

/-- The builder after some steps. -/
def run (b : QueryBuilder) (steps : List BuildStep) : QueryBuilder := steps.foldl step b

/-- The query that has been built. -/
def build (b : QueryBuilder) : Query := ⟨b.name, b.groups, b.sorts⟩

end QueryBuilder

end EntityQuery
