import EntityQuery.Condition.Pattern
import EntityQuery.Path.Accessor
import EntityQuery.Predicate
import EntityQuery.Value.Order

/-!
# Conditions

What a rule has become once its paths are resolved and its literal is converted: a test of the
values that a path reaches, or a comparison of two properties. A condition only compares values,
so it cannot fail.

A property test asks about the whole property. A list passes an element test if one of its
elements does, and a path through a collection holds if one of the values reached passes.

`Condition.holds` formalizes the predicates that `compare_literal` and `compare_properties` return,
`ElementTest.passes` the tests of `element_test`. `compareBy?`, `equalBy` and `Relation.accepts` are
`compare_values`, `values_equal` and `ordering_check`.
-/

namespace EntityQuery

/-- An order between two values. -/
inductive Relation where
  | greater
  | greaterOrEqual
  | less
  | lessOrEqual
deriving DecidableEq, Repr

/-- Does the relation hold of values in this order? -/
def Relation.accepts : Relation → Ordering → Bool
  | .greater, o => o == .gt
  | .greaterOrEqual, o => o != .lt
  | .less, o => o == .lt
  | .lessOrEqual, o => o != .gt

namespace Value

/-- The order of two values, strings being compared in the given way. -/
def compareBy? (mode : StringComparison) : Value → Value → Option Ordering
  | .string s, .string t => some (compare (mode.fold s) (mode.fold t))
  | v, w => compare? v w

/-- Equality of two values, strings being compared in the given way; strings inside lists are
compared as they are. -/
def equalBy (mode : StringComparison) : Value → Value → Bool
  | .string s, .string t => mode.fold s == mode.fold t
  | v, w => equal v w

/-- Are two values in the relation? -/
def relatedBy (mode : StringComparison) (r : Relation) (v w : Value) : Bool :=
  (compareBy? mode v w).any r.accepts

end Value

/-- A test of one value. -/
inductive ElementTest where
  /-- It equals a value. -/
  | equals (wanted : Value)
  /-- It equals one of the values. -/
  | isOneOf (members : List Value)
  /-- It is in a relation to a value. -/
  | relates (relation : Relation) (bound : Value)
  /-- It lies within two bounds. -/
  | within (least most : Value)
  /-- It is a text that matches. -/
  | text (pattern : Pattern)

/-- Does a value pass? -/
def ElementTest.passes (mode : StringComparison) : ElementTest → Value → Bool
  | .equals wanted, v => v.equalBy mode wanted
  | .isOneOf members, v => members.any fun m => v.equalBy mode m
  | .relates relation bound, v => v.relatedBy mode relation bound
  | .within least most, v =>
    v.relatedBy mode .greaterOrEqual least && v.relatedBy mode .lessOrEqual most
  | .text pattern, v => v.string?.any fun s => pattern.accepts mode s

/-- A test of a property. -/
inductive PropertyTest where
  /-- It is null. -/
  | isNull
  /-- It is a list with an element. -/
  | hasElement
  /-- It passes the test. -/
  | itself (test : ElementTest)
  /-- It is a list with an element that passes the test. -/
  | someElement (test : ElementTest)

/-- Does the value of a property pass? -/
def PropertyTest.passes (mode : StringComparison) : PropertyTest → Value → Bool
  | .isNull, v => v.isNull
  | .hasElement, v => v.items?.any fun items => !items.isEmpty
  | .itself test, v => test.passes mode v
  | .someElement test, v => v.items?.any fun items => items.any fun x => test.passes mode x

/-- A compiled rule. -/
inductive Condition (α : Type) where
  /-- One of the values that are reached passes. -/
  | tests (accessor : Accessor α) (test : PropertyTest)
  /-- Two properties are equal. -/
  | equates (left right : Accessor α)
  /-- Two properties are in a relation. -/
  | relates (left right : Accessor α) (relation : Relation)

namespace Condition

variable {α : Type}

/-- Does an entity meet the condition? -/
def holds (mode : StringComparison) (c : Condition α) (e : α) : Bool :=
  match c with
  | .tests accessor test => (accessor.reached e).any fun v => test.passes mode v
  | .equates left right => (left.read e).equalBy mode (right.read e)
  | .relates left right relation => (left.read e).relatedBy mode relation (right.read e)

/-- The predicate of a condition. -/
def predicate (mode : StringComparison) (c : Condition α) : Predicate α := ⟨c.holds mode⟩

end Condition

end EntityQuery
