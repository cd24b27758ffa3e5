import EntityQuery.Filter.Operator
import EntityQuery.Json.Basic

/-!
# Rules

A rule compares one property with a literal, or with another property of the same entity, and
may be negated. A literal null is no literal.

`Rule` formalizes `FilterRule`: `withLiteral` and `withProperty` are its `new` and `compare`, the
other constructions have their names, `literal` is `literal`, and `same` is its equality.
-/

namespace EntityQuery

/-- One comparison. -/
structure Rule where
  /-- The path of the property. -/
  property : String
  operator : Operator
  /-- The literal to compare with. -/
  value : Option Json
  /-- The path of the property to compare with instead. -/
  compareTo : Option String
  /-- Is the result of the comparison reversed? -/
  negated : Bool

namespace Rule

/-- A comparison with a literal. -/
def withLiteral (property : String) (operator : Operator) (literal : Json) : Rule :=
  ⟨property, operator, if literal.isNull then none else some literal, none, false⟩

/-- A comparison with another property. -/
def withProperty (property : String) (operator : Operator) (other : String) : Rule :=
  ⟨property, operator, none, some other, false⟩

/-- The property is one of the values. -/
def isIn (property : String) (values : List Json) : Rule :=
  withLiteral property .isIn (.array values)

/-- The property lies within two bounds. -/
def between (property : String) (least most : Json) : Rule :=
  withLiteral property .between (.array [least, most])

/-- The property matches a pattern. -/
def like (property pattern : String) : Rule := withLiteral property .like (.string pattern)

/-- The collection has an element. -/
def any (property : String) : Rule := withLiteral property .any .null

/-- The collection is missing or empty. -/
def notAny (property : String) : Rule := withLiteral property .notAny .null

/-- The rule with its result reversed. -/
def negate (r : Rule) : Rule := { r with negated := !r.negated }

/-- The literal, if there is one other than null. -/
def literal (r : Rule) : Option Json := r.value.filter fun j => !j.isNull

/-- The other property that the rule is about, if its operator looks at it. -/
def otherProperty (r : Rule) : Option String :=
  if r.operator.ignoresProperty then none else r.compareTo

/-- Equality of optional literals. -/
def sameValue : Option Json → Option Json → Bool
  | none, none => true
  | some a, some b => a.same b
  | _, _ => false

/-- Equality of rules, part by part. -/
def same (r s : Rule) : Bool :=
  r.property == s.property && r.operator == s.operator && sameValue r.value s.value &&
    r.compareTo == s.compareTo && r.negated == s.negated

end Rule

end EntityQuery
