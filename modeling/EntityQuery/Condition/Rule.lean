import EntityQuery.Condition.Basic
import EntityQuery.Filter.Rule
import EntityQuery.Literal
import EntityQuery.Path.Cache

/-!
# Compiling rules

A rule compiles in the positive form of its operator; the result is reversed if the operator is
the negated form, and then if the rule itself is negated. The whole property is reversed, not
each value of it.

A rule that names a property outside the allowed ones is dropped before anything else is looked
at: it holds of every entity, negated or not.

`Rule.compile` formalizes `compile_rule`. Its two branches are `Condition.ofLiteral` for
`compare_literal` and `Condition.ofProperties` for `compare_properties`; `PropertyTest.ofRule` and
`ElementTest.ofLiteral` choose the tests, the latter as `element_test` does, with `textOf` for
`literal_text`. `FilterOptions` formalizes `CompileOptions`, and `FilterOptions.allows` its
`allows`.
-/

namespace EntityQuery

/-- How filters compile. -/
structure FilterOptions where
  /-- The properties that may be filtered by; all, if nothing is said. -/
  allowed : Option (List String)
  comparison : StringComparison
deriving DecidableEq, Repr

namespace FilterOptions

/-- The options where nothing is said. -/
def default : FilterOptions := ⟨none, .ordinal⟩

/-- The options of a configuration. -/
def ofConfig (c : Config) : FilterOptions := ⟨none, c.stringComparison⟩

/-- May this property be filtered by? -/
def allows (o : FilterOptions) (property : String) : Bool :=
  o.allowed.all fun properties => properties.contains property

/-- May the properties of this rule be filtered by? -/
def allowsRule (o : FilterOptions) (r : Rule) : Bool :=
  o.allows r.property && r.otherProperty.all o.allows

end FilterOptions

/-- The order between values that an operator asks for. -/
def Operator.relation? : Operator → Option Relation
  | .greaterThan => some .greater
  | .greaterThanOrEqual => some .greaterOrEqual
  | .lessThan => some .less
  | .lessThanOrEqual => some .lessOrEqual
  | _ => none

/-- The error for a rule whose operator is not defined for a type. -/
def Rule.unsupported (r : Rule) (property : String) (t : ValueType) : CompileError :=
  .unsupported (.filter r.operator) property t

namespace ElementTest

/-- The items of the list that a literal stands for. -/
def members (t : ValueType) (literal : Json) : Except CompileError (List Value) :=
  (Literal.convertList t literal).map fun v => v.items?.getD []

/-- Equality with a literal. -/
def ofEqual (t : ValueType) (literal : Json) : Except CompileError ElementTest :=
  (Literal.convert t literal).map .equals

/-- Equality with one of the items of a literal. -/
def ofMembers (t : ValueType) (literal : Json) : Except CompileError ElementTest :=
  (members t literal).map .isOneOf

/-- The test against two bounds, neither of which is null. -/
def ofBounds (t : ValueType) (literal : Json) : List Value → Except CompileError ElementTest
  | [least, most] =>
    if least.isNull || most.isNull then
      .error (.conversion literal.text (.literal literal.kind) (.rangeOf t))
    else .ok (.within least most)
  | _ => .error (.conversion literal.text (.literal literal.kind) (.rangeOf t))

/-- The text that a literal stands for. -/
def textOf (t : ValueType) (literal : Json) : Except CompileError String :=
  match Literal.toString? literal with
  | some s => .ok s
  | none => .error (mismatch literal t)

/-- The test of a text, for properties that are strings. -/
def ofText (r : Rule) (t : ValueType) (literal : Json) (pattern : String → Pattern) :
    Except CompileError ElementTest :=
  if t.isString then (textOf t literal).map fun s => .text (pattern s)
  else .error (r.unsupported r.property t)

/-- The test of one value of type `t` by an operator in positive form and a literal. -/
def ofLiteral (r : Rule) (op : Operator) (t : ValueType) (literal : Json) :
    Except CompileError ElementTest :=
  match op with
  | .equal => if literal.isArray then ofMembers t literal else ofEqual t literal
  | .isIn => ofMembers t literal
  | .like => ofText r t literal Pattern.ofText
  | .startsWith => ofText r t literal Pattern.startsWith
  | .endsWith => ofText r t literal Pattern.endsWith
  | .contains =>
    if t.isString then ofText r t literal Pattern.contains else ofEqual t literal
  | .between =>
    if t.isOrdered then (members t literal).bind (ofBounds t literal)
    else .error (r.unsupported r.property t)
  | op =>
    match op.relation? with
    | some relation =>
      if t.isOrdered then (Literal.convert t literal).map (.relates relation)
      else .error (r.unsupported r.property t)
    | none => .error (r.unsupported r.property t)

end ElementTest

namespace PropertyTest

/-- An element test as a test of a property: of its elements, if it is a list. -/
def lift (t : ValueType) (test : ElementTest) : PropertyTest :=
  if t.isCollection then .someElement test else .itself test

/-- The test of a property of type `t` by a rule with a literal, or with none. -/
def ofRule (r : Rule) (t : ValueType) : Except CompileError PropertyTest :=
  match r.operator.positive, r.literal with
  | .any, literal =>
    if t.isCollection then
      match literal with
      | none => .ok .hasElement
      | some j => (ElementTest.ofEqual t.leaf j).map .someElement
    else .error (r.unsupported r.property t)
  | .equal, none => .ok .isNull
  | _, none => .error (.conversion "null" (.literal .null) (.type t.leaf))
  | op, some j => (ElementTest.ofLiteral r op t.leaf j).map (lift t)

end PropertyTest

namespace Condition

variable {α : Type}

/-- The condition of a rule on a property and a literal. -/
def ofLiteral (r : Rule) (left : Resolved α) : Except CompileError (Condition α) :=
  (PropertyTest.ofRule r left.type).map (.tests left.accessor)

/-- Is one property a single value of its entity? -/
def requireSingle (r : Rule) (path : String) (side : Resolved α) : Except CompileError Unit :=
  if side.isCollection || side.isQuantified then .error (r.unsupported path side.type) else .ok ()

/-- The condition of a rule on two properties. -/
def ofProperties (r : Rule) (other : String) (left right : Resolved α) :
    Except CompileError (Condition α) := do
  if !r.operator.comparesProperties then throw (r.unsupported r.property left.type)
  requireSingle r r.property left
  requireSingle r other right
  if !left.type.comparableWith right.type then
    throw (.conversion other .property (.type left.type))
  match r.operator.positive.relation? with
  | none => return .equates left.accessor right.accessor
  | some relation =>
    if left.type.isOrdered then return .relates left.accessor right.accessor relation
    else throw (r.unsupported r.property left.type)

end Condition

namespace Rule

variable {S : Schema} {kind : S.Kind}

/-- The condition of a rule in positive form. -/
def condition (r : Rule) : Resolving S kind (Condition (S.Entity kind)) := do
  let left ← PathCache.resolve r.property
  match r.otherProperty with
  | some other =>
    let right ← PathCache.resolve other
    liftExcept (Condition.ofProperties r other left right)
  | none => liftExcept (Condition.ofLiteral r left)

/-- The predicate of a rule. -/
def compile (o : FilterOptions) (r : Rule) : Resolving S kind (Predicate (S.Entity kind)) := do
  if !o.allowsRule r then return .constant true
  let c ← r.condition
  return ((c.predicate o.comparison).negateIf r.operator.isNegative).negateIf r.negated

end Rule

end EntityQuery
