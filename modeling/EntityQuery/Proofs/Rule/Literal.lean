import EntityQuery.Proofs.Literal.Typing
import EntityQuery.Proofs.Path.Walk
import EntityQuery.Proofs.Rule.Compile

/-!
# Rules with a literal

A rule that compares a property with a literal resolves its path, makes a test of the type that it
finds and of the literal, and reverses the result for the negated form of an operator
(`Rule.compileAlone_withLiteral`). This module says what the test is for the operators that ask for
equality, for one of a list, or for an order, each given what the literal converts to.
-/

namespace EntityQuery

open Outcome

variable {p : String} {op : Operator} {j : Json} {t : ValueType}

/-! ### The parts of the rule -/

namespace Rule

@[simp] theorem otherProperty_withLiteral : (withLiteral p op j).otherProperty = none := by
  unfold otherProperty
  split <;> rfl

theorem literal_withLiteral (h : j.isNull = false) : (withLiteral p op j).literal = some j := by
  simp [literal, withLiteral, h]

theorem literal_withLiteral_null (h : j.isNull = true) : (withLiteral p op j).literal = none := by
  simp [literal, withLiteral, h]

end Rule

/-! ### Converting literals -/

namespace Literal

/-- An array stands for nothing but a list. -/
theorem isArray_of_convert {v : Value} (ht : t.isCollection = false) (h : convert t j = .ok v) :
    j.isArray = false := by
  cases j with
  | array items =>
    cases t with
    | list u => cases ht
    | _ => cases h
  | _ => rfl

theorem convertList_array (t : ValueType) (js : List Json) :
    convertList t (.array js) = (js.mapM (convert t)).map .list := by
  simp only [convertList, listOf]

end Literal

/-! ### Tests -/

namespace PropertyTest

open ElementTest

/-- A literal that is not null makes a test of one value, for every operator but Any. -/
theorem ofRule_withLiteral (hn : j.isNull = false) (hop : op.positive ≠ .any) :
    ofRule (Rule.withLiteral p op j) t =
      (ofLiteral (Rule.withLiteral p op j) op.positive t.leaf j).map (lift t) := by
  have shape : (Rule.withLiteral p op j).operator = op := rfl
  rw [ofRule_literal (Rule.literal_withLiteral hn), shape, if_neg hop]

/-- A property is equal to what the literal converts to. -/
theorem ofRule_equal (hop : op.positive = .equal) (hn : j.isNull = false)
    (ha : j.isArray = false) :
    ofRule (Rule.withLiteral p op j) t =
      (Literal.convert t.leaf j).map fun v => lift t (.equals v) := by
  rw [ofRule_withLiteral hn (by rw [hop]; nofun), hop]
  simp only [ofLiteral, ha, Bool.false_eq_true, if_false, ofEqual]
  cases Literal.convert t.leaf j <;> rfl

theorem members_array (t : ValueType) (js : List Json) :
    members t (.array js) = js.mapM (Literal.convert t) := by
  rw [members, Literal.convertList_array]
  cases js.mapM (Literal.convert t) <;> rfl

/-- An array stands for its items, also where a property is to be equal to it. -/
theorem ofRule_array (hop : op.positive = .equal ∨ op.positive = .isIn) (js : List Json) :
    ofRule (Rule.withLiteral p op (.array js)) t =
      (js.mapM (Literal.convert t.leaf)).map fun vs => lift t (.isOneOf vs) := by
  have notAny : op.positive ≠ .any := by rcases hop with hop | hop <;> rw [hop] <;> nofun
  have test : ofLiteral (Rule.withLiteral p op (.array js)) op.positive t.leaf (.array js) =
      ofMembers t.leaf (.array js) := by
    rcases hop with hop | hop <;> rw [hop] <;> rfl
  rw [ofRule_withLiteral rfl notAny, test, ofMembers, members_array]
  cases js.mapM (Literal.convert t.leaf) <;> rfl

/-- Null is compared with by no operator that asks for an order or for several values. -/
theorem ofRule_null (hn : j.isNull = true) (notAny : op.positive ≠ .any)
    (notEqual : op.positive ≠ .equal) :
    ofRule (Rule.withLiteral p op j) t =
      .error (.conversion "null" (.literal .null) (.type t.leaf)) := by
  have shape : (Rule.withLiteral p op j).operator = op := rfl
  unfold ofRule
  rw [Rule.literal_withLiteral_null hn, shape]
  generalize op.positive = positive at notAny notEqual
  cases positive <;> first | rfl | contradiction

/-- An order to a literal is one to what it converts to, where the type has an order. -/
theorem ofRule_relation {relation : Relation} (hr : op.relation? = some relation)
    (hn : j.isNull = false) :
    ofRule (Rule.withLiteral p op j) t =
      if t.leaf.isOrdered then (Literal.convert t.leaf j).map fun v => lift t (.relates relation v)
      else .error ((Rule.withLiteral p op j).unsupported p t.leaf) := by
  have notAny : op.positive ≠ .any := by cases op <;> cases hr <;> nofun
  have test : ofLiteral (Rule.withLiteral p op j) op.positive t.leaf j =
      if t.leaf.isOrdered then (Literal.convert t.leaf j).map (.relates relation)
      else .error ((Rule.withLiteral p op j).unsupported p t.leaf) := by
    cases op <;> cases hr <;> rfl
  rw [ofRule_withLiteral hn notAny, test]
  split
  · cases Literal.convert t.leaf j <;> rfl
  · rfl

end PropertyTest

/-- A property that is a single value passes by itself. -/
theorem Condition.holds_lift_of_single {α : Type} {mode : StringComparison} {test : ElementTest}
    {a : Accessor α} (hc : t.isCollection = false) (hq : a.isQuantified = false) (e : α) :
    (tests a (PropertyTest.lift t test)).holds mode e = test.passes mode (a.read e) := by
  rw [holds, Accessor.reached_eq_singleton hq, PropertyTest.lift, hc]
  simp only [List.any_cons, List.any_nil, Bool.or_false, Bool.false_eq_true, if_false,
    PropertyTest.passes]

/-- If what passes one test of a value passes another, then this is so for properties. -/
theorem PropertyTest.passes_lift_mono {mode mode' : StringComparison} {x y : ElementTest}
    (h : ∀ v, x.passes mode v = true → y.passes mode' v = true) {v : Value} :
    (lift t x).passes mode v = true → (lift t y).passes mode' v = true := by
  intro passes
  unfold lift at passes ⊢
  split at passes
  · next list =>
    rw [if_pos list]
    simp only [PropertyTest.passes, Option.any_eq_true, List.any_eq_true] at passes ⊢
    obtain ⟨items, hi, m, hm, passes⟩ := passes
    exact ⟨items, hi, m, hm, h m passes⟩
  · next single =>
    rw [if_neg single]
    exact h v passes

/-- If the values that pass one test of a property pass another, then entities do. -/
theorem Condition.holds_tests_mono {α : Type} {mode mode' : StringComparison} {x y : PropertyTest}
    (h : ∀ v, x.passes mode v = true → y.passes mode' v = true) {a : Accessor α} {e : α} :
    (tests a x).holds mode e = true → (tests a y).holds mode' e = true := by
  simp only [holds, List.any_eq_true]
  rintro ⟨v, hv, passes⟩
  exact ⟨v, hv, h v passes⟩

/-! ### Rules -/

namespace Rule

variable {S : Schema} {kind : S.Kind} {o : FilterOptions}

/-- **A rule with a literal**, of a property that may be filtered by, compiles to the test of its
property, reversed for the negated form of an operator. -/
theorem compileAlone_withLiteral (ho : o.allows p = true) :
    (withLiteral p op j).compileAlone S kind o = S.resolve kind p >>= fun left =>
      (PropertyTest.ofRule (withLiteral p op j) left.type).map fun test =>
        ((Condition.tests left.accessor test).predicate o.comparison).negateIf op.isNegative := by
  have allowed : o.allowsRule (withLiteral p op j) = true := by
    rw [FilterOptions.allowsRule, otherProperty_withLiteral, Option.all_none, Bool.and_true]
    exact ho
  rw [compileAlone_of_allows allowed, alone_condition_literal otherProperty_withLiteral]
  have path : (withLiteral p op j).property = p := rfl
  rw [path]
  cases S.resolve kind p with
  | error err => rfl
  | ok left =>
    change (Condition.ofLiteral (withLiteral p op j) left).map _ =
      (PropertyTest.ofRule (withLiteral p op j) left.type).map _
    unfold Condition.ofLiteral
    cases PropertyTest.ofRule (withLiteral p op j) left.type <;> rfl

/-- If the test for every type is made from one thing, then the predicate is made from it. -/
theorem compileAlone_of_ofRule {β : Type} {make : ValueType → Except CompileError β}
    {test : ValueType → β → PropertyTest} (ho : o.allows p = true)
    (h : ∀ t, PropertyTest.ofRule (withLiteral p op j) t = (make t).map (test t)) :
    (withLiteral p op j).compileAlone S kind o = S.resolve kind p >>= fun left =>
      (make left.type).map fun b =>
        ((Condition.tests left.accessor (test left.type b)).predicate o.comparison).negateIf
          op.isNegative := by
  rw [compileAlone_withLiteral ho]
  refine congrArg (S.resolve kind p >>= ·) (funext fun left => ?_)
  rw [h]
  cases make left.type <;> rfl

/-- **A rule that asks for an order** compiles if its literal fits the type of its property, or of
the elements of its property, and this type has an order. -/
theorem compileAlone_relation_eq_ok_iff {relation : Relation} {made : Predicate (S.Entity kind)}
    (ho : o.allows p = true) (hr : op.relation? = some relation) :
    (withLiteral p op j).compileAlone S kind o = .ok made ↔
      ∃ left bound, S.resolve kind p = .ok left ∧ left.type.leaf.isOrdered = true ∧
        j.isNull = false ∧ Literal.convert left.type.leaf j = .ok bound ∧
        made = (Condition.tests left.accessor
          (PropertyTest.lift left.type (.relates relation bound))).predicate o.comparison := by
  have positive : op.isNegative = false := by cases op <;> cases hr <;> rfl
  rw [compileAlone_withLiteral ho, bind_eq_ok_iff, positive]
  constructor
  · rintro ⟨left, hl, h⟩
    obtain ⟨test, ht, rfl⟩ := map_eq_ok_iff.mp h
    have present : j.isNull = false := by
      by_contra null
      rw [Bool.not_eq_false] at null
      rw [PropertyTest.ofRule_null null (by cases op <;> cases hr <;> nofun)
        (by cases op <;> cases hr <;> nofun)] at ht
      cases ht
    rw [PropertyTest.ofRule_relation hr present] at ht
    split at ht
    · next ordered =>
      obtain ⟨bound, hb, rfl⟩ := map_eq_ok_iff.mp ht
      exact ⟨left, bound, hl, ordered, present, hb, rfl⟩
    · cases ht
  · rintro ⟨left, bound, hl, ordered, present, hb, rfl⟩
    refine ⟨left, hl, map_eq_ok_iff.mpr ⟨_, ?_, rfl⟩⟩
    rw [PropertyTest.ofRule_relation hr present, if_pos ordered, hb]
    rfl

end Rule

end EntityQuery
