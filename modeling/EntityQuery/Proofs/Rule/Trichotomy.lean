import EntityQuery.Proofs.Condition.Typing
import EntityQuery.Proofs.Group.Observation
import EntityQuery.Proofs.Rule.Literal
import EntityQuery.Proofs.Rule.Semantics
import EntityQuery.Proofs.Shelf
import EntityQuery.Proofs.Value.Trichotomy

/-!
# The comparison operators together

The six comparison operators compile together: if a property is ordered and a literal fits its type
for one of them, then for all of them, and if two properties are of comparable and ordered types,
then for all of them too. Each then says what it says of the two values that are read
(`Value.comparesBy`), so that on values which have a place in the order exactly one of less, equal
and greater holds. A property that reads null is just unequal to every literal.

The main result is `Rule.trichotomy_comparisons`.
-/

namespace EntityQuery

open Outcome

variable {S : Schema} {kind : S.Kind} {o : FilterOptions} {p q : String} {op : Operator} {j : Json}
  {left right : Resolved (S.Entity kind)}

/-- An operator that compares properties asks for equality or for an order. -/
theorem Operator.positive_of_comparesProperties (h : op.comparesProperties = true) :
    op.positive.relation? = none ∧ op.positive = .equal ∨
      ∃ relation, op.relation? = some relation ∧ op.positive = op := by
  cases op with
  | equal | notEqual => exact .inl ⟨rfl, rfl⟩
  | greaterThan | greaterThanOrEqual | lessThan | lessThanOrEqual => exact .inr ⟨_, rfl, rfl⟩
  | _ => cases h

/-! ### A property and a literal -/

/-- The tests of the comparison operators, with what the literal converts to. -/
theorem PropertyTest.ofRule_comparison {t : ValueType} {bound : Value}
    (ht : t.leaf.isOrdered = true) (hc : t.isCollection = false) (hn : j.isNull = false)
    (hb : Literal.convert t.leaf j = .ok bound) (hop : op.comparesProperties = true)
    (mode : StringComparison) :
    ∃ test : ElementTest, ofRule (Rule.withLiteral p op j) t = .ok (lift t test) ∧
      ∀ v, (op.isNegative ^^ test.passes mode v) = v.comparesBy mode op bound := by
  have single : t.leaf.isCollection = false := by rwa [leaf_of_not_isCollection hc]
  rcases Operator.positive_of_comparesProperties hop with ⟨none, equal⟩ | ⟨relation, hr, positive⟩
  · refine ⟨.equals bound, ?_, fun v => ?_⟩
    · rw [ofRule_equal equal hn (Literal.isArray_of_convert single hb), hb]
      rfl
    · rw [Value.comparesBy, none]
      rfl
  · refine ⟨.relates relation bound, ?_, fun v => ?_⟩
    · rw [ofRule_relation hr hn, if_pos ht, hb]
      rfl
    · rw [Value.comparesBy, positive, hr]
      rfl

namespace Rule

/-- A comparison with a literal says what it says of the value that is read. -/
theorem compileAlone_comparison_literal (ho : o.allows p = true)
    (hl : S.resolve kind p = .ok left) (hc : left.isCollection = false)
    (hq : left.isQuantified = false) (ht : left.type.leaf.isOrdered = true)
    (hn : j.isNull = false) {bound : Value} (hb : Literal.convert left.type.leaf j = .ok bound)
    (hop : op.comparesProperties = true) :
    (withLiteral p op j).compileAlone S kind o =
      .ok ⟨fun e => (left.accessor.read e).comparesBy o.comparison op bound⟩ := by
  obtain ⟨test, made, passes⟩ :=
    PropertyTest.ofRule_comparison (p := p) ht hc hn hb hop o.comparison
  rw [compileAlone_withLiteral ho, hl]
  change (PropertyTest.ofRule (withLiteral p op j) left.type).map _ = _
  rw [made]
  refine congrArg Except.ok (Predicate.eq_of_holds fun e => ?_)
  rw [Predicate.holds_negateIf]
  simp only [Condition.predicate, Condition.holds_lift_of_single hc hq, passes]

/-! ### Two properties -/

/-- A comparison of two properties says what it says of the two values that are read. -/
theorem compileAlone_comparison_property (hp : o.allows p = true) (hq : o.allows q = true)
    (hl : S.resolve kind p = .ok left) (hr : S.resolve kind q = .ok right)
    (singleLeft : (left.isCollection || left.isQuantified) = false)
    (singleRight : (right.isCollection || right.isQuantified) = false)
    (meets : left.type.comparableWith right.type = true) (ht : left.type.isOrdered = true)
    (hop : op.comparesProperties = true) :
    (withProperty p op q).compileAlone S kind o =
      .ok ⟨fun e => (left.accessor.read e).comparesBy o.comparison op (right.accessor.read e)⟩ := by
  have other : (withProperty p op q).otherProperty = some q := by
    cases op <;> cases hop <;> rfl
  have allowed : o.allowsRule (withProperty p op q) = true := by
    rw [FilterOptions.allowsRule, other, Option.all_some, hq, Bool.and_true]
    exact hp
  obtain ⟨c, hc, holds⟩ : ∃ c : Condition (S.Entity kind),
      Condition.ofProperties (withProperty p op q) q left right = .ok c ∧
        ∀ e, (op.isNegative ^^ c.holds o.comparison e) =
          (left.accessor.read e).comparesBy o.comparison op (right.accessor.read e) := by
    have supported : (withProperty p op q).operator.comparesProperties = true := hop
    have shape : (withProperty p op q).operator = op := rfl
    cases relation : op.positive.relation? with
    | none =>
      refine ⟨.equates left.accessor right.accessor, Condition.ofProperties_eq_ok_iff.mpr
        ⟨supported, singleLeft, singleRight, meets, ?_⟩, fun e => ?_⟩
      · rw [shape, relation]
      · rw [Value.comparesBy, relation]
        rfl
    | some r =>
      refine ⟨.relates left.accessor right.accessor r, Condition.ofProperties_eq_ok_iff.mpr
        ⟨supported, singleLeft, singleRight, meets, ?_⟩, fun e => ?_⟩
      · rw [shape, relation]
        exact ⟨ht, rfl⟩
      · rw [Value.comparesBy, relation]
        rfl
  rw [compileAlone_of_allows allowed, alone_condition_property other]
  have path : (withProperty p op q).property = p := rfl
  rw [path, hl, hr]
  change (Condition.ofProperties (withProperty p op q) q left right).map _ = _
  rw [hc]
  refine congrArg Except.ok (Predicate.eq_of_holds fun e => ?_)
  change ((c.predicate o.comparison).negateIf op.isNegative).holds e = _
  rw [Predicate.holds_negateIf]
  exact holds e

/-! ### All six together -/

/-- If a property is less than a literal or not, it is compared with it by all six operators. -/
theorem trichotomy_literal (hp : o.allows p = true) (hl : S.resolve kind p = .ok left)
    (hc : left.isCollection = false) (hq : left.isQuantified = false)
    (h : ∃ less, (withLiteral p .lessThan j).compileAlone S kind o = .ok less) :
    ∃ P : Operator → Predicate (S.Entity kind),
      (∀ op, op.comparesProperties = true →
        (withLiteral p op j).compileAlone S kind o = .ok (P op)) ∧
      ∀ e, ((left.accessor.read e).HasType left.type → ¬ (left.accessor.read e).Unordered →
          Operator.Trichotomy fun op => (P op).holds e) ∧
        (left.accessor.read e = .null →
          ∀ op, op.comparesProperties = true → (P op).holds e = (op == .notEqual)) := by
  obtain ⟨less, h⟩ := h
  obtain ⟨left', bound, hl', ordered, present, hb, -⟩ :=
    (compileAlone_relation_eq_ok_iff hp rfl).mp h
  obtain rfl := Except.ok.inj (hl.symm.trans hl')
  have leaf := PropertyTest.leaf_of_not_isCollection hc
  have constant := Literal.constant_convert hb
  have notNull : bound ≠ .null := by
    rintro rfl
    rw [Literal.isNull_of_convert hb] at present
    cases present
  have place : ¬ bound.Unordered := (Value.Bound.mk constant ordered notNull).not_unordered
  refine ⟨fun op => ⟨fun e => (left.accessor.read e).comparesBy o.comparison op bound⟩,
    fun op hop => compileAlone_comparison_literal hp hl hc hq ordered present hb hop,
    fun e => ⟨fun typed ranked => ?_, fun null op hop => ?_⟩⟩
  · rw [← leaf] at typed
    exact Value.trichotomy ordered rfl typed constant.hasType ranked place
  · change (left.accessor.read e).comparesBy o.comparison op bound = _
    rw [null]
    exact Value.comparesBy_null notNull hop

/-- **Less, equal, greater.** Of a property that is a single value and of a literal that it may be
less than, all six comparisons compile. On an entity where the property reads a value of its type,
other than null and the not-a-numbers, exactly one of less, equal and greater holds, and the other
three are put together from these; where it reads null, it is unequal to the literal and nothing
else. The same six compile for two properties of comparable types that have an order, and say the
same of two such values. -/
theorem trichotomy_comparisons (hp : o.allows p = true) (hl : S.resolve kind p = .ok left)
    (hc : left.isCollection = false) (hq : left.isQuantified = false) :
    (∀ j : Json, (∃ less, (withLiteral p .lessThan j).compileAlone S kind o = .ok less) →
      ∃ P : Operator → Predicate (S.Entity kind),
        (∀ op, op.comparesProperties = true →
          (withLiteral p op j).compileAlone S kind o = .ok (P op)) ∧
        ∀ e, ((left.accessor.read e).HasType left.type → ¬ (left.accessor.read e).Unordered →
            Operator.Trichotomy fun op => (P op).holds e) ∧
          (left.accessor.read e = .null →
            ∀ op, op.comparesProperties = true → (P op).holds e = (op == .notEqual))) ∧
    ∀ (q : String) (right : Resolved (S.Entity kind)), o.allows q = true →
      S.resolve kind q = .ok right → right.isCollection = false → right.isQuantified = false →
      left.type.comparableWith right.type = true → left.type.isOrdered = true →
      ∃ P : Operator → Predicate (S.Entity kind),
        (∀ op, op.comparesProperties = true →
          (withProperty p op q).compileAlone S kind o = .ok (P op)) ∧
        ∀ e, (left.accessor.read e).HasType left.type →
          (right.accessor.read e).HasType right.type →
          ¬ (left.accessor.read e).Unordered → ¬ (right.accessor.read e).Unordered →
          Operator.Trichotomy fun op => (P op).holds e := by
  refine ⟨fun j => trichotomy_literal hp hl hc hq, ?_⟩
  intro q right hq' hr hc' hm' meets ordered
  have singleLeft : (left.isCollection || left.isQuantified) = false := by rw [hc, hq]; rfl
  have singleRight : (right.isCollection || right.isQuantified) = false := by rw [hc', hm']; rfl
  have same := (Value.category_eq_of_comparableWith meets).1
  refine ⟨fun op => ⟨fun e =>
      (left.accessor.read e).comparesBy o.comparison op (right.accessor.read e)⟩,
    fun op hop => compileAlone_comparison_property hp hq' hl hr singleLeft singleRight meets
      ordered hop, fun e typed typed' ranked ranked' => ?_⟩
  exact Value.trichotomy ordered same typed typed' ranked ranked'

/-- A name against a literal, and against the title of a book, where case is ignored. -/
theorem trichotomy_names :
    let o : FilterOptions := ⟨none, .ignoreCase⟩
    let name : Resolved (Shelf.schema.Entity .author) :=
      ⟨.string, .member fun a : Shelf.Author => .string a.name⟩
    let title : Resolved (Shelf.schema.Entity .author) :=
      Resolved.throughOne ⟨.string, .member fun b : Shelf.Book => .string b.title⟩
        Shelf.Author.known
    let conrad : Shelf.schema.Entity .author :=
      Shelf.Author.mk "Conrad" 66 (some ⟨"typhoon", none⟩) none
    o.allows "name" = true ∧ Shelf.schema.resolve .author "name" = .ok name ∧
      o.allows "known.title" = true ∧ Shelf.schema.resolve .author "known.title" = .ok title ∧
      (∃ less, (withLiteral "name" .lessThan (.string "CONRAD")).compileAlone
        Shelf.schema .author o = .ok less) ∧
      (∃ P : Operator → Predicate (Shelf.schema.Entity .author),
        (∀ op, op.comparesProperties = true →
          (withLiteral "name" op (.string "CONRAD")).compileAlone Shelf.schema .author o =
            .ok (P op)) ∧
        Operator.Trichotomy fun op => (P op).holds conrad) ∧
      ∃ P : Operator → Predicate (Shelf.schema.Entity .author),
        (∀ op, op.comparesProperties = true →
          (withProperty "name" op "known.title").compileAlone Shelf.schema .author o = .ok (P op)) ∧
        Operator.Trichotomy fun op => (P op).holds conrad := by
  intro o name title conrad
  have hn : Shelf.schema.resolve .author "name" = .ok name :=
    Schema.resolve_eq_ok_iff.mpr ⟨[⟨"name", false⟩], by decide +kernel, .value rfl⟩
  have known : Shelf.schema.member? .author "known" = some (.one .book Shelf.Author.known) := rfl
  have titled : Shelf.schema.member? .book "title" =
    some (.value .string fun b : Shelf.Book => .string b.title) := rfl
  have ht : Shelf.schema.resolve .author "known.title" = .ok title :=
    Schema.resolve_eq_ok_iff.mpr ⟨[⟨"known", false⟩, ⟨"title", false⟩], by decide +kernel,
      .throughOne known (List.cons_ne_nil _ _) (.value titled)⟩
  have run : ((withLiteral "name" .lessThan (.string "CONRAD")).compileAlone
      Shelf.schema .author o).toOption.map (fun less => less.holds conrad) = some false := by
    decide +kernel
  obtain ⟨less, hless, -⟩ := exists_of_toOption run
  have ranked (s : String) : ¬ (Value.string s).Unordered := by rintro (h | h) <;> cases h
  have compared := trichotomy_comparisons (o := o) rfl hn rfl rfl
  obtain ⟨P, made, one⟩ := compared.1 (.string "CONRAD") ⟨less, hless⟩
  obtain ⟨Q, made', one'⟩ := compared.2 "known.title" title rfl ht rfl rfl rfl rfl
  exact ⟨rfl, hn, rfl, ht, ⟨less, hless⟩, ⟨P, made, (one conrad).1 (.string _) (ranked _)⟩,
    Q, made', one' conrad (.string _) (.string _) (ranked _) (ranked _)⟩

end Rule

end EntityQuery
