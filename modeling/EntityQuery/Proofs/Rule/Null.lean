import EntityQuery.Proofs.Literal.Typing
import EntityQuery.Proofs.Rule.Literal
import EntityQuery.Proofs.Rule.Semantics
import EntityQuery.Proofs.Rule.Typing

/-!
# Properties that read null

Null is equal to null, is in no order to anything, and is no text. A literal that is not null
becomes null for no type, so no test with a single literal is passed by null. But a list may have
null among its items, and then a property that reads null is one of the list, which Equal and In
ask for. A rule in its positive form holds where its property reads null in this case and, without
any literal, if its operator is Equal, and in no other: `Rule.holds_null_iff`.
-/

namespace EntityQuery

open Outcome

variable {mode : StringComparison} {t : ValueType} {j : Json} {op : Operator}

/-! ### Null among values -/

namespace Value

theorem equalUnder_null_iff {w : Value} : Value.null.EqualUnder mode w ↔ w = .null := by
  rw [← equalBy_iff]
  cases w <;> simp [equalBy, equal, compare?, compareOther?, number?]

theorem not_orderUnder_null {w : Value} {o : Ordering} : ¬ Value.null.OrderUnder mode w o := by
  rw [← compareBy?_iff]
  cases w <;> simp [compareBy?, compare?, compareOther?, number?]

end Value

/-! ### Null among the items of a literal -/

/-- A list with a null among its items. -/
def Json.ListsNull (j : Json) : Prop := ∃ items, j = .array items ∧ ∃ i ∈ items, i.isNull = true

namespace Literal

theorem convert_eq_null_iff : convert t j = .ok .null ↔ j.isNull = true :=
  ⟨isNull_of_convert, convert_of_isNull⟩

theorem null_mem_mapM_iff {items : List Json} {vs : List Value}
    (h : items.mapM (convert t) = .ok vs) : .null ∈ vs ↔ ∃ i ∈ items, i.isNull = true := by
  have inOutcomes : .null ∈ vs ↔ .ok .null ∈ vs.map (Except.ok (ε := CompileError)) := by simp
  rw [inOutcomes, ← map_eq_of_mapM h, List.mem_map]
  simp only [convert_eq_null_iff]

/-- A list that is made of one literal other than null has no null in it. -/
theorem null_not_mem_single (hj : j.isNull = false) {vs : List Value}
    (h : (convert t j).map (fun v => Value.list [v]) = .ok (.list vs)) : .null ∉ vs := by
  obtain ⟨w, hw, eq⟩ := map_eq_ok_iff.mp h
  cases eq
  intro mem
  obtain rfl := List.mem_singleton.mp mem
  rw [convert_eq_null_iff.mp hw] at hj
  cases hj

/-- The pieces of a text have no null among them. -/
theorem null_not_mem_string {s : String} {vs : List Value}
    (h : convertList t (.string s) = .ok (.list vs)) : .null ∉ vs := by
  unfold convertList listOf at h
  dsimp only at h
  intro mem
  split at h
  · split at h
    · cases h
      obtain ⟨piece, -, null⟩ := List.mem_map.mp mem
      cases null
    · obtain ⟨ws, hws, eq⟩ := map_eq_ok_iff.mp h
      cases eq
      obtain ⟨piece, -, null⟩ := exists_of_mem_mapM hws mem
      cases isNull_of_convert null
  · exact null_not_mem_single rfl h mem

/-- Null is among the items that a literal stands for just if it is a list with a null. -/
theorem null_mem_iff {vs : List Value} (h : convertList t j = .ok (.list vs)) :
    .null ∈ vs ↔ j.ListsNull := by
  have noList (absent : .null ∉ vs) (single : j.isArray = false) : .null ∈ vs ↔ j.ListsNull := by
    refine iff_of_false absent ?_
    rintro ⟨items, rfl, -⟩
    cases single
  cases j with
  | null => cases h
  | array items =>
    rw [convertList_array] at h
    obtain ⟨ws, hws, eq⟩ := map_eq_ok_iff.mp h
    cases eq
    simp only [null_mem_mapM_iff hws, Json.ListsNull, Json.array.injEq, exists_eq_left']
  | string s => exact noList (null_not_mem_string h) rfl
  | bool b => exact noList (null_not_mem_single rfl h) rfl
  | number n => exact noList (null_not_mem_single rfl h) rfl
  | object members => exact noList (null_not_mem_single rfl h) rfl

end Literal

/-! ### Tests that null passes -/

/-- What a literal other than null converts to does not equal null. -/
theorem not_equalsLiteral_null (hj : j.isNull = false) : ¬ EqualsLiteral mode t j .null := by
  rintro ⟨wanted, hw, equal⟩
  obtain rfl := Value.equalUnder_null_iff.mp equal
  rw [Literal.isNull_of_convert hw] at hj
  cases hj

/-- Null equals an item of what a literal stands for only if the literal is a list with a null. -/
theorem listsNull_of_equalsMember (h : EqualsMember mode t j .null) : j.ListsNull := by
  obtain ⟨vs, hvs, m, hm, equal⟩ := h
  obtain rfl := Value.equalUnder_null_iff.mp equal
  exact (Literal.null_mem_iff hvs).mp hm

theorem equalsMember_null {vs : List Value} (h : Literal.convertList t j = .ok (.list vs))
    (lists : j.ListsNull) : EqualsMember mode t j .null :=
  ⟨vs, h, .null, (Literal.null_mem_iff h).mpr lists, Value.equalUnder_null_iff.mpr rfl⟩

/-- Null passes the test of an operator with a literal only if it may be one of a list. -/
theorem listsNull_of_elementPasses (hj : j.isNull = false) (h : ElementPasses mode t j op .null) :
    (op = .equal ∨ op = .isIn) ∧ j.ListsNull := by
  cases h with
  | equal _ equal => exact absurd equal (not_equalsLiteral_null hj)
  | equalMember _ member => exact ⟨.inl rfl, listsNull_of_equalsMember member⟩
  | isIn member => exact ⟨.inr rfl, listsNull_of_equalsMember member⟩
  | any equal => exact absurd equal (not_equalsLiteral_null hj)
  | containsValue _ equal => exact absurd equal (not_equalsLiteral_null hj)
  | ordered _ order _ => exact absurd order Value.not_orderUnder_null
  | between _ order _ _ _ => exact absurd order Value.not_orderUnder_null

/-- If it may, and the test compiles, then it passes. -/
theorem elementPasses_null {r : Rule} {test : ElementTest}
    (h : ElementTest.ofLiteral r op t j = .ok test) (hop : op = .equal ∨ op = .isIn)
    (lists : j.ListsNull) : ElementPasses mode t j op .null := by
  obtain ⟨items, rfl, -⟩ := id lists
  have made : ElementTest.ofMembers t (.array items) = .ok test := by
    rcases hop with rfl | rfl <;> exact h
  obtain ⟨vs, hvs, -⟩ := map_eq_ok_iff.mp made
  rw [PropertyTest.members_array] at hvs
  have converted : Literal.convertList t (.array items) = .ok (.list vs) := by
    rw [Literal.convertList_array, hvs]
    rfl
  rcases hop with rfl | rfl
  · exact .equalMember rfl (equalsMember_null converted lists)
  · exact .isIn (equalsMember_null converted lists)

/-! ### Rules -/

namespace Rule

/-- In its positive form the rule asks for null: it has no literal, or a list with a null. -/
inductive AsksForNull (r : Rule) : Prop where
  /-- Equal without a literal. -/
  | absent : r.operator.positive = .equal → r.literal = none → AsksForNull r
  /-- Equal to an item of a list, or one of a list, that has a null. -/
  | listed {j : Json} : r.operator.positive = .equal ∨ r.operator.positive = .isIn →
      r.literal = some j → j.ListsNull → AsksForNull r

variable {r : Rule}

/-- Null passes a rule on a property that is no list just if the rule asks for null. -/
theorem passes_null_iff {test : PropertyTest} (ht : t.isCollection = false)
    (h : PropertyTest.ofRule r t = .ok test) : r.Passes mode t .null ↔ r.AsksForNull := by
  constructor
  · intro passes
    cases passes with
    | isNull hop hl => exact .absent hop hl
    | itself hl _ passes =>
      obtain ⟨hop, lists⟩ := listsNull_of_elementPasses (isNull_literal hl) passes
      exact .listed hop hl lists
  · rintro (⟨hop, hl⟩ | ⟨hop, hl, lists⟩)
    · exact .isNull hop hl
    · have notAny : r.operator.positive ≠ .any := by
        rcases hop with hop | hop <;> rw [hop] <;> nofun
      rw [PropertyTest.ofRule_literal hl, if_neg notAny] at h
      obtain ⟨element, he, -⟩ := map_eq_ok_iff.mp h
      rw [PropertyTest.leaf_of_not_isCollection ht] at he
      exact .itself hl ht (elementPasses_null he hop lists)

variable {S : Schema} {kind : S.Kind} {o : FilterOptions} {left : Resolved (S.Entity kind)}
  {made : Predicate (S.Entity kind)} {e : S.Entity kind}

/-- **A property that reads null.** A rule in its positive form, on a property that is a single
value, holds where the property reads null just if the rule asks for null. -/
theorem holds_null_iff (ha : o.allowsRule r = true) (hr : r.otherProperty = none)
    (positive : r.operator.isNegative = false) (plain : r.negated = false)
    (h : r.compileAlone S kind o = .ok made) (hl : S.resolve kind r.property = .ok left)
    (hc : left.isCollection = false) (hq : left.isQuantified = false)
    (null : left.accessor.read e = .null) : made.holds e = true ↔ r.AsksForNull := by
  obtain ⟨left', test, hl', ht, holds⟩ := exists_test_of_compileAlone ha hr h
  obtain rfl := Except.ok.inj (hl.symm.trans hl')
  have tested : made.holds e = test.passes o.comparison .null := by
    rw [holds, positive, plain, Condition.holds, Accessor.reached_eq_singleton hq, null]
    simp
  rw [tested, PropertyTest.passes_ofRule_iff ht, passes_null_iff hc ht]

/-- Of an author without a best known book, its title is one of a list that has a null. -/
theorem holds_null_iff_known :
    let o : FilterOptions := ⟨none, .ignoreCase⟩
    let r : Rule := ⟨"known.title", .equal, some (.array [.string "Emma", .null]), none, false⟩
    let title : Resolved (Shelf.schema.Entity .author) :=
      Resolved.throughOne ⟨.string, .member fun b : Shelf.Book => .string b.title⟩
        Shelf.Author.known
    let woolf : Shelf.schema.Entity .author := Shelf.Author.mk "Woolf" 59 none none
    o.allowsRule r = true ∧ r.otherProperty = none ∧ r.operator.isNegative = false ∧
      r.negated = false ∧ Shelf.schema.resolve .author r.property = .ok title ∧
      title.isCollection = false ∧ title.isQuantified = false ∧
      title.accessor.read woolf = .null ∧
      ∃ made, r.compileAlone Shelf.schema .author o = .ok made ∧ made.holds woolf = true ∧
        r.AsksForNull := by
  intro o r title woolf
  have known : Shelf.schema.member? .author "known" = some (.one .book Shelf.Author.known) := rfl
  have titled : Shelf.schema.member? .book "title" =
    some (.value .string fun b : Shelf.Book => .string b.title) := rfl
  have ht : Shelf.schema.resolve .author "known.title" = .ok title :=
    Schema.resolve_eq_ok_iff.mpr ⟨[⟨"known", false⟩, ⟨"title", false⟩], by decide +kernel,
      .throughOne known (List.cons_ne_nil _ _) (.value titled)⟩
  have run : (r.compileAlone Shelf.schema .author o).toOption.map (fun made => made.holds woolf) =
      some true := by decide +kernel
  obtain ⟨made, hm, holds⟩ := exists_of_toOption run
  exact ⟨rfl, rfl, rfl, rfl, ht, rfl, rfl, rfl, made, hm, holds,
    (holds_null_iff rfl rfl rfl rfl hm ht rfl rfl rfl).mp holds⟩

/-- In holds of a title that is missing, if null is what it asks for. -/
theorem isIn_null_of_missing :
    let r := isIn "known.title" [.null]
    let woolf : Shelf.schema.Entity .author := Shelf.Author.mk "Woolf" 59 none none
    r.operator.isNegative = false ∧ r.negated = false ∧ r.literal = some (.array [.null]) ∧
      ∃ left made, Shelf.schema.resolve .author "known.title" = .ok left ∧
        left.isCollection = false ∧ left.isQuantified = false ∧
        left.accessor.read woolf = .null ∧
        r.compileAlone Shelf.schema .author .default = .ok made ∧ made.holds woolf = true := by
  intro r woolf
  have run : (r.compileAlone Shelf.schema .author .default).toOption.map
      (fun made => made.holds woolf) = some true := by decide +kernel
  obtain ⟨made, hm, holds⟩ := exists_of_toOption run
  exact ⟨rfl, rfl, rfl, _, made, rfl, rfl, rfl, rfl, hm, holds⟩

end Rule

end EntityQuery
