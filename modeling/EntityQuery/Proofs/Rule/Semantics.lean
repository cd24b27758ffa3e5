import EntityQuery.Proofs.Condition.Element
import EntityQuery.Proofs.Path.Walk
import EntityQuery.Proofs.Rule.Compile
import EntityQuery.Proofs.Shelf

/-!
# What a rule with a literal says

A rule looks at the values that its path reaches on an entity. In its positive form it holds if
one of them passes: by being null or a list with an element where there is no literal, and else
by passing the test of the operator, a list through one of its elements. The result is reversed
once if the operator is the negated form of another, and once more if the rule is negated; what
is reversed is the statement about all values, not that about each of them.

The main result is `Rule.holds_compile_iff`. Its values are those of a walk along the segments of
the path, so it relies on neither accessors nor tests.
-/

namespace EntityQuery

/-- A value that is reached, of type `t`, passes a rule with a literal or with none. -/
inductive Rule.Passes (mode : StringComparison) (r : Rule) (t : ValueType) : Value → Prop where
  /-- Any without a literal: it is a list with an element. -/
  | hasElement {x : Value} {xs : List Value} : r.operator.positive = .any → r.literal = none →
      Passes mode r t (.list (x :: xs))
  /-- Equal without a literal: it is null. -/
  | isNull : r.operator.positive = .equal → r.literal = none → Passes mode r t .null
  /-- A value of a type that is no list passes the test itself. -/
  | itself {j : Json} {v : Value} : r.literal = some j → t.isCollection = false →
      ElementPasses mode t j r.operator.positive v → Passes mode r t v
  /-- A list passes through one of its elements. -/
  | someElement {u : ValueType} {j : Json} {xs : List Value} {x : Value} :
      r.literal = some j → t = .list u → x ∈ xs →
      ElementPasses mode u j r.operator.positive x → Passes mode r t (.list xs)

namespace PropertyTest

variable {mode : StringComparison} {r : Rule} {t : ValueType} {j : Json} {v : Value}

theorem isCollection_iff : t.isCollection = true ↔ t = .list t.leaf := by
  cases t <;> simp [ValueType.isCollection, ValueType.leaf]

theorem leaf_of_not_isCollection (h : t.isCollection = false) : t.leaf = t := by
  cases t <;> first | rfl | cases h

theorem passes_hasElement_iff :
    hasElement.passes mode v = true ↔ ∃ x xs, v = .list (x :: xs) := by
  cases v with
  | list items => cases items <;> simp [passes, Value.items?]
  | _ => simp [passes, Value.items?]

theorem passes_isNull_iff : isNull.passes mode v = true ↔ v = .null := by
  cases v <;> simp [passes, Value.isNull]

theorem passes_someElement_iff {test : ElementTest} :
    (someElement test).passes mode v = true ↔
      ∃ xs, v = .list xs ∧ ∃ x ∈ xs, test.passes mode x = true := by
  cases v <;> simp [passes, Value.items?]

theorem elementPasses_any_iff : ElementPasses mode t j .any v ↔ EqualsLiteral mode t j v := by
  refine ⟨fun h => ?_, .any⟩
  cases h with
  | any h => exact h
  | ordered _ _ hn => exact hn.elim

/-- With a literal, a list passes through an element and anything else by itself. -/
theorem rulePasses_literal_iff (hl : r.literal = some j) :
    r.Passes mode t v ↔
      if t.isCollection then
        ∃ xs, v = .list xs ∧ ∃ x ∈ xs, ElementPasses mode t.leaf j r.operator.positive x
      else ElementPasses mode t.leaf j r.operator.positive v := by
  split
  · next hc =>
    have ht := isCollection_iff.mp hc
    constructor
    · intro h
      cases h with
      | hasElement _ hn => simp [hl] at hn
      | isNull _ hn => simp [hl] at hn
      | itself _ hn _ => simp [hc] at hn
      | someElement hj hu hx hp =>
        obtain rfl := Option.some.inj (hl.symm.trans hj)
        rw [ht] at hu
        cases hu
        exact ⟨_, rfl, _, hx, hp⟩
    · rintro ⟨xs, rfl, x, hx, hp⟩
      exact .someElement hl ht hx hp
  · next hc =>
    rw [Bool.not_eq_true] at hc
    rw [leaf_of_not_isCollection hc]
    constructor
    · intro h
      cases h with
      | hasElement _ hn => simp [hl] at hn
      | isNull _ hn => simp [hl] at hn
      | itself hj _ hp =>
        obtain rfl := Option.some.inj (hl.symm.trans hj)
        exact hp
      | someElement _ hu _ _ => simp [hu, ValueType.isCollection] at hc
    · exact .itself hl hc

/-- An element test that has been lifted to a property. -/
theorem passes_lift_iff {test : ElementTest} (hl : r.literal = some j)
    (h : ∀ x, test.passes mode x = true ↔ ElementPasses mode t.leaf j r.operator.positive x) :
    (lift t test).passes mode v = true ↔ r.Passes mode t v := by
  rw [rulePasses_literal_iff hl, lift]
  split
  · simp only [passes_someElement_iff, h]
  · exact h v

/-- Without a literal, what passes is a list with an element, or null. -/
theorem rulePasses_absent_iff (hl : r.literal = none) :
    r.Passes mode t v ↔
      (r.operator.positive = .any ∧ ∃ x xs, v = .list (x :: xs)) ∨
        (r.operator.positive = .equal ∧ v = .null) := by
  constructor
  · intro h
    cases h with
    | hasElement hop _ => exact .inl ⟨hop, _, _, rfl⟩
    | isNull hop _ => exact .inr ⟨hop, rfl⟩
    | itself hj _ _ => simp [hl] at hj
    | someElement hj _ _ _ => simp [hl] at hj
  · rintro (⟨hop, x, xs, rfl⟩ | ⟨hop, rfl⟩)
    · exact .hasElement hop hl
    · exact .isNull hop hl

theorem passes_ofRule_absent_iff {test : PropertyTest} (hl : r.literal = none)
    (h : ofRule r t = .ok test) : test.passes mode v = true ↔ r.Passes mode t v := by
  rw [rulePasses_absent_iff hl]
  rcases of_ofRule_absent hl h with ⟨hop, rfl⟩ | ⟨hop, rfl⟩
  · rw [passes_hasElement_iff]
    simp [hop]
  · rw [passes_isNull_iff]
    simp [hop]

theorem passes_ofRule_literal_iff {test : PropertyTest} (hl : r.literal = some j)
    (h : ofRule r t = .ok test) : test.passes mode v = true ↔ r.Passes mode t v := by
  rw [ofRule_literal hl] at h
  split at h
  · next hop =>
    split at h
    · next hc =>
      obtain ⟨element, he, rfl⟩ := Outcome.map_eq_ok_iff.mp h
      have hx : ∀ x, element.passes mode x = true ↔
          ElementPasses mode t.leaf j r.operator.positive x := by
        intro x
        rw [ElementTest.passes_ofEqual_iff he, hop, elementPasses_any_iff]
      rw [← passes_lift_iff hl hx, lift, if_pos hc]
    · cases h
  · obtain ⟨element, he, rfl⟩ := Outcome.map_eq_ok_iff.mp h
    exact passes_lift_iff hl fun x => ElementTest.passes_ofLiteral_iff he

/-- **The test of a property** is passed by just the values that pass the rule. -/
theorem passes_ofRule_iff {test : PropertyTest} (h : ofRule r t = .ok test) :
    test.passes mode v = true ↔ r.Passes mode t v := by
  cases hl : r.literal with
  | none => exact passes_ofRule_absent_iff hl h
  | some j => exact passes_ofRule_literal_iff hl h

end PropertyTest

namespace Rule

variable {S : Schema} {kind : S.Kind} {o : FilterOptions} {r : Rule}

/-- **What a rule with a literal says**: up to the two reversals, that one of the values at the
end of its path passes. -/
theorem holds_compile_iff {c : PathCache S kind} {p : Predicate (S.Entity kind)} (hc : c.Sound)
    (hr : r.otherProperty = none) (ha : o.allows r.property = true)
    (h : ((r.compile o).run.run c).1 = .ok p) :
    ∃ segments left, Path.segments r.property = .ok segments ∧ S.Resolves kind segments left ∧
      ∀ e, (p.holds e ^^ (r.operator.isNegative ^^ r.negated)) = true ↔
        ∃ v ∈ S.walk kind segments e, r.Passes o.comparison left.type v := by
  rw [(transparent_compile o r).result c hc] at h
  have hal : o.allowsRule r = true := by simp [FilterOptions.allowsRule, ha, hr]
  obtain ⟨left, test, hl, ht, hp⟩ := exists_test_of_compileAlone hal hr h
  obtain ⟨segments, hs, hw⟩ := exists_segments hl
  refine ⟨segments, left, hs, hw, fun e => ?_⟩
  have reversed : (p.holds e ^^ (r.operator.isNegative ^^ r.negated)) =
      (Condition.tests left.accessor test).holds o.comparison e := by
    rw [hp e]
    cases r.negated <;> cases r.operator.isNegative <;> simp
  rw [reversed, Condition.holds, List.any_eq_true, hw.reached]
  simp only [PropertyTest.passes_ofRule_iff ht]

/-- A list behind a collection, the negated form of an operator, and case ignored: one tag of one
book is one of the list, and so the rule does not hold. -/
theorem holds_compile_notIn :
    let c : PathCache Shelf.schema .author := PathCache.empty
    let r : Rule := ⟨"books[].tags", .notIn, some (.array [.string "Sea", .string "War"]), none, false⟩
    let a : Shelf.schema.Entity .author := Shelf.Author.mk "Conrad" 66 none
      (some [⟨"Nostromo", none⟩, ⟨"Typhoon", some ["storm", "SEA"]⟩])
    ∃ p, ((r.compile ⟨none, .ignoreCase⟩).run.run c).1 = .ok p ∧ p.holds a = false ∧
      ∃ segments left, Path.segments r.property = .ok segments ∧
        Shelf.schema.Resolves .author segments left ∧
        ∃ v ∈ Shelf.schema.walk .author segments a, r.Passes .ignoreCase left.type v := by
  intro c r a
  have hrun : ((r.compile ⟨none, .ignoreCase⟩).run.run c).1.toOption.map (fun p => p.holds a) =
      some false := by decide +kernel
  obtain ⟨p, hp, hh⟩ := Outcome.exists_of_toOption hrun
  obtain ⟨segments, left, hs, hw, h⟩ := holds_compile_iff PathCache.sound_empty rfl rfl hp
  exact ⟨p, hp, hh, segments, left, hs, hw, (h a).mp (by rw [hh]; rfl)⟩

end Rule

end EntityQuery
