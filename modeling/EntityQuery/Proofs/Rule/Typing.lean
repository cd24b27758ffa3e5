import EntityQuery.Proofs.Condition.Typing
import EntityQuery.Proofs.Group.Observation
import EntityQuery.Proofs.Path.Typing
import EntityQuery.Proofs.Rule.Semantics
import EntityQuery.Proofs.Shelf

/-!
# Rules compare compatible values

A rule that compiles is a typed condition: the type that its path resolves to describes the values
that are read, the literal becomes a value of just this type, and whatever operator is not defined
for it has been refused. So a rule never compares values of different categories, which would make
it false without a word.

The main result is `Rule.compatible_of_compile`.
-/

namespace EntityQuery

open Outcome

namespace ElementTest

variable {r : Rule} {op : Operator} {t : ValueType} {j : Json} {test : ElementTest}

/-! ### Tests of literals -/

theorem typed_ofEqual (h : ofEqual t j = .ok test) : test.Typed t := by
  obtain ⟨v, hv, rfl⟩ := map_eq_ok_iff.mp h
  exact .equals (Literal.constant_convert hv).hasType

theorem typed_ofMembers (h : ofMembers t j = .ok test) : test.Typed t := by
  obtain ⟨members, hm, rfl⟩ := map_eq_ok_iff.mp h
  obtain ⟨v, hv, rfl⟩ := map_eq_ok_iff.mp hm
  refine .isOneOf fun m mem => ?_
  cases v with
  | list items => exact (Literal.constant_of_mem hv m mem).hasType
  | _ => cases mem

theorem typed_ofText {pattern : String → Pattern} (h : ofText r t j pattern = .ok test) :
    test.Typed t := by
  unfold ofText at h
  split at h
  · next ht =>
    obtain ⟨s, -, rfl⟩ := map_eq_ok_iff.mp h
    exact .text _ ht
  · cases h

theorem typed_ofBounds (ht : t.isOrdered = true)
    (h : (members t j).bind (ofBounds t j) = .ok test) : test.Typed t := by
  obtain ⟨least, most, hc, ⟨hl, hm⟩, rfl⟩ := exists_bounds h
  have items := Literal.constant_of_mem hc
  exact .within ⟨items least List.mem_cons_self, ht, hl⟩
    ⟨items most (List.mem_cons_of_mem _ List.mem_cons_self), ht, hm⟩

theorem typed_relates {relation : Relation} (hj : j.isNull = false) (ht : t.isOrdered = true)
    (h : (Literal.convert t j).map (ElementTest.relates relation) = .ok test) : test.Typed t := by
  obtain ⟨v, hv, rfl⟩ := map_eq_ok_iff.mp h
  refine .relates relation ⟨Literal.constant_convert hv, ht, ?_⟩
  rintro rfl
  rw [Literal.isNull_of_convert hv] at hj
  cases hj

/-- The test of a literal is one of values of its type. -/
theorem typed_ofLiteral (hj : j.isNull = false) (h : ofLiteral r op t j = .ok test) :
    test.Typed t := by
  cases op with
  | equal =>
    rw [ofLiteral] at h
    split at h
    · exact typed_ofMembers h
    · exact typed_ofEqual h
  | contains =>
    rw [ofLiteral] at h
    split at h
    · exact typed_ofText h
    · exact typed_ofEqual h
  | isIn => exact typed_ofMembers h
  | like | startsWith | endsWith => exact typed_ofText h
  | between =>
    rw [ofLiteral] at h
    split at h
    · next ht => exact typed_ofBounds ht h
    · cases h
  | greaterThan | greaterThanOrEqual | lessThan | lessThanOrEqual =>
    simp only [ofLiteral, Operator.relation?] at h
    split at h
    · next ht => exact typed_relates hj ht h
    · cases h
  | _ => cases h

end ElementTest

theorem Rule.isNull_literal {r : Rule} {j : Json} (h : r.literal = some j) : j.isNull = false := by
  simpa using (Option.filter_eq_some_iff.mp h).2

namespace PropertyTest

variable {r : Rule} {t : ValueType} {test : PropertyTest}

theorem typed_lift {element : ElementTest} (h : element.Typed t.leaf) :
    (lift t element).Typed t := by
  unfold lift
  split
  · next ht =>
    rw [isCollection_iff.mp ht]
    exact .someElement h
  · next ht =>
    rw [Bool.not_eq_true] at ht
    exact .itself (leaf_of_not_isCollection ht ▸ h)

/-- The test of a rule is one of properties of its type. -/
theorem typed_ofRule (h : ofRule r t = .ok test) : test.Typed t := by
  -- Without a literal nothing is compared: the test is of null or of an element being there.
  cases hl : r.literal with
  | none =>
    rcases of_ofRule_absent hl h with ⟨-, rfl⟩ | ⟨-, rfl⟩
    · exact .hasElement t
    · exact .isNull t
  | some j =>
    rw [ofRule_literal hl] at h
    split at h
    · split at h
      · next ht =>
        obtain ⟨element, he, rfl⟩ := map_eq_ok_iff.mp h
        have typed := typed_lift (ElementTest.typed_ofEqual he)
        rwa [lift, if_pos ht] at typed
      · cases h
    · obtain ⟨element, he, rfl⟩ := map_eq_ok_iff.mp h
      exact typed_lift (ElementTest.typed_ofLiteral (Rule.isNull_literal hl) he)

end PropertyTest

variable {S : Schema} {kind : S.Kind}

/-! ### Rules -/

namespace Rule

variable {o : FilterOptions} {r : Rule} {c : Condition (S.Entity kind)}

/-- A property that is a single value reads values of its type. -/
theorem hasType_read_of_resolve (hS : S.WellTyped) {path : String} {side : Resolved (S.Entity kind)}
    (h : S.resolve kind path = .ok side) (single : (side.isCollection || side.isQuantified) = false)
    (e : S.Entity kind) : (side.accessor.read e).HasType side.type := by
  obtain ⟨segments, -, hr⟩ := exists_segments h
  exact Accessor.hasType_read (Bool.or_eq_false_iff.mp single).2 (hr.hasType hS e)

/-- The condition of a rule that compiles is typed. -/
theorem typed_condition (hS : S.WellTyped)
    (h : (r.condition : Resolving S kind _).alone = .ok c) : c.Typed := by
  cases ho : r.otherProperty with
  | none =>
    rw [alone_condition_literal ho, bind_eq_ok_iff] at h
    obtain ⟨left, hl, hc⟩ := h
    obtain ⟨test, ht, rfl⟩ := map_eq_ok_iff.mp hc
    obtain ⟨segments, -, hr⟩ := exists_segments hl
    exact .tests (hr.hasType hS) (PropertyTest.typed_ofRule ht)
  | some other =>
    rw [alone_condition_property ho, bind_eq_ok_iff] at h
    obtain ⟨left, hl, h⟩ := h
    obtain ⟨right, hr, hc⟩ := bind_eq_ok_iff.mp h
    obtain ⟨-, singleLeft, singleRight, meets, hc⟩ := Condition.ofProperties_eq_ok_iff.mp hc
    have readLeft := hasType_read_of_resolve hS hl singleLeft
    have readRight := hasType_read_of_resolve hS hr singleRight
    split at hc
    · exact hc ▸ .equates meets readLeft readRight
    · next relation _ => exact hc.2 ▸ .relates relation meets hc.1 readLeft readRight

/-- The bound that a rule with a literal compares with is neither null nor a not-a-number. -/
theorem not_unordered_of_condition (hS : S.WellTyped) (ho : r.otherProperty = none)
    (h : (r.condition : Resolving S kind _).alone = .ok c) {e : S.Entity kind} {v w : Value}
    (hq : .order v w ∈ c.comparisons e) : ¬ w.Unordered := by
  have typed := typed_condition hS h
  rw [alone_condition_literal ho, bind_eq_ok_iff] at h
  obtain ⟨left, -, hc⟩ := h
  obtain ⟨test, -, rfl⟩ := map_eq_ok_iff.mp hc
  exact typed.not_unordered hq

/-- On an entity, the condition of a rule compares compatible values only. -/
structure Compatible (mode : StringComparison) (r : Rule) {α : Type} (c : Condition α) (e : α) :
    Prop where
  /-- The condition holds or not by the answers to its comparisons, and by nothing else that is
  compared. -/
  complete : ∀ a : Answers, (∀ q ∈ c.comparisons e, a.Agree (.under mode) q) →
    c.holdsBy a e = c.holds mode e
  /-- The values of each comparison may be compared in this way. -/
  compatible : ∀ q ∈ c.comparisons e, q.Compatible
  /-- Where an order is missing, one of the values is null or a not-a-number. -/
  unordered : ∀ v w, .order v w ∈ c.comparisons e → v.compareBy? mode w = none →
    v.Unordered ∨ w.Unordered
  /-- The bounds that come from a literal are neither. -/
  bound : r.otherProperty = none → ∀ v w, .order v w ∈ c.comparisons e → ¬ w.Unordered

theorem compatible_of_condition (hS : S.WellTyped) (mode : StringComparison)
    (h : (r.condition : Resolving S kind _).alone = .ok c) (e : S.Entity kind) :
    Compatible mode r c e := by
  have typed := (typed_condition hS h).comparisons e
  refine ⟨fun a agree => ?_, fun q hq => (typed q hq).compatible, fun v w hq missing => ?_,
    fun ho v w hq => not_unordered_of_condition hS ho h hq⟩
  · rw [Condition.holdsBy_congr agree, Condition.holdsBy_under]
  · exact (typed _ hq).unordered missing

/-- **A rule that compiles compares compatible values only**, unless it is excluded and does not
compare at all: its predicate is that of a condition, up to the two reversals, and on every entity
the comparisons of this condition are of values of one category, or of a null. An order between two
values is missing only where one of them is null or a not-a-number, and a literal is neither where
it is a bound. -/
theorem compatible_of_compile (hS : S.WellTyped) {cache : PathCache S kind} (sound : cache.Sound)
    {p : Predicate (S.Entity kind)} (h : ((r.compile o).run.run cache).1 = .ok p) :
    (o.Excludes r ∧ p = .constant true) ∨
      ∃ c : Condition (S.Entity kind), (r.condition : Resolving S kind _).alone = .ok c ∧
        p = ((c.predicate o.comparison).negateIf r.operator.isNegative).negateIf r.negated ∧
        ∀ e, Compatible o.comparison r c e := by
  rw [(transparent_compile o r).result cache sound] at h
  by_cases excluded : o.Excludes r
  · rw [← compileAlone, compileAlone_of_excludes excluded] at h
    exact .inl ⟨excluded, (Except.ok.inj h).symm⟩
  · rw [← compileAlone, compileAlone_of_allows (FilterOptions.allowsRule_eq_true_iff.mpr excluded)]
      at h
    obtain ⟨c, hc, rfl⟩ := map_eq_ok_iff.mp h
    exact .inr ⟨c, hc, rfl, compatible_of_condition hS o.comparison hc⟩

/-- The titles of all books against two bounds, which are the pieces of a text. -/
theorem compatible_titles :
    let cache : PathCache Shelf.schema .author := PathCache.empty
    let o : FilterOptions := ⟨some ["books[].title"], .ignoreCase⟩
    let r : Rule := ⟨"books[].title", .notBetween, some (.string "L, P"), some "age", false⟩
    let conrad : Shelf.schema.Entity .author := Shelf.Author.mk "Conrad" 66 none
      (some [⟨"nostromo", none⟩, ⟨"Typhoon", none⟩])
    Shelf.schema.WellTyped ∧ cache.Sound ∧
      ∃ p, ((r.compile o).run.run cache).1 = .ok p ∧ p.holds conrad = false ∧
        ((o.Excludes r ∧ p = .constant true) ∨
          ∃ c : Condition (Shelf.schema.Entity .author),
            (r.condition : Resolving Shelf.schema .author _).alone = .ok c ∧
            p = ((c.predicate o.comparison).negateIf r.operator.isNegative).negateIf r.negated ∧
            ∀ e, Compatible o.comparison r c e) := by
  intro cache o r conrad
  have run : ((r.compile o).run.run cache).1.toOption.map (fun p => p.holds conrad) =
      some false := by decide +kernel
  obtain ⟨p, hp, hh⟩ := exists_of_toOption run
  exact ⟨Shelf.wellTyped, PathCache.sound_empty, p, hp, hh,
    compatible_of_compile Shelf.wellTyped PathCache.sound_empty hp⟩

end Rule

end EntityQuery
