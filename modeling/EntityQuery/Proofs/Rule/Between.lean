import EntityQuery.Proofs.Rule.Literal
import EntityQuery.Proofs.Shelf

/-!
# Bounds

Between asks for two bounds at once. It compiles just if each bound does on its own, as the bound
of a rule with one of the orders, though the two are converted as the items of one list. A property
that is a single value lies within two bounds if it respects each of them. Of a list, or behind a
collection, one and the same element has to respect both, so there Between says more than the two
orders do, each of which may be met by another element.

The main result is `Rule.between_bounds`.
-/

namespace EntityQuery

open Outcome

variable {p : String} {j : Json} {t : ValueType} {v : Value}

/-- A literal becomes null just if it is null. -/
theorem Literal.isNull_convert (h : convert t j = .ok v) : v.isNull = j.isNull := by
  cases hj : j.isNull with
  | true =>
    rw [convert_of_isNull hj] at h
    exact Except.ok.inj h ▸ rfl
  | false =>
    cases v with
    | null => rw [isNull_of_convert h] at hj; cases hj
    | _ => rfl

/-! ### Tests of two bounds -/

namespace ElementTest

theorem ofBounds_eq_ok_iff {vs : List Value} {test : ElementTest} :
    ofBounds t j vs = .ok test ↔ ∃ least most, vs = [least, most] ∧ least.isNull = false ∧
      most.isNull = false ∧ test = .within least most := by
  constructor
  · intro h
    unfold ofBounds at h
    split at h
    · next least most =>
      split at h
      · cases h
      · next present =>
        rw [Bool.or_eq_true, not_or, Bool.not_eq_true, Bool.not_eq_true] at present
        exact ⟨least, most, rfl, present.1, present.2, (Except.ok.inj h).symm⟩
    · cases h
  · rintro ⟨least, most, rfl, hl, hm, rfl⟩
    rw [ofBounds, hl, hm]
    rfl

/-- Two bounds are the two items of an array, each converted on its own. -/
theorem bounds_array_eq_ok_iff {js : List Json} {test : ElementTest} :
    (members t (.array js)).bind (ofBounds t (.array js)) = .ok test ↔
      ∃ a b least most, js = [a, b] ∧ a.isNull = false ∧ b.isNull = false ∧
        Literal.convert t a = .ok least ∧ Literal.convert t b = .ok most ∧
        test = .within least most := by
  rw [PropertyTest.members_array]
  change (js.mapM (Literal.convert t) >>= ofBounds t (.array js)) = _ ↔ _
  rw [bind_eq_ok_iff]
  constructor
  · rintro ⟨vs, converted, h⟩
    obtain ⟨least, most, rfl, hl, hm, rfl⟩ := ofBounds_eq_ok_iff.mp h
    obtain ⟨a, _, ha, second, rfl⟩ := List.forall₂_cons_right_iff.mp (mapM_eq_ok_iff.mp converted)
    obtain ⟨b, _, hb, none, rfl⟩ := List.forall₂_cons_right_iff.mp second
    obtain rfl := List.forall₂_nil_right_iff.mp none
    exact ⟨a, b, least, most, rfl, Literal.isNull_convert ha ▸ hl, Literal.isNull_convert hb ▸ hm,
      ha, hb, rfl⟩
  · rintro ⟨a, b, least, most, rfl, hl, hm, ha, hb, rfl⟩
    refine ⟨[least, most], mapM_eq_ok_iff.mpr (.cons ha (.cons hb .nil)),
      ofBounds_eq_ok_iff.mpr ⟨least, most, rfl, ?_, ?_, rfl⟩⟩
    · rw [Literal.isNull_convert ha, hl]
    · rw [Literal.isNull_convert hb, hm]

end ElementTest

/-! ### Rules -/

namespace Rule

variable {S : Schema} {kind : S.Kind} {o : FilterOptions}

/-- A rule with bounds compiles if there are two of them, and each fits a type that has an order. -/
theorem compileAlone_between_eq_ok_iff (ho : o.allows p = true) {js : List Json}
    {made : Predicate (S.Entity kind)} :
    (withLiteral p .between (.array js)).compileAlone S kind o = .ok made ↔
      ∃ left a b least most, S.resolve kind p = .ok left ∧ left.type.leaf.isOrdered = true ∧
        js = [a, b] ∧ a.isNull = false ∧ b.isNull = false ∧
        Literal.convert left.type.leaf a = .ok least ∧
        Literal.convert left.type.leaf b = .ok most ∧
        made = (Condition.tests left.accessor
          (PropertyTest.lift left.type (.within least most))).predicate o.comparison := by
  have test (t : ValueType) : PropertyTest.ofRule (withLiteral p .between (.array js)) t =
      (if t.leaf.isOrdered then
        (ElementTest.members t.leaf (.array js)).bind (ElementTest.ofBounds t.leaf (.array js))
      else .error ((withLiteral p .between (.array js)).unsupported p t.leaf)).map
        (PropertyTest.lift t) := PropertyTest.ofRule_withLiteral rfl nofun
  rw [compileAlone_withLiteral ho, bind_eq_ok_iff]
  constructor
  · rintro ⟨left, hl, h⟩
    obtain ⟨made, ht, rfl⟩ := map_eq_ok_iff.mp h
    rw [test] at ht
    obtain ⟨element, he, rfl⟩ := map_eq_ok_iff.mp ht
    split at he
    · next ordered =>
      obtain ⟨a, b, least, most, hjs, ha, hb, hl', hm, rfl⟩ :=
        ElementTest.bounds_array_eq_ok_iff.mp he
      exact ⟨left, a, b, least, most, hl, ordered, hjs, ha, hb, hl', hm, rfl⟩
    · cases he
  · rintro ⟨left, a, b, least, most, hl, ordered, hjs, ha, hb, hl', hm, rfl⟩
    refine ⟨left, hl, map_eq_ok_iff.mpr ⟨_, ?_, rfl⟩⟩
    rw [test, if_pos ordered, map_eq_ok_iff]
    exact ⟨_, ElementTest.bounds_array_eq_ok_iff.mpr
      ⟨a, b, least, most, hjs, ha, hb, hl', hm, rfl⟩, rfl⟩

/-- A rule with two bounds compiles just if each of the bounds does. -/
theorem exists_between_iff (ho : o.allows p = true) (a b : Json) :
    (∃ within, (between p a b).compileAlone S kind o = .ok within) ↔
      (∃ least, (withLiteral p .greaterThanOrEqual a).compileAlone S kind o = .ok least) ∧
        ∃ most, (withLiteral p .lessThanOrEqual b).compileAlone S kind o = .ok most := by
  constructor
  · rintro ⟨within, h⟩
    obtain ⟨left, _, _, v, w, hl, ordered, eq, ha, hb, hv, hw, -⟩ :=
      (compileAlone_between_eq_ok_iff ho).mp h
    cases eq
    exact ⟨⟨_, (compileAlone_relation_eq_ok_iff ho rfl).mpr ⟨left, v, hl, ordered, ha, hv, rfl⟩⟩,
      _, (compileAlone_relation_eq_ok_iff ho rfl).mpr ⟨left, w, hl, ordered, hb, hw, rfl⟩⟩
  · rintro ⟨⟨least, hleast⟩, most, hmost⟩
    obtain ⟨left, v, hl, ordered, ha, hv, -⟩ := (compileAlone_relation_eq_ok_iff ho rfl).mp hleast
    obtain ⟨left', w, hl', -, hb, hw, -⟩ := (compileAlone_relation_eq_ok_iff ho rfl).mp hmost
    obtain rfl := Except.ok.inj (hl.symm.trans hl')
    exact ⟨_, (compileAlone_between_eq_ok_iff ho).mpr
      ⟨left, a, b, v, w, hl, ordered, rfl, ha, hb, hv, hw, rfl⟩⟩

/-- The three rules test one accessor, with the same two values. -/
theorem holds_between (ho : o.allows p = true) {a b : Json}
    {within least most : Predicate (S.Entity kind)}
    (h : (between p a b).compileAlone S kind o = .ok within)
    (hleast : (withLiteral p .greaterThanOrEqual a).compileAlone S kind o = .ok least)
    (hmost : (withLiteral p .lessThanOrEqual b).compileAlone S kind o = .ok most)
    (e : S.Entity kind) :
    (within.holds e = true → least.holds e = true ∧ most.holds e = true) ∧
      ∀ left, S.resolve kind p = .ok left → left.isCollection = false →
        left.isQuantified = false → within.holds e = (least.holds e && most.holds e) := by
  obtain ⟨left, _, _, v, w, hl, -, eq, -, -, hv, hw, rfl⟩ :=
    (compileAlone_between_eq_ok_iff ho).mp h
  cases eq
  obtain ⟨left₁, v₁, hl₁, -, -, hv₁, rfl⟩ := (compileAlone_relation_eq_ok_iff ho rfl).mp hleast
  obtain ⟨left₂, w₂, hl₂, -, -, hw₂, rfl⟩ := (compileAlone_relation_eq_ok_iff ho rfl).mp hmost
  obtain rfl := Except.ok.inj (hl.symm.trans hl₁)
  obtain rfl := Except.ok.inj (hl.symm.trans hl₂)
  obtain rfl := Except.ok.inj (hv.symm.trans hv₁)
  obtain rfl := Except.ok.inj (hw.symm.trans hw₂)
  have bounds (x : Value) (passes : (ElementTest.within v w).passes o.comparison x = true) :
      (ElementTest.relates .greaterOrEqual v).passes o.comparison x = true ∧
        (ElementTest.relates .lessOrEqual w).passes o.comparison x = true :=
    Bool.and_eq_true_iff.mp passes
  refine ⟨fun both => ⟨?_, ?_⟩, fun left' hl' hc hq => ?_⟩
  · exact Condition.holds_tests_mono (fun v => PropertyTest.passes_lift_mono fun x passes =>
      (bounds x passes).1) both
  · exact Condition.holds_tests_mono (fun v => PropertyTest.passes_lift_mono fun x passes =>
      (bounds x passes).2) both
  · obtain rfl := Except.ok.inj (hl.symm.trans hl')
    simp only [Condition.predicate, Condition.holds_lift_of_single hc hq, ElementTest.passes]

/-- **Between is both bounds.** A rule with two bounds compiles just if each of them does with the
order that it stands for. Where it holds both orders do; and if its property is a single value, it
holds just where both do. An array of fewer or more than two items does not compile. -/
theorem between_bounds (ho : o.allows p = true) (a b : Json) :
    ((∃ within, (between p a b).compileAlone S kind o = .ok within) ↔
      (∃ least, (withLiteral p .greaterThanOrEqual a).compileAlone S kind o = .ok least) ∧
        ∃ most, (withLiteral p .lessThanOrEqual b).compileAlone S kind o = .ok most) ∧
    (∀ within least most, (between p a b).compileAlone S kind o = .ok within →
      (withLiteral p .greaterThanOrEqual a).compileAlone S kind o = .ok least →
      (withLiteral p .lessThanOrEqual b).compileAlone S kind o = .ok most →
      ∀ e, (within.holds e = true → least.holds e = true ∧ most.holds e = true) ∧
        ∀ left, S.resolve kind p = .ok left → left.isCollection = false →
          left.isQuantified = false → within.holds e = (least.holds e && most.holds e)) ∧
    ∀ js : List Json, js.length ≠ 2 →
      ∃ err, (withLiteral p .between (.array js)).compileAlone S kind o = .error err := by
  refine ⟨exists_between_iff ho a b, fun _ _ _ h hleast hmost => holds_between ho h hleast hmost,
    fun js length => ?_⟩
  cases h : (withLiteral p .between (.array js)).compileAlone S kind o with
  | error err => exact ⟨err, rfl⟩
  | ok made =>
    obtain ⟨left, a, b, least, most, -, -, rfl, -⟩ := (compileAlone_between_eq_ok_iff ho).mp h
    exact absurd rfl length

/-- Where case is ignored, the names from b to D are those that are neither before b nor after D. -/
theorem between_bounds_names :
    let o : FilterOptions := ⟨none, .ignoreCase⟩
    let name : Resolved (Shelf.schema.Entity .author) :=
      ⟨.string, .member fun a : Shelf.Author => .string a.name⟩
    let conrad : Shelf.schema.Entity .author := Shelf.Author.mk "Conrad" 66 none none
    let woolf : Shelf.schema.Entity .author := Shelf.Author.mk "woolf" 59 none none
    o.allows "name" = true ∧ Shelf.schema.resolve .author "name" = .ok name ∧
      name.isCollection = false ∧ name.isQuantified = false ∧
      ∃ within least most,
        (between "name" (.string "b") (.string "D")).compileAlone Shelf.schema .author o =
          .ok within ∧
        (withLiteral "name" .greaterThanOrEqual (.string "b")).compileAlone Shelf.schema .author o =
          .ok least ∧
        (withLiteral "name" .lessThanOrEqual (.string "D")).compileAlone Shelf.schema .author o =
          .ok most ∧
        within.holds conrad = true ∧ least.holds conrad = true ∧ most.holds conrad = true ∧
        within.holds woolf = (least.holds woolf && most.holds woolf) ∧
        within.holds woolf = false ∧ [Json.string "b"].length ≠ 2 ∧
        ∃ err, (withLiteral "name" .between (.array [.string "b"])).compileAlone
          Shelf.schema .author o = .error err := by
  intro o name conrad woolf
  have hn : Shelf.schema.resolve .author "name" = .ok name :=
    Schema.resolve_eq_ok_iff.mpr ⟨[⟨"name", false⟩], by decide +kernel, .value rfl⟩
  have run : ((between "name" (.string "b") (.string "D")).compileAlone
      Shelf.schema .author o).toOption.map (fun within => (within.holds conrad, within.holds woolf))
        = some (true, false) := by
    decide +kernel
  obtain ⟨within, hw, held⟩ := exists_of_toOption run
  rw [Prod.mk.injEq] at held
  obtain ⟨compile, agree, length⟩ :=
    @between_bounds "name" Shelf.schema .author o rfl (.string "b") (.string "D")
  obtain ⟨⟨least, hl⟩, most, hm⟩ := compile.mp ⟨within, hw⟩
  have both := agree within least most hw hl hm
  obtain ⟨aboveLeast, belowMost⟩ := (both conrad).1 held.1
  exact ⟨rfl, hn, rfl, rfl, within, least, most, hw, hl, hm, held.1, aboveLeast, belowMost,
    (both woolf).2 name hn rfl rfl, held.2, by decide, length _ (by decide)⟩

/-- Of several books one may come late and another early, with none in between. -/
example :
    let shelf := Shelf.Author.mk "Conrad" 66 none
      (some [⟨"Almayer's Folly", none⟩, ⟨"Victory", none⟩])
    let title (op : Operator) (bounds : Json) :=
      ((withLiteral "books[].title" op bounds).compileAlone Shelf.schema .author
        .default).toOption.map fun made => made.holds shelf
    title .greaterThanOrEqual (.string "L") = some true ∧
      title .lessThanOrEqual (.string "N") = some true ∧
      title .between (.array [.string "L", .string "N"]) = some false := by
  decide +kernel

end Rule

end EntityQuery
