import EntityQuery.Proofs.Rule.Literal
import EntityQuery.Proofs.Shelf

/-!
# One of several values

To be one of several values is to be equal to one of them. This is so however a property is
reached: of the values behind a path one has to pass, of a list one element, and of the wanted
values one, and these three searches may be made in any order. So In compiles just if Equal does
with each of the values, and its error is that of the first one that does not fit; NotIn, which
reverses the whole, asks for NotEqual with all of them.

The main result is `Rule.isIn_eq_any_equal`.
-/

namespace EntityQuery

open Outcome

variable {t : ValueType}

/-! ### Searching for one of several -/

/-- Two searches may be made in either order. -/
theorem any_any_comm {α β : Type} (xs : List α) (ys : List β) (r : α → β → Bool) :
    (xs.any fun x => ys.any (r x)) = ys.any fun y => xs.any fun x => r x y := by
  rw [Bool.eq_iff_iff]
  simp only [List.any_eq_true]
  constructor
  · rintro ⟨x, hx, y, hy, related⟩
    exact ⟨y, hy, x, hx, related⟩
  · rintro ⟨y, hy, x, hx, related⟩
    exact ⟨x, hx, y, hy, related⟩

/-- A property is one of several values if it equals one, a list through one of its elements. -/
theorem PropertyTest.passes_isOneOf (mode : StringComparison) (ws : List Value) (v : Value) :
    (lift t (.isOneOf ws)).passes mode v =
      ws.any fun w => (lift t (.equals w)).passes mode v := by
  unfold lift
  split
  · simp only [passes, ElementTest.passes]
    cases v.items? with
    | none => exact (List.any_eq_false.mpr fun _ _ => Bool.false_ne_true).symm
    | some items => exact any_any_comm items ws fun x w => x.equalBy mode w
  · rfl

/-! ### Rules -/

/-- The predicate of a property that equals a value. -/
def Resolved.equals {α : Type} (o : FilterOptions) (left : Resolved α) (w : Value) : Predicate α :=
  (Condition.tests left.accessor (PropertyTest.lift left.type (.equals w))).predicate o.comparison

/-- A property is one of several values, on an entity, if it equals one of them there. -/
theorem Resolved.isOneOf_eq_any {α : Type} (o : FilterOptions) (left : Resolved α)
    (ws : List Value) :
    (Condition.tests left.accessor (PropertyTest.lift left.type (.isOneOf ws))).predicate
      o.comparison = .any (ws.map (left.equals o)) := by
  refine Predicate.eq_of_holds fun e => ?_
  rw [Predicate.holds_any, List.any_map]
  simp only [Condition.predicate, Condition.holds, PropertyTest.passes_isOneOf]
  exact any_any_comm _ ws _

namespace Rule

variable {S : Schema} {kind : S.Kind} {o : FilterOptions} {p : String} {op : Operator} {j : Json}

theorem compileAlone_equal (ho : o.allows p = true) (hop : op.positive = .equal)
    (hn : j.isNull = false) (ha : j.isArray = false) :
    (withLiteral p op j).compileAlone S kind o = S.resolve kind p >>= fun left =>
      (Literal.convert left.type.leaf j).map fun w =>
        (left.equals o w).negateIf op.isNegative :=
  compileAlone_of_ofRule ho fun _ => PropertyTest.ofRule_equal hop hn ha

theorem compileAlone_array (ho : o.allows p = true)
    (hop : op.positive = .equal ∨ op.positive = .isIn) (js : List Json) :
    (withLiteral p op (.array js)).compileAlone S kind o = S.resolve kind p >>= fun left =>
      (js.mapM (Literal.convert left.type.leaf)).map fun ws =>
        (Predicate.any (ws.map (left.equals o))).negateIf op.isNegative := by
  rw [compileAlone_of_ofRule ho fun _ => PropertyTest.ofRule_array hop js]
  simp only [Resolved.isOneOf_eq_any]

/-- The rules that ask for equality with each of several values, compiled one after the other. -/
theorem mapM_compileAlone_equal (ho : o.allows p = true) (hop : op.positive = .equal)
    {js : List Json} (some : js ≠ []) (single : ∀ j ∈ js, j.isNull = false ∧ j.isArray = false) :
    (js.mapM fun j => (withLiteral p op j).compileAlone S kind o) =
      S.resolve kind p >>= fun left =>
        (js.mapM (Literal.convert left.type.leaf)).map
          (List.map fun w => (left.equals o w).negateIf op.isNegative) := by
  cases hl : S.resolve kind p with
  | error err =>
    obtain ⟨j, rest, rfl⟩ := List.exists_cons_of_ne_nil some
    obtain ⟨hn, ha⟩ := single j List.mem_cons_self
    rw [List.mapM_cons, compileAlone_equal ho hop hn ha, hl]
    rfl
  | ok left =>
    refine mapM_eq_map fun j hj => ?_
    rw [compileAlone_equal ho hop (single j hj).1 (single j hj).2, hl]
    rfl

/-- **In is Equal with one of the values.** A rule with some values, none of them null or an array,
compiles just if Equal does with each of them, and to the predicate that one of these holds; the
error is that of the first that does not compile. Likewise NotIn is NotEqual with all of the
values. Equal with an array is In, and NotEqual is NotIn. A property is never one of no values. -/
theorem isIn_eq_any_equal (ho : o.allows p = true) :
    (∀ js : List Json, js ≠ [] → (∀ j ∈ js, j.isNull = false ∧ j.isArray = false) →
      (isIn p js).compileAlone S kind o =
          (js.mapM fun j => (withLiteral p .equal j).compileAlone S kind o).map Predicate.any ∧
        (withLiteral p .notIn (.array js)).compileAlone S kind o =
          (js.mapM fun j => (withLiteral p .notEqual j).compileAlone S kind o).map
            Predicate.all) ∧
    (∀ js : List Json,
      (withLiteral p .equal (.array js)).compileAlone S kind o =
          (isIn p js).compileAlone S kind o ∧
        (withLiteral p .notEqual (.array js)).compileAlone S kind o =
          (withLiteral p .notIn (.array js)).compileAlone S kind o) ∧
    ∀ left, S.resolve kind p = .ok left →
      (isIn p []).compileAlone S kind o = .ok (.constant false) := by
  refine ⟨fun js some single => ⟨?_, ?_⟩, fun js => ⟨?_, ?_⟩, fun left hl => ?_⟩
  · rw [isIn, compileAlone_array ho (.inr rfl), mapM_compileAlone_equal ho rfl some single,
      map_bind_map]
    rfl
  · rw [compileAlone_array ho (.inr rfl), mapM_compileAlone_equal ho rfl some single, map_bind_map]
    have flipped (left : Resolved (S.Entity kind)) (ws : List Value) :
        (Predicate.any (ws.map (left.equals o))).not =
          .all (ws.map fun w => (left.equals o w).not) := by
      rw [Predicate.not_any, List.map_map]
      rfl
    have notIn : Operator.notIn.isNegative = true := rfl
    have notEqual : Operator.notEqual.isNegative = true := rfl
    simp only [notIn, notEqual, Predicate.negateIf, if_true, flipped]
  · rw [isIn, compileAlone_array ho (.inl rfl), compileAlone_array ho (.inr rfl)]
    rfl
  · rw [compileAlone_array ho (.inl rfl), compileAlone_array ho (.inr rfl)]
    rfl
  · rw [isIn, compileAlone_array ho (.inr rfl), hl]
    rfl

/-- The tags of all books of an author. One that is wanted is there, though in another case. -/
theorem isIn_eq_any_equal_tags :
    let o : FilterOptions := ⟨none, .ignoreCase⟩
    let wanted : List Json := [.string "War", .string "SEA"]
    let path := "books[].tags"
    let conrad : Shelf.schema.Entity .author := Shelf.Author.mk "Conrad" 66 none
      (some [⟨"Victory", none⟩, ⟨"Typhoon", some ["Storm", "Sea"]⟩])
    o.allows path = true ∧ wanted ≠ [] ∧
      (∀ j ∈ wanted, j.isNull = false ∧ j.isArray = false) ∧
      ∃ war sea,
        (withLiteral path .equal (.string "War")).compileAlone Shelf.schema .author o = .ok war ∧
        (withLiteral path .equal (.string "SEA")).compileAlone Shelf.schema .author o = .ok sea ∧
        (isIn path wanted).compileAlone Shelf.schema .author o = .ok (.any [war, sea]) ∧
        (withLiteral path .equal (.array wanted)).compileAlone Shelf.schema .author o =
          .ok (.any [war, sea]) ∧
        war.holds conrad = false ∧ sea.holds conrad = true ∧
        (isIn path []).compileAlone Shelf.schema .author o = .ok (.constant false) := by
  intro o wanted path conrad
  have single : ∀ j ∈ wanted, j.isNull = false ∧ j.isArray = false := by decide
  have run (tag : String) (found : Bool)
      (h : ((withLiteral path .equal (.string tag)).compileAlone Shelf.schema .author
        o).toOption.map (fun made => made.holds conrad) = some found) := exists_of_toOption h
  obtain ⟨war, hwar, absent⟩ := run "War" false (by decide +kernel)
  obtain ⟨sea, hsea, found⟩ := run "SEA" true (by decide +kernel)
  obtain ⟨left, hl, -⟩ := bind_eq_ok_iff.mp
    ((compileAlone_withLiteral (S := Shelf.schema) (o := o) rfl).symm.trans hsea)
  obtain ⟨each, array, none⟩ := @isIn_eq_any_equal Shelf.schema .author o path rfl
  have oneOf : (isIn path wanted).compileAlone Shelf.schema .author o = .ok (.any [war, sea]) := by
    rw [(each wanted nofun single).1, List.mapM_cons, hwar, List.mapM_cons, hsea]
    rfl
  exact ⟨rfl, nofun, single, war, sea, hwar, hsea, oneOf, (array wanted).1.trans oneOf, absent,
    found, none left hl⟩

end Rule

end EntityQuery
