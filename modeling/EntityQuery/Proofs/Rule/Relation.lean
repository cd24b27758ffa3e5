import EntityQuery.Proofs.Path.Segment
import EntityQuery.Proofs.Rule.Semantics

/-!
# Rules behind a relation

A rule on the entities that a relation leads to can be asked from the entity that has the
relation, by putting the name of the relation in front of its path. It compiles there just if it
compiles on its own, since the path has the same type. In its positive form it then says that some
related entity meets it; both reversals stay outside of that. Where a relation to one entity is
missing the path reads null, or nothing at all if a collection was still to come:
`Rule.alike_behind_relation`.
-/

namespace EntityQuery

open Outcome

variable {S : Schema} {kind target : S.Kind} {name path : String}

/-! ### Paths behind a relation -/

namespace Schema

/-- A path with a segment in front resolves just if the path itself does, given that its segments
do. -/
theorem alike_resolve_cons {s : Segment} (hs : s.WellFormed) {whole : String}
    (hw : whole.toList = s.chars ++ '.' :: path.toList)
    {lift : Resolved (S.Entity target) → Resolved (S.Entity kind)}
    (h : ∀ rest ≠ [],
      S.resolveSegments kind (s :: rest) = (S.resolveSegments target rest).map lift) :
    Alike (fun left' left => left' = lift left) (S.resolve kind whole) (S.resolve target path) := by
  refine Alike.of_iff fun left' => ?_
  simp only [resolve_eq_ok_iff, ← resolveSegments_eq_ok_iff]
  constructor
  · rintro ⟨segments, hsegs, hres⟩
    obtain ⟨rest, hrest, rfl⟩ := (Path.segments_cons_iff hs hw).mp hsegs
    rw [h rest (Path.wellFormed_of_segments hrest).1, map_eq_ok_iff] at hres
    obtain ⟨left, hleft, rfl⟩ := hres
    exact ⟨left, ⟨rest, hrest, hleft⟩, rfl⟩
  · rintro ⟨left, ⟨rest, hrest, hleft⟩, rfl⟩
    refine ⟨s :: rest, (Path.segments_cons_iff hs hw).mpr ⟨rest, hrest, rfl⟩, ?_⟩
    rw [h rest (Path.wellFormed_of_segments hrest).1, hleft]
    rfl

end Schema

/-! ### Tests do not depend on the path -/

/-- The rule matters to the test of an element only where it is named in an error. -/
theorem ElementTest.alike_ofLiteral_of_rules (r s : Rule) (op : Operator) (t : ValueType)
    (j : Json) : Alike Eq (ofLiteral r op t j) (ofLiteral s op t j) := by
  have same (x : Except CompileError ElementTest) : Alike Eq x x := .refl (fun _ => rfl) x
  have text (pattern : String → Pattern) :
      Alike Eq (ofText r t j pattern) (ofText s t j pattern) := .ite (same _) (.error _ _)
  have ordered (x : Except CompileError ElementTest) :
      Alike Eq (if t.isOrdered then x else .error (r.unsupported r.property t))
        (if t.isOrdered then x else .error (s.unsupported s.property t)) :=
    .ite (same x) (.error _ _)
  cases op with
  | equal => exact same _
  | isIn => exact same _
  | like => exact text _
  | startsWith => exact text _
  | endsWith => exact text _
  | contains => exact .ite (text _) (same _)
  | between => exact ordered _
  | greaterThan => exact ordered _
  | greaterThanOrEqual => exact ordered _
  | lessThan => exact ordered _
  | lessThanOrEqual => exact ordered _
  | _ => exact .error _ _

/-- So the test of a property is the same whatever its path. -/
theorem PropertyTest.alike_ofRule_of_path (r : Rule) (path : String) (t : ValueType) :
    Alike Eq (ofRule { r with property := path } t) (ofRule r t) := by
  cases hl : r.literal with
  | none =>
    have hl' : ({ r with property := path } : Rule).literal = none := hl
    unfold ofRule
    rw [hl, hl']
    dsimp only
    cases r.operator.positive with
    | any => exact .ite (.refl (fun _ => rfl) _) (.error _ _)
    | _ => exact .refl (fun _ => rfl) _
  | some j =>
    rw [ofRule_literal hl, ofRule_literal (r := { r with property := path }) hl]
    have tested := (ElementTest.alike_ofLiteral_of_rules { r with property := path } r
      r.operator.positive t.leaf j).map fun _ _ => congrArg (lift t)
    exact .ite (.ite (.refl (fun _ => rfl) _) (.error _ _)) tested

/-! ### What accessors behind a relation pass -/

namespace Condition

variable {α β : Type} {mode : StringComparison} {test : PropertyTest}

/-- Behind a collection, one of its elements passes. -/
theorem holds_throughMany (a : Accessor β) (get : α → Option (List β)) (e : α) :
    (tests (a.throughMany get) test).holds mode e =
      ((get e).getD []).any fun u => (tests a test).holds mode u := by
  simp only [holds, Accessor.reached_throughMany, List.any_flatMap]

/-- Behind a relation to one entity, that entity passes; if it is missing, null does, unless there
is still a collection to come. -/
theorem holds_throughOne (a : Accessor β) (get : α → Option β) (e : α) :
    (tests (a.throughOne get) test).holds mode e =
      match get e with
      | some u => (tests a test).holds mode u
      | none => !a.isQuantified && test.passes mode .null := by
  simp only [holds, Accessor.reached_throughOne]
  cases get e with
  | some u => rfl
  | none => cases a.isQuantified <;> simp

end Condition

namespace Rule

variable {r : Rule} {mode : StringComparison}

/-- What a predicate of the rule says of an entity with both reversals taken back. -/
def positively {α : Type} (r : Rule) (p : Predicate α) (e : α) : Bool :=
  p.holds e ^^ (r.operator.isNegative ^^ r.negated)

/-- In its positive form a rule says what its condition says. -/
theorem positively_predicate {α : Type} (r : Rule) (c : Condition α) (e : α) :
    r.positively (((c.predicate mode).negateIf r.operator.isNegative).negateIf r.negated) e =
      c.holds mode e := by
  rw [positively, Predicate.holds_negateIf, Predicate.holds_negateIf, Condition.predicate]
  cases r.operator.isNegative <;> cases r.negated <;> simp

/-- A rule on a path of one type and on the path that is lifted from it to another type: there is
one test, and in the positive form each predicate says whether its path reaches what passes. -/
def Lifted (r : Rule) (mode : StringComparison)
    (lift : Resolved (S.Entity target) → Resolved (S.Entity kind))
    (p' : Predicate (S.Entity kind)) (p : Predicate (S.Entity target)) : Prop :=
  ∃ left test, S.resolve target r.property = .ok left ∧ PropertyTest.ofRule r left.type = .ok test ∧
    (∀ e, r.positively p' e = (Condition.tests (lift left).accessor test).holds mode e) ∧
    ∀ u, r.positively p u = (Condition.tests left.accessor test).holds mode u

theorem allowsRule_everything (r : Rule) : (FilterOptions.mk none mode).allowsRule r = true := by
  unfold FilterOptions.allowsRule FilterOptions.allows
  cases r.otherProperty <;> rfl

/-- A rule compiles alike on a path and on the path that is lifted from it. -/
theorem alike_compileAlone_lift (hr : r.otherProperty = none) {whole : String}
    {lift : Resolved (S.Entity target) → Resolved (S.Entity kind)}
    (h : Alike (fun left' left => left' = lift left)
      (S.resolve kind whole) (S.resolve target r.property))
    (type : ∀ left, (lift left).type = left.type) :
    Alike (r.Lifted mode lift) ({ r with property := whole }.compileAlone S kind ⟨none, mode⟩)
      (r.compileAlone S target ⟨none, mode⟩) := by
  rw [compileAlone_of_allows (allowsRule_everything _),
    compileAlone_of_allows (allowsRule_everything _), alone_condition_literal hr,
    alone_condition_literal (r := { r with property := whole }) hr]
  have conditions : Alike (fun c' c => ∃ left test, S.resolve target r.property = .ok left ∧
      PropertyTest.ofRule r left.type = .ok test ∧ c' = .tests (lift left).accessor test ∧
        c = .tests left.accessor test)
      (S.resolve kind whole >>= Condition.ofLiteral { r with property := whole })
      (S.resolve target r.property >>= Condition.ofLiteral r) := by
    refine h.and_ok.bind ?_
    rintro left' left ⟨rfl, hl⟩
    unfold Condition.ofLiteral
    rw [type]
    refine (PropertyTest.alike_ofRule_of_path r whole left.type).and_ok.map ?_
    rintro test' test ⟨rfl, ht⟩
    exact ⟨left, test', hl, ht, rfl, rfl⟩
  refine conditions.map ?_
  rintro c' c ⟨left, test, hl, ht, rfl, rfl⟩
  exact ⟨left, test, hl, ht, r.positively_predicate _, r.positively_predicate _⟩

/-- Behind many entities, one of them meets the rule. -/
theorem alike_behind_many (hn : Segment.WellFormed ⟨name, false⟩) (hr : r.otherProperty = none)
    {get : S.Entity kind → Option (List (S.Entity target))}
    (hm : S.member? kind name = some (.many target get)) :
    Alike (fun p' p => ∀ e, r.positively p' e = true ↔
        ∃ u ∈ (get e).getD [], r.positively p u = true)
      ({ r with property := name ++ "[]." ++ r.property }.compileAlone S kind ⟨none, mode⟩)
      (r.compileAlone S target ⟨none, mode⟩) := by
  have paths : Alike (fun left' left => left' = left.throughMany get)
      (S.resolve kind (name ++ "[]." ++ r.property)) (S.resolve target r.property) :=
    Schema.alike_resolve_cons (s := ⟨name, true⟩) hn (by simp [Segment.chars, Segment.marker])
      fun rest hrest => Schema.resolveSegments_many hm hrest
  refine (alike_compileAlone_lift hr paths fun _ => rfl).mono ?_
  rintro p' p ⟨left, test, -, -, hp', hp⟩ e
  rw [hp' e, show (left.throughMany get).accessor = left.accessor.throughMany get from rfl,
    Condition.holds_throughMany, List.any_eq_true]
  simp only [hp]

/-- Behind one entity, that entity meets the rule; if it is missing, null must pass, and no
collection be still to come. -/
theorem alike_behind_one (hn : Segment.WellFormed ⟨name, false⟩) (hr : r.otherProperty = none)
    {get : S.Entity kind → Option (S.Entity target)}
    (hm : S.member? kind name = some (.one target get)) :
    Alike (fun p' p => ∀ e,
        match get e with
        | some u => p'.holds e = p.holds u
        | none => r.positively p' e = true ↔
            ∃ segments left, Path.segments r.property = .ok segments ∧
              S.resolve target r.property = .ok left ∧
              segments.any Segment.many = false ∧ r.Passes mode left.type .null)
      ({ r with property := name ++ "." ++ r.property }.compileAlone S kind ⟨none, mode⟩)
      (r.compileAlone S target ⟨none, mode⟩) := by
  have paths : Alike (fun left' left => left' = left.throughOne get)
      (S.resolve kind (name ++ "." ++ r.property)) (S.resolve target r.property) :=
    Schema.alike_resolve_cons (s := ⟨name, false⟩) hn (by simp [Segment.chars])
      fun rest hrest => Schema.resolveSegments_one hm hrest
  refine (alike_compileAlone_lift hr paths fun _ => rfl).mono ?_
  rintro p' p ⟨left, test, hl, ht, hp', hp⟩ e
  have lifted := hp' e
  rw [show (left.throughOne get).accessor = left.accessor.throughOne get from rfl,
    Condition.holds_throughOne] at lifted
  cases hg : get e with
  | some u =>
    rw [hg] at lifted
    -- Both sides are reversed alike.
    exact Bool.xor_left_inj.mp (lifted.trans (hp u).symm)
  | none =>
    rw [hg] at lifted
    obtain ⟨segments, hs, hres⟩ := Schema.resolve_eq_ok_iff.mp hl
    have marked : left.accessor.isQuantified = segments.any Segment.many := hres.isQuantified
    rw [lifted, marked, Bool.and_eq_true, Bool.not_eq_true', PropertyTest.passes_ofRule_iff ht]
    constructor
    · rintro ⟨unmarked, passes⟩
      exact ⟨segments, left, hs, hl, unmarked, passes⟩
    · rintro ⟨segments', left', hs', hl', unmarked, passes⟩
      obtain rfl := Except.ok.inj (hs.symm.trans hs')
      obtain rfl := Except.ok.inj (hl.symm.trans hl')
      exact ⟨unmarked, passes⟩

/-- **A rule behind a relation** compiles just if it compiles on the entities that the relation
leads to, given that the name of the relation can stand in a path. Behind many entities it holds in
its positive form if it does of one of them. Behind one entity it holds if it does of that; where
the entity is missing it holds in its positive form if its path has no collection to come and null
passes. -/
theorem alike_behind_relation (hn : Segment.WellFormed ⟨name, false⟩)
    (hr : r.otherProperty = none) :
    (∀ get : S.Entity kind → Option (List (S.Entity target)),
      S.member? kind name = some (.many target get) →
      Alike (fun p' p => ∀ e, r.positively p' e = true ↔
          ∃ u ∈ (get e).getD [], r.positively p u = true)
        ({ r with property := name ++ "[]." ++ r.property }.compileAlone S kind ⟨none, mode⟩)
        (r.compileAlone S target ⟨none, mode⟩)) ∧
    (∀ get : S.Entity kind → Option (S.Entity target),
      S.member? kind name = some (.one target get) →
      Alike (fun p' p => ∀ e,
          match get e with
          | some u => p'.holds e = p.holds u
          | none => r.positively p' e = true ↔
              ∃ segments left, Path.segments r.property = .ok segments ∧
                S.resolve target r.property = .ok left ∧
                segments.any Segment.many = false ∧ r.Passes mode left.type .null)
        ({ r with property := name ++ "." ++ r.property }.compileAlone S kind ⟨none, mode⟩)
        (r.compileAlone S target ⟨none, mode⟩)) :=
  ⟨fun _ hm => alike_behind_many hn hr hm, fun _ hm => alike_behind_one hn hr hm⟩

/-- Keywords that are not among some: of an author with several books one book decides, and where
the best known book is missing there are no keywords. -/
theorem alike_behind_relation_tags :
    let r : Rule := ⟨"tags", .notIn, some (.array [.string "sea"]), none, false⟩
    let ofBooks : Rule := { r with property := "books" ++ "[]." ++ "tags" }
    let ofKnown : Rule := { r with property := "known" ++ "." ++ "tags" }
    let o : FilterOptions := ⟨none, .ordinal⟩
    let books : List Shelf.Book := [⟨"Nostromo", none⟩, ⟨"Typhoon", some ["storm", "sea"]⟩]
    let conrad : Shelf.schema.Entity .author := Shelf.Author.mk "Conrad" 66 none (some books)
    Segment.WellFormed ⟨"books", false⟩ ∧
      Shelf.schema.member? .author "books" = some (.many .book Shelf.Author.books) ∧
      Segment.WellFormed ⟨"known", false⟩ ∧
      Shelf.schema.member? .author "known" = some (.one .book Shelf.Author.known) ∧
      r.otherProperty = none ∧
      ∃ p, r.compileAlone Shelf.schema .book o = .ok p ∧
        (∃ b, ofBooks.compileAlone Shelf.schema .author o = .ok b ∧ b.holds conrad = false ∧
          ∃ u ∈ books, r.positively p u = true) ∧
        ∃ k, ofKnown.compileAlone Shelf.schema .author o = .ok k ∧ k.holds conrad = true ∧
          ¬ ∃ segments left, Path.segments "tags" = .ok segments ∧
            Shelf.schema.resolve .book "tags" = .ok left ∧
            segments.any Segment.many = false ∧ r.Passes .ordinal left.type .null := by
  intro r ofBooks ofKnown o books conrad
  have booksFormed : Segment.WellFormed ⟨"books", false⟩ := by simp [Segment.WellFormed]
  have knownFormed : Segment.WellFormed ⟨"known", false⟩ := by simp [Segment.WellFormed]
  have run : (r.compileAlone Shelf.schema .book o).toOption.map
      (fun p => p.holds ⟨"Nostromo", none⟩) = some true := by decide +kernel
  have runBooks : (ofBooks.compileAlone Shelf.schema .author o).toOption.map
      (fun b => b.holds conrad) = some false := by decide +kernel
  have runKnown : (ofKnown.compileAlone Shelf.schema .author o).toOption.map
      (fun k => k.holds conrad) = some true := by decide +kernel
  obtain ⟨p, hp, -⟩ := exists_of_toOption run
  obtain ⟨b, hb, someBook⟩ := exists_of_toOption runBooks
  obtain ⟨k, hk, noBook⟩ := exists_of_toOption runKnown
  have behindBooks := ((alike_behind_relation booksFormed rfl).1 Shelf.Author.books rfl).rel hb hp
  have behindKnown := ((alike_behind_relation knownFormed rfl).2 Shelf.Author.known rfl).rel hk hp
  have decides : ofBooks.positively b conrad = true := by
    rw [positively, someBook]
    rfl
  refine ⟨booksFormed, rfl, knownFormed, rfl, rfl, p, hp,
    ⟨b, hb, someBook, (behindBooks conrad).mp decides⟩, k, hk, noBook, ?_⟩
  intro passes
  have positive := (behindKnown conrad).mpr passes
  rw [positively, noBook] at positive
  cases positive

end Rule

end EntityQuery
