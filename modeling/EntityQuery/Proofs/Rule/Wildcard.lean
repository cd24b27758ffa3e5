import EntityQuery.Proofs.Rule.Folding

/-!
# Wildcards and the plain operators

A pattern with percent signs at its open ends says no more than one of the operators that look for a
piece of a text: what stands between the signs is found anywhere, at the start or at the end, and a
percent sign in it is a character like any. A sign counts only at an end that is open, so the piece
must not have one of its own there; between two signs it may. The pattern `%` alone is open at the
start, and like the empty piece it is found in every text.

The main result is `Rule.like_finds_piece`. It says which entities the two rules keep, in terms of
the texts that the property reads.
-/

namespace EntityQuery

open Outcome

/-! ### The texts of a property -/

/-- The elements of a value of a type: those of a list, and any other value itself. -/
def ValueType.elementsOf (t : ValueType) (v : Value) : List Value :=
  if t.isCollection then v.items?.getD [] else [v]

/-- The texts that a property reads on an entity, also those in a list. -/
def Resolved.texts {α : Type} (left : Resolved α) (e : α) : List String :=
  ((left.accessor.reached e).flatMap left.type.elementsOf).filterMap Value.string?

variable {mode : StringComparison}

/-- A property passes the test of an element through its elements. -/
theorem PropertyTest.passes_lift_iff_elements {t : ValueType} {x : ElementTest} {v : Value} :
    (lift t x).passes mode v = true ↔ ∃ m ∈ t.elementsOf v, x.passes mode m = true := by
  unfold lift ValueType.elementsOf
  split
  · cases v <;> simp [passes, Value.items?]
  · simp [passes]

/-- A property matches a pattern through the texts that it reads. -/
theorem Condition.holds_text_iff {α : Type} {left : Resolved α} {pattern : Pattern} {e : α} :
    (tests left.accessor (PropertyTest.lift left.type (.text pattern))).holds mode e = true ↔
      ∃ s ∈ left.texts e, pattern.accepts mode s = true := by
  simp only [holds, List.any_eq_true, PropertyTest.passes_lift_iff_elements, Resolved.texts,
    List.mem_filterMap, List.mem_flatMap]
  constructor
  · rintro ⟨v, hv, m, hm, passes⟩
    rw [ElementTest.passes, Option.any_eq_true] at passes
    obtain ⟨s, hs, accepted⟩ := passes
    exact ⟨s, ⟨m, ⟨v, hv, hm⟩, hs⟩, accepted⟩
  · rintro ⟨s, ⟨m, ⟨v, hv, hm⟩, hs⟩, accepted⟩
    refine ⟨v, hv, m, hm, ?_⟩
    rw [ElementTest.passes, hs]
    exact accepted

/-! ### What a wildcard pattern accepts -/

namespace Pattern

variable {text b : String}

theorem accepts_ofText_both :
    (ofText ("%" ++ b ++ "%")).accepts mode text = true ↔ mode.Contains text b := by
  have written : ("%" ++ b ++ "%").toList = '%' :: (b.toList ++ ['%']) := by simp
  rw [ofText_both written, String.ofList_toList, accepts_contains_iff]

theorem accepts_ofText_start (hb : b.toList.getLast? ≠ some '%') :
    (ofText ("%" ++ b)).accepts mode text = true ↔ mode.EndsWith text b := by
  have written : ("%" ++ b).toList = '%' :: b.toList := by simp
  rw [ofText_start written hb, String.ofList_toList, accepts_endsWith_iff]

theorem accepts_ofText_finish (hb : b.toList.head? ≠ some '%') :
    (ofText (b ++ "%")).accepts mode text = true ↔ mode.StartsWith text b := by
  by_cases empty : b = ""
  · -- The sign alone is open at the start, and every text starts and ends with nothing.
    subst empty
    have folded : (mode.fold "").toList = [] := by cases mode <;> rfl
    have sign : (ofText ("%" ++ "")).accepts mode text = true ↔ _ := accepts_ofText_start nofun
    rw [show "" ++ "%" = "%" ++ "" from rfl, sign, StringComparison.EndsWith,
      StringComparison.StartsWith, folded]
    exact iff_of_true List.nil_suffix List.nil_prefix
  · have written : (b ++ "%").toList = b.toList ++ ['%'] := by simp
    have first : (b.toList ++ ['%']).head? ≠ some '%' := by
      rwa [List.head?_append_of_ne_nil _ (by simpa using empty)]
    rw [ofText_finish written first, String.ofList_toList, accepts_startsWith_iff]

theorem accepts_ofText_neither (hh : b.toList.head? ≠ some '%')
    (hl : b.toList.getLast? ≠ some '%') :
    (ofText b).accepts mode text = true ↔ mode.Contains text b := by
  rw [ofText_neither hh hl, accepts_contains_iff]

end Pattern

/-! ### Rules -/

namespace Rule

variable {S : Schema} {kind : S.Kind} {o : FilterOptions} {p s : String} {op : Operator}
  {make : String → Pattern} {left : Resolved (S.Entity kind)} {passes : String → Prop}

/-- The rule compiles to this predicate, which holds of the entities with a text that passes; of all
entities if its property may not be filtered by. -/
def Finds (o : FilterOptions) (left : Resolved (S.Entity kind)) (passes : String → Prop) (r : Rule)
    (made : Predicate (S.Entity kind)) : Prop :=
  r.compileAlone S kind o = .ok made ∧
    ∀ e, made.holds e = true ↔ (o.allows r.property = true → ∃ s ∈ left.texts e, passes s)

/-- Two rules look for the same in the texts of a property. -/
def FindAlike (o : FilterOptions) (left : Resolved (S.Entity kind)) (passes : String → Prop)
    (r r' : Rule) : Prop :=
  ∃ made, r.Finds o left passes made ∧ r'.Finds o left passes made

/-- A rule with a pattern finds the texts that the pattern accepts. -/
theorem exists_finds (hl : S.resolve kind p = .ok left) (text : left.type.leaf = .string)
    (hop : op.pattern? = some make)
    (accepts : ∀ x, (make s).accepts o.comparison x = true ↔ passes x) :
    ∃ made, (withLiteral p op (.string s)).Finds o left passes made := by
  have test : PropertyTest.ofRule (withLiteral p op (.string s)) left.type =
      .ok (PropertyTest.lift left.type (.text (make s))) := by
    rw [PropertyTest.ofRule_withLiteral rfl (by cases op <;> cases hop <;> decide), text]
    cases op <;> cases hop <;> rfl
  have finds : op.findsText = true := by cases op <;> cases hop <;> rfl
  have path : (withLiteral p op (.string s)).property = p := rfl
  cases allowed : o.allowsRule (withLiteral p op (.string s)) with
  | false =>
    have refused : o.allows p = false := by
      simpa [FilterOptions.allowsRule, path] using allowed
    refine ⟨_, compileAlone_of_excludes (FilterOptions.allowsRule_eq_false_iff.mp allowed),
      fun e => iff_of_true rfl ?_⟩
    rw [path, refused]
    exact fun h => absurd h Bool.false_ne_true
  | true =>
    have permitted : o.allows p = true := by
      simpa [FilterOptions.allowsRule, path] using allowed
    obtain ⟨made, hm, holds⟩ := exists_compileAlone_of_findsText
      (r := withLiteral p op (.string s)) finds rfl otherProperty_withLiteral hl test allowed
    refine ⟨made, hm, fun e => ?_⟩
    rw [holds, Condition.holds_text_iff, path, permitted]
    simp only [accepts, forall_const]

/-- What is found decides the predicate. -/
theorem findAlike_of_finds {r r' : Rule} {made made' : Predicate (S.Entity kind)}
    (path : r.property = r'.property) (h : r.Finds o left passes made)
    (h' : r'.Finds o left passes made') : FindAlike o left passes r r' := by
  have same : made = made' := Predicate.eq_of_holds fun e => by
    rw [Bool.eq_iff_iff, h.2, h'.2, path]
  subst same
  exact ⟨made, h, h'⟩

/-- Two rules with a literal on one property, whose patterns accept the same texts. -/
theorem findAlike_of_accepts {s' : String} {op' : Operator} {make' : String → Pattern}
    (hl : S.resolve kind p = .ok left) (text : left.type.leaf = .string)
    (hop : op.pattern? = some make) (hop' : op'.pattern? = some make')
    (accepts : ∀ x, (make s).accepts o.comparison x = true ↔ passes x)
    (accepts' : ∀ x, (make' s').accepts o.comparison x = true ↔ passes x) :
    FindAlike o left passes (withLiteral p op (.string s)) (withLiteral p op' (.string s')) := by
  obtain ⟨made, h⟩ := exists_finds hl text hop accepts
  obtain ⟨made', h'⟩ := exists_finds hl text hop' accepts'
  exact findAlike_of_finds rfl h h'

/-- **Patterns are plain operators.** On a property that is a string or a list of strings, a pattern
with percent signs at both ends finds what contains the piece, with one at the end what starts with
it, with one at the start what ends with it, and with none what contains it; and the operator of
that name finds the same with the piece itself. This is so whichever way strings are compared and
wherever the path leads, unless the piece has a percent sign at an end that the pattern leaves
open. -/
theorem like_finds_piece (hl : S.resolve kind p = .ok left) (text : left.type.leaf = .string)
    (b : String) :
    FindAlike o left (o.comparison.Contains · b) (like p ("%" ++ b ++ "%"))
        (withLiteral p .contains (.string b)) ∧
      (b.toList.head? ≠ some '%' →
        FindAlike o left (o.comparison.StartsWith · b) (like p (b ++ "%"))
          (withLiteral p .startsWith (.string b))) ∧
      (b.toList.getLast? ≠ some '%' →
        FindAlike o left (o.comparison.EndsWith · b) (like p ("%" ++ b))
          (withLiteral p .endsWith (.string b))) ∧
      (b.toList.head? ≠ some '%' → b.toList.getLast? ≠ some '%' →
        FindAlike o left (o.comparison.Contains · b) (like p b)
          (withLiteral p .contains (.string b))) := by
  refine ⟨?_, fun hh => ?_, fun hl' => ?_, fun hh hl' => ?_⟩
  · exact findAlike_of_accepts hl text rfl rfl (fun _ => Pattern.accepts_ofText_both)
      fun _ => Pattern.accepts_contains_iff
  · exact findAlike_of_accepts hl text rfl rfl (fun _ => Pattern.accepts_ofText_finish hh)
      fun _ => Pattern.accepts_startsWith_iff
  · exact findAlike_of_accepts hl text rfl rfl (fun _ => Pattern.accepts_ofText_start hl')
      fun _ => Pattern.accepts_endsWith_iff
  · exact findAlike_of_accepts hl text rfl rfl (fun _ => Pattern.accepts_ofText_neither hh hl')
      fun _ => Pattern.accepts_contains_iff

/-- Keywords of all books, where case is ignored, and a piece with a percent sign inside: it is
found within a keyword, though at neither end of one. -/
theorem like_finds_piece_tags :
    let o : FilterOptions := ⟨none, .ignoreCase⟩
    let path := "books[].tags"
    let tags : Resolved (Shelf.schema.Entity .author) :=
      Resolved.throughMany ⟨.list .string, .member Shelf.tagValue⟩ Shelf.Author.books
    let b := "o%R"
    let conrad : Shelf.schema.Entity .author := Shelf.Author.mk "Conrad" 66 none
      (some [⟨"Nostromo", none⟩, ⟨"Typhoon", some ["sea", "STO%RM"]⟩])
    Shelf.schema.resolve .author path = .ok tags ∧ tags.type.leaf = .string ∧
      b.toList.head? ≠ some '%' ∧ b.toList.getLast? ≠ some '%' ∧
      (∃ within, (like path "%o%R%").compileAlone Shelf.schema .author o = .ok within ∧
        (withLiteral path .contains (.string b)).compileAlone Shelf.schema .author o = .ok within ∧
        (like path b).compileAlone Shelf.schema .author o = .ok within ∧
        within.holds conrad = true) ∧
      (∃ first, (like path "o%R%").compileAlone Shelf.schema .author o = .ok first ∧
        (withLiteral path .startsWith (.string b)).compileAlone Shelf.schema .author o = .ok first ∧
        first.holds conrad = false) ∧
      ∃ last, (like path "%o%R").compileAlone Shelf.schema .author o = .ok last ∧
        (withLiteral path .endsWith (.string b)).compileAlone Shelf.schema .author o = .ok last ∧
        last.holds conrad = false := by
  intro o path tags b conrad
  have books : Shelf.schema.member? .author "books" = some (.many .book Shelf.Author.books) := rfl
  have tagged : Shelf.schema.member? .book "tags" = some (.value (.list .string) Shelf.tagValue) :=
    rfl
  have resolves : Shelf.schema.resolve .author path = .ok tags :=
    Schema.resolve_eq_ok_iff.mpr ⟨[⟨"books", true⟩, ⟨"tags", false⟩], by decide +kernel,
      .throughMany books (List.cons_ne_nil _ _) (.value tagged)⟩
  have opens : b.toList.head? ≠ some '%' := by decide
  have closes : b.toList.getLast? ≠ some '%' := by decide
  have run (op : Operator) (found : Bool)
      (h : ((withLiteral path op (.string b)).compileAlone Shelf.schema .author
        o).toOption.map (fun made => made.holds conrad) = some found) := exists_of_toOption h
  obtain ⟨within, hw, found⟩ := run .contains true (by decide +kernel)
  obtain ⟨first, hf, notFirst⟩ := run .startsWith false (by decide +kernel)
  obtain ⟨last, hl, notLast⟩ := run .endsWith false (by decide +kernel)
  obtain ⟨⟨_, ⟨both, -⟩, ⟨same, -⟩⟩, finish, start, neither⟩ :=
    like_finds_piece (o := o) resolves rfl b
  obtain ⟨_, ⟨atStart, -⟩, ⟨sameStart, -⟩⟩ := finish opens
  obtain ⟨_, ⟨atEnd, -⟩, ⟨sameEnd, -⟩⟩ := start closes
  obtain ⟨_, ⟨bare, -⟩, ⟨sameBare, -⟩⟩ := neither opens closes
  obtain rfl := Except.ok.inj (hw.symm.trans same)
  obtain rfl := Except.ok.inj (hw.symm.trans sameBare)
  obtain rfl := Except.ok.inj (hf.symm.trans sameStart)
  obtain rfl := Except.ok.inj (hl.symm.trans sameEnd)
  exact ⟨resolves, rfl, opens, closes, ⟨_, both, same, bare, found⟩, ⟨_, atStart, sameStart, notFirst⟩,
    _, atEnd, sameEnd, notLast⟩

end Rule

end EntityQuery
