import EntityQuery.Proofs.Group.Observation
import EntityQuery.Proofs.Shelf
import EntityQuery.Proofs.Value.Compatible
import EntityQuery.Proofs.Value.Symmetry

/-!
# Two properties swapped

A rule that compares two properties says the same as its mirror, in which the properties are swapped
and Greater stands for Less and Less for Greater. Whether the two may be compared is asked of one
side before the other, and whether they have an order of one side alone; but types that are
comparable are so both ways, and share their order. So a rule compiles just if its mirror does,
though the errors need not be the same, and then both hold of the same entities, whatever the two
properties read there: `Rule.alike_mirror`.
-/

namespace EntityQuery

open Outcome

/-! ### Operators -/

/-- The operator that says of swapped properties what this one says of the two. -/
def Operator.mirror : Operator → Operator
  | .greaterThan => .lessThan
  | .greaterThanOrEqual => .lessThanOrEqual
  | .lessThan => .greaterThan
  | .lessThanOrEqual => .greaterThanOrEqual
  | op => op

namespace Operator

variable {op : Operator}

theorem relation?_mirror (op : Operator) :
    op.mirror.positive.relation? = op.positive.relation?.map Relation.mirror := by
  cases op <;> rfl

theorem isNegative_mirror (op : Operator) : op.mirror.isNegative = op.isNegative := by
  cases op <;> rfl

theorem comparesProperties_mirror (op : Operator) :
    op.mirror.comparesProperties = op.comparesProperties := by
  cases op <;> rfl

/-- An operator that compares properties looks at the other property. -/
theorem ignoresProperty_of_comparesProperties (h : op.comparesProperties = true) :
    op.ignoresProperty = false := by
  cases op <;> first | rfl | cases h

end Operator

/-! ### Types -/

namespace ValueType

theorem comparableWith_comm (t u : ValueType) : t.comparableWith u = u.comparableWith t := by
  have same (t u : ValueType) :
      decide (t.category = u.category) = decide (u.category = t.category) :=
    decide_eq_decide.mpr eq_comm
  cases t <;> cases u <;> first | rfl | exact same _ _ | exact decide_eq_decide.mpr eq_comm

/-- Types that are comparable have an order both or neither. -/
theorem isOrdered_eq_of_comparableWith {t u : ValueType} (h : t.comparableWith u = true) :
    t.isOrdered = u.isOrdered := by
  unfold isOrdered
  rw [(Value.category_eq_of_comparableWith h).1]

end ValueType

/-! ### Conditions -/

namespace Condition

variable {α : Type}

/-- The condition that says the same with its two properties swapped. -/
def mirror : Condition α → Condition α
  | .tests accessor test => .tests accessor test
  | .equates left right => .equates right left
  | .relates left right relation => .relates right left relation.mirror

theorem holds_mirror (mode : StringComparison) (c : Condition α) (e : α) :
    c.mirror.holds mode e = c.holds mode e := by
  cases c with
  | tests accessor test => rfl
  | equates left right => exact Value.equalBy_comm mode _ _
  | relates left right relation => exact Value.relatedBy_mirror mode relation _ _

variable {r s : Rule} {p q : String} {left right : Resolved α}

/-- What a rule makes of two properties, its mirror makes of them swapped. -/
theorem ofProperties_mirror (hop : s.operator = r.operator.mirror) {c : Condition α}
    (h : ofProperties r q left right = .ok c) : ofProperties s p right left = .ok c.mirror := by
  obtain ⟨supported, singleLeft, singleRight, meets, hc⟩ := ofProperties_eq_ok_iff.mp h
  refine ofProperties_eq_ok_iff.mpr ⟨?_, singleRight, singleLeft, ?_, ?_⟩
  · rw [hop, Operator.comparesProperties_mirror, supported]
  · rw [ValueType.comparableWith_comm, meets]
  rw [hop, Operator.relation?_mirror]
  cases hr : r.operator.positive.relation? with
  | none =>
    rw [hr] at hc
    rw [hc]
    rfl
  | some relation =>
    rw [hr] at hc
    obtain ⟨ordered, rfl⟩ := hc
    exact ⟨ValueType.isOrdered_eq_of_comparableWith meets ▸ ordered, rfl⟩

theorem alike_ofProperties_mirror (hs : s.operator = r.operator.mirror)
    (hr : r.operator = s.operator.mirror) :
    Alike (fun c d => ∀ mode e, c.holds mode e = d.holds mode e)
      (ofProperties r q left right) (ofProperties s p right left) := by
  cases h : ofProperties r q left right with
  | ok c =>
    rw [ofProperties_mirror hs h]
    exact .ok fun mode e => (c.holds_mirror mode e).symm
  | error err =>
    cases h' : ofProperties s p right left with
    | ok d => rw [ofProperties_mirror hr h'] at h; cases h
    | error err' => exact .error err err'

end Condition

/-! ### Rules -/

namespace Rule

variable {S : Schema} {kind : S.Kind} {o : FilterOptions} {p q : String} {op : Operator}

/-- The comparison of two properties, negated if `negated` says so. -/
def comparison (p : String) (op : Operator) (q : String) (negated : Bool) : Rule :=
  { withProperty p op q with negated := negated }

theorem otherProperty_comparison (hop : op.comparesProperties = true) (negated : Bool) :
    (comparison p op q negated).otherProperty = some q := by
  have looks := Operator.ignoresProperty_of_comparesProperties hop
  have shape : (comparison p op q negated).operator = op := rfl
  rw [otherProperty, shape, looks]
  rfl

theorem allowsRule_comparison (hop : op.comparesProperties = true) (negated : Bool) :
    o.allowsRule (comparison p op q negated) = (o.allows p && o.allows q) := by
  rw [FilterOptions.allowsRule, otherProperty_comparison hop, Option.all_some]
  rfl

/-- **Two properties swapped.** A comparison of two properties compiles just if its mirror does,
under all options, and then both hold of the same entities. -/
theorem alike_mirror (hop : op.comparesProperties = true) (negated : Bool) :
    Alike (fun made mirrored => ∀ e, made.holds e = mirrored.holds e)
      ((comparison p op q negated).compileAlone S kind o)
      ((comparison q op.mirror p negated).compileAlone S kind o) := by
  have hop' : op.mirror.comparesProperties = true := by rw [op.comparesProperties_mirror, hop]
  cases allowed : o.allowsRule (comparison p op q negated) with
  | false =>
    have allowed' : o.allowsRule (comparison q op.mirror p negated) = false := by
      rw [allowsRule_comparison hop', Bool.and_comm, ← allowsRule_comparison hop negated, allowed]
    rw [compileAlone_of_excludes (FilterOptions.allowsRule_eq_false_iff.mp allowed),
      compileAlone_of_excludes (FilterOptions.allowsRule_eq_false_iff.mp allowed')]
    exact .ok fun _ => rfl
  | true =>
    have allowed' : o.allowsRule (comparison q op.mirror p negated) = true := by
      rw [allowsRule_comparison hop', Bool.and_comm, ← allowsRule_comparison hop negated, allowed]
    rw [compileAlone_of_allows allowed, compileAlone_of_allows allowed',
      alone_condition_property (otherProperty_comparison hop negated),
      alone_condition_property (otherProperty_comparison hop' negated)]
    have conditions : Alike (fun c d => ∀ mode e, c.holds mode e = d.holds mode e)
        (S.resolve kind p >>= fun left => S.resolve kind q >>=
          Condition.ofProperties (comparison p op q negated) q left)
        (S.resolve kind q >>= fun right => S.resolve kind p >>=
          Condition.ofProperties (comparison q op.mirror p negated) p right) := by
      -- A path that does not resolve is an error of both, though perhaps not the first one.
      cases S.resolve kind p with
      | error err =>
        cases S.resolve kind q with
        | error err' => exact .error err err'
        | ok right => exact .error err err
      | ok left =>
        cases S.resolve kind q with
        | error err => exact .error err err
        | ok right =>
          exact Condition.alike_ofProperties_mirror rfl (by cases op <;> rfl)
    refine conditions.map fun c d same e => ?_
    have reversed : (comparison q op.mirror p negated).operator.isNegative =
        (comparison p op q negated).operator.isNegative := op.isNegative_mirror
    simp only [reversed, Predicate.holds_negateIf, Condition.predicate, same]
    rfl

/-- The name of an author and the title of the best known book, where case is ignored: "conrad"
comes after "Chance", and a name comes after no title where there is no book. -/
theorem alike_mirror_names :
    let o : FilterOptions := ⟨none, .ignoreCase⟩
    let after := comparison "name" .greaterThan "known.title" false
    let before := comparison "known.title" .lessThan "name" false
    let conrad : Shelf.schema.Entity .author :=
      Shelf.Author.mk "conrad" 66 (some ⟨"Chance", none⟩) none
    let woolf : Shelf.schema.Entity .author := Shelf.Author.mk "Woolf" 59 none none
    Operator.greaterThan.comparesProperties = true ∧
      ∃ made mirrored, after.compileAlone Shelf.schema .author o = .ok made ∧
        before.compileAlone Shelf.schema .author o = .ok mirrored ∧
        made.holds conrad = true ∧ mirrored.holds conrad = true ∧
        made.holds woolf = false ∧ mirrored.holds woolf = false := by
  intro o after before conrad woolf
  have run : (after.compileAlone Shelf.schema .author o).toOption.map
      (fun made => (made.holds conrad, made.holds woolf)) = some (true, false) := by decide +kernel
  obtain ⟨made, hm, held⟩ := exists_of_toOption run
  rw [Prod.mk.injEq] at held
  obtain ⟨mirrored, hm', same⟩ :=
    (@alike_mirror Shelf.schema .author o "name" "known.title" .greaterThan rfl false).exists_ok hm
  exact ⟨rfl, made, mirrored, hm, hm', held.1, (same conrad).symm.trans held.1, held.2,
    (same woolf).symm.trans held.2⟩

end Rule

end EntityQuery
