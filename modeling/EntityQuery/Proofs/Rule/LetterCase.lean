import EntityQuery.Proofs.Path.LetterCase
import EntityQuery.Proofs.Rule.Typing
import EntityQuery.Proofs.Sort.Aggregate

/-!
# Rules that cannot see letter case

Where case is ignored a rule has the same verdict on two entities that differ in letter case only,
unless it compares lists of strings with each other. It does so where the property is a list of such
lists and there is a literal: then the literal becomes a list of strings as well, and the strings of
two lists are compared as they are. The main result is `Rule.verdict_eq_of_recased`.
-/

namespace EntityQuery

open Outcome

variable {v v' : Value} {t : ValueType} {r : Rule}

/-- The values are lists, with strings in them at some depth. -/
def ValueType.ListsStrings (t : ValueType) : Prop := t.isCollection = true ∧ t.base = .string

theorem ValueType.ListsStrings.exists_list (h : t.leaf.ListsStrings) :
    ∃ u, t = .list (.list u) ∧ u.base = .string := by
  obtain ⟨list, strings⟩ := h
  cases t with
  | list t =>
    cases t with
    | list u => exact ⟨u, rfl, strings⟩
    | _ => cases list
  | _ => cases list

/-! ### Tests -/

theorem Pattern.accepts_eq_of_lowercase (p : Pattern) {s s' : String}
    (h : Text.lowercase s = Text.lowercase s') :
    p.accepts .ignoreCase s = p.accepts .ignoreCase s' := by
  unfold accepts StringComparison.fold
  rw [h]

/-- An element of a type that is no list of strings is recased without being seen. -/
theorem ElementTest.passes_recased (x : ElementTest) (blind : ¬ t.ListsStrings)
    (hv : v.HasType t) (h : v.Recased v') :
    x.passes .ignoreCase v = x.passes .ignoreCase v' := by
  -- A list has no strings in it, and what is no list is not compared as one.
  by_cases ht : t.isCollection = true
  · rw [h.eq_of_hasType hv fun strings => blind ⟨ht, strings⟩]
  · have single : v.items? = none := Value.items?_of_hasType hv (Bool.eq_false_iff.mpr ht)
    have equal (w : Value) : v.equalBy .ignoreCase w = v'.equalBy .ignoreCase w :=
      h.equalBy_eq (.refl w) single
    have related (relation : Relation) (w : Value) :
        v.relatedBy .ignoreCase relation w = v'.relatedBy .ignoreCase relation w := by
      rw [Value.relatedBy, Value.relatedBy, h.compareBy?_eq (.refl w)]
    cases x with
    | equals wanted => exact equal wanted
    | isOneOf members => simp only [passes, equal]
    | relates relation bound => exact related relation bound
    | within least most => simp only [passes, related]
    | text pattern =>
      have texts := h.text
      simp only [passes]
      generalize v.string? = s at texts
      generalize v'.string? = s' at texts
      cases texts with
      | none => rfl
      | some same => exact pattern.accepts_eq_of_lowercase same

/-- If a search has the same answer for items in the same place, it has the same answer. -/
theorem any_eq_of_forall₂ {α : Type} {f : α → Bool} {xs ys : List α}
    (h : List.Forall₂ (fun x y => f x = f y) xs ys) : xs.any f = ys.any f := by
  induction h with
  | nil => rfl
  | cons same _ ih => rw [List.any_cons, List.any_cons, same, ih]

namespace PropertyTest

/-- A list is recased without being seen if its elements are no lists of strings. -/
theorem passes_lift_recased (x : ElementTest) (blind : ¬ t.leaf.ListsStrings) (hv : v.HasType t)
    (h : v.Recased v') : (lift t x).passes .ignoreCase v = (lift t x).passes .ignoreCase v' := by
  unfold lift
  split
  · next list =>
    rw [isCollection_iff.mp list] at hv
    cases hv with
    | null => cases h; rfl
    | list typed =>
      cases h with
      | refl => rfl
      | list h =>
        have both := (List.forall₂_and_left _ _).mpr ⟨typed, h⟩
        exact any_eq_of_forall₂ (both.imp fun v v' hv => x.passes_recased blind hv.1 hv.2)
  · next single =>
    rw [leaf_of_not_isCollection (Bool.eq_false_iff.mpr single)] at blind
    exact x.passes_recased blind hv h

/-- The test of a rule with a literal is one of a single value, or of the elements of a list. -/
theorem exists_lift_of_ofRule {j : Json} {test : PropertyTest} (hl : r.literal = some j)
    (h : ofRule r t = .ok test) : ∃ x, test = lift t x := by
  rw [ofRule_literal hl] at h
  split at h
  · split at h
    · next list =>
      obtain ⟨x, -, rfl⟩ := map_eq_ok_iff.mp h
      exact ⟨x, by rw [lift, if_pos list]⟩
    · cases h
  · obtain ⟨x, -, rfl⟩ := map_eq_ok_iff.mp h
    exact ⟨x, rfl⟩

theorem passes_ofRule_recased {test : PropertyTest} (ht : ofRule r t = .ok test)
    (blind : ∀ j, r.literal = some j → ¬ t.leaf.ListsStrings) (hv : v.HasType t)
    (h : v.Recased v') : test.passes .ignoreCase v = test.passes .ignoreCase v' := by
  cases hl : r.literal with
  | some j =>
    obtain ⟨x, rfl⟩ := exists_lift_of_ofRule hl ht
    exact passes_lift_recased x (blind j hl) hv h
  | none =>
    rcases of_ofRule_absent hl ht with ⟨-, rfl⟩ | ⟨-, rfl⟩
    · have items := h.items
      simp only [passes]
      generalize v.items? = xs at items
      generalize v'.items? = ys at items
      cases items with
      | none => rfl
      | some items => cases items <;> rfl
    · exact h.isNull_eq

end PropertyTest

/-! ### Rules -/

namespace Rule

variable {S : Schema} {kind : S.Kind}

/-- The rule compares a list of strings, as an element of a longer list, with its literal. -/
def ComparesLists (S : Schema) (kind : S.Kind) (r : Rule) : Prop :=
  r.otherProperty = none ∧ (∃ j, r.literal = some j) ∧
    ∃ left, S.resolve kind r.property = .ok left ∧ left.type.leaf.ListsStrings

variable {e e' : S.Entity kind} {c : Condition (S.Entity kind)}

/-- The condition of a rule that compares no lists of strings cannot see letter case. -/
theorem holds_condition_recased (hS : S.WellTyped) (h : S.Recased kind e e')
    (blind : ¬ r.ComparesLists S kind) (hc : (r.condition : Resolving S kind _).alone = .ok c) :
    c.holds .ignoreCase e = c.holds .ignoreCase e' := by
  obtain ⟨R, hR, he⟩ := h
  cases ho : r.otherProperty with
  | none =>
    rw [alone_condition_literal ho, bind_eq_ok_iff] at hc
    obtain ⟨left, hl, hc⟩ := hc
    obtain ⟨test, ht, rfl⟩ := map_eq_ok_iff.mp hc
    obtain ⟨segments, -, resolves⟩ := exists_segments hl
    have reached := (List.forall₂_and_left _ _).mpr
      ⟨resolves.hasType hS e, resolves.reached_recased hR he⟩
    refine any_eq_of_forall₂ (reached.imp fun v v' hv => ?_)
    exact PropertyTest.passes_ofRule_recased ht
      (fun j hj lists => blind ⟨ho, ⟨j, hj⟩, left, hl, lists⟩) hv.1 hv.2
  | some other =>
    rw [alone_condition_property ho, bind_eq_ok_iff] at hc
    obtain ⟨left, hl, hc⟩ := hc
    obtain ⟨right, hr, hc⟩ := bind_eq_ok_iff.mp hc
    obtain ⟨-, single, -, -, hc⟩ := Condition.ofProperties_eq_ok_iff.mp hc
    have typed := hasType_read_of_resolve hS hl single e
    obtain ⟨_, -, resolvesLeft⟩ := exists_segments hl
    obtain ⟨_, -, resolvesRight⟩ := exists_segments hr
    have readLeft := Accessor.read_recased (resolvesLeft.reached_recased hR he)
    have readRight := Accessor.read_recased (resolvesRight.reached_recased hR he)
    -- Properties that are compared with each other are single values, so neither is a list.
    split at hc
    · subst hc
      exact readLeft.equalBy_eq readRight
        (Value.items?_of_hasType typed (Bool.or_eq_false_iff.mp single).1)
    · obtain ⟨-, rfl⟩ := hc
      rw [Condition.holds, Condition.holds, Value.relatedBy, Value.relatedBy,
        readLeft.compareBy?_eq readRight]

/-- **A rule that compares no lists of strings cannot see letter case**, where case is ignored. -/
theorem verdict_eq_of_recased (hS : S.WellTyped) (h : S.Recased kind e e')
    {allowed : Option (List String)} (blind : ¬ r.ComparesLists S kind) :
    r.verdict S kind ⟨allowed, .ignoreCase⟩ e = r.verdict S kind ⟨allowed, .ignoreCase⟩ e' := by
  unfold verdict
  split
  · rfl
  · next hx =>
    rw [compileAlone_of_allows (FilterOptions.allowsRule_eq_true_iff.mpr hx)]
    cases hc : (r.condition : Resolving S kind _).alone with
    | error err => rfl
    | ok c =>
      simp only [Except.map, Predicate.holds_negateIf, Condition.predicate,
        holds_condition_recased hS h blind hc]

end Rule

end EntityQuery
