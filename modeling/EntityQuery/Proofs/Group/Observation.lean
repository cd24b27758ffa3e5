import EntityQuery.Proofs.Group.Sequence

/-!
# What a filter observes

With an allow list a filter looks at allowed properties only. A rule that names another one is
dropped before its paths are resolved; any other rule reads an entity through the accessors of its
own property and of the property that it compares with, and these are the two that have been
checked. Negations and connectives work on the results.

So no filter tells two entities apart on which all allowed paths reach the same values:
`Group.holds_compileAll_eq_of_agree`.
-/

namespace EntityQuery

open Outcome

/-! ### What a condition reads -/

theorem Accessor.read_eq_of_reached_eq {α : Type} {a : Accessor α} {e₁ e₂ : α}
    (h : a.reached e₁ = a.reached e₂) : a.read e₁ = a.read e₂ := by
  cases a with
  | member get => exact List.singleton_inj.mp h
  | guarded get => exact List.singleton_inj.mp h
  | quantified collect => exact congrArg Value.list h

namespace Condition

variable {α : Type} {mode : StringComparison} {e₁ e₂ : α}

/-- The accessors through which a condition reads an entity. -/
def accessors : Condition α → List (Accessor α)
  | .tests accessor _ => [accessor]
  | .equates left right => [left, right]
  | .relates left right _ => [left, right]

/-- A condition does not tell entities apart on which its accessors reach the same values. -/
theorem holds_eq_of_reached_eq {c : Condition α}
    (h : ∀ a ∈ c.accessors, a.reached e₁ = a.reached e₂) : c.holds mode e₁ = c.holds mode e₂ := by
  cases c with
  | tests accessor test =>
    have same := h accessor (by simp [accessors])
    rw [holds, holds, same]
  | equates left right =>
    have hl := Accessor.read_eq_of_reached_eq (h left (by simp [accessors]))
    have hr := Accessor.read_eq_of_reached_eq (h right (by simp [accessors]))
    rw [holds, holds, hl, hr]
  | relates left right relation =>
    have hl := Accessor.read_eq_of_reached_eq (h left (by simp [accessors]))
    have hr := Accessor.read_eq_of_reached_eq (h right (by simp [accessors]))
    rw [holds, holds, hl, hr]

theorem accessors_ofLiteral {r : Rule} {left : Resolved α} {c : Condition α}
    (h : ofLiteral r left = .ok c) : c.accessors = [left.accessor] := by
  obtain ⟨test, -, rfl⟩ := map_eq_ok_iff.mp h
  rfl

/-- What two properties must be for a rule to compare them. -/
theorem ofProperties_eq_ok_iff {r : Rule} {other : String} {left right : Resolved α}
    {c : Condition α} :
    ofProperties r other left right = .ok c ↔
      r.operator.comparesProperties = true ∧
        (left.isCollection || left.isQuantified) = false ∧
        (right.isCollection || right.isQuantified) = false ∧
        left.type.comparableWith right.type = true ∧
        match r.operator.positive.relation? with
        | none => c = .equates left.accessor right.accessor
        | some relation =>
          left.type.isOrdered = true ∧ c = .relates left.accessor right.accessor relation := by
  unfold ofProperties requireSingle
  cases r.operator.comparesProperties
  · simp [bind, Except.bind, throw, throwThe, MonadExceptOf.throw]
  cases left.isCollection || left.isQuantified
  swap
  · simp [bind, Except.bind]
  cases right.isCollection || right.isQuantified
  swap
  · simp [bind, Except.bind]
  cases left.type.comparableWith right.type
  · simp [bind, Except.bind, throw, throwThe, MonadExceptOf.throw]
  cases r.operator.positive.relation? with
  | none => simp [bind, Except.bind, pure, Except.pure, eq_comm]
  | some relation =>
    cases left.type.isOrdered <;>
      simp [bind, Except.bind, pure, Except.pure, throw, throwThe, MonadExceptOf.throw, eq_comm]

theorem accessors_ofProperties {r : Rule} {other : String} {left right : Resolved α}
    {c : Condition α} (h : ofProperties r other left right = .ok c) :
    c.accessors = [left.accessor, right.accessor] := by
  obtain ⟨-, -, -, -, hc⟩ := ofProperties_eq_ok_iff.mp h
  split at hc
  · rw [hc, accessors]
  · rw [hc.2, accessors]

end Condition

variable {S : Schema} {kind : S.Kind}

/-- Two entities cannot be told apart by the paths of a list: each of these paths that resolves
reaches the same values on both. -/
def Schema.AgreeOn (S : Schema) (kind : S.Kind) (paths : List String) (e₁ e₂ : S.Entity kind) :
    Prop :=
  ∀ path ∈ paths, ∀ r, S.resolve kind path = .ok r → r.accessor.reached e₁ = r.accessor.reached e₂

namespace Rule

/-- A rule reads an entity through its own property and the one that it compares with. -/
theorem accessors_condition {r : Rule} {c : Condition (S.Entity kind)}
    (h : (r.condition : Resolving S kind _).alone = .ok c) :
    ∀ a ∈ c.accessors, ∃ path side, (path = r.property ∨ r.otherProperty = some path) ∧
      S.resolve kind path = .ok side ∧ a = side.accessor := by
  cases ho : r.otherProperty with
  | none =>
    rw [alone_condition_literal ho, bind_eq_ok_iff] at h
    obtain ⟨left, hl, hc⟩ := h
    rw [Condition.accessors_ofLiteral hc]
    intro a ha
    obtain rfl := List.mem_singleton.mp ha
    exact ⟨r.property, left, .inl rfl, hl, rfl⟩
  | some other =>
    rw [alone_condition_property ho, bind_eq_ok_iff] at h
    obtain ⟨left, hl, h⟩ := h
    obtain ⟨right, hr, hc⟩ := bind_eq_ok_iff.mp h
    rw [Condition.accessors_ofProperties hc]
    intro a ha
    rcases List.mem_pair.mp ha with rfl | rfl
    · exact ⟨r.property, left, .inl rfl, hl, rfl⟩
    · exact ⟨other, right, .inr rfl, hr, rfl⟩

/-- A rule that is not excluded names allowed properties only. -/
theorem mem_of_not_excludes {r : Rule} {allowed : List String} {mode : StringComparison}
    (h : ¬ FilterOptions.Excludes ⟨some allowed, mode⟩ r) {path : String}
    (hp : path = r.property ∨ r.otherProperty = some path) : path ∈ allowed := by
  by_contra hn
  exact h ⟨allowed, rfl, path, hp, hn⟩

variable {allowed : List String} {mode : StringComparison} {e₁ e₂ : S.Entity kind}

/-- A rule on its own does not tell entities apart that agree on the allowed paths. -/
theorem verdict_eq_of_agree (h : S.AgreeOn kind allowed e₁ e₂) (r : Rule) :
    r.verdict S kind ⟨some allowed, mode⟩ e₁ = r.verdict S kind ⟨some allowed, mode⟩ e₂ := by
  unfold verdict
  split
  · rfl
  · next hx =>
    rw [compileAlone_of_allows (FilterOptions.allowsRule_eq_true_iff.mpr hx)]
    cases hc : (r.condition : Resolving S kind _).alone with
    | error err => rfl
    | ok c =>
      have same : c.holds mode e₁ = c.holds mode e₂ := by
        refine Condition.holds_eq_of_reached_eq fun a ha => ?_
        obtain ⟨path, side, hp, hs, rfl⟩ := accessors_condition hc a ha
        exact h path (mem_of_not_excludes hx hp) side hs
      simp only [Except.map, Predicate.holds_negateIf, Condition.predicate, same]

end Rule

namespace Group

variable {allowed : List String} {mode : StringComparison} {e₁ e₂ : S.Entity kind}

/-- Nor does a group that compiles. -/
theorem holds_compile_eq_of_agree (h : S.AgreeOn kind allowed e₁ e₂) {g : Group}
    {p : Predicate (S.Entity kind)} (hp : g.compile S kind ⟨some allowed, mode⟩ = .ok p) :
    p.holds e₁ = p.holds e₂ := by
  have same : Rule.verdict S kind ⟨some allowed, mode⟩ e₁ =
      Rule.verdict S kind ⟨some allowed, mode⟩ e₂ := funext (Rule.verdict_eq_of_agree h)
  rw [holds_eq_truth_deduplicated hp, holds_eq_truth_deduplicated hp, same]

theorem map_holds_eq_of_agree (h : S.AgreeOn kind allowed e₁ e₂) {groups : List Group}
    {ps : List (Predicate (S.Entity kind))}
    (hps : List.Forall₂ (fun g q => g.compile S kind ⟨some allowed, mode⟩ = .ok q) groups ps) :
    ps.map (fun q => q.holds e₁) = ps.map (fun q => q.holds e₂) := by
  induction hps with
  | nil => rfl
  | cons hg _ ih => rw [List.map_cons, List.map_cons, holds_compile_eq_of_agree h hg, ih]

/-- **A filter observes allowed properties only**: whatever its groups, their rules, operators and
negations are, it does not tell entities apart on which every allowed path that resolves reaches
the same values. -/
theorem holds_compileAll_eq_of_agree {groups : List Group} {p : Predicate (S.Entity kind)}
    (h : S.AgreeOn kind allowed e₁ e₂)
    (hp : compileAll S kind ⟨some allowed, mode⟩ groups = .ok p) : p.holds e₁ = p.holds e₂ := by
  obtain ⟨ps, hps, hp⟩ := exists_compile_of_compileAll hp
  rw [hp, hp, map_holds_eq_of_agree h hps]

/-- Two authors of one age with books of the same titles are not told apart by rules on their
names, however these are put. -/
theorem holds_compileAll_sameBooks :
    let allowed := ["age", "books[].title", "rank"]
    let conrad : Shelf.schema.Entity .author := Shelf.Author.mk "Conrad" 66
      (some ⟨"Nostromo", none⟩) (some [⟨"Nostromo", none⟩, ⟨"Typhoon", some ["storm"]⟩])
    let korzeniowski : Shelf.schema.Entity .author := Shelf.Author.mk "Korzeniowski" 66
      none (some [⟨"Nostromo", some ["sea"]⟩, ⟨"Typhoon", none⟩])
    let groups : List Group := [
      ⟨.and, .and, true, [.rule ⟨"name", .equal, some (.string "Conrad"), none, true⟩,
        .rule ⟨"age", .lessThan, none, some "name", false⟩,
        .rule ⟨"books[].title", .notIn, some (.array [.string "Typhoon"]), some "name", false⟩]⟩,
      ⟨.or, .or, false, [.rule ⟨"age", .greaterThan, none, some "age", true⟩]⟩]
    Shelf.schema.AgreeOn .author allowed conrad korzeniowski ∧
      ∃ p, compileAll Shelf.schema .author ⟨some allowed, .ordinal⟩ groups = .ok p ∧
        p.holds conrad = true ∧ p.holds conrad = p.holds korzeniowski := by
  intro allowed conrad korzeniowski groups
  have agree : Shelf.schema.AgreeOn .author allowed conrad korzeniowski := by
    intro path hp r hr
    simp only [allowed, List.mem_cons, List.not_mem_nil, or_false] at hp
    rcases hp with rfl | rfl | rfl
    · cases hr
      rfl
    · cases hr
      rfl
    · cases hr
  have run : (compileAll Shelf.schema .author ⟨some allowed, .ordinal⟩ groups).toOption.map
      (fun p => p.holds conrad) = some true := by decide +kernel
  obtain ⟨p, hp, hc⟩ := exists_of_toOption run
  exact ⟨agree, p, hp, hc, holds_compileAll_eq_of_agree agree hp⟩

end Group

end EntityQuery
