import EntityQuery.Condition.Rule
import EntityQuery.Proofs.Outcome
import EntityQuery.Proofs.Path.Cache

/-!
# Rules on their own

A rule compiles to the same predicate, or fails with the same error, whatever paths have been
resolved before it. `Rule.compileAlone` is that outcome, and says what a rule means on its own.
A rule that is excluded, because it names a property outside the allowed ones, has the constant
predicate; of any other the outcome is put together from what its paths resolve to.
-/

namespace EntityQuery

variable {S : Schema} {kind : S.Kind}

/-- The rule names a property outside the allowed ones, or compares with one. -/
def FilterOptions.Excludes (o : FilterOptions) (r : Rule) : Prop :=
  ∃ allowed, o.allowed = some allowed ∧
    ∃ path, (path = r.property ∨ r.otherProperty = some path) ∧ path ∉ allowed

theorem FilterOptions.allowsRule_eq_false_iff {o : FilterOptions} {r : Rule} :
    o.allowsRule r = false ↔ o.Excludes r := by
  unfold allowsRule allows Excludes
  cases o.allowed with
  | none => cases r.otherProperty <;> simp
  | some allowed =>
    cases r.otherProperty with
    | none => simp
    | some other => simp [or_and_right, exists_or, Decidable.imp_iff_not_or]

theorem FilterOptions.allowsRule_eq_true_iff {o : FilterOptions} {r : Rule} :
    o.allowsRule r = true ↔ ¬ o.Excludes r := by
  rw [← allowsRule_eq_false_iff, Bool.not_eq_false]

/-- The test of a rule with a literal. -/
theorem PropertyTest.ofRule_literal {r : Rule} {t : ValueType} {j : Json}
    (h : r.literal = some j) :
    ofRule r t =
      if r.operator.positive = .any then
        if t.isCollection then (ElementTest.ofEqual t.leaf j).map .someElement
        else .error (r.unsupported r.property t)
      else (ElementTest.ofLiteral r r.operator.positive t.leaf j).map (lift t) := by
  unfold ofRule
  rw [h]
  cases r.operator.positive <;> rfl

/-- The test of a rule without a literal: of a list having an element, or of null. -/
theorem PropertyTest.of_ofRule_absent {r : Rule} {t : ValueType} {test : PropertyTest}
    (hl : r.literal = none) (h : ofRule r t = .ok test) :
    (r.operator.positive = .any ∧ test = .hasElement) ∨
      (r.operator.positive = .equal ∧ test = .isNull) := by
  unfold ofRule at h
  rw [hl] at h
  split at h
  · next any =>
    split at h
    · exact .inl ⟨any, (Except.ok.inj h).symm⟩
    · cases h
  · next equal _ => exact .inr ⟨equal, (Except.ok.inj h).symm⟩
  · cases h
  · next none _ => cases none

namespace Rule

variable {o : FilterOptions} {r : Rule}

/-- The predicate of a rule that compiles with nothing remembered, or its error. -/
def compileAlone (S : Schema) (kind : S.Kind) (o : FilterOptions) (r : Rule) :
    Except CompileError (Predicate (S.Entity kind)) :=
  Resolving.alone (r.compile o)

/-! ### The paths of a rule do not depend on the cache -/

theorem transparent_condition (r : Rule) :
    (r.condition : Resolving S kind _).Transparent := by
  unfold condition
  refine (Resolving.transparent_resolve _).bind fun left => ?_
  cases r.otherProperty with
  | none => exact Resolving.transparent_liftExcept _
  | some other =>
    exact (Resolving.transparent_resolve _).bind fun _ => Resolving.transparent_liftExcept _

theorem transparent_compile (o : FilterOptions) (r : Rule) :
    (r.compile o : Resolving S kind _).Transparent := by
  unfold compile
  split
  · exact Resolving.transparent_pure _
  · exact (transparent_condition r).bind fun _ => Resolving.transparent_pure _

/-- The condition of a rule on a property and a literal. -/
theorem alone_condition_literal (h : r.otherProperty = none) :
    (r.condition : Resolving S kind _).alone =
      S.resolve kind r.property >>= Condition.ofLiteral r := by
  unfold condition
  rw [(Resolving.transparent_resolve _).alone_bind, Resolving.alone_resolve]
  · simp [h]
  · intro left
    simp only [h]
    exact Resolving.transparent_liftExcept _

/-- The condition of a rule on two properties. -/
theorem alone_condition_property {other : String} (h : r.otherProperty = some other) :
    (r.condition : Resolving S kind _).alone =
      S.resolve kind r.property >>= fun left =>
        S.resolve kind other >>= Condition.ofProperties r other left := by
  have right (left : Resolved (S.Entity kind)) : Resolving.Transparent
      (PathCache.resolve other >>= fun right =>
        liftExcept (Condition.ofProperties r other left right) : Resolving S kind _) :=
    (Resolving.transparent_resolve _).bind fun _ => Resolving.transparent_liftExcept _
  unfold condition
  simp only [h]
  rw [(Resolving.transparent_resolve _).alone_bind right, Resolving.alone_resolve]
  congr 1
  funext left
  rw [(Resolving.transparent_resolve _).alone_bind fun _ => Resolving.transparent_liftExcept _,
    Resolving.alone_resolve]
  simp only [Resolving.alone_liftExcept]

theorem compileAlone_of_excludes (h : o.Excludes r) :
    r.compileAlone S kind o = .ok (.constant true) := by
  rw [compileAlone, compile, FilterOptions.allowsRule_eq_false_iff.mpr h]
  rfl

theorem compileAlone_of_allows (h : o.allowsRule r = true) :
    r.compileAlone S kind o = (r.condition : Resolving S kind _).alone.map fun c =>
      ((c.predicate o.comparison).negateIf r.operator.isNegative).negateIf r.negated := by
  rw [compileAlone, compile, h]
  simp only [Bool.not_true, Bool.false_eq_true, if_false]
  rw [(transparent_condition r).alone_bind fun _ => Resolving.transparent_pure _]
  cases (r.condition : Resolving S kind _).alone <;> rfl

/-- A rule outside the allowed properties is never the source of an error. -/
theorem allowsRule_of_compileAlone_eq_error {err : CompileError}
    (h : r.compileAlone S kind o = .error err) : o.allowsRule r = true := by
  rw [FilterOptions.allowsRule_eq_true_iff]
  intro he
  rw [compileAlone_of_excludes he] at h
  cases h

/-- A rule with a literal compiles if its path resolves and its test is made. -/
theorem compileAlone_of_test {left : Resolved (S.Entity kind)} {test : PropertyTest}
    (ha : o.allowsRule r = true) (hr : r.otherProperty = none)
    (hl : S.resolve kind r.property = .ok left) (ht : PropertyTest.ofRule r left.type = .ok test) :
    r.compileAlone S kind o = .ok ((((Condition.tests left.accessor test).predicate
      o.comparison).negateIf r.operator.isNegative).negateIf r.negated) := by
  have made : Condition.ofLiteral r left = .ok (.tests left.accessor test) := by
    rw [Condition.ofLiteral, ht]
    rfl
  rw [compileAlone_of_allows ha, alone_condition_literal hr, hl]
  change (Condition.ofLiteral r left).map _ = _
  rw [made]
  rfl

/-- What a rule with a literal compiles to. -/
theorem exists_test_of_compileAlone {p : Predicate (S.Entity kind)}
    (ha : o.allowsRule r = true) (hr : r.otherProperty = none)
    (h : r.compileAlone S kind o = .ok p) :
    ∃ left test, S.resolve kind r.property = .ok left ∧
      PropertyTest.ofRule r left.type = .ok test ∧
      ∀ e, p.holds e = (r.negated ^^ (r.operator.isNegative ^^
        (Condition.tests left.accessor test).holds o.comparison e)) := by
  rw [compileAlone_of_allows ha, alone_condition_literal hr, Outcome.map_eq_ok_iff] at h
  obtain ⟨c, hc, rfl⟩ := h
  obtain ⟨left, hl, hc⟩ := Outcome.bind_eq_ok_iff.mp hc
  obtain ⟨test, ht, rfl⟩ := Outcome.map_eq_ok_iff.mp hc
  exact ⟨left, test, hl, ht, fun e => by simp [Condition.predicate]⟩

end Rule

end EntityQuery
