import EntityQuery.Proofs.Literal.Twin
import EntityQuery.Proofs.Rule.Compile

/-!
# Rules that count as the same

Rules that count as the same have one property, one operator and twin literals. So they compile
alike: if one of them fails the other does, and if they compile they hold of the same entities,
unless they compare texts. A rule *reads text* if its property is a string or a list of them, for
there the two float zeros become different texts.

The main result is `Rule.alike_compileAlone`.
-/

namespace EntityQuery

open Outcome

/-! ### Tests -/

/-- Two tests are passed by the same values, if texts do not matter. -/
def ElementTest.Agree (text : Prop) (a b : ElementTest) : Prop :=
  ¬ text → ∀ mode v, a.passes mode v = b.passes mode v

/-- Two tests of a property are passed by the same values, if texts do not matter. -/
def PropertyTest.Agree (text : Prop) (a b : PropertyTest) : Prop :=
  ¬ text → ∀ mode v, a.passes mode v = b.passes mode v

namespace ElementTest

variable {text : Prop} {t : ValueType} {j k : Json} {v w : Value} {vs ws : List Value}

theorem agree_equals (h : Value.Twin text v w) : Agree text (.equals v) (.equals w) :=
  fun ht _ x => h.equalBy_eq ht x

theorem agree_isOneOf (h : List.Forall₂ (Value.Twin text) vs ws) :
    Agree text (.isOneOf vs) (.isOneOf ws) := by
  intro ht mode x
  simp only [passes]
  induction h with
  | nil => rfl
  | cons hv _ ih => rw [List.any_cons, List.any_cons, hv.equalBy_eq ht, ih]

theorem agree_relates (relation : Relation) (h : Value.Twin text v w) :
    Agree text (.relates relation v) (.relates relation w) := by
  intro ht mode x
  simp only [passes, Value.relatedBy, h.compareBy?_eq ht]

theorem agree_within {v' w' : Value} (h : Value.Twin text v w) (h' : Value.Twin text v' w') :
    Agree text (.within v v') (.within w w') := by
  intro ht mode x
  simp only [passes, Value.relatedBy, h.compareBy?_eq ht, h'.compareBy?_eq ht]

theorem alike_members (t : ValueType) (h : j.Twin k) :
    Alike (List.Forall₂ (Value.Twin (t.base = .string))) (members t j) (members t k) :=
  (Literal.alike_convertList t h).map fun _ _ hvw => hvw.items

theorem alike_ofEqual (t : ValueType) (h : j.Twin k) :
    Alike (Agree (t.base = .string)) (ofEqual t j) (ofEqual t k) :=
  (Literal.alike_convert t h).map fun _ _ => agree_equals

theorem alike_ofMembers (t : ValueType) (h : j.Twin k) :
    Alike (Agree (t.base = .string)) (ofMembers t j) (ofMembers t k) :=
  (alike_members t h).map fun _ _ => agree_isOneOf

theorem alike_ofBounds (h : List.Forall₂ (Value.Twin text) vs ws) :
    Alike (Agree text) (ofBounds t j vs) (ofBounds t k ws) := by
  rcases h with _ | ⟨h₁, _ | ⟨h₂, _ | ⟨h₃, h⟩⟩⟩
  · exact .error _ _
  · exact .error _ _
  · simp only [ofBounds, h₁.isNull_eq, h₂.isNull_eq]
    split
    · exact .error _ _
    · exact .ok (agree_within h₁ h₂)
  · exact .error _ _

theorem alike_textOf (t : ValueType) (h : j.Twin k) :
    Alike (fun _ _ => True) (textOf t j) (textOf t k) := by
  cases h with
  | refl => exact .refl (fun _ => trivial) _
  | zero b c => exact .ok trivial
  | array _ => exact .error _ _
  | object fs gs => exact .error _ _

/-- A test of a text is one for strings only. -/
theorem alike_ofText (r s : Rule) (h : j.Twin k) (pattern : String → Pattern) :
    Alike (Agree (t.base = .string)) (ofText r t j pattern) (ofText s t k pattern) := by
  unfold ofText
  split
  · next ht =>
    have hs : t.base = .string := by
      cases t <;> first | rfl | cases ht
    exact (alike_textOf t h).map fun _ _ _ hn => absurd hs hn
  · exact .error _ _

/-- Twins become tests that agree, whatever the operator. -/
theorem alike_ofLiteral (r s : Rule) (op : Operator) (t : ValueType) (h : j.Twin k) :
    Alike (Agree (t.base = .string)) (ofLiteral r op t j) (ofLiteral s op t k) := by
  have ordered (relation : Relation) : Alike (Agree (t.base = .string))
      (if t.isOrdered then (Literal.convert t j).map (.relates relation)
        else .error (r.unsupported r.property t))
      (if t.isOrdered then (Literal.convert t k).map (.relates relation)
        else .error (s.unsupported s.property t)) := by
    split
    · exact (Literal.alike_convert t h).map fun _ _ => agree_relates relation
    · exact .error _ _
  cases op with
  | equal =>
    simp only [ofLiteral, h.isArray_eq]
    split
    · exact alike_ofMembers t h
    · exact alike_ofEqual t h
  | isIn => exact alike_ofMembers t h
  | like => exact alike_ofText r s h _
  | startsWith => exact alike_ofText r s h _
  | endsWith => exact alike_ofText r s h _
  | contains =>
    simp only [ofLiteral]
    split
    · exact alike_ofText r s h _
    · exact alike_ofEqual t h
  | between =>
    simp only [ofLiteral]
    split
    · exact (alike_members t h).bind fun _ _ => alike_ofBounds
    · exact .error _ _
  | greaterThan => exact ordered .greater
  | greaterThanOrEqual => exact ordered .greaterOrEqual
  | lessThan => exact ordered .less
  | lessThanOrEqual => exact ordered .lessOrEqual
  | _ => exact .error _ _

end ElementTest

namespace Rule

variable {S : Schema} {kind : S.Kind} {o : FilterOptions} {r s : Rule}

/-! ### The parts of rules -/

/-- Two optional literals of which there is neither, or both and they are twins. -/
inductive TwinLiterals : Option Json → Option Json → Prop where
  /-- There is no literal. -/
  | none : TwinLiterals none none
  /-- Both are there. -/
  | some {j k : Json} : j.Twin k → TwinLiterals (some j) (some k)

/-- Rules that count as the same differ at most in their literals. -/
theorem eq_with_value_of_same (h : r.same s = true) :
    ∃ w, s = { r with value := w } ∧ sameValue r.value w = true := by
  obtain ⟨property, operator, value, compareTo, negated⟩ := r
  obtain ⟨property', operator', value', compareTo', negated'⟩ := s
  simp only [same, Bool.and_eq_true, beq_iff_eq] at h
  obtain ⟨⟨⟨⟨rfl, rfl⟩, hv⟩, rfl⟩, rfl⟩ := h
  exact ⟨value', rfl, hv⟩

theorem twinLiterals_of_sameValue {w : Option Json} (h : sameValue r.value w = true) :
    TwinLiterals r.literal ({ r with value := w } : Rule).literal := by
  unfold literal
  cases hr : r.value with
  | none =>
    rw [hr] at h
    cases w with
    | none => exact .none
    | some k => cases h
  | some j =>
    rw [hr] at h
    cases w with
    | none => cases h
    | some k =>
      have ht : j.Twin k := .of_same j k h
      simp only [Option.filter_some, ht.isNull_eq]
      split
      · exact .some ht
      · exact .none

/-! ### Compiling rules that count as the same -/

/-- The literal of the rule is compared with texts: its property is a string, or a list of them. -/
def ReadsText (S : Schema) (kind : S.Kind) (r : Rule) : Prop :=
  r.otherProperty = none ∧
    ∃ left, S.resolve kind r.property = .ok left ∧ left.type.base = .string

end Rule

theorem ValueType.base_leaf (t : ValueType) : t.leaf.base = t.base := by
  cases t <;> rfl

/-- Rules with twin literals become tests that agree. -/
theorem PropertyTest.alike_ofRule {r : Rule} {w : Option Json} (t : ValueType)
    (h : Rule.TwinLiterals r.literal ({ r with value := w } : Rule).literal) :
    Alike (Agree (t.base = .string)) (ofRule r t) (ofRule { r with value := w } t) := by
  have some_element {a b : ElementTest} (hab : a.Agree (t.leaf.base = .string) b) :
      Agree (t.base = .string) (.someElement a) (.someElement b) := by
    intro ht mode v
    rw [← t.base_leaf] at ht
    simp only [passes, hab ht]
  have lifted {a b : ElementTest} (hab : a.Agree (t.leaf.base = .string) b) :
      Agree (t.base = .string) (lift t a) (lift t b) := by
    unfold lift
    split
    · exact some_element hab
    · intro ht mode v
      rw [← t.base_leaf] at ht
      exact hab ht mode v
  generalize hj : r.literal = literal at h
  generalize hk : ({ r with value := w } : Rule).literal = literal' at h
  cases h with
  | none =>
    unfold ofRule
    rw [hj, hk]
    exact .refl (fun _ _ _ _ => rfl) _
  | some hjk =>
    rw [ofRule_literal hj, ofRule_literal hk]
    dsimp only
    split
    · split
      · exact (ElementTest.alike_ofEqual t.leaf hjk).map fun _ _ => some_element
      · exact .error _ _
    · exact (ElementTest.alike_ofLiteral _ _ _ t.leaf hjk).map fun _ _ => lifted

namespace Rule

variable {S : Schema} {kind : S.Kind} {o : FilterOptions} {r s : Rule}

/-- Predicates that hold of the same entities, unless the rule reads text. -/
def Agree (S : Schema) (kind : S.Kind) (r : Rule) (p q : Predicate (S.Entity kind)) : Prop :=
  ¬ r.ReadsText S kind → ∀ e, p.holds e = q.holds e

/-- The conditions of two rules that count as the same hold alike, unless they read text. -/
theorem alike_condition {w : Option Json} (h : sameValue r.value w = true) :
    Alike (fun c d => ¬ r.ReadsText S kind → ∀ mode e, c.holds mode e = d.holds mode e)
      (r.condition : Resolving S kind _).alone
      ({ r with value := w }.condition : Resolving S kind _).alone := by
  cases hp : r.otherProperty with
  | some other =>
    rw [alone_condition_property hp, alone_condition_property (r := { r with value := w }) hp]
    exact .refl (fun _ _ _ _ => rfl) _
  | none =>
    rw [alone_condition_literal hp, alone_condition_literal (r := { r with value := w }) hp]
    cases hl : S.resolve kind r.property with
    | error err => exact .error _ _
    | ok left =>
      refine (PropertyTest.alike_ofRule left.type (twinLiterals_of_sameValue h)).map ?_
      intro a b hab hn mode e
      have ht : ¬ left.type.base = .string := fun ht => hn ⟨hp, left, hl, ht⟩
      simp only [Condition.holds, hab ht]

/-- **Rules that count as the same compile alike**: both fail, or to predicates that hold of the
same entities, unless they read text. -/
theorem alike_compileAlone (h : r.same s = true) :
    Alike (Agree S kind r) (r.compileAlone S kind o) (s.compileAlone S kind o) := by
  obtain ⟨w, rfl, hw⟩ := eq_with_value_of_same h
  cases ha : o.allowsRule r with
  | false =>
    have he := FilterOptions.allowsRule_eq_false_iff.mp ha
    rw [compileAlone_of_excludes he, compileAlone_of_excludes (r := { r with value := w }) he]
    exact .ok fun _ _ => rfl
  | true =>
    rw [compileAlone_of_allows ha, compileAlone_of_allows (r := { r with value := w }) ha]
    refine (alike_condition hw).map fun c d hcd hn e => ?_
    simp only [Predicate.holds_negateIf, Condition.predicate, hcd hn]

end Rule

end EntityQuery
