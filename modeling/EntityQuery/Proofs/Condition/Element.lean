import EntityQuery.Condition.Rule
import EntityQuery.Proofs.Condition.Pattern
import EntityQuery.Proofs.Outcome

/-!
# What passes an element test

The test that a literal becomes asks of one value what the operator says of it and the literal.
`ElementPasses` says it once more, with a rule for each way to pass, in terms of the value that
the literal converts to: equality, membership, order, bounds and the four tests of a text. Two
strings are equal, or in an order, as their folded forms are; of all other values equality and
order are those of values.

The main result is `ElementTest.passes_ofLiteral_iff`: a test that compiles is passed in just these ways.
-/

namespace EntityQuery

namespace Value

variable {mode : StringComparison} {v w : Value} {o : Ordering}

/-- Two values are equal, strings in their folded forms. -/
inductive EqualUnder (mode : StringComparison) : Value → Value → Prop where
  /-- Two strings whose folded forms are the same. -/
  | string {s t : String} : mode.fold s = mode.fold t → EqualUnder mode (.string s) (.string t)
  /-- Two equal values that are not both strings. -/
  | other {v w : Value} : v.string? = none ∨ w.string? = none → v.equal w = true →
      EqualUnder mode v w

/-- Two values are in an order, strings in that of their folded forms. -/
inductive OrderUnder (mode : StringComparison) : Value → Value → Ordering → Prop where
  /-- Two strings, as their folded forms are. -/
  | string {s t : String} :
      OrderUnder mode (.string s) (.string t) (compare (mode.fold s) (mode.fold t))
  /-- Two values that are not both strings and have an order. -/
  | other {v w : Value} {o : Ordering} : v.string? = none ∨ w.string? = none →
      compare? v w = some o → OrderUnder mode v w o

theorem equalBy_iff : v.equalBy mode w = true ↔ v.EqualUnder mode w := by
  unfold equalBy
  split
  · next s t =>
    rw [beq_iff_eq]
    constructor
    · exact .string
    · rintro (h | ⟨h, -⟩)
      · exact h
      · simp [string?] at h
  · next hne =>
    constructor
    · refine .other ?_
      cases v <;> cases w <;> simp_all [string?]
    · rintro (_ | ⟨-, h⟩)
      · exact (hne _ _ rfl rfl).elim
      · exact h

theorem compareBy?_iff : v.compareBy? mode w = some o ↔ v.OrderUnder mode w o := by
  unfold compareBy?
  split
  · next s t =>
    rw [Option.some.injEq]
    constructor
    · rintro rfl
      exact .string
    · rintro (_ | ⟨h, -⟩)
      · rfl
      · simp [string?] at h
  · next hne =>
    constructor
    · refine .other ?_
      cases v <;> cases w <;> simp_all [string?]
    · rintro (_ | ⟨-, h⟩)
      · exact (hne _ _ rfl rfl).elim
      · exact h

end Value

/-- The order that an operator asks for. -/
def Operator.Asks : Operator → Ordering → Prop
  | .greaterThan, o => o = .gt
  | .greaterThanOrEqual, o => o = .gt ∨ o = .eq
  | .lessThan, o => o = .lt
  | .lessThanOrEqual, o => o = .lt ∨ o = .eq
  | _, _ => False

/-- A value equals what the literal converts to. -/
def EqualsLiteral (mode : StringComparison) (t : ValueType) (j : Json) (x : Value) : Prop :=
  ∃ wanted, Literal.convert t j = .ok wanted ∧ x.EqualUnder mode wanted

/-- A value equals an item of the list that the literal converts to. -/
def EqualsMember (mode : StringComparison) (t : ValueType) (j : Json) (x : Value) : Prop :=
  ∃ items, Literal.convertList t j = .ok (.list items) ∧ ∃ m ∈ items, x.EqualUnder mode m

/-- A value of type `t` passes the test of an operator in positive form and a literal. -/
inductive ElementPasses (mode : StringComparison) (t : ValueType) (j : Json) :
    Operator → Value → Prop where
  /-- It equals a literal that is no array. -/
  | equal {x : Value} : j.isArray = false → EqualsLiteral mode t j x →
      ElementPasses mode t j .equal x
  /-- It equals an item of an array. -/
  | equalMember {x : Value} : j.isArray = true → EqualsMember mode t j x →
      ElementPasses mode t j .equal x
  /-- It is one of the list. -/
  | isIn {x : Value} : EqualsMember mode t j x → ElementPasses mode t j .isIn x
  /-- It equals the literal that some element is to equal. -/
  | any {x : Value} : EqualsLiteral mode t j x → ElementPasses mode t j .any x
  /-- It is no string, and contains the literal by being equal to it. -/
  | containsValue {x : Value} : t.isString = false → EqualsLiteral mode t j x →
      ElementPasses mode t j .contains x
  /-- It is a string with the literal somewhere in it. -/
  | containsText {s piece : String} : t.isString = true →
      Literal.convert t j = .ok (.string piece) → mode.Contains s piece →
      ElementPasses mode t j .contains (.string s)
  /-- It is a string with the literal at its start. -/
  | startsWith {s piece : String} : t.isString = true →
      Literal.convert t j = .ok (.string piece) → mode.StartsWith s piece →
      ElementPasses mode t j .startsWith (.string s)
  /-- It is a string with the literal at its end. -/
  | endsWith {s piece : String} : t.isString = true →
      Literal.convert t j = .ok (.string piece) → mode.EndsWith s piece →
      ElementPasses mode t j .endsWith (.string s)
  /-- It is a string that matches the literal as a pattern. -/
  | like {s pattern : String} : t.isString = true →
      Literal.convert t j = .ok (.string pattern) → Wildcard mode s pattern.toList →
      ElementPasses mode t j .like (.string s)
  /-- It is in the order that the operator asks for to the literal. -/
  | ordered {op : Operator} {x bound : Value} {o : Ordering} :
      Literal.convert t j = .ok bound → x.OrderUnder mode bound o → op.Asks o →
      ElementPasses mode t j op x
  /-- It is neither before the first nor after the second of two bounds. -/
  | between {x least most : Value} {o₁ o₂ : Ordering} :
      Literal.convertList t j = .ok (.list [least, most]) →
      x.OrderUnder mode least o₁ → o₁ ≠ .lt → x.OrderUnder mode most o₂ → o₂ ≠ .gt →
      ElementPasses mode t j .between x

namespace ElementTest

variable {mode : StringComparison} {r : Rule} {op : Operator} {t : ValueType} {j : Json}
  {x : Value} {test : ElementTest}

/-! ### Passing the tests one by one -/

theorem passes_ofEqual_iff (h : ofEqual t j = .ok test) :
    test.passes mode x = true ↔ EqualsLiteral mode t j x := by
  obtain ⟨wanted, hw, rfl⟩ := Outcome.map_eq_ok_iff.mp h
  rw [passes, Value.equalBy_iff]
  constructor
  · exact fun hx => ⟨wanted, hw, hx⟩
  · rintro ⟨v, hv, hx⟩
    rw [hw] at hv
    exact Except.ok.inj hv ▸ hx

/-- The items that a literal stands for are those of the list that it converts to. -/
theorem mem_members_iff {items : List Value} (h : members t j = .ok items) {m : Value} :
    m ∈ items ↔ ∃ list, Literal.convertList t j = .ok (.list list) ∧ m ∈ list := by
  obtain ⟨v, hv, rfl⟩ := Outcome.map_eq_ok_iff.mp h
  rw [hv]
  cases v <;> simp [Value.items?]

theorem passes_ofMembers_iff (h : ofMembers t j = .ok test) :
    test.passes mode x = true ↔ EqualsMember mode t j x := by
  obtain ⟨items, hi, rfl⟩ := Outcome.map_eq_ok_iff.mp h
  simp only [passes, List.any_eq_true, Value.equalBy_iff, mem_members_iff hi, EqualsMember]
  constructor
  · rintro ⟨m, ⟨list, hl, hm⟩, hx⟩
    exact ⟨list, hl, m, hm, hx⟩
  · rintro ⟨list, hl, m, hm, hx⟩
    exact ⟨m, ⟨list, hl, hm⟩, hx⟩

theorem convert_string_eq_ok_iff {piece : String} :
    Literal.convert .string j = .ok (.string piece) ↔ Literal.toString? j = some piece := by
  cases j <;> simp [Literal.convert, Literal.scalar, Literal.toScalar?, Literal.toString?,
    Json.isNull]

theorem isString_iff : t.isString = true ↔ t = .string := by
  cases t <;> simp [ValueType.isString]

theorem passes_ofText_iff {pattern : String → Pattern} (h : ofText r t j pattern = .ok test) :
    test.passes mode x = true ↔ ∃ s piece, x = .string s ∧ t.isString = true ∧
      Literal.convert t j = .ok (.string piece) ∧ (pattern piece).accepts mode s = true := by
  unfold ofText at h
  split at h
  · next ht =>
    obtain ⟨piece, hp, rfl⟩ := Outcome.map_eq_ok_iff.mp h
    obtain rfl := isString_iff.mp ht
    have hj : Literal.toString? j = some piece := by
      unfold textOf at hp
      split at hp
      · next s hs => rw [hs, Except.ok.inj hp]
      · cases hp
    simp only [convert_string_eq_ok_iff, hj, passes]
    cases x <;> simp [Value.string?, ValueType.isString]
  · cases h

/-- A relation accepts the order of two values, if there is one that the operator asks for. -/
theorem relatedBy_iff {relation : Relation} {v w : Value} (hr : op.relation? = some relation) :
    v.relatedBy mode relation w = true ↔ ∃ o, v.OrderUnder mode w o ∧ op.Asks o := by
  have accepts_iff : ∀ o, relation.accepts o = true ↔ op.Asks o := by
    intro o
    cases op <;> simp only [Operator.relation?, Option.some.injEq, reduceCtorEq] at hr <;>
      subst hr <;> cases o <;> simp [Relation.accepts, Operator.Asks]
  simp only [Value.relatedBy, Option.any_eq_true, Value.compareBy?_iff, accepts_iff]

theorem passes_relates_iff {relation : Relation} (hr : op.relation? = some relation)
    (h : (Literal.convert t j).map (ElementTest.relates relation) = .ok test) :
    test.passes mode x = true ↔
      ∃ bound o, Literal.convert t j = .ok bound ∧ x.OrderUnder mode bound o ∧ op.Asks o := by
  obtain ⟨bound, hb, rfl⟩ := Outcome.map_eq_ok_iff.mp h
  rw [passes, relatedBy_iff hr, hb]
  simp only [Except.ok.injEq, exists_eq_left', exists_and_left]

/-- Two bounds are the two items of the list that the literal converts to; neither is null. -/
theorem exists_bounds (h : (members t j).bind (ofBounds t j) = .ok test) :
    ∃ least most, Literal.convertList t j = .ok (.list [least, most]) ∧
      (least ≠ .null ∧ most ≠ .null) ∧ test = .within least most := by
  obtain ⟨items, hi, hb⟩ := Outcome.bind_eq_ok_iff.mp h
  obtain ⟨v, hv, rfl⟩ := Outcome.map_eq_ok_iff.mp hi
  unfold ofBounds at hb
  split at hb
  · next least most hl =>
    split at hb
    · cases hb
    · next present =>
      rw [Bool.or_eq_true, not_or] at present
      have notNull : least ≠ .null ∧ most ≠ .null :=
        ⟨fun null => present.1 (null ▸ rfl), fun null => present.2 (null ▸ rfl)⟩
      cases v with
      | list items => exact ⟨least, most, by rw [hv]; exact congrArg _ (congrArg _ hl), notNull,
          (Except.ok.inj hb).symm⟩
      | _ => simp [Value.items?] at hl
  · cases hb

theorem passes_within_iff {least most : Value} :
    (within least most).passes mode x = true ↔
      ∃ o₁ o₂, x.OrderUnder mode least o₁ ∧ o₁ ≠ .lt ∧ x.OrderUnder mode most o₂ ∧ o₂ ≠ .gt := by
  simp only [passes, Value.relatedBy, Bool.and_eq_true, Option.any_eq_true, Value.compareBy?_iff,
    Relation.accepts, bne_iff_ne]
  constructor
  · rintro ⟨⟨o₁, h₁, n₁⟩, o₂, h₂, n₂⟩
    exact ⟨o₁, o₂, h₁, n₁, h₂, n₂⟩
  · rintro ⟨o₁, o₂, h₁, n₁, h₂, n₂⟩
    exact ⟨⟨o₁, h₁, n₁⟩, o₂, h₂, n₂⟩

/-! ### Passing the test of an operator -/

/-- Passing the test of an operator that asks for an order. -/
theorem elementPasses_ordered_iff {relation : Relation} (hr : op.relation? = some relation) :
    ElementPasses mode t j op x ↔
      ∃ bound o, Literal.convert t j = .ok bound ∧ x.OrderUnder mode bound o ∧ op.Asks o := by
  constructor
  · intro h
    cases h with
    | ordered hc ho ha => exact ⟨_, _, hc, ho, ha⟩
    | _ => cases hr
  · rintro ⟨bound, o, hc, ho, ha⟩
    exact .ordered hc ho ha

theorem passes_ofLiteral_ordered_iff {relation : Relation} (hr : op.relation? = some relation)
    (h : ofLiteral r op t j = .ok test) :
    test.passes mode x = true ↔ ElementPasses mode t j op x := by
  have hm : (Literal.convert t j).map (ElementTest.relates relation) = .ok test := by
    cases op <;> cases hr <;> (simp only [ofLiteral, Operator.relation?] at h; split at h) <;>
      first | exact h | cases h
  rw [passes_relates_iff hr hm, elementPasses_ordered_iff hr]

theorem passes_ofLiteral_equal_iff (h : ofLiteral r .equal t j = .ok test) :
    test.passes mode x = true ↔ ElementPasses mode t j .equal x := by
  rw [ofLiteral] at h
  split at h
  · next ha =>
    rw [passes_ofMembers_iff h]
    refine ⟨.equalMember ha, fun hp => ?_⟩
    cases hp with
    | equal hn _ => simp [ha] at hn
    | equalMember _ hm => exact hm
    | ordered _ _ hn => exact hn.elim
  · next ha =>
    rw [passes_ofEqual_iff h]
    refine ⟨.equal (by simpa using ha), fun hp => ?_⟩
    cases hp with
    | equal _ he => exact he
    | equalMember hn _ => exact (ha hn).elim
    | ordered _ _ hn => exact hn.elim

theorem passes_ofLiteral_contains_iff (h : ofLiteral r .contains t j = .ok test) :
    test.passes mode x = true ↔ ElementPasses mode t j .contains x := by
  rw [ofLiteral] at h
  split at h
  · next ht =>
    rw [passes_ofText_iff h]
    constructor
    · rintro ⟨s, piece, rfl, hs, hc, ha⟩
      exact .containsText hs hc (Pattern.accepts_contains_iff.mp ha)
    · intro hp
      cases hp with
      | containsValue hn _ => simp [ht] at hn
      | containsText hs hc ha => exact ⟨_, _, rfl, hs, hc, Pattern.accepts_contains_iff.mpr ha⟩
      | ordered _ _ hn => exact hn.elim
  · next ht =>
    rw [passes_ofEqual_iff h]
    refine ⟨.containsValue (by simpa using ht), fun hp => ?_⟩
    cases hp with
    | containsValue _ he => exact he
    | containsText hs _ _ => exact (ht hs).elim
    | ordered _ _ hn => exact hn.elim

theorem passes_ofLiteral_between_iff (h : ofLiteral r .between t j = .ok test) :
    test.passes mode x = true ↔ ElementPasses mode t j .between x := by
  rw [ofLiteral] at h
  split at h
  · obtain ⟨least, most, hc, -, rfl⟩ := exists_bounds h
    rw [passes_within_iff]
    constructor
    · rintro ⟨o₁, o₂, h₁, n₁, h₂, n₂⟩
      exact .between hc h₁ n₁ h₂ n₂
    · intro hp
      cases hp with
      | between hc' h₁ n₁ h₂ n₂ =>
        rw [hc] at hc'
        cases hc'
        exact ⟨_, _, h₁, n₁, h₂, n₂⟩
      | ordered _ _ hn => exact hn.elim
  · cases h

/-- **A test that compiles** is passed by just the values that the operator says. -/
theorem passes_ofLiteral_iff (h : ofLiteral r op t j = .ok test) :
    test.passes mode x = true ↔ ElementPasses mode t j op x := by
  cases op with
  | greaterThan => exact passes_ofLiteral_ordered_iff rfl h
  | greaterThanOrEqual => exact passes_ofLiteral_ordered_iff rfl h
  | lessThan => exact passes_ofLiteral_ordered_iff rfl h
  | lessThanOrEqual => exact passes_ofLiteral_ordered_iff rfl h
  | equal => exact passes_ofLiteral_equal_iff h
  | contains => exact passes_ofLiteral_contains_iff h
  | between => exact passes_ofLiteral_between_iff h
  | isIn =>
    rw [passes_ofMembers_iff h]
    refine ⟨.isIn, fun hp => ?_⟩
    cases hp with
    | isIn hm => exact hm
    | ordered _ _ hn => exact hn.elim
  | startsWith =>
    rw [passes_ofText_iff h]
    constructor
    · rintro ⟨s, piece, rfl, hs, hc, ha⟩
      exact .startsWith hs hc (Pattern.accepts_startsWith_iff.mp ha)
    · intro hp
      cases hp with
      | startsWith hs hc ha => exact ⟨_, _, rfl, hs, hc, Pattern.accepts_startsWith_iff.mpr ha⟩
      | ordered _ _ hn => exact hn.elim
  | endsWith =>
    rw [passes_ofText_iff h]
    constructor
    · rintro ⟨s, piece, rfl, hs, hc, ha⟩
      exact .endsWith hs hc (Pattern.accepts_endsWith_iff.mp ha)
    · intro hp
      cases hp with
      | endsWith hs hc ha => exact ⟨_, _, rfl, hs, hc, Pattern.accepts_endsWith_iff.mpr ha⟩
      | ordered _ _ hn => exact hn.elim
  | like =>
    rw [passes_ofText_iff h]
    constructor
    · rintro ⟨s, pattern, rfl, hs, hc, ha⟩
      exact .like hs hc (Pattern.accepts_ofText_iff.mp ha)
    · intro hp
      cases hp with
      | like hs hc ha => exact ⟨_, _, rfl, hs, hc, Pattern.accepts_ofText_iff.mpr ha⟩
      | ordered _ _ hn => exact hn.elim
  | _ => cases h

end ElementTest

end EntityQuery
