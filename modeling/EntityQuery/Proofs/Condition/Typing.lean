import EntityQuery.Proofs.Condition.Comparison
import EntityQuery.Proofs.Literal.Typing

/-!
# Typed conditions

A comparison is *typed* if its values belong to types that it is defined for: equality to one type,
or to two that may be compared with each other; an order moreover to types with a meaningful order;
a text to the type of strings. A test is typed for a type if all its comparisons are, whatever value
of this type it is made of, and a condition if this is so for all entities.

Typed comparisons are of values that may be compared, and an order is missing only where one of the
two has none to any value (`Comparison.Typed.compatible`, `Comparison.Typed.unordered`). The bounds
of a test do have one.
-/

namespace EntityQuery

variable {v w : Value} {t u : ValueType}

/-! ### Comparisons -/

/-- Values of the two types are compared with each other. -/
def ValueType.Meets (t u : ValueType) : Prop := t = u ∨ t.comparableWith u = true

theorem ValueType.Meets.category_eq (h : t.Meets u) : t.category = u.category := by
  rcases h with rfl | h
  · rfl
  · exact (Value.category_eq_of_comparableWith h).1

namespace Comparison

/-- The values may be compared in this way. -/
def Compatible : Comparison → Prop
  | .equality v w | .order v w => v.Compatible w
  | .text _ v => v = .null ∨ v.category? = some .string

/-- The values belong to types that may be compared in this way. -/
inductive Typed : Comparison → Prop where
  /-- Equality of values of two types. -/
  | equality {v w : Value} {t u : ValueType} : t.Meets u → v.HasType t → w.HasType u →
      Typed (.equality v w)
  /-- The order of values of two types with a meaningful order. -/
  | order {v w : Value} {t u : ValueType} : t.Meets u → t.isOrdered = true → v.HasType t →
      w.HasType u → Typed (.order v w)
  /-- The text of a string. -/
  | text {v : Value} (pattern : Pattern) : v.HasType .string → Typed (.text pattern v)

theorem compatible_of_meets (h : t.Meets u) (hv : v.HasType t) (hw : w.HasType u) :
    v.Compatible w := by
  rcases h with rfl | h
  · exact Value.compatible_of_hasType hv hw
  · exact Value.compatible_of_comparableWith hv hw h

/-- Values of types that may be compared may be compared. -/
theorem Typed.compatible {q : Comparison} (h : q.Typed) : q.Compatible := by
  cases h with
  | equality meets hv hw => exact compatible_of_meets meets hv hw
  | order meets _ hv hw => exact compatible_of_meets meets hv hw
  | text pattern hv => exact hv.category?_eq

/-- They are without order only if one of them is without order to any value. -/
theorem Typed.unordered {mode : StringComparison} (h : (Comparison.order v w).Typed)
    (missing : v.compareBy? mode w = none) : v.Unordered ∨ w.Unordered := by
  cases h with
  | order meets ordered hv hw =>
    exact Value.unordered_of_compareBy?_eq_none ordered meets.category_eq hv hw missing

end Comparison

/-! ### Tests -/

/-- A bound that values of a type are in an order to: it is not null. -/
structure Value.Bound (t : ValueType) (v : Value) : Prop extends v.Constant t where
  ordered : t.isOrdered = true
  notNull : v ≠ .null

theorem Value.Bound.not_unordered (h : v.Bound t) : ¬ v.Unordered := by
  rintro (null | nan)
  · exact h.notNull null
  · rw [h.notNaN] at nan
    cases nan

/-- The test is made for values of the type. -/
inductive ElementTest.Typed (t : ValueType) : ElementTest → Prop where
  | equals {wanted : Value} : wanted.HasType t → Typed t (.equals wanted)
  | isOneOf {members : List Value} : (∀ m ∈ members, m.HasType t) → Typed t (.isOneOf members)
  | relates {bound : Value} (relation : Relation) : bound.Bound t →
      Typed t (.relates relation bound)
  | within {least most : Value} : least.Bound t → most.Bound t → Typed t (.within least most)
  | text (pattern : Pattern) : t.isString = true → Typed t (.text pattern)

/-- The test is made for properties of the type: a list by tests of its items. -/
inductive PropertyTest.Typed : ValueType → PropertyTest → Prop where
  | isNull (t : ValueType) : Typed t .isNull
  | hasElement (t : ValueType) : Typed t .hasElement
  | itself {t : ValueType} {test : ElementTest} : test.Typed t → Typed t (.itself test)
  | someElement {t : ValueType} {test : ElementTest} : test.Typed t →
      Typed (.list t) (.someElement test)

theorem ElementTest.Typed.comparisons {test : ElementTest} (h : test.Typed t) (hv : v.HasType t) :
    ∀ q ∈ test.comparisons v, q.Typed := by
  intro q hq
  cases h with
  | equals hw =>
    obtain rfl := List.mem_singleton.mp hq
    exact .equality (.inl rfl) hv hw
  | isOneOf hm =>
    obtain ⟨m, mem, rfl⟩ := List.mem_map.mp hq
    exact .equality (.inl rfl) hv (hm m mem)
  | relates relation bound =>
    obtain rfl := List.mem_singleton.mp hq
    exact .order (.inl rfl) bound.ordered hv bound.hasType
  | within least most =>
    rcases List.mem_pair.mp hq with rfl | rfl
    · exact .order (.inl rfl) least.ordered hv least.hasType
    · exact .order (.inl rfl) most.ordered hv most.hasType
  | text pattern ht =>
    obtain rfl := List.mem_singleton.mp hq
    cases t <;> cases ht
    exact .text pattern hv

/-- The second value of an order is a bound of the test. -/
theorem ElementTest.Typed.exists_bound {test : ElementTest} (h : test.Typed t) {x : Value}
    (hq : .order v w ∈ test.comparisons x) : w.Bound t := by
  cases h with
  | isOneOf hm =>
    obtain ⟨_, -, eq⟩ := List.mem_map.mp hq
    cases eq
  | relates relation bound =>
    cases List.mem_singleton.mp hq
    exact bound
  | within least most =>
    rcases List.mem_pair.mp hq with eq | eq <;> cases eq
    · exact least
    · exact most
  | _ => cases List.mem_singleton.mp hq

theorem PropertyTest.Typed.comparisons {test : PropertyTest} (h : test.Typed t)
    (hv : v.HasType t) : ∀ q ∈ test.comparisons v, q.Typed := by
  cases h with
  | isNull | hasElement => nofun
  | itself h => exact h.comparisons hv
  | someElement h =>
    intro q hq
    obtain ⟨x, hx, made⟩ := List.mem_flatMap.mp hq
    cases hv with
    | null => cases hx
    | list items => exact h.comparisons (items x hx) q made

theorem PropertyTest.Typed.not_unordered {test : PropertyTest} (h : test.Typed t) {x : Value}
    (hq : .order v w ∈ test.comparisons x) : ¬ w.Unordered := by
  cases h with
  | isNull | hasElement => cases hq
  | itself h => exact (h.exists_bound hq).not_unordered
  | someElement h =>
    obtain ⟨x, -, hq⟩ := List.mem_flatMap.mp hq
    exact (h.exists_bound hq).not_unordered

/-! ### Conditions -/

/-- The condition is one on values of the types that are read. -/
inductive Condition.Typed {α : Type} : Condition α → Prop where
  | tests {accessor : Accessor α} {test : PropertyTest} {t : ValueType} :
      (∀ e, ∀ v ∈ accessor.reached e, v.HasType t) → test.Typed t → Typed (.tests accessor test)
  | equates {left right : Accessor α} {t u : ValueType} : t.comparableWith u = true →
      (∀ e, (left.read e).HasType t) → (∀ e, (right.read e).HasType u) →
      Typed (.equates left right)
  | relates {left right : Accessor α} {t u : ValueType} (relation : Relation) :
      t.comparableWith u = true → t.isOrdered = true →
      (∀ e, (left.read e).HasType t) → (∀ e, (right.read e).HasType u) →
      Typed (.relates left right relation)

namespace Condition.Typed

variable {α : Type} {c : Condition α}

/-- **The comparisons of a typed condition are typed**, on every entity. -/
theorem comparisons (h : c.Typed) (e : α) : ∀ q ∈ c.comparisons e, q.Typed := by
  intro q hq
  cases h with
  | tests reads test =>
    obtain ⟨v, hv, hq⟩ := List.mem_flatMap.mp hq
    exact test.comparisons (reads e v hv) q hq
  | equates meets hl hr =>
    obtain rfl := List.mem_singleton.mp hq
    exact .equality (.inr meets) (hl e) (hr e)
  | relates relation meets ordered hl hr =>
    obtain rfl := List.mem_singleton.mp hq
    exact .order (.inr meets) ordered (hl e) (hr e)

/-- A bound that a test compares with has an order to other values. -/
theorem not_unordered {accessor : Accessor α} {test : PropertyTest}
    (h : (Condition.tests accessor test).Typed) {e : α}
    (hq : .order v w ∈ (Condition.tests accessor test).comparisons e) : ¬ w.Unordered := by
  cases h with
  | tests _ typed =>
    obtain ⟨x, -, hq⟩ := List.mem_flatMap.mp hq
    exact typed.not_unordered hq

end Condition.Typed

end EntityQuery
