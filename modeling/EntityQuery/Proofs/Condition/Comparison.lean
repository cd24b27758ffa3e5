import EntityQuery.Condition.Basic

/-!
# The comparisons of a condition

A condition asks whether two values are equal, in what order two values are, and whether a text
matches a pattern. `Condition.comparisons` lists the comparisons that it may make on an entity. The
list is complete: by whatever answers a condition is evaluated, its result depends on the answers to
these comparisons alone (`Condition.holdsBy_congr`).
-/

namespace EntityQuery

/-- A comparison of values. -/
inductive Comparison where
  /-- Are two values equal? -/
  | equality (v w : Value)
  /-- In what order are two values? -/
  | order (v w : Value)
  /-- Is a value a text that matches a pattern? -/
  | text (pattern : Pattern) (v : Value)

/-- Answers to all comparisons. -/
structure Answers where
  equality : Value → Value → Bool
  order : Value → Value → Option Ordering
  text : Pattern → Value → Bool

namespace Answers

/-- The answers where strings are compared in the given way. -/
def under (mode : StringComparison) : Answers where
  equality v w := v.equalBy mode w
  order v w := v.compareBy? mode w
  text pattern v := v.string?.any fun s => pattern.accepts mode s

/-- The answers to a comparison are the same. -/
def Agree (a b : Answers) : Comparison → Prop
  | .equality v w => a.equality v w = b.equality v w
  | .order v w => a.order v w = b.order v w
  | .text pattern v => a.text pattern v = b.text pattern v

end Answers

/-! ### Evaluation by answers -/

/-- Does a value pass the test, by these answers? -/
def ElementTest.passesBy (a : Answers) : ElementTest → Value → Bool
  | .equals wanted, v => a.equality v wanted
  | .isOneOf members, v => members.any fun m => a.equality v m
  | .relates relation bound, v => (a.order v bound).any relation.accepts
  | .within least most, v =>
    (a.order v least).any Relation.greaterOrEqual.accepts &&
      (a.order v most).any Relation.lessOrEqual.accepts
  | .text pattern, v => a.text pattern v

/-- Does the value of a property pass, by these answers? -/
def PropertyTest.passesBy (a : Answers) : PropertyTest → Value → Bool
  | .isNull, v => v.isNull
  | .hasElement, v => v.items?.any fun items => !items.isEmpty
  | .itself test, v => test.passesBy a v
  | .someElement test, v => v.items?.any fun items => items.any fun x => test.passesBy a x

/-- Does an entity meet the condition, by these answers? -/
def Condition.holdsBy {α : Type} (a : Answers) (c : Condition α) (e : α) : Bool :=
  match c with
  | .tests accessor test => (accessor.reached e).any fun v => test.passesBy a v
  | .equates left right => a.equality (left.read e) (right.read e)
  | .relates left right relation => (a.order (left.read e) (right.read e)).any relation.accepts

theorem ElementTest.passesBy_under (mode : StringComparison) (test : ElementTest) (v : Value) :
    test.passesBy (.under mode) v = test.passes mode v := by
  cases test <;> rfl

theorem PropertyTest.passesBy_under (mode : StringComparison) (test : PropertyTest) (v : Value) :
    test.passesBy (.under mode) v = test.passes mode v := by
  cases test with
  | isNull | hasElement => rfl
  | itself test => exact test.passesBy_under mode v
  | someElement test => simp only [passesBy, passes, ElementTest.passesBy_under]

/-- A condition holds by the answers of a way to compare strings. -/
theorem Condition.holdsBy_under {α : Type} (mode : StringComparison) (c : Condition α) (e : α) :
    c.holdsBy (.under mode) e = c.holds mode e := by
  cases c with
  | tests accessor test => simp only [holdsBy, holds, PropertyTest.passesBy_under]
  | equates left right => rfl
  | relates left right relation => rfl

/-! ### Comparisons made -/

/-- The comparisons that a test makes of a value. -/
def ElementTest.comparisons : ElementTest → Value → List Comparison
  | .equals wanted, v => [.equality v wanted]
  | .isOneOf members, v => members.map fun m => .equality v m
  | .relates _ bound, v => [.order v bound]
  | .within least most, v => [.order v least, .order v most]
  | .text pattern, v => [.text pattern v]

/-- The comparisons that a test makes of the value of a property. -/
def PropertyTest.comparisons : PropertyTest → Value → List Comparison
  | .isNull, _ => []
  | .hasElement, _ => []
  | .itself test, v => test.comparisons v
  | .someElement test, v => (v.items?.getD []).flatMap test.comparisons

/-- The comparisons that a condition makes on an entity. -/
def Condition.comparisons {α : Type} (c : Condition α) (e : α) : List Comparison :=
  match c with
  | .tests accessor test => (accessor.reached e).flatMap test.comparisons
  | .equates left right => [.equality (left.read e) (right.read e)]
  | .relates left right _ => [.order (left.read e) (right.read e)]

variable {a b : Answers}

theorem any_congr_of_mem {β : Type} {p q : β → Bool} {xs : List β} (h : ∀ x ∈ xs, p x = q x) :
    xs.any p = xs.any q := by
  rw [Bool.eq_iff_iff, List.any_eq_true, List.any_eq_true]
  exact exists_congr fun x => and_congr_right fun hx => by rw [h x hx]

theorem ElementTest.passesBy_congr {test : ElementTest} {v : Value}
    (h : ∀ q ∈ test.comparisons v, a.Agree b q) : test.passesBy a v = test.passesBy b v := by
  cases test with
  | equals wanted => exact h _ (List.mem_singleton_self _)
  | isOneOf members =>
    refine any_congr_of_mem fun m hm => ?_
    exact h _ (List.mem_map_of_mem hm)
  | relates relation bound =>
    have same : a.order v bound = b.order v bound := h _ (List.mem_singleton_self _)
    rw [passesBy, passesBy, same]
  | within least most =>
    have low : a.order v least = b.order v least :=
      h (.order v least) List.mem_cons_self
    have high : a.order v most = b.order v most :=
      h (.order v most) (List.mem_cons_of_mem _ List.mem_cons_self)
    rw [passesBy, passesBy, low, high]
  | text pattern => exact h _ (List.mem_singleton_self _)

theorem PropertyTest.passesBy_congr {test : PropertyTest} {v : Value}
    (h : ∀ q ∈ test.comparisons v, a.Agree b q) : test.passesBy a v = test.passesBy b v := by
  cases test with
  | isNull | hasElement => rfl
  | itself test => exact ElementTest.passesBy_congr h
  | someElement test =>
    cases v with
    | list items =>
      refine any_congr_of_mem fun x hx => ElementTest.passesBy_congr fun q hq => ?_
      exact h q (List.mem_flatMap_of_mem hx hq)
    | _ => rfl

/-- **A condition depends on its comparisons alone**: it holds alike by answers that agree on
them. -/
theorem Condition.holdsBy_congr {α : Type} {c : Condition α} {e : α}
    (h : ∀ q ∈ c.comparisons e, a.Agree b q) : c.holdsBy a e = c.holdsBy b e := by
  cases c with
  | tests accessor test =>
    refine any_congr_of_mem fun v hv => PropertyTest.passesBy_congr fun q hq => ?_
    exact h q (List.mem_flatMap_of_mem hv hq)
  | equates left right => exact h _ (List.mem_singleton_self _)
  | relates left right relation =>
    have same : a.order (left.read e) (right.read e) = b.order (left.read e) (right.read e) :=
      h _ (List.mem_singleton_self _)
    rw [holdsBy, holdsBy, same]

end EntityQuery
