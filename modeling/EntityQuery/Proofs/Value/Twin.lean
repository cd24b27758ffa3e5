import EntityQuery.Condition.Basic
import Mathlib.Data.List.Forall2

/-!
# Values that no comparison tells apart

Two numbers that compare with every number in the same way are *twins*, as the two zeros of a
float are, and so are lists of twins. A test that compares a value with one of two twins does not
see with which. Where texts are allowed to differ, any two texts count as twins as well; of such
twins only their shape is known.
-/

namespace EntityQuery.Value

/-- Values that no comparison tells apart, up to texts where `text` allows for them. -/
inductive Twin (text : Prop) : Value → Value → Prop where
  /-- A value with itself. -/
  | refl (v : Value) : Twin text v v
  /-- Numbers that compare with every number in the same way. -/
  | number {v w : Value} {a b : AnyNumber} : v.number? = some a → w.number? = some b →
      (∀ c : AnyNumber, c.compare? a = c.compare? b) → Twin text v w
  /-- Two texts. -/
  | text (s t : String) : text → Twin text (.string s) (.string t)
  /-- Lists of twins. -/
  | list {vs ws : List Value} : List.Forall₂ (Twin text) vs ws → Twin text (.list vs) (.list ws)

variable {text : Prop} {mode : StringComparison} {v w : Value} {a : AnyNumber}

/-! ### Comparing with a number -/

theorem compare?_number (h : v.number? = some a) (x : Value) :
    compare? x v = x.number?.bind fun c => c.compare? a := by
  unfold compare?
  rw [h]
  cases hx : x.number? with
  | some c => rfl
  | none =>
    have other : compareOther? x v = none := by
      cases v <;> cases h <;> cases x <;> rfl
    exact other

theorem equal_number (h : v.number? = some a) (x : Value) :
    equal x v = (compare? x v == some .eq) := by
  cases v <;> cases h <;> cases x <;> rfl

theorem compareBy?_number (h : v.number? = some a) (x : Value) :
    compareBy? mode x v = compare? x v := by
  cases v <;> cases h <;> cases x <;> rfl

theorem equalBy_number (h : v.number? = some a) (x : Value) : equalBy mode x v = equal x v := by
  cases v <;> cases h <;> cases x <;> rfl

/-! ### Comparing with twins -/

mutual
/-- The induction is on the value that twins are compared with. -/
theorem equal_twin (ht : ¬ text) : ∀ x v w : Value, Twin text v w → equal x v = equal x w
  | x, v, w, h => by
    cases h with
    | refl => rfl
    | number hv hw hc =>
      simp only [equal_number hv, equal_number hw, compare?_number hv, compare?_number hw, hc]
    | text s t h => exact absurd h ht
    | list h =>
      cases x with
      | list xs => exact equalItems_twins ht xs _ _ h
      | _ => rfl
theorem equalItems_twins (ht : ¬ text) : ∀ xs vs ws : List Value,
    List.Forall₂ (Twin text) vs ws → equalItems xs vs = equalItems xs ws
  | [], vs, ws, h => by
    cases h <;> rfl
  | x :: xs, vs, ws, h => by
    cases h with
    | nil => rfl
    | cons hv hvs =>
      rw [equalItems, equalItems, equal_twin ht x _ _ hv, equalItems_twins ht xs _ _ hvs]
end

namespace Twin

theorem equalBy_eq (h : Twin text v w) (ht : ¬ text) (x : Value) :
    equalBy mode x v = equalBy mode x w := by
  have same := equal_twin ht x v w h
  cases h with
  | refl => rfl
  | number hv hw _ => rw [equalBy_number hv, equalBy_number hw, same]
  | text s t h => exact absurd h ht
  | list _ => cases x <;> exact same

theorem compareBy?_eq (h : Twin text v w) (ht : ¬ text) (x : Value) :
    compareBy? mode x v = compareBy? mode x w := by
  cases h with
  | refl => rfl
  | number hv hw hc =>
    simp only [compareBy?_number hv, compareBy?_number hw, compare?_number hv, compare?_number hw,
      hc]
  | text s t h => exact absurd h ht
  | list _ => cases x <;> rfl

/-! ### The shape of twins -/

theorem isNull_eq (h : Twin text v w) : v.isNull = w.isNull := by
  cases h with
  | refl => rfl
  | number hv hw _ =>
    have present {u : Value} {c : AnyNumber} (hu : u.number? = some c) : u.isNull = false := by
      cases u <;> first | rfl | cases hu
    rw [present hv, present hw]
  | text s t _ => rfl
  | list _ => rfl

/-- The items of twins are twins; what is no list has none. -/
theorem items (h : Twin text v w) :
    List.Forall₂ (Twin text) (v.items?.getD []) (w.items?.getD []) := by
  cases h with
  | refl => exact List.forall₂_same.mpr fun x _ => .refl x
  | number hv hw _ =>
    have no_items {u : Value} {c : AnyNumber} (hu : u.number? = some c) : u.items? = none := by
      cases u <;> first | rfl | cases hu
    rw [no_items hv, no_items hw]
    exact .nil
  | text s t _ => exact .nil
  | list h => exact h

end Twin

end EntityQuery.Value
