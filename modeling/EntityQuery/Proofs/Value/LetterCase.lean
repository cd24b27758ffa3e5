import EntityQuery.Proofs.Literal.Twin
import EntityQuery.Proofs.Value.Symmetry
import EntityQuery.Schema

/-!
# Values that differ in letter case

A value is another one *recased* if the strings in the two have the same lower case, wherever in
nested lists they are, and all else is the same. Where case is ignored, comparisons take strings in
lower case, and no order tells recased values apart. Nor does equality, as long as it is not one of
two lists: the strings inside lists are compared as they are (`Value.equal`). What has no strings
inside has only itself for a recased value.
-/

namespace EntityQuery

namespace Value

/-- The same value, up to the letter case of the strings in it. -/
inductive Recased : Value → Value → Prop where
  /-- A value with itself. -/
  | refl (v : Value) : Recased v v
  /-- Strings with the same lower case. -/
  | string {s t : String} : Text.lowercase s = Text.lowercase t → Recased (.string s) (.string t)
  /-- Lists of recased items. -/
  | list {vs ws : List Value} : List.Forall₂ Recased vs ws → Recased (.list vs) (.list ws)

namespace Recased

variable {v v' w w' : Value} {t : ValueType}

/-! ### The shape of recased values -/

theorem isNull_eq (h : v.Recased v') : v.isNull = v'.isNull := by
  cases h <;> rfl

/-- The items of recased values are recased; what is no list has none. -/
theorem items (h : v.Recased v') : Option.Rel (List.Forall₂ Recased) v.items? v'.items? := by
  cases h with
  | refl =>
    cases v.items? with
    | none => exact .none
    | some items => exact .some (List.forall₂_same.mpr fun x _ => .refl x)
  | string _ => exact .none
  | list h => exact .some h

/-- Texts of recased values have the same lower case. -/
theorem text (h : v.Recased v') :
    Option.Rel (fun s t => Text.lowercase s = Text.lowercase t) v.string? v'.string? := by
  cases h with
  | refl =>
    cases v.string? with
    | none => exact .none
    | some s => exact .some rfl
  | string same => exact .some same
  | list _ => exact .none

/-- Values of a type without strings are recased only to themselves. -/
theorem eq_of_hasType (hv : v.HasType t) (ht : t.base ≠ .string) (h : v.Recased v') : v = v' := by
  induction hv generalizing v' with
  | string s => exact absurd rfl ht
  | @list t items _ ih =>
    cases h with
    | refl => rfl
    | list h =>
      have same : List.Forall₂ Eq items _ := ((List.forall₂_and_left _ _).mpr
        ⟨fun v hv w (hw : v.Recased w) => ih v hv ht hw, h⟩).imp fun v w both => both.1 w both.2
      rw [List.forall₂_eq_eq_eq] at same
      rw [same]
  | _ =>
    cases h
    rfl

/-! ### Comparing recased values -/

/-- Where case is ignored, no order to a value tells recased values apart. -/
theorem compareBy?_right (h : v.Recased v') (x : Value) :
    compareBy? .ignoreCase x v = compareBy? .ignoreCase x v' := by
  cases h with
  | refl => rfl
  | string same =>
    cases x with
    | string s => exact congrArg (fun t => some (compare (Text.lowercase s) t)) same
    | _ => rfl
  | list _ => cases x <;> rfl

/-- Recased values on both sides are in the same order. -/
theorem compareBy?_eq (hv : v.Recased v') (hw : w.Recased w') :
    compareBy? .ignoreCase v w = compareBy? .ignoreCase v' w' := by
  rw [hw.compareBy?_right v, compareBy?_swap .ignoreCase w' v, hv.compareBy?_right w',
    ← compareBy?_swap]

/-- Nor does equality to a value, if it is not one of lists. -/
theorem equalBy_right (h : v.Recased v') {x : Value} (single : x.items? = none ∨ v.items? = none) :
    equalBy .ignoreCase x v = equalBy .ignoreCase x v' := by
  cases h with
  | refl => rfl
  | string same =>
    cases x with
    | string s => exact congrArg (Text.lowercase s == ·) same
    | _ => rfl
  | list _ =>
    cases x with
    | list items => rcases single with single | single <;> cases single
    | _ => rfl

/-- Recased values on both sides are alike equal, if the one side is no list. -/
theorem equalBy_eq (hv : v.Recased v') (hw : w.Recased w') (single : v.items? = none) :
    equalBy .ignoreCase v w = equalBy .ignoreCase v' w' := by
  rw [hw.equalBy_right (.inl single), equalBy_comm .ignoreCase v w',
    hv.equalBy_right (.inr single), equalBy_comm]

end Recased

end Value

end EntityQuery
