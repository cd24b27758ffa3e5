import EntityQuery.Condition.Basic
import EntityQuery.Proofs.Value.Number

/-!
# Comparisons from both sides

Which of two values comes first in a comparison matters to the answer only where it must: swapping
them swaps their order and leaves their equality as it is. This is so for values of all kinds,
numbers of different widths, dates among points of time and lists at any depth included, and
however strings are compared. What has no order keeps having none.

A relation has a mirror, which says the same with the values swapped: `Value.relatedBy_mirror`.
-/

namespace EntityQuery

/-- The relation that holds of two values if this one holds of them swapped. -/
def Relation.mirror : Relation → Relation
  | .greater => .less
  | .greaterOrEqual => .lessOrEqual
  | .less => .greater
  | .lessOrEqual => .greaterOrEqual

theorem Relation.accepts_mirror (r : Relation) (o : Ordering) :
    r.mirror.accepts o.swap = r.accepts o := by
  cases r <;> cases o <;> rfl

namespace Value

/-! ### Strings and other values -/

variable {mode : StringComparison} {v w : Value}

theorem eq_string {s : String} (h : v.string? = some s) : v = .string s := by
  cases v <;> cases h
  rfl

/-- Only two strings are compared in a way of their own. -/
theorem compareBy?_of_other (h : v.string? = none ∨ w.string? = none) :
    compareBy? mode v w = compare? v w := by
  unfold compareBy?
  split
  · rcases h with h | h <;> cases h
  · rfl

theorem equalBy_of_other (h : v.string? = none ∨ w.string? = none) :
    equalBy mode v w = equal v w := by
  unfold equalBy
  split
  · rcases h with h | h <;> cases h
  · rfl

/-! ### Order -/

theorem compareOther?_swap (v w : Value) :
    compareOther? w v = (compareOther? v w).map Ordering.swap := by
  have swapped {α : Type} [Ord α] [Std.OrientedOrd α] (a b : α) :
      some (compare b a) = (some (compare a b)).map Ordering.swap :=
    congrArg some Std.OrientedCmp.eq_swap
  have times (t u : Timestamp) : some (u.order t) = (some (t.order u)).map Ordering.swap := by
    refine congrArg some ?_
    unfold Timestamp.order
    rw [Ordering.swap_then, ← Std.OrientedCmp.eq_swap, ← Std.OrientedCmp.eq_swap]
  cases v <;> cases w <;> first | rfl | exact swapped _ _ | exact times _ _

/-- Swapping the values swaps the order, if they have one. -/
theorem compare?_swap (v w : Value) : compare? w v = (compare? v w).map Ordering.swap := by
  unfold compare?
  cases v.number? with
  | none => cases w.number? <;> exact compareOther?_swap v w
  | some a =>
    cases w.number? with
    | none => exact compareOther?_swap v w
    | some b => exact AnyNumber.compare?_swap a b

theorem compareBy?_swap (mode : StringComparison) (v w : Value) :
    compareBy? mode w v = (compareBy? mode v w).map Ordering.swap := by
  cases hv : v.string? with
  | none =>
    rw [compareBy?_of_other (.inl hv), compareBy?_of_other (.inr hv)]
    exact compare?_swap v w
  | some s =>
    cases hw : w.string? with
    | none =>
      rw [compareBy?_of_other (.inl hw), compareBy?_of_other (.inr hw)]
      exact compare?_swap v w
    | some t =>
      obtain rfl := eq_string hv
      obtain rfl := eq_string hw
      exact congrArg some Std.OrientedCmp.eq_swap

theorem relatedBy_mirror (mode : StringComparison) (r : Relation) (v w : Value) :
    w.relatedBy mode r.mirror v = v.relatedBy mode r w := by
  unfold relatedBy
  rw [compareBy?_swap]
  cases compareBy? mode v w with
  | none => rfl
  | some o => exact r.accepts_mirror o

/-! ### Equality -/

theorem compare?_eq_comm (v w : Value) :
    (compare? v w == some .eq) = (compare? w v == some .eq) := by
  rw [compare?_swap v w]
  cases compare? v w with
  | none => rfl
  | some o => cases o <;> rfl

mutual
/-- Equality has no direction. The induction is on the first value, down to the items of lists. -/
theorem equal_comm (v w : Value) : equal v w = equal w v := by
  cases v with
  | list vs =>
    cases w with
    | list ws => exact equalItems_comm vs ws
    | _ => exact compare?_eq_comm _ _
  | null =>
    cases w with
    | null => rfl
    | _ => exact compare?_eq_comm _ _
  | record =>
    cases w with
    | record => rfl
    | _ => exact compare?_eq_comm _ _
  | _ => cases w <;> exact compare?_eq_comm _ _
theorem equalItems_comm : ∀ vs ws : List Value, equalItems vs ws = equalItems ws vs
  | [], ws => by
    cases ws <;> rfl
  | v :: vs, ws => by
    cases ws with
    | nil => rfl
    | cons w ws => rw [equalItems, equalItems, equal_comm v w, equalItems_comm vs ws]
end

theorem equalBy_comm (mode : StringComparison) (v w : Value) :
    v.equalBy mode w = w.equalBy mode v := by
  cases hv : v.string? with
  | none =>
    rw [equalBy_of_other (.inl hv), equalBy_of_other (.inr hv)]
    exact equal_comm v w
  | some s =>
    cases hw : w.string? with
    | none =>
      rw [equalBy_of_other (.inl hw), equalBy_of_other (.inr hw)]
      exact equal_comm v w
    | some t =>
      obtain rfl := eq_string hv
      obtain rfl := eq_string hw
      exact Bool.beq_comm

end Value

end EntityQuery
