import EntityQuery.Schema
import EntityQuery.Sort.Aggregate

/-!
# The value that counts

Of the values that are reached an aggregate takes a leaf, or null. The leaves of a list are those of
its items, one item after the other (`Value.leaves_list`), and a value that is no list is its own
leaf, so no leaf is a list (`Value.items?_of_mem_leaves`). The value that counts has the innermost
type of what is reached.
-/

namespace EntityQuery

/-- The type inside all lists. -/
def ValueType.innermost : ValueType → ValueType
  | .list t => t.innermost
  | t => t

theorem ValueType.isCollection_innermost (t : ValueType) : t.innermost.isCollection = false := by
  fun_induction ValueType.innermost t with
  | case1 t ih => exact ih
  | case2 t h => cases t <;> first | rfl | exact absurd rfl (h _)

namespace Value

theorem items?_of_hasType {v : Value} {t : ValueType} (h : v.HasType t)
    (ht : t.isCollection = false) : v.items? = none := by
  cases h <;> first | rfl | contradiction

/-! ### Leaves -/

mutual
/-- What holds of every value that is no list, and of a list if it holds of its items, holds of
every value. -/
@[elab_as_elim] theorem items_induction {P : Value → Prop}
    (single : ∀ v, v.items? = none → P v)
    (list : ∀ items, (∀ v ∈ items, P v) → P (.list items)) (v : Value) : P v := by
  cases v with
  | list items => exact list items (forall_mem_of_items single list items)
  | _ => exact single _ rfl
theorem forall_mem_of_items {P : Value → Prop} (single : ∀ v, v.items? = none → P v)
    (list : ∀ items, (∀ v ∈ items, P v) → P (.list items)) : ∀ vs : List Value, ∀ v ∈ vs, P v
  | [] => List.forall_mem_nil P
  | v :: vs => List.forall_mem_cons.mpr
      ⟨items_induction single list v, forall_mem_of_items single list vs⟩
end

variable {v w : Value} {vs : List Value} {t : ValueType}

theorem leavesOfAll_eq_flatMap (vs : List Value) : leavesOfAll vs = vs.flatMap leaves := by
  induction vs with
  | nil => rfl
  | cons v vs ih => rw [leavesOfAll, ih, List.flatMap_cons]

/-- A list has the leaves of its items, one item after the other. -/
theorem leaves_list (items : List Value) : (Value.list items).leaves = items.flatMap leaves :=
  leavesOfAll_eq_flatMap items

/-- A value that is no list is its only leaf. -/
theorem leaves_of_items? (h : v.items? = none) : v.leaves = [v] := by
  cases v with
  | list items => cases h
  | _ => rfl

/-- No leaf is a list. -/
theorem items?_of_mem_leaves : w ∈ v.leaves → w.items? = none := by
  induction v using items_induction with
  | single v h =>
    intro hw
    rw [leaves_of_items? h] at hw
    rwa [List.mem_singleton.mp hw]
  | list items ih =>
    intro hw
    rw [leaves_list] at hw
    obtain ⟨v, hv, hw⟩ := List.mem_flatMap.mp hw
    exact ih v hv hw

/-- The leaves of a value have the innermost type. -/
theorem hasType_of_mem_leaves (h : v.HasType t) : ∀ w ∈ v.leaves, w.HasType t.innermost := by
  induction h with
  | null t =>
    intro w hw
    obtain rfl := List.mem_singleton.mp hw
    exact .null _
  | @list t items h ih =>
    intro w hw
    rw [leaves_list] at hw
    obtain ⟨v, hv, hw⟩ := List.mem_flatMap.mp hw
    exact ih v hv w hw
  | _ =>
    intro w hw
    obtain rfl := List.mem_singleton.mp hw
    constructor

theorem hasType_of_mem_leavesOfAll (h : ∀ v ∈ vs, v.HasType t) :
    ∀ w ∈ leavesOfAll vs, w.HasType t.innermost := by
  intro w hw
  rw [leavesOfAll_eq_flatMap] at hw
  obtain ⟨v, hv, hw⟩ := List.mem_flatMap.mp hw
  exact hasType_of_mem_leaves (h v hv) w hw

/-! ### Choosing by comparing two at a time -/

theorem lesser_eq (v w : Value) : lesser v w = v ∨ lesser v w = w := by
  unfold lesser
  split <;> simp

theorem greater_eq (v w : Value) : greater v w = v ∨ greater v w = w := by
  unfold greater
  split <;> simp

variable {choose : Value → Value → Value}

theorem foldl_mem (either : ∀ v w, choose v w = v ∨ choose v w = w) (v : Value)
    (vs : List Value) : vs.foldl choose v ∈ v :: vs := by
  induction vs generalizing v with
  | nil => exact List.mem_singleton_self v
  | cons w vs ih =>
    rw [List.foldl_cons]
    rcases either v w with hc | hc <;> rw [hc]
    · rcases List.mem_cons.mp (ih v) with hv | hv
      · rw [hv]
        exact List.mem_cons_self
      · exact List.mem_cons_of_mem _ (List.mem_cons_of_mem _ hv)
    · exact List.mem_cons_of_mem _ (ih w)

/-- What is left of some values is one of them. -/
theorem mem_of_reduce? (either : ∀ v w, choose v w = v ∨ choose v w = w)
    (h : reduce? choose vs = some v) : v ∈ vs := by
  cases vs with
  | nil => cases h
  | cons w vs =>
    obtain rfl := Option.some.inj h
    exact foldl_mem either w vs

/-- Something is left unless there is nothing. -/
theorem reduce?_eq_none_iff : reduce? choose vs = none ↔ vs = [] := by
  cases vs <;> simp [reduce?]

end Value

/-- An aggregate takes one of the leaves, or null. -/
theorem Aggregate.choose_mem (a : Aggregate) (reached : List Value) :
    a.choose reached = .null ∨ a.choose reached ∈ Value.leavesOfAll reached := by
  have of_some {found : Option Value}
      (h : ∀ v, found = some v → v ∈ Value.leavesOfAll reached) :
      found.getD .null = .null ∨ found.getD .null ∈ Value.leavesOfAll reached := by
    cases found with
    | none => exact .inl rfl
    | some v => exact .inr (h v rfl)
  cases a with
  | first => exact of_some fun v hv => List.mem_of_mem_head? hv
  | min =>
    exact of_some fun v hv => (List.mem_filter.mp (Value.mem_of_reduce? Value.lesser_eq hv)).1
  | max =>
    exact of_some fun v hv => (List.mem_filter.mp (Value.mem_of_reduce? Value.greater_eq hv)).1

/-- The value that counts has the innermost type of the values reached. -/
theorem Aggregate.hasType_choose (a : Aggregate) {reached : List Value} {t : ValueType}
    (h : ∀ v ∈ reached, v.HasType t) : (a.choose reached).HasType t.innermost := by
  rcases a.choose_mem reached with hc | hc
  · rw [hc]
    exact .null _
  · exact Value.hasType_of_mem_leavesOfAll h _ hc

end EntityQuery
