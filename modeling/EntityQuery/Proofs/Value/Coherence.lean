import EntityQuery.Proofs.Value.Compatible
import EntityQuery.Proofs.Value.SortOrder
import EntityQuery.Proofs.Value.Symmetry
import EntityQuery.Proofs.Value.Twin

/-!
# The three relations on values

Filters ask for the order of two values, or whether they are equal, and sorting asks for their place
in the sort order. Each of the three is defined by itself. They do not contradict each other: the
sort order keeps every order that there is, equal values share a place in it, and none of the three
depends on which value comes first (`Value.coherent`). A value is equal to itself unless there is a
not-a-number in it, however deep inside lists.
-/

namespace EntityQuery

theorem Binary.isNaN_notANumber (negative : Bool) :
    (notANumber .binary64 negative).isNaN = true := by
  cases negative <;> decide

/-- A number compares with itself as equal, unless it is a not-a-number. -/
theorem AnyNumber.compare?_self_eq_iff (a : AnyNumber) :
    a.compare? a = some .eq ↔ a.isNaN = false := by
  cases ha : a.isNaN with
  | true => simp [compare?_of_isNaN a ha]
  | false =>
    obtain ⟨o, ho⟩ := exists_compare? ha ha
    have same := compare?_swap a a
    rw [ho, Option.map_some, Option.some.injEq] at same
    cases o with
    | eq => exact iff_of_true ho rfl
    | lt => cases same
    | gt => cases same

namespace Value

variable {v w : Value} {o : Ordering}

/-! ### The sort order -/

theorem isNull_of_compare? (h : compare? v w = some o) : v.isNull = false := by
  cases v <;> first | rfl | cases w <;> cases h

/-- The sort order keeps the order of two values. -/
theorem sortOrder_of_compare? (h : compare? v w = some o) : sortOrder v w = o := by
  have swapped : compare? w v = some o.swap := by
    rw [compare?_swap v w, h]
    rfl
  rw [sortOrder_of_not_null (isNull_of_compare? h) (isNull_of_compare? swapped), sortOrderPresent]
  split
  · next a b ha hb =>
    rw [compare?, ha, hb] at h
    exact congrArg (Option.getD · _) h
  · rw [h]
    rfl

/-- Equal values share a place in the sort order. -/
theorem sortOrder_of_equal (h : equal v w = true) : sortOrder v w = .eq := by
  unfold equal at h
  split at h
  · rfl
  · exact (Std.ReflCmp.compare_self : compare "record" "record" = .eq)
  · exact (Std.ReflCmp.compare_self : compare "list" "list" = .eq)
  · exact sortOrder_of_compare? (beq_iff_eq.mp h)

/-! ### Equality with itself -/

/-- There is a not-a-number in a value. -/
inductive ContainsNaN : Value → Prop where
  /-- The value itself is one. -/
  | number {v : Value} : v.isNaN = true → ContainsNaN v
  /-- There is one in an item of a list. -/
  | item {v : Value} {items : List Value} : v ∈ items → ContainsNaN v → ContainsNaN (.list items)

theorem containsNaN_list_iff {items : List Value} :
    ContainsNaN (.list items) ↔ ∃ v ∈ items, ContainsNaN v := by
  constructor
  · intro h
    cases h with
    | number h => cases h
    | item hv h => exact ⟨_, hv, h⟩
  · rintro ⟨v, hv, h⟩
    exact .item hv h

theorem containsNaN_iff_isNaN (h : v.items? = none) : v.ContainsNaN ↔ v.isNaN = true := by
  constructor
  · intro h'
    cases h' with
    | number h => exact h
    | item => cases h
  · exact .number

/-- A value is a not-a-number just if the number that it is compared as is one. -/
theorem isNaN_number {a : AnyNumber} (h : v.number? = some a) : v.isNaN = a.isNaN := by
  cases v <;> cases h <;> try rfl
  next x =>
    change x.isNaN = (x.convert .binary64).isNaN
    cases hx : x.isNaN with
    | true => rw [Binary.convert, hx, if_pos rfl, Binary.isNaN_notANumber]
    | false => rw [Binary.isNaN_convert hx]

theorem equal_self_of_items? (h : v.items? = none) : equal v v = true ↔ v.isNaN = false := by
  cases hn : v.number? with
  | some a =>
    rw [equal_number hn, beq_iff_eq, compare?, hn, isNaN_number hn]
    exact a.compare?_self_eq_iff
  | none =>
    have other : equal v v = true ∧ v.isNaN = false := by
      cases v <;> cases h <;> cases hn
      all_goals
        refine ⟨?_, rfl⟩
        simp [equal, compare?, number?, compareOther?, Timestamp.order]
    exact iff_of_true other.1 other.2

mutual
/-- A value is equal to itself just if there is no not-a-number in it. -/
theorem equal_self_iff (v : Value) : equal v v = true ↔ ¬ v.ContainsNaN := by
  cases v with
  | list items =>
    rw [containsNaN_list_iff]
    exact equalItems_self_iff items
  | _ =>
    rw [containsNaN_iff_isNaN rfl, Bool.not_eq_true]
    exact equal_self_of_items? rfl
theorem equalItems_self_iff :
    ∀ vs : List Value, equalItems vs vs = true ↔ ¬ ∃ v ∈ vs, v.ContainsNaN
  | [] => by simp [equalItems]
  | v :: vs => by
    rw [equalItems, Bool.and_eq_true, equal_self_iff v, equalItems_self_iff vs]
    simp
end

/-- **The three relations on values are coherent**: each is the reverse of itself with the values
swapped, the sort order keeps the order of values and the equality of values, and a value is equal
to itself just if there is no not-a-number in it. -/
theorem coherent (v w : Value) :
    compare? w v = (compare? v w).map Ordering.swap ∧
      (sortOrder w v = (sortOrder v w).swap ∧ sortOrder v v = .eq) ∧
      (∀ o, compare? v w = some o → sortOrder v w = o) ∧
      (equal v w = true ↔ equal w v = true) ∧
      (equal v w = true → sortOrder v w = .eq) ∧
      (equal v v = true ↔ ¬ v.ContainsNaN) := by
  refine ⟨compare?_swap v w, ⟨sortOrder_swap v w, sortOrder_self v⟩, fun _ => sortOrder_of_compare?,
    ?_, sortOrder_of_equal, equal_self_iff v⟩
  rw [equal_comm]

end Value

end EntityQuery
