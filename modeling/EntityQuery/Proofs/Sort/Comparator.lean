import EntityQuery.Proofs.Path.Typing
import EntityQuery.Proofs.Shelf
import EntityQuery.Proofs.Sort.Aggregate
import EntityQuery.Proofs.Sort.Key
import EntityQuery.Proofs.Value.SortOrder

/-!
# Comparators are preorders

Values of one type sort transitively: mixing kinds of numbers, or numbers with enums, is what
breaks the sort order, and a type does not mix them. Every key of a comparator reads values of one
type, which is not a list. So each key, ascending or descending, puts the entities in a total
preorder, and so do several keys one after the other.
-/

namespace EntityQuery

/-! ### Values of one type -/

/-- Is it the type of floats of some width? -/
def ValueType.isFloat : ValueType → Bool
  | .float32 | .float64 => true
  | _ => false

/-- All numbers of a type are floats, or none is. -/
theorem Value.isFloat_of_hasType {v : Value} {t : ValueType} (h : v.HasType t) {a : AnyNumber}
    (ha : v.number? = some a) : a.isFloat = t.isFloat := by
  cases h <;> simp only [number?, Option.some.injEq, reduceCtorEq] at ha
  all_goals
    subst ha
    rfl

theorem Value.sortOrder_trans_of_hasType {t : ValueType} {u v w : Value} (hu : u.HasType t)
    (hv : v.HasType t) (hw : w.HasType t) (huv : sortOrder u v ≠ .gt) (hvw : sortOrder v w ≠ .gt) :
    sortOrder u w ≠ .gt := by
  refine sortOrder_trans (R := fun v => v.HasType t) ?_ ?_ hu hv hw huv hvw
  · intro u v w a b c hu hv _ ha hb _ kind _
    exact absurd ((isFloat_of_hasType hu ha).trans (isFloat_of_hasType hv hb).symm) kind
  · -- No type has both variants of an enum and decimals.
    intro ordinal d v he hd
    cases he
    cases hd

/-- Reading values of one type puts whatever they are read from in a total preorder. -/
theorem Value.transCmp_sortOrder {α : Type} {f : α → Value} {t : ValueType}
    (hf : ∀ e, (f e).HasType t) : Std.TransCmp fun a b => sortOrder (f a) (f b) where
  eq_swap := sortOrder_swap _ _
  isLE_trans h h' := by
    rw [Ordering.isLE_iff_ne_gt] at h h' ⊢
    exact sortOrder_trans_of_hasType (hf _) (hf _) (hf _) h h'

/-! ### Keys -/

variable {S : Schema} {kind : S.Kind}

/-- A key reads values of the innermost type of a value member. -/
def SortKey.Typed (S : Schema) {α : Type} (k : SortKey α) : Prop :=
  ∃ (owner : S.Kind) (name : String) (type : ValueType) (get : S.Entity owner → Value),
    S.member? owner name = some (.value type get) ∧ ∀ e, (k.extract e).HasType type.innermost

theorem SortKey.transCmp_order {α : Type} {k : SortKey α} (h : k.Typed S) :
    Std.TransCmp k.order := by
  obtain ⟨_, _, _, _, -, hk⟩ := h
  have ascending := Value.transCmp_sortOrder hk
  unfold SortKey.order
  cases k.rule.descending with
  | false => exact ascending
  | true =>
    have swapped : (fun a b => (Value.sortOrder (k.extract a) (k.extract b)).swap) =
        fun a b => Value.sortOrder (k.extract b) (k.extract a) := by
      funext a b
      rw [← Value.sortOrder_swap]
    simp only [if_true]
    rw [swapped]
    exact Std.TransCmp.opposite

theorem ValueType.innermost_of_not_collection {t : ValueType} (h : t.isCollection = false) :
    t.innermost = t := by
  cases t <;> first | rfl | contradiction

/-- Every key of a rule is typed. -/
theorem SortRule.typed_of_key? (hS : S.WellTyped) {o : SortOptions} {r : SortRule}
    {k : SortKey (S.Entity kind)} (h : (r.key? o : Resolving S kind _).alone = .ok (some k)) :
    k.Typed S := by
  obtain ⟨p, hp, noRecord, hk⟩ := exists_of_key? h
  obtain ⟨segments, -, hr⟩ := exists_segments hp
  obtain ⟨owner, name, get, member⟩ := hr.declared.resolve_right (by simp [noRecord])
  refine ⟨owner, name, p.type, get, member, fun e => ?_⟩
  rcases hk with ⟨single, element, rfl⟩ | ⟨a, rfl⟩
  · rw [ValueType.innermost_of_not_collection element]
    exact Accessor.hasType_read single (hr.hasType hS e)
  · exact a.hasType_choose (hr.hasType hS e)

/-- All keys of a comparator are typed. -/
theorem SortOrder.typed_of_compile (hS : S.WellTyped) {o : SortOptions} {rules : SortOrder}
    {c : Comparator (S.Entity kind)} (h : SortOrder.compile S kind o rules = .ok c) :
    ∀ k ∈ c.keys, k.Typed S := by
  obtain ⟨keys, hk, eq⟩ := SortOrder.exists_keys h
  intro k mem
  rw [eq, List.mem_filterMap] at mem
  obtain ⟨k?, mem, rfl⟩ := mem
  obtain ⟨r, -, hr⟩ := Outcome.exists_of_mem_mapM hk mem
  exact SortRule.typed_of_key? hS hr

/-! ### Keys one after the other -/

theorem Comparator.transCmp_orderBy {α : Type} {keys : List (SortKey α)}
    (h : ∀ k ∈ keys, k.Typed S) : Std.TransCmp (orderBy keys) := by
  induction keys with
  | nil => exact { eq_swap := rfl, isLE_trans := fun _ _ => rfl }
  | cons k keys ih =>
    have first := SortKey.transCmp_order (h k List.mem_cons_self)
    have rest := ih fun k hk => h k (List.mem_cons_of_mem _ hk)
    exact inferInstanceAs (Std.TransCmp (compareLex k.order (orderBy keys)))

theorem SortOrder.transCmp_of_compile (hS : S.WellTyped) {o : SortOptions} {rules : SortOrder}
    {c : Comparator (S.Entity kind)} (h : SortOrder.compile S kind o rules = .ok c) :
    Std.TransCmp c.order :=
  Comparator.transCmp_orderBy (SortOrder.typed_of_compile hS h)

/-- **A comparator is a total preorder** of the entities, and its keys are values that are no
lists: each has the innermost type of a value member, or is null. -/
theorem SortOrder.totalPreorder_of_compile (hS : S.WellTyped) {o : SortOptions} {rules : SortOrder}
    {c : Comparator (S.Entity kind)} (h : SortOrder.compile S kind o rules = .ok c) :
    (∀ a b, c.order b a = (c.order a b).swap) ∧ (∀ a, c.order a a = .eq) ∧
      (∀ a b d, c.order a b ≠ .gt → c.order b d ≠ .gt → c.order a d ≠ .gt) ∧
      ∀ k ∈ c.keys, k.Typed S ∧ ∀ e, (k.extract e).items? = none := by
  have typed := SortOrder.typed_of_compile hS h
  have preorder := SortOrder.transCmp_of_compile hS h
  refine ⟨fun a b => Std.OrientedCmp.eq_swap, fun a => Std.ReflCmp.compare_self, ?_, ?_⟩
  · intro a b d hab hbd
    exact Ordering.isLE_iff_ne_gt.mp (Std.TransCmp.isLE_trans
      (Ordering.isLE_iff_ne_gt.mpr hab) (Ordering.isLE_iff_ne_gt.mpr hbd))
  · intro k hk
    refine ⟨typed k hk, fun e => ?_⟩
    obtain ⟨_, _, type, _, -, ht⟩ := typed k hk
    exact Value.items?_of_hasType (ht e) type.isCollection_innermost

/-- Authors sort by the greatest of the tags of all their books, the last first, and then by age. -/
theorem SortOrder.totalPreorder_tags :
    let rules : SortOrder := [⟨"books[].tags", true⟩, ⟨"age", false⟩]
    Shelf.schema.WellTyped ∧
      ∃ c, SortOrder.compile Shelf.schema .author ⟨false, some .max⟩ rules = .ok c ∧
        c.rules = rules ∧
        (∀ a b, c.order b a = (c.order a b).swap) ∧ (∀ a, c.order a a = .eq) ∧
        (∀ a b d, c.order a b ≠ .gt → c.order b d ≠ .gt → c.order a d ≠ .gt) ∧
        ∀ k ∈ c.keys, k.Typed Shelf.schema ∧ ∀ e, (k.extract e).items? = none := by
  intro rules
  obtain ⟨c, hc, hr⟩ := Outcome.exists_of_toOption (f := Comparator.rules) (b := rules)
    (x := SortOrder.compile Shelf.schema .author ⟨false, some .max⟩ rules) (by decide +kernel)
  exact ⟨Shelf.wellTyped, c, hc, hr, SortOrder.totalPreorder_of_compile Shelf.wellTyped hc⟩

end EntityQuery
