import EntityQuery.Proofs.Sort.Comparator

/-!
# Least and greatest values

The least of some values of one type is not greater than any of them, and the greatest is not less:
values of one type sort transitively, so it is enough that each comparison on the way was right. An
aggregate takes such a value among those that are not null, and null if there is none
(`Aggregate.counts_choose`).

Several values may be least. They are all equal in sort order, and so what an aggregate of this kind
takes from two lists of the same values is (`Value.Extreme.sortOrder_eq`).
-/

namespace EntityQuery

namespace Value

variable {u v w : Value} {vs ws : List Value} {t : ValueType} {excluded : Ordering}

/-! ### Choosing by comparing two at a time -/

/-- A choice between two values takes one of them, and the other is not beyond it, the order that is
excluded being the one beyond. -/
structure Chooses (excluded : Ordering) (choose : Value → Value → Value) : Prop where
  either : ∀ v w, choose v w = v ∨ choose v w = w
  left : ∀ v w, sortOrder (choose v w) v ≠ excluded
  right : ∀ v w, sortOrder (choose v w) w ≠ excluded

theorem chooses_lesser : Chooses .gt lesser where
  either := lesser_eq
  left := by
    intro v w
    unfold lesser
    split
    · next gt => simp [sortOrder_swap v w, gt]
    · simp [sortOrder_self]
  right := by
    intro v w
    unfold lesser
    split
    · simp [sortOrder_self]
    · assumption

theorem chooses_greater : Chooses .lt greater where
  either := greater_eq
  left := by
    intro v w
    unfold greater
    split
    · simp [sortOrder_self]
    · next notGt =>
      rw [sortOrder_swap v w]
      cases h : sortOrder v w <;> simp_all
  right := by
    intro v w
    unfold greater
    split
    · next gt => simp [gt]
    · simp [sortOrder_self]

/-- Not being beyond is transitive among values of one type, in either direction. -/
theorem notBeyond_trans (proper : excluded ≠ .eq) (hu : u.HasType t) (hv : v.HasType t)
    (hw : w.HasType t) (huv : sortOrder u v ≠ excluded) (hvw : sortOrder v w ≠ excluded) :
    sortOrder u w ≠ excluded := by
  cases excluded with
  | eq => exact absurd rfl proper
  | gt => exact sortOrder_trans_of_hasType hu hv hw huv hvw
  | lt =>
    have swap {x y : Value} : sortOrder x y ≠ .lt ↔ sortOrder y x ≠ .gt := by
      rw [sortOrder_swap x y]
      cases sortOrder x y <;> simp
    exact swap.mpr (sortOrder_trans_of_hasType hw hv hu (swap.mp hvw) (swap.mp huv))

namespace Chooses

variable {choose : Value → Value → Value}

/-- If none is beyond each choice between two values, then none is beyond the last one. -/
theorem foldl_notBeyond (h : Chooses excluded choose) (proper : excluded ≠ .eq) (v : Value)
    (vs : List Value) (typed : ∀ w ∈ v :: vs, w.HasType t) :
    ∀ w ∈ v :: vs, sortOrder (vs.foldl choose v) w ≠ excluded := by
  induction vs generalizing v with
  | nil =>
    intro w hw
    rw [List.mem_singleton.mp hw, List.foldl_nil, sortOrder_self]
    exact proper.symm
  | cons x vs ih =>
    obtain ⟨hv, hx, hvs⟩ : v.HasType t ∧ x.HasType t ∧ ∀ w ∈ vs, w.HasType t := by
      simpa using typed
    have chosen : (choose v x).HasType t := by
      rcases h.either v x with eq | eq <;> rwa [eq]
    have all : ∀ w ∈ choose v x :: vs, w.HasType t := List.forall_mem_cons.mpr ⟨chosen, hvs⟩
    have best := ih (choose v x) all
    have last : (vs.foldl choose (choose v x)).HasType t := all _ (foldl_mem h.either _ _)
    have first := best _ List.mem_cons_self
    intro w hw
    rw [List.foldl_cons]
    rcases List.mem_cons.mp hw with rfl | hw
    · exact notBeyond_trans proper last chosen hv first (h.left w x)
    · rcases List.mem_cons.mp hw with rfl | hw
      · exact notBeyond_trans proper last chosen hx first (h.right v w)
      · exact best w (List.mem_cons_of_mem _ hw)

theorem reduce?_notBeyond (h : Chooses excluded choose) (proper : excluded ≠ .eq)
    (typed : ∀ v ∈ vs, v.HasType t) (hv : reduce? choose vs = some v) :
    ∀ w ∈ vs, sortOrder v w ≠ excluded := by
  cases vs with
  | nil => cases hv
  | cons x vs =>
    obtain rfl := Option.some.inj hv
    exact h.foldl_notBeyond proper x vs typed

end Chooses

/-! ### Extreme values -/

/-- The value is null if all of these are, and otherwise one of them that is not null and that no
other one is beyond, the order that is excluded being the one beyond. -/
def Extreme (excluded : Ordering) (vs : List Value) (v : Value) : Prop :=
  (v = .null ↔ ∀ w ∈ vs, w = .null) ∧
    (v ≠ .null → v ∈ vs ∧ ∀ w ∈ vs, w ≠ .null → sortOrder v w ≠ excluded)

/-- Extremes of the same values are equal in sort order. -/
theorem Extreme.sortOrder_eq (proper : excluded ≠ .eq) (hv : Extreme excluded vs v)
    (hw : Extreme excluded ws w) (same : ∀ u, u ∈ vs ↔ u ∈ ws) : sortOrder v w = .eq := by
  by_cases null : v = .null
  · have all := hv.1.mp null
    obtain rfl : w = .null := hw.1.mpr fun u hu => all u ((same u).mpr hu)
    rw [null]
    rfl
  · have null' : w ≠ .null := fun none =>
      null (hv.1.mpr fun u hu => hw.1.mp none u ((same u).mp hu))
    obtain ⟨memv, beyond⟩ := hv.2 null
    obtain ⟨memw, beyond'⟩ := hw.2 null'
    have vw := beyond w ((same w).mpr memw) null'
    have wv := beyond' v ((same v).mp memv) null
    rw [sortOrder_swap] at wv
    cases excluded with
    | eq => exact absurd rfl proper
    | lt => cases h : sortOrder v w <;> simp_all
    | gt => cases h : sortOrder v w <;> simp_all

theorem mem_filter_present : w ∈ vs.filter (fun v => !v.isNull) ↔ w ∈ vs ∧ w ≠ .null := by
  rw [List.mem_filter]
  cases w <;> simp [isNull]

/-- What is left of the values that are not null, and null if there is none, is an extreme one. -/
theorem Chooses.extreme {choose : Value → Value → Value} (h : Chooses excluded choose)
    (proper : excluded ≠ .eq) (typed : ∀ v ∈ vs, v.HasType t) :
    Extreme excluded vs ((reduce? choose (vs.filter fun v => !v.isNull)).getD .null) := by
  cases found : reduce? choose (vs.filter fun v => !v.isNull) with
  | none =>
    have empty := reduce?_eq_none_iff.mp found
    refine ⟨⟨fun _ w hw => ?_, fun _ => rfl⟩, fun h => absurd rfl h⟩
    by_contra present
    have mem := mem_filter_present.mpr ⟨hw, present⟩
    rw [empty] at mem
    cases mem
  | some v =>
    obtain ⟨memv, present⟩ := mem_filter_present.mp (mem_of_reduce? h.either found)
    have typed' : ∀ w ∈ vs.filter (fun v => !v.isNull), w.HasType t :=
      fun w hw => typed w (List.mem_filter.mp hw).1
    refine ⟨⟨fun null => absurd null present, fun all => all v memv⟩, fun _ => ⟨memv, ?_⟩⟩
    intro w hw present
    exact h.reduce?_notBeyond proper typed' found w (mem_filter_present.mpr ⟨hw, present⟩)

end Value

/-- The value counts among these: it is the first, null if there is none, or the least or greatest
of those that are not null. -/
def Aggregate.Counts (a : Aggregate) (vs : List Value) (v : Value) : Prop :=
  match a with
  | .first => v = vs.head?.getD .null
  | .min => Value.Extreme .gt vs v
  | .max => Value.Extreme .lt vs v

/-- **An aggregate takes the value that counts** among the values inside those reached, if these are
of one type. -/
theorem Aggregate.counts_choose (a : Aggregate) {reached : List Value} {t : ValueType}
    (h : ∀ v ∈ reached, v.HasType t) :
    a.Counts (Value.leavesOfAll reached) (a.choose reached) := by
  have typed := Value.hasType_of_mem_leavesOfAll h
  cases a with
  | first => rfl
  | min => exact Value.chooses_lesser.extreme (by decide) typed
  | max => exact Value.chooses_greater.extreme (by decide) typed

/-- What an aggregate takes that does not look at the order of the values is equal in sort order
for the same values. -/
theorem Aggregate.Counts.sortOrder_eq {a : Aggregate} (unordered : a ≠ .first)
    {vs ws : List Value} {v w : Value} (hv : a.Counts vs v) (hw : a.Counts ws w)
    (same : ∀ u, u ∈ vs ↔ u ∈ ws) : Value.sortOrder v w = .eq := by
  cases a with
  | first => exact absurd rfl unordered
  | min => exact Value.Extreme.sortOrder_eq (by decide) hv hw same
  | max => exact Value.Extreme.sortOrder_eq (by decide) hv hw same

end EntityQuery
