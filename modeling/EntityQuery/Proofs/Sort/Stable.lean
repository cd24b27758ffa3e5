import EntityQuery.Sort.Comparator
import Mathlib.Data.List.Sort

/-!
# Stable sorting

A stable sort of some entities has the same entities, has none before another that it is greater
than, and keeps those that compare as equal in their order. `StableSort` says so without an
algorithm: of every entity, the entities equal to it are the same list before and after.

A comparator that is a total preorder sorts stably, and changes nothing that is in order already.
What a stable sort is leaves it no choice (`StableSort.unique`), so how it is found does not matter:
inserting one entity after the other gives the same list (`sort_eq_insertionSort`).
-/

namespace EntityQuery.Comparator

variable {α : Type} {c : Comparator α}

/-- One list is a stable sort of another. -/
structure StableSort (c : Comparator α) (es sorted : List α) : Prop where
  /-- Nothing is lost, added or doubled. -/
  perm : sorted.Perm es
  /-- Whatever comes first is not greater than what comes later. -/
  ordered : sorted.Pairwise fun a b => c.order a b ≠ .gt
  /-- Entities that compare as equal keep their order. -/
  stable : ∀ a, sorted.filter (fun b => c.order a b == .eq) =
    es.filter fun b => c.order a b == .eq

variable [Std.TransCmp c.order]

theorem notGreater_trans (a b d : α) (hab : (c.order a b != .gt) = true)
    (hbd : (c.order b d != .gt) = true) : (c.order a d != .gt) = true := by
  have le := Std.TransCmp.isLE_trans (Ordering.isLE_iff_ne_gt.mpr (bne_iff_ne.mp hab))
    (Ordering.isLE_iff_ne_gt.mpr (bne_iff_ne.mp hbd))
  exact bne_iff_ne.mpr (Ordering.isLE_iff_ne_gt.mp le)

theorem notGreater_total (a b : α) : (c.order a b != .gt || c.order b a != .gt) = true := by
  have swap : c.order b a = (c.order a b).swap := Std.OrientedCmp.eq_swap
  rw [swap]
  cases c.order a b <;> rfl

theorem pairwise_sort (es : List α) : (c.sort es).Pairwise fun a b => c.order a b ≠ .gt := by
  refine (List.pairwise_mergeSort notGreater_trans notGreater_total es).imp fun h => ?_
  exact bne_iff_ne.mp h

/-- Entities that all equal one are in order among each other. -/
theorem pairwise_filter_eq (a : α) (es : List α) :
    (es.filter fun b => c.order a b == .eq).Pairwise fun b d => (c.order b d != .gt) = true := by
  refine List.pairwise_of_forall_mem_list fun b hb d hd => ?_
  have hab : c.order a b = .eq := by simpa using (List.mem_filter.mp hb).2
  have had : c.order a d = .eq := by simpa using (List.mem_filter.mp hd).2
  have hbd : c.order b d = .eq := Std.TransCmp.eq_trans (Std.OrientedCmp.eq_symm hab) had
  rw [hbd]
  rfl

/-- **Sorting is stable**, where the comparator is a total preorder. -/
theorem stableSort_sort (es : List α) : c.StableSort es (c.sort es) := by
  have perm : (c.sort es).Perm es := List.mergeSort_perm es _
  refine ⟨perm, pairwise_sort es, fun a => ?_⟩
  -- What equals `a` is in order already, so sorting keeps it as a sublist, and there is no more.
  have kept : (es.filter fun b => c.order a b == .eq).Sublist (c.sort es) :=
    List.sublist_mergeSort notGreater_trans notGreater_total (pairwise_filter_eq a es)
      List.filter_sublist
  have inside := kept.filter fun b => c.order a b == .eq
  rw [List.filter_filter] at inside
  simp only [Bool.and_self] at inside
  exact (inside.eq_of_length (perm.filter _).length_eq.symm).symm

theorem sort_sort (es : List α) : c.sort (c.sort es) = c.sort es :=
  List.mergeSort_of_pairwise ((pairwise_sort es).imp fun h => bne_iff_ne.mpr h)

/-! ### Uniqueness -/

/-- Lists that have, of every entity, the same entities equal to it have the same entities. -/
theorem mem_iff_of_classes {es es' : List α} (classes : ∀ a,
    es.filter (fun b => c.order a b == .eq) = es'.filter fun b => c.order a b == .eq) (a : α) :
    a ∈ es ↔ a ∈ es' := by
  have self : c.order a a = .eq := Std.ReflCmp.compare_self
  have same := congrArg (a ∈ ·) (classes a)
  simpa [List.mem_filter, self] using same

/-- Lists in order are determined by the entities in them that are equal to each. -/
theorem eq_of_classes {es es' : List α} (h : es.Pairwise fun a b => c.order a b ≠ .gt)
    (h' : es'.Pairwise fun a b => c.order a b ≠ .gt)
    (classes : ∀ a, es.filter (fun b => c.order a b == .eq) =
      es'.filter fun b => c.order a b == .eq) : es = es' := by
  have self (a : α) : c.order a a = .eq := Std.ReflCmp.compare_self
  have mem := mem_iff_of_classes classes
  induction es generalizing es' with
  | nil =>
    symm
    exact List.eq_nil_iff_forall_not_mem.mpr fun a ha => List.not_mem_nil ((mem a).mpr ha)
  | cons a es ih =>
    cases es' with
    | nil => exact absurd ((mem a).mp List.mem_cons_self) List.not_mem_nil
    | cons b es' =>
      obtain ⟨first, rest⟩ := List.pairwise_cons.mp h
      obtain ⟨first', rest'⟩ := List.pairwise_cons.mp h'
      -- Each head is somewhere in the other list, so neither is greater than the other.
      have ab : c.order a b ≠ .gt := by
        rcases List.mem_cons.mp ((mem b).mpr List.mem_cons_self) with rfl | hb
        · simp [self]
        · exact first b hb
      have ba : c.order b a ≠ .gt := by
        rcases List.mem_cons.mp ((mem a).mp List.mem_cons_self) with rfl | ha
        · simp [self]
        · exact first' a ha
      have tie : c.order a b = .eq := by
        have swap : c.order b a = (c.order a b).swap := Std.OrientedCmp.eq_swap
        rw [swap] at ba
        cases hab : c.order a b <;> simp_all
      have heads := classes a
      simp only [List.filter_cons, self, tie, beq_self_eq_true, if_true, List.cons.injEq] at heads
      obtain ⟨rfl, -⟩ := heads
      have tails (d : α) : es.filter (fun b => c.order d b == .eq) =
          es'.filter fun b => c.order d b == .eq := by
        have both := classes d
        rw [List.filter_cons, List.filter_cons] at both
        split at both
        · exact (List.cons.inj both).2
        · exact both
      exact congrArg _ (ih rest rest' tails (mem_iff_of_classes tails))

/-- **There is at most one stable sort** of some entities. -/
theorem StableSort.unique {es sorted sorted' : List α} (h : c.StableSort es sorted)
    (h' : c.StableSort es sorted') : sorted = sorted' :=
  eq_of_classes h.ordered h'.ordered fun a => (h.stable a).trans (h'.stable a).symm

/-! ### Sorting by insertion -/

/-- An entity goes before the first of the later ones that it is not greater than. -/
theorem sort_cons (a : α) (es : List α) :
    c.sort (a :: es) = (c.sort es).orderedInsert (fun a b => c.order a b ≠ .gt) a := by
  obtain ⟨before, after, whole, rest, greater⟩ : ∃ before after,
      c.sort (a :: es) = before ++ a :: after ∧ c.sort es = before ++ after ∧
        ∀ b, b ∈ before → (!(c.order a b != .gt)) = true :=
    List.mergeSort_cons notGreater_trans notGreater_total a es
  have inOrder : (before ++ a :: after).Pairwise fun a b => c.order a b ≠ .gt :=
    whole ▸ pairwise_sort (a :: es)
  have notGreater : ∀ b ∈ after, c.order a b ≠ .gt :=
    (List.pairwise_cons.mp (List.pairwise_append.mp inOrder).2.1).1
  have passed : ∀ b ∈ before, decide (¬ c.order a b ≠ .gt) = true := by
    intro b hb
    simpa using greater b hb
  rw [whole, rest, List.orderedInsert_eq_take_drop,
    List.takeWhile_append_of_pos passed, List.dropWhile_append_of_pos passed]
  cases after with
  | nil => simp
  | cons b after => simp [notGreater b List.mem_cons_self]

/-- Sorting puts one entity after the other in its place, the last one first. -/
theorem sort_eq_insertionSort (es : List α) :
    c.sort es = es.insertionSort fun a b => c.order a b ≠ .gt := by
  induction es with
  | nil => exact List.mergeSort_nil
  | cons a es ih => rw [sort_cons, ih, List.insertionSort_cons]

/-! ### No keys -/

omit [Std.TransCmp c.order] in
/-- Without keys all entities are equal, and stay where they are. -/
theorem sort_of_keys_eq_nil (h : c.keys = []) (es : List α) : c.sort es = es := by
  refine List.mergeSort_of_pairwise (List.pairwise_of_forall fun a b => ?_)
  rw [order, h]
  rfl

end EntityQuery.Comparator
