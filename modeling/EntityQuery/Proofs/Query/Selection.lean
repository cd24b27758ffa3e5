import EntityQuery.Proofs.Sort.Comparator
import EntityQuery.Proofs.Sort.Stable
import EntityQuery.Query.Basic

/-!
# What a query selects

A compiled query keeps the entities that its predicate holds of, each as often as it was there, and
sorts them stably by its comparator. What has been selected once is selected again, in the same
order. All this rests on the comparator being a total preorder, as that of a sort order is if the
getters of the schema read what their types promise.
-/

namespace EntityQuery

namespace CompiledQuery

variable {α : Type} (q : CompiledQuery α) (es : List α)

theorem apply_eq : q.apply es = q.comparator.sort (es.filter q.predicate.holds) := rfl

theorem perm_apply : (q.apply es).Perm (es.filter q.predicate.holds) := List.mergeSort_perm _ _

theorem count_eq_length_apply : q.count es = (q.apply es).length := by
  rw [(perm_apply q es).length_eq]
  exact List.countP_eq_length_filter

/-- Whatever has been selected, the predicate holds of it. -/
theorem filter_apply : (q.apply es).filter q.predicate.holds = q.apply es := by
  rw [List.filter_eq_self]
  intro e he
  exact (List.mem_filter.mp ((perm_apply q es).mem_iff.mp he)).2

theorem apply_apply [Std.TransCmp q.comparator.order] : q.apply (q.apply es) = q.apply es := by
  rw [apply_eq, filter_apply, apply_eq, Comparator.sort_sort]

end CompiledQuery

variable {S : Schema} {kind : S.Kind}

namespace Query

/-- A query that compiles has the comparator of its sort order. -/
theorem compile_sorts_of_compile {f : FilterOptions} {s : SortOptions} {q : Query}
    {c : CompiledQuery (S.Entity kind)} (h : q.compile S kind f s = .ok c) :
    q.sorts.compile S kind s = .ok c.comparator := by
  obtain ⟨_, -, h⟩ := Outcome.bind_eq_ok_iff.mp h
  obtain ⟨_, hs, h⟩ := Outcome.bind_eq_ok_iff.mp h
  exact Except.ok.inj h ▸ hs

/-- The comparator of a compiled query is a total preorder. -/
theorem transCmp_of_compile (hS : S.WellTyped) {f : FilterOptions} {s : SortOptions} {q : Query}
    {c : CompiledQuery (S.Entity kind)} (h : q.compile S kind f s = .ok c) :
    Std.TransCmp c.comparator.order :=
  SortOrder.transCmp_of_compile hS (compile_sorts_of_compile h)

/-- **What a query selects** is a stable sort of the entities that its predicate holds of: as many
as it counts, in the order they came in if there are no keys, and the same when selected again. -/
theorem stableSort_apply (hS : S.WellTyped) {f : FilterOptions} {s : SortOptions} {q : Query}
    {c : CompiledQuery (S.Entity kind)} (h : q.compile S kind f s = .ok c)
    (es : List (S.Entity kind)) :
    c.comparator.StableSort (es.filter c.predicate.holds) (c.apply es) ∧
      c.count es = (c.apply es).length ∧
      (c.comparator.keys = [] → c.apply es = es.filter c.predicate.holds) ∧
      c.apply (c.apply es) = c.apply es := by
  have preorder := transCmp_of_compile hS h
  refine ⟨Comparator.stableSort_sort _, c.count_eq_length_apply es, fun noKeys => ?_,
    c.apply_apply es⟩
  exact Comparator.sort_of_keys_eq_nil noKeys _

/-- Of five authors the two younger than forty are left out, and the three others are sorted by
age, the oldest first; two of them are of one age, and stay as they were. -/
theorem stableSort_apply_byAge :
    let q : Query := ⟨"elders", [⟨.and, .or, true, [.rule ⟨"age", .lessThan,
      some (.number (.ofInt64 40)), none, false⟩]⟩], [⟨"age", true⟩]⟩
    let author (name : String) (age : Int32) : Shelf.schema.Entity .author :=
      Shelf.Author.mk name age none none
    let es := [author "Crane" 28, author "Conrad" 66, author "James" 72, author "Keats" 25,
      author "Ford" 66]
    Shelf.schema.WellTyped ∧ ∃ c, q.compile Shelf.schema .author .default .default = .ok c ∧
      (es.filter c.predicate.holds).map Shelf.Author.name = ["Conrad", "James", "Ford"] ∧
      (c.apply es).map Shelf.Author.name = ["James", "Conrad", "Ford"] ∧
      c.comparator.StableSort (es.filter c.predicate.holds) (c.apply es) ∧
      c.count es = (c.apply es).length ∧
      (c.comparator.keys = [] → c.apply es = es.filter c.predicate.holds) ∧
      c.apply (c.apply es) = c.apply es := by
  intro q author es
  let selected (c : CompiledQuery (Shelf.schema.Entity .author)) := es.filter c.predicate.holds
  -- The sort is evaluated by insertion, as merging does not recurse along the list.
  let sorted (c : CompiledQuery (Shelf.schema.Entity .author)) :=
    (selected c).insertionSort fun a b => c.comparator.order a b ≠ .gt
  have run : (q.compile Shelf.schema .author .default .default).toOption.map
      (fun c => ((selected c).map Shelf.Author.name, (sorted c).map Shelf.Author.name)) =
        some (["Conrad", "James", "Ford"], ["James", "Conrad", "Ford"]) := by
    decide +kernel
  obtain ⟨c, hc, names⟩ := Outcome.exists_of_toOption run
  obtain ⟨chosen, inOrder⟩ := Prod.mk.inj names
  have preorder := transCmp_of_compile Shelf.wellTyped hc
  refine ⟨Shelf.wellTyped, c, hc, chosen, ?_, stableSort_apply Shelf.wellTyped hc es⟩
  rw [CompiledQuery.apply_eq, Comparator.sort_eq_insertionSort]
  exact inOrder

end Query

end EntityQuery
