import EntityQuery.Proofs.Sort.Comparator
import EntityQuery.Proofs.Sort.Stable

/-!
# Sorting by one order after the other

A sort order that is put together from two compares by the first one and, only where that finds no
difference, by the second. Sorting by it is sorting by the second order and then by the first: the
later sort is stable, and keeps what the earlier one has done among entities that the first order
does not tell apart. This is shown of stable sorts as such (`Refines.stableSort`), and there is only
one of these.
-/

namespace EntityQuery

namespace Comparator

variable {α : Type} {c d e : Comparator α}

theorem orderBy_append (keys keys' : List (SortKey α)) (a b : α) :
    orderBy (keys ++ keys') a b = (orderBy keys a b).then (orderBy keys' a b) := by
  induction keys with
  | nil => rfl
  | cons k keys ih => rw [List.cons_append, orderBy, orderBy, ih, Ordering.then_assoc]

/-- A comparator compares by one and, where that finds no difference, by another. -/
def Refines (e c d : Comparator α) : Prop :=
  ∀ a b, e.order a b = (c.order a b).then (d.order a b)

namespace Refines

theorem order_eq_eq_iff (h : e.Refines c d) (a b : α) :
    e.order a b = .eq ↔ c.order a b = .eq ∧ d.order a b = .eq := by
  rw [h a b, Ordering.then_eq_eq]

variable {es between sorted : List α}

/-- What is sorted by the one after it was sorted by the other is in order. -/
theorem pairwise [Std.ReflCmp c.order] (h : e.Refines c d) (first : d.StableSort es between)
    (second : c.StableSort between sorted) : sorted.Pairwise fun a b => e.order a b ≠ .gt := by
  rw [List.pairwise_iff_forall_sublist]
  intro a b pair
  have le := List.pairwise_iff_forall_sublist.mp second.ordered pair
  rw [h a b]
  cases hab : c.order a b with
  | lt => simp
  | gt => exact absurd hab le
  | eq =>
    -- The later sort has left the two as they were, among all that is equal to the first of them.
    have kept := pair.filter fun x => c.order a x == .eq
    have self : c.order a a = .eq := Std.ReflCmp.compare_self
    rw [second.stable a] at kept
    simp only [List.filter_cons, self, hab, beq_self_eq_true, if_true, List.filter_nil] at kept
    rw [Ordering.eq_then]
    exact List.pairwise_iff_forall_sublist.mp first.ordered (kept.trans List.filter_sublist)

/-- Entities that neither comparator tells apart are kept in their order twice. -/
theorem filter_eq (h : e.Refines c d) (first : d.StableSort es between)
    (second : c.StableSort between sorted) (a : α) :
    sorted.filter (fun b => e.order a b == .eq) = es.filter fun b => e.order a b == .eq := by
  have split (l : List α) : l.filter (fun b => e.order a b == .eq) =
      (l.filter fun b => c.order a b == .eq).filter fun b => d.order a b == .eq := by
    rw [List.filter_filter]
    congr 1
    funext b
    rw [Bool.eq_iff_iff]
    simp [h.order_eq_eq_iff, and_comm]
  calc sorted.filter (fun b => e.order a b == .eq)
      = between.filter fun b => e.order a b == .eq := by rw [split, second.stable a, ← split]
    _ = es.filter fun b => e.order a b == .eq := by
      rw [split, List.filter_comm, first.stable a, List.filter_comm, ← split]

/-- A stable sort of a stable sort is a stable sort by both comparators. -/
theorem stableSort [Std.ReflCmp c.order] (h : e.Refines c d) (first : d.StableSort es between)
    (second : c.StableSort between sorted) : e.StableSort es sorted :=
  ⟨second.perm.trans first.perm, h.pairwise first second, h.filter_eq first second⟩

end Refines

end Comparator

variable {S : Schema} {kind : S.Kind}

/-- **A sort order put together from two** has the keys of both. It compares two entities as equal
just if both orders do, and sorts as the second order does followed by the first: whatever is a
stable sort by the first of a stable sort by the second is what it sorts to. -/
theorem SortOrder.sort_append (hS : S.WellTyped) {o : SortOptions} {rules rules' : SortOrder}
    {c d : Comparator (S.Entity kind)} (hc : rules.compile S kind o = .ok c)
    (hd : rules'.compile S kind o = .ok d) :
    ∃ e : Comparator (S.Entity kind), SortOrder.compile S kind o (rules ++ rules') = .ok e ∧
      (∀ es, e.sort es = c.sort (d.sort es)) ∧
      (∀ es between sorted, d.StableSort es between → c.StableSort between sorted →
        e.StableSort es sorted ∧ sorted = e.sort es) ∧
      (∀ a b, e.order a b = .eq ↔ c.order a b = .eq ∧ d.order a b = .eq) ∧
      e.rules = c.rules ++ d.rules := by
  obtain ⟨e, he, refines, directives⟩ : ∃ e : Comparator (S.Entity kind),
      SortOrder.compile S kind o (rules ++ rules') = .ok e ∧ e.Refines c d ∧
        e.rules = c.rules ++ d.rules :=
    ⟨_, compile_append hc hd, Comparator.orderBy_append c.keys d.keys, List.map_append⟩
  have preorder := transCmp_of_compile hS hc
  have preorder' := transCmp_of_compile hS hd
  have preorder'' := transCmp_of_compile hS he
  have chain (es between sorted : List (S.Entity kind)) (first : d.StableSort es between)
      (second : c.StableSort between sorted) : e.StableSort es sorted ∧ sorted = e.sort es := by
    have both := refines.stableSort first second
    exact ⟨both, both.unique (Comparator.stableSort_sort es)⟩
  refine ⟨e, he, fun es => ?_, chain, refines.order_eq_eq_iff, directives⟩
  exact (chain es _ _ (Comparator.stableSort_sort es) (Comparator.stableSort_sort _)).2.symm

/-- Authors are sorted by the titles of their best known books, the last title first, and those who
share a title by age; who has no such book comes last. A rule on the titles of all books is dropped
on the way. -/
theorem SortOrder.sort_append_authors :
    let o : SortOptions := ⟨true, none⟩
    let titles : SortOrder := [⟨"known.title", true⟩, ⟨"books[].title", false⟩]
    let ages : SortOrder := [⟨"age", false⟩]
    let author (name : String) (age : Int32) (known : Option String) :
        Shelf.schema.Entity .author :=
      Shelf.Author.mk name age (known.map fun title => ⟨title, none⟩) none
    let keats := author "Keats" 25 none
    let ford := author "Ford" 66 (some "Romance")
    let james := author "James" 72 (some "The Ambassadors")
    let conrad := author "Conrad" 57 (some "Romance")
    let es := [keats, ford, james, conrad]
    let byAge := [keats, conrad, ford, james]
    let byTitle := [james, conrad, ford, keats]
    Shelf.schema.WellTyped ∧ ∃ c d, titles.compile Shelf.schema .author o = .ok c ∧
      ages.compile Shelf.schema .author o = .ok d ∧ c.rules = [⟨"known.title", true⟩] ∧
      d.rules = ages ∧ d.StableSort es byAge ∧ c.StableSort byAge byTitle ∧
      ∃ e : Comparator (Shelf.schema.Entity .author),
        SortOrder.compile Shelf.schema .author o (titles ++ ages) = .ok e ∧
        (∀ es, e.sort es = c.sort (d.sort es)) ∧
        (∀ es between sorted, d.StableSort es between → c.StableSort between sorted →
          e.StableSort es sorted ∧ sorted = e.sort es) ∧
        (∀ a b, e.order a b = .eq ↔ c.order a b = .eq ∧ d.order a b = .eq) ∧
        e.rules = c.rules ++ d.rules ∧ e.sort es = byTitle := by
  intro o titles ages author keats ford james conrad es byAge byTitle
  -- The sorts are evaluated by insertion, as merging does not recurse along the list.
  let inserted (es : List (Shelf.schema.Entity .author))
      (c : Comparator (Shelf.schema.Entity .author)) :=
    es.insertionSort fun a b => c.order a b ≠ .gt
  let view (es : List (Shelf.schema.Entity .author))
      (c : Comparator (Shelf.schema.Entity .author)) : List SortRule × List Shelf.Author :=
    (c.rules, inserted es c)
  obtain ⟨c, hc, viewed⟩ := Outcome.exists_of_toOption (f := view byAge)
    (b := ([⟨"known.title", true⟩], byTitle)) (x := titles.compile Shelf.schema .author o)
    (by decide +kernel)
  obtain ⟨d, hd, viewed'⟩ := Outcome.exists_of_toOption (f := view es) (b := (ages, byAge))
    (x := ages.compile Shelf.schema .author o) (by decide +kernel)
  obtain ⟨rc, sc⟩ := Prod.mk.inj viewed
  obtain ⟨rd, sd⟩ := Prod.mk.inj viewed'
  have preorder := transCmp_of_compile Shelf.wellTyped hc
  have preorder' := transCmp_of_compile Shelf.wellTyped hd
  have sorted_es : d.sort es = byAge := (Comparator.sort_eq_insertionSort es).trans sd
  have sorted_byAge : c.sort byAge = byTitle := (Comparator.sort_eq_insertionSort byAge).trans sc
  have first : d.StableSort es byAge := sorted_es ▸ Comparator.stableSort_sort es
  have second : c.StableSort byAge byTitle := sorted_byAge ▸ Comparator.stableSort_sort byAge
  obtain ⟨e, he, sorts, chain, equal, rules⟩ := SortOrder.sort_append Shelf.wellTyped hc hd
  exact ⟨Shelf.wellTyped, c, d, hc, hd, rc, rd, first, second, e, he, sorts, chain, equal, rules,
    (chain es byAge byTitle first second).2.symm⟩

end EntityQuery
