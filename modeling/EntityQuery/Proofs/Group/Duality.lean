import EntityQuery.Proofs.Group.Failure

/-!
# Negated groups

A negation goes into a group: the negated conjunction of some nodes is the disjunction of the
negated nodes, and the other way round. Both trees are compiled without repetitions, each its own
ones, but reversing two nodes does not change whether they count as the same. So what is dropped
from the one tree is just what is dropped from the other, and the rules that are left fail with the
same errors in the same order.

An excluded rule is true, negated or not. It must not be one of the nodes; inside them it does no
harm. The main result is `Group.deMorgan`.
-/

namespace EntityQuery

open Outcome

variable {S : Schema} {kind : S.Kind} {o : FilterOptions}

/-- The other connective. -/
def Connective.dual : Connective → Connective
  | .and => .or
  | .or => .and

/-- The node with its result reversed. -/
def Node.negate : Node → Node
  | .rule r => .rule r.negate
  | .group g => .group (Group.negate g)

/-! ### Repetitions among reversed nodes -/

namespace Node

/-- Reversed nodes count as the same if the nodes themselves do. -/
theorem same_negate (a b : Node) : a.negate.same b.negate = a.same b := by
  have flags (b c : Bool) : ((!b) == (!c)) = (b == c) := by cases b <;> cases c <;> rfl
  cases a with
  | rule r =>
    cases b with
    | rule s => simp only [negate, same, Rule.same, Rule.negate, flags]
    | group h => simp only [negate, same]
  | group g =>
    cases b with
    | rule s => simp only [negate, same]
    | group h => simp only [negate, same, Group.negate, flags]

theorem deduplicated_negate (a : Node) : a.negate.deduplicated = a.deduplicated.negate := by
  cases a <;> simp only [negate, deduplicated, Group.negate]

theorem addNew_negate (kept : List Node) (a : Node) :
    addNew (kept.map negate) a.negate = (addNew kept a).map negate := by
  unfold addNew
  simp only [List.any_map, Function.comp_def, same_negate]
  split <;> simp only [List.map_append, List.map_cons, List.map_nil]

/-- Of reversed nodes the same are dropped as of the nodes themselves. -/
theorem deduplicatedAll_negate (as kept : List Node) :
    deduplicatedAll (as.map negate) (kept.map negate) = (deduplicatedAll as kept).map negate := by
  induction as generalizing kept with
  | nil => simp only [List.map_nil, deduplicatedAll]
  | cons a as ih =>
    simp only [List.map_cons, deduplicatedAll]
    rw [deduplicated_negate, addNew_negate, ih]

/-- What is left of some nodes has been kept before, or is one of them without its own
repetitions. -/
theorem mem_deduplicatedAll {as kept : List Node} {b : Node} (h : b ∈ deduplicatedAll as kept) :
    b ∈ kept ∨ ∃ a ∈ as, b = a.deduplicated := by
  induction as generalizing kept with
  | nil =>
    rw [deduplicatedAll] at h
    exact .inl h
  | cons a as ih =>
    rw [deduplicatedAll] at h
    rcases ih h with h | ⟨c, hc, rfl⟩
    · obtain new | ⟨old, -⟩ := addNew_cases kept a.deduplicated
      · rw [new] at h
        rcases List.mem_append.mp h with h | h
        · exact .inl h
        · exact .inr ⟨a, List.mem_cons_self, List.mem_singleton.mp h⟩
      · exact .inl (old ▸ h)
    · exact .inr ⟨c, List.mem_cons_of_mem _ hc, rfl⟩

theorem addNew_ne_nil (kept : List Node) (a : Node) : addNew kept a ≠ [] := by
  obtain h | ⟨h, b, hb, -⟩ := addNew_cases kept a
  · simp [h]
  · rw [h]
    exact List.ne_nil_of_mem hb

theorem deduplicatedAll_ne_nil {as kept : List Node} (h : as ≠ [] ∨ kept ≠ []) :
    deduplicatedAll as kept ≠ [] := by
  induction as generalizing kept with
  | nil => simpa [deduplicatedAll] using h
  | cons a as ih =>
    rw [deduplicatedAll]
    exact ih (.inr (addNew_ne_nil _ _))

/-- A rule that is left is one of the nodes. -/
theorem mem_of_rule_mem_deduplicatedAll {as : List Node} {r : Rule}
    (h : .rule r ∈ deduplicatedAll as []) : .rule r ∈ as := by
  rcases mem_deduplicatedAll h with h | ⟨a, ha, eq⟩
  · cases h
  · cases a with
    | rule s =>
      rw [deduplicated] at eq
      exact eq ▸ ha
    | group g =>
      rw [deduplicated] at eq
      cases eq

end Node

/-! ### Reversed predicates -/

/-- A connective makes of reversed truth values what the other one makes of the truth values
themselves, reversed; of none both make truth. -/
theorem Connective.joins_dual (c : Connective) {bs : List Bool} (h : bs ≠ []) :
    c.dual.joins (bs.map (!·)) = !c.joins bs := by
  have some : bs.isEmpty = false := List.isEmpty_eq_false_iff.mpr h
  unfold joins
  rw [List.isEmpty_map, some]
  cases c with
  | and => simp [dual, List.not_all_eq_any_not]
  | or => simp [dual, List.not_any_eq_all_not]

namespace GroupOf

variable {ν α : Type}

theorem combine_not (g : GroupOf ν) (ps : List (Predicate α)) :
    { g with negated := !g.negated }.combine ps = (g.combine ps).not := by
  refine Predicate.eq_of_holds fun e => ?_
  rw [Predicate.holds_not, holds_combine, holds_combine, Bool.not_xor]

/-- A negated group of some children is the group of the reversed children that has the other
connective. -/
theorem combine_dual (c : Connective) (i j : Connective) (as bs : List ν)
    {ps : List (Predicate α)} (h : ps ≠ []) :
    (GroupOf.mk c.dual j false bs).combine (ps.map Predicate.not) =
      (GroupOf.mk c i true as).combine ps := by
  refine Predicate.eq_of_holds fun e => ?_
  have flipped : (ps.map Predicate.not).map (fun p => p.holds e) =
      (ps.map fun p => p.holds e).map (!·) := by simp
  have some : (ps.map fun p => p.holds e) ≠ [] := by simpa using h
  rw [holds_combine, holds_combine, flipped, Connective.joins_dual c some]
  simp

end GroupOf

/-! ### Compiling reversed nodes -/

/-- A rule that is not excluded compiles, negated, to the reversed predicate. -/
theorem Rule.compileAlone_negate {r : Rule} (h : ¬ o.Excludes r) :
    r.negate.compileAlone S kind o = (r.compileAlone S kind o).map Predicate.not := by
  have ha := FilterOptions.allowsRule_eq_true_iff.mpr h
  have condition : (r.negate.condition : Resolving S kind _) = r.condition := rfl
  rw [compileAlone_of_allows ha, compileAlone_of_allows (r := r.negate) ha, condition]
  cases (r.condition : Resolving S kind _).alone with
  | error err => rfl
  | ok c => exact congrArg Except.ok (Predicate.negateIf_not _ _)

namespace Node

theorem alone_compile_negate {a : Node} (h : ∀ r, a = .rule r → ¬ o.Excludes r) :
    (compile o a.negate : Resolving S kind _).alone =
      (compile o a : Resolving S kind _).alone.map Predicate.not := by
  cases a with
  | rule r => exact Rule.compileAlone_negate (h r rfl)
  | group g =>
    rw [negate, alone_compile_group, alone_compile_group]
    change ((compileAll o g.children : Resolving S kind _).alone.map fun ps =>
      { g with negated := !g.negated }.combine ps) = _
    simp only [GroupOf.combine_not]
    cases (compileAll o g.children : Resolving S kind _).alone <;> rfl

theorem alone_compileAll_negate {as : List Node} (h : ∀ r, .rule r ∈ as → ¬ o.Excludes r) :
    (compileAll o (as.map negate) : Resolving S kind _).alone =
      (compileAll o as : Resolving S kind _).alone.map (List.map Predicate.not) := by
  induction as with
  | nil => rfl
  | cons a as ih =>
    have first : ∀ r, a = .rule r → ¬ o.Excludes r := fun r hr => h r (hr ▸ List.mem_cons_self)
    have rest := ih fun r hr => h r (List.mem_cons_of_mem _ hr)
    rw [List.map_cons, alone_compileAll_cons, alone_compileAll_cons, alone_compile_negate first,
      rest]
    cases (compile o a : Resolving S kind _).alone with
    | error err => rfl
    | ok p => cases (compileAll o as : Resolving S kind _).alone <;> rfl

/-- There is a predicate for each node. -/
theorem ne_nil_of_alone_compileAll {as : List Node} {ps : List (Predicate (S.Entity kind))}
    (h : (compileAll o as : Resolving S kind _).alone = .ok ps) (ha : as ≠ []) : ps ≠ [] := by
  cases as with
  | nil => exact absurd rfl ha
  | cons a as =>
    rw [alone_compileAll_cons, bind_eq_ok_iff] at h
    obtain ⟨p, -, h⟩ := h
    obtain ⟨qs, -, rfl⟩ := map_eq_ok_iff.mp h
    exact List.cons_ne_nil p qs

end Node

namespace Group

/-- What a group compiles to, put together from its children without repetitions. -/
theorem compile_eq_map (g : Group) : g.compile S kind o =
    (Node.compileAll o (Node.deduplicatedAll g.children []) : Resolving S kind _).alone.map
      g.combine := by
  rw [compile_eq_alone, Node.alone_compile_group]
  rfl

/-- A group that is negated compiles to the reversed predicate. -/
theorem compile_negate (g : Group) :
    g.negate.compile S kind o = (g.compile S kind o).map Predicate.not := by
  rw [compile_eq_alone, compile_eq_alone]
  exact Node.alone_compile_negate (a := .group g.deduplicated) nofun

/-- **A negation goes into a group**: a negated group of some nodes compiles just as the group of
the negated nodes that has the other connective, to a predicate that holds of the same entities or
with the same error. None of the nodes may be an excluded rule. So negating any group, whatever it
excludes, reverses its predicate. -/
theorem deMorgan (S : Schema) (kind : S.Kind) (o : FilterOptions) :
    (∀ nodes : List Node, nodes ≠ [] → (∀ r, .rule r ∈ nodes → ¬ o.Excludes r) →
      ∀ c i j : Connective,
        compile S kind o ⟨c, i, true, nodes⟩ =
          compile S kind o ⟨c.dual, j, false, nodes.map Node.negate⟩) ∧
      ∀ g : Group, g.negate.compile S kind o = (g.compile S kind o).map Predicate.not := by
  refine ⟨fun nodes hn hx c i j => ?_, compile_negate⟩
  have kept : Node.deduplicatedAll nodes [] ≠ [] := Node.deduplicatedAll_ne_nil (.inl hn)
  have allowed : ∀ r, .rule r ∈ Node.deduplicatedAll nodes [] → ¬ o.Excludes r :=
    fun r hr => hx r (Node.mem_of_rule_mem_deduplicatedAll hr)
  have same : Node.deduplicatedAll (nodes.map Node.negate) [] =
      (Node.deduplicatedAll nodes []).map Node.negate := Node.deduplicatedAll_negate nodes []
  rw [compile_eq_map, compile_eq_map, same, Node.alone_compileAll_negate allowed]
  cases hp : (Node.compileAll o (Node.deduplicatedAll nodes []) : Resolving S kind _).alone with
  | error err => rfl
  | ok ps =>
    have some : ps ≠ [] := Node.ne_nil_of_alone_compileAll hp kept
    exact congrArg Except.ok (GroupOf.combine_dual c i j _ _ some).symm

/-- Who is not both of age and named Conrad is not of age or not named Conrad. One rule is there
twice, and an excluded one stands inside a group. -/
theorem deMorgan_adults :
    let adult : Rule := ⟨"age", .greaterThanOrEqual, some (.number (.ofInt64 18)), none, false⟩
    let unknown : Rule := ⟨"salary", .between, none, none, true⟩
    let named : Group := ⟨.and, .or, false, [.rule unknown,
      .rule ⟨"name", .equal, some (.string "Conrad"), none, false⟩]⟩
    let nodes : List Node := [.rule adult, .rule adult, .group named]
    let o : FilterOptions := ⟨some ["age", "name"], .ordinal⟩
    nodes ≠ [] ∧ (∀ r, .rule r ∈ nodes → ¬ o.Excludes r) ∧
      ∃ p, compile Shelf.schema .author o ⟨.and, .or, true, nodes⟩ = .ok p ∧
        p.holds (Shelf.Author.mk "Conrad" 66 none none) = false ∧
        p.holds (Shelf.Author.mk "Ashford" 66 none none) = true ∧
        compile Shelf.schema .author o ⟨.or, .and, false, nodes.map Node.negate⟩ = .ok p := by
  intro adult unknown named nodes o
  have allowed : ∀ r, .rule r ∈ nodes → ¬ o.Excludes r := by
    intro r hr
    obtain rfl : r = adult := by simpa [nodes] using hr
    decide
  have run : (compile Shelf.schema .author o ⟨.and, .or, true, nodes⟩).toOption.map
      (fun p => (p.holds (Shelf.Author.mk "Conrad" 66 none none),
        p.holds (Shelf.Author.mk "Ashford" 66 none none))) = some (false, true) := by decide +kernel
  obtain ⟨p, hp, hh⟩ := exists_of_toOption run
  rw [Prod.mk.injEq] at hh
  have moved := (deMorgan Shelf.schema .author o).1 nodes nofun allowed .and .or .and
  exact ⟨nofun, allowed, p, hp, hh.1, hh.2, moved.symm.trans hp⟩

end Group

end EntityQuery
