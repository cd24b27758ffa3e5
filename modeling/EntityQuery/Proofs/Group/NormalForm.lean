import EntityQuery.Proofs.Group.Equality

/-!
# Trees without repetitions

A group without repetitions has those of its children, each without its own repetitions, that no
equal one comes before. `Node.firsts` says so without keeping anything: a child is compared with
all that come before it, and not only with those that are left. As being the same is an
equivalence, that is what appending one new child after the other comes to.

Everything else follows from this description. The main result is `Group.deduplicated_normal`: the
tree that is left has no two equal children at any depth, its rules are a subsequence of those of
the whole tree, and leaving out repetitions once more, or from a group with all children twice,
makes no difference.
-/

namespace EntityQuery

namespace Node

/-! ### Induction on trees -/

mutual
/-- What holds of every rule, and of a group if it holds of its children, holds of every tree. -/
@[elab_as_elim] theorem tree_induction {P : Node → Prop} (rule : ∀ r, P (.rule r))
    (group : ∀ g : Group, (∀ a ∈ g.children, P a) → P (.group g)) : ∀ a : Node, P a
  | .rule r => rule r
  | .group g => group g (forall_mem_of_tree rule group g.children)
theorem forall_mem_of_tree {P : Node → Prop} (rule : ∀ r, P (.rule r))
    (group : ∀ g : Group, (∀ a ∈ g.children, P a) → P (.group g)) :
    ∀ as : List Node, ∀ a ∈ as, P a
  | [] => List.forall_mem_nil P
  | a :: as => List.forall_mem_cons.mpr
      ⟨tree_induction rule group a, forall_mem_of_tree rule group as⟩
end

/-! ### First occurrences -/

/-- The first occurrences among some nodes: those that equal none of the nodes `before` and none
that comes before them. -/
def firsts (before : List Node) : List Node → List Node
  | [] => []
  | a :: as =>
    if before.any fun b => b.same a then firsts (before ++ [a]) as
    else a :: firsts (before ++ [a]) as

variable {before as bs : List Node} {a b : Node}

theorem firsts_sublist (before as : List Node) : (firsts before as).Sublist as := by
  induction as generalizing before with
  | nil => exact List.Sublist.refl _
  | cons a as ih =>
    rw [firsts]
    split
    · exact (ih _).cons a
    · exact (ih _).cons_cons a

theorem firsts_append (before as bs : List Node) :
    firsts before (as ++ bs) = firsts before as ++ firsts (before ++ as) bs := by
  induction as generalizing before with
  | nil => simp [firsts]
  | cons a as ih =>
    rw [List.cons_append, firsts, firsts, ih, List.append_assoc, List.singleton_append]
    split <;> rfl

/-- A first occurrence equals nothing before it. -/
theorem not_same_of_mem_firsts (hb : b ∈ before) (ha : a ∈ firsts before as) :
    b.same a = false := by
  induction as generalizing before with
  | nil => cases ha
  | cons c as ih =>
    rw [firsts] at ha
    split at ha
    · exact ih (List.mem_append_left _ hb) ha
    · next fresh =>
      rcases List.mem_cons.mp ha with rfl | ha
      · exact Bool.eq_false_iff.mpr fun h => fresh (List.any_eq_true.mpr ⟨b, hb, h⟩)
      · exact ih (List.mem_append_left _ hb) ha

theorem pairwise_firsts (before as : List Node) :
    (firsts before as).Pairwise fun a b => a.same b = false := by
  induction as generalizing before with
  | nil => exact .nil
  | cons a as ih =>
    rw [firsts]
    split
    · exact ih _
    · refine List.pairwise_cons.mpr ⟨fun b hb => ?_, ih _⟩
      exact not_same_of_mem_firsts (List.mem_append_right _ (List.mem_singleton_self a)) hb

/-- Every node equals a first occurrence, or one of those before. -/
theorem exists_same_firsts (before : List Node) (ha : a ∈ as) :
    ∃ b ∈ before ++ firsts before as, b.same a = true := by
  induction as generalizing before with
  | nil => cases ha
  | cons c as ih =>
    rcases List.mem_cons.mp ha with rfl | ha
    · rw [firsts]
      split
      · next seen =>
        obtain ⟨b, hb, h⟩ := List.any_eq_true.mp seen
        exact ⟨b, List.mem_append_left _ hb, h⟩
      · exact ⟨a, List.mem_append_right _ List.mem_cons_self, same_self a⟩
    · obtain ⟨b, hb, h⟩ := ih (before ++ [c]) ha
      rw [firsts]
      split
      · next seen =>
        rcases List.mem_append.mp hb with hb | hb
        · rcases List.mem_append.mp hb with hb | hb
          · exact ⟨b, List.mem_append_left _ hb, h⟩
          · -- The node that is equal to it was dropped, for another one before.
            obtain rfl := List.mem_singleton.mp hb
            obtain ⟨d, hd, h'⟩ := List.any_eq_true.mp seen
            exact ⟨d, List.mem_append_left _ hd, same_trans h' h⟩
        · exact ⟨b, List.mem_append_right _ hb, h⟩
      · rw [List.append_assoc] at hb
        exact ⟨b, hb, h⟩

/-- Among nodes that equal nothing before them all are first occurrences. -/
theorem firsts_eq_self (pairwise : as.Pairwise fun a b => a.same b = false)
    (new : ∀ b ∈ before, ∀ a ∈ as, b.same a = false) : firsts before as = as := by
  induction as generalizing before with
  | nil => rfl
  | cons a as ih =>
    obtain ⟨first, rest⟩ := List.pairwise_cons.mp pairwise
    have fresh : (before.any fun b => b.same a) = false :=
      List.any_eq_false.mpr fun b hb => Bool.eq_false_iff.mp (new b hb a List.mem_cons_self)
    rw [firsts, fresh, if_neg Bool.false_ne_true, ih rest]
    intro b hb c hc
    rcases List.mem_append.mp hb with hb | hb
    · exact new b hb c (List.mem_cons_of_mem _ hc)
    · rw [List.mem_singleton.mp hb]
      exact first c hc

/-- What is there before is no first occurrence. -/
theorem firsts_eq_nil (seen : ∀ a ∈ as, a ∈ before) : firsts before as = [] := by
  induction as generalizing before with
  | nil => rfl
  | cons a as ih =>
    have old : (before.any fun b => b.same a) = true :=
      List.any_eq_true.mpr ⟨a, seen a List.mem_cons_self, same_self a⟩
    rw [firsts, if_pos old]
    exact ih fun b hb => List.mem_append_left _ (seen b (List.mem_cons_of_mem _ hb))

/-! ### What is left of a group -/

theorem deduplicatedAll_eq_foldl (as kept : List Node) :
    deduplicatedAll as kept = (as.map deduplicated).foldl addNew kept := by
  induction as generalizing kept with
  | nil => rw [deduplicatedAll, List.map_nil, List.foldl_nil]
  | cons a as ih => rw [deduplicatedAll, ih, List.map_cons, List.foldl_cons]

/-- Appending what is new keeps the first occurrences. It compares with what is kept, where
`firsts` compares with everything before: both know the same nodes. -/
theorem foldl_addNew {kept : List Node}
    (known : ∀ a, (kept.any fun b => b.same a) = before.any fun b => b.same a) :
    as.foldl addNew kept = kept ++ firsts before as := by
  induction as generalizing kept before with
  | nil => rw [List.foldl_nil, firsts, List.append_nil]
  | cons a as ih =>
    rw [List.foldl_cons, firsts, addNew, known a]
    split
    · next seen =>
      obtain ⟨d, hd, hda⟩ := List.any_eq_true.mp seen
      refine ih fun c => ?_
      rw [known c, List.any_append]
      cases hac : a.same c with
      | false => simp [hac]
      | true => simpa [hac] using ⟨d, hd, same_trans hda hac⟩
    · have known' : ∀ c, ((kept ++ [a]).any fun b => b.same c) =
          (before ++ [a]).any fun b => b.same c :=
        fun c => by rw [List.any_append, List.any_append, known c]
      rw [ih known', List.append_assoc, List.singleton_append]

end Node

namespace Group

/-- The children that are left are the first occurrences. -/
theorem children_deduplicated (g : Group) :
    g.deduplicated.children = Node.firsts [] (g.children.map Node.deduplicated) := by
  change Node.deduplicatedAll g.children [] = _
  rw [Node.deduplicatedAll_eq_foldl, Node.foldl_addNew fun _ => rfl, List.nil_append]

end Group

namespace Node

@[simp] theorem deduplicated_rule (r : Rule) : deduplicated (.rule r) = .rule r := by
  rw [deduplicated]

@[simp] theorem deduplicated_group (g : Group) :
    deduplicated (.group g) = .group (Group.deduplicated g) := by
  rw [deduplicated]
  rfl

/-- What is left is one of the children without its repetitions. -/
theorem exists_of_mem_deduplicated {g : Group} {b : Node} (h : b ∈ g.deduplicated.children) :
    ∃ a ∈ g.children, a.deduplicated = b := by
  rw [Group.children_deduplicated] at h
  exact List.mem_map.mp ((firsts_sublist _ _).subset h)

/-- Each child equals one that is left. -/
theorem exists_same_deduplicated {g : Group} (ha : a ∈ g.children) :
    ∃ b ∈ g.deduplicated.children, b.same a.deduplicated = true := by
  rw [Group.children_deduplicated]
  exact exists_same_firsts [] (List.mem_map_of_mem ha)

/-! ### No repetitions at any depth -/

/-- A tree in which no group has two equal children. -/
inductive Distinct : Node → Prop where
  | rule (r : Rule) : Distinct (.rule r)
  | group {g : Group} : (g.children.Pairwise fun a b => a.same b = false) →
      (∀ a ∈ g.children, Distinct a) → Distinct (.group g)

theorem distinct_deduplicated (a : Node) : a.deduplicated.Distinct := by
  induction a using tree_induction with
  | rule r =>
    rw [deduplicated_rule]
    exact .rule r
  | group g ih =>
    rw [deduplicated_group]
    refine .group ?_ fun b hb => ?_
    · rw [Group.children_deduplicated]
      exact pairwise_firsts _ _
    · obtain ⟨a, ha, rfl⟩ := exists_of_mem_deduplicated hb
      exact ih a ha

/-- Without repetitions nothing more is left out. -/
theorem deduplicated_eq_self {a : Node} (h : a.Distinct) : a.deduplicated = a := by
  induction h with
  | rule r => exact deduplicated_rule r
  | @group g pairwise _ ih =>
    have same : g.children.map deduplicated = g.children :=
      (List.map_congr_left ih).trans (List.map_id' _)
    have children : g.deduplicated.children = g.children := by
      rw [Group.children_deduplicated, same, firsts_eq_self pairwise (List.forall_mem_nil _)]
    rw [deduplicated_group, Group.deduplicated]
    exact congrArg (fun bs => Node.group { g with children := bs }) children

/-! ### Rules -/

theorem rulesOfAll_sublist {as bs : List Node} (h : as.Sublist bs) :
    (rulesOfAll as).Sublist (rulesOfAll bs) := by
  induction h with
  | slnil => exact List.Sublist.refl _
  | cons b _ ih => exact ih.trans (List.sublist_append_right _ _)
  | cons_cons a _ ih => exact ih.append_left _

theorem rulesOfAll_map_sublist {f : Node → Node} {as : List Node}
    (h : ∀ a ∈ as, (rules (f a)).Sublist (rules a)) :
    (rulesOfAll (as.map f)).Sublist (rulesOfAll as) := by
  induction as with
  | nil => exact List.Sublist.refl _
  | cons a as ih =>
    exact (h a List.mem_cons_self).append (ih fun b hb => h b (List.mem_cons_of_mem _ hb))

/-- The rules that are left stay in their order. -/
theorem rules_deduplicated_sublist (a : Node) : (rules a.deduplicated).Sublist (rules a) := by
  induction a using tree_induction with
  | rule r => rw [deduplicated_rule]
  | group g ih =>
    rw [deduplicated_group, rules, rules, Group.children_deduplicated]
    exact (rulesOfAll_sublist (firsts_sublist _ _)).trans (rulesOfAll_map_sublist ih)

mutual
theorem ruleCount_eq_length : ∀ a : Node, ruleCount a = (rules a).length
  | .rule _ => rfl
  | .group g => ruleCountOfAll_eq_length g.children
theorem ruleCountOfAll_eq_length : ∀ as : List Node, ruleCountOfAll as = (rulesOfAll as).length
  | [] => rfl
  | a :: as => by
    rw [ruleCountOfAll, rulesOfAll, List.length_append, ruleCount_eq_length a,
      ruleCountOfAll_eq_length as]
end

end Node

namespace Group

/-- A group of all children twice is left with the same ones. -/
theorem deduplicated_twice (g : Group) :
    deduplicated { g with children := g.children ++ g.children } = g.deduplicated := by
  have children : deduplicated { g with children := g.children ++ g.children } =
      { g with children := Node.firsts [] ((g.children ++ g.children).map Node.deduplicated) } :=
    congrArg (fun as => { g with children := as }) (children_deduplicated _)
  rw [children, List.map_append, Node.firsts_append, List.nil_append,
    Node.firsts_eq_nil fun _ h => h, List.append_nil, ← children_deduplicated]
  rfl

/-- **What is left of a tree without repetitions**: no group at any depth has two equal children.
The children that are left are the first occurrences among the children without their own
repetitions, so that each of these equals one that is left, and the group joins them as before. The
rules are a subsequence of those of the whole tree. What is left stays as it is, and all children
twice leave the same. -/
theorem deduplicated_normal (g : Group) :
    Node.Distinct (.group g.deduplicated) ∧
      (g.deduplicated.children = Node.firsts [] (g.children.map Node.deduplicated) ∧
        (∀ r, Node.deduplicated (.rule r) = .rule r) ∧
        ∀ h : Group, Node.deduplicated (.group h) = .group h.deduplicated) ∧
      (∀ a ∈ g.children, ∃ b ∈ g.deduplicated.children, b.same a.deduplicated = true) ∧
      (g.deduplicated.connective = g.connective ∧ g.deduplicated.inter = g.inter ∧
        g.deduplicated.negated = g.negated) ∧
      (g.deduplicated.rules.Sublist g.rules ∧ g.deduplicated.ruleCount ≤ g.ruleCount) ∧
      g.deduplicated.deduplicated = g.deduplicated ∧
      deduplicated { g with children := g.children ++ g.children } = g.deduplicated := by
  have distinct : Node.Distinct (.group g.deduplicated) := by
    rw [← Node.deduplicated_group]
    exact Node.distinct_deduplicated _
  have rules : g.deduplicated.rules.Sublist g.rules := by
    have sublist := Node.rules_deduplicated_sublist (.group g)
    rwa [Node.deduplicated_group] at sublist
  refine ⟨distinct, ⟨children_deduplicated g, Node.deduplicated_rule, Node.deduplicated_group⟩,
    fun a ha => Node.exists_same_deduplicated ha, ⟨rfl, rfl, rfl⟩, ⟨rules, ?_⟩, ?_,
    deduplicated_twice g⟩
  · rw [ruleCount, ruleCount, Node.ruleCountOfAll_eq_length, Node.ruleCountOfAll_eq_length]
    exact rules.length_le
  · have same := Node.deduplicated_eq_self distinct
    rw [Node.deduplicated_group] at same
    exact Node.group.inj same

/-- Two groups that are equal only once their own repetitions are left out. -/
example : deduplicated ⟨.and, .or, false,
    [.group ⟨.or, .or, true, [.rule (.any "books"), .rule (.any "books")]⟩,
      .group ⟨.or, .or, true, [.rule (.any "books")]⟩]⟩ =
    ⟨.and, .or, false, [.group ⟨.or, .or, true, [.rule (.any "books")]⟩]⟩ := by
  rfl

end Group

end EntityQuery
