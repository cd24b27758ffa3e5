import EntityQuery.Proofs.Shelf
import EntityQuery.Proofs.Sort.Key

/-!
# Partitions of sort orders

Both a partition and a compilation classify the rules of a sort order: each rule has what its path
resolves to, and reaches one value of an entity or many. What is done with a rule that reaches many
values is decided after that, by the options. So a partition fails as a compilation with an
aggregate does, which never fails for the class of a rule, and its two parts say what becomes of the
rules under all options (`SortOrder.partition_agrees`).
-/

namespace EntityQuery

open Outcome

variable {S : Schema} {kind : S.Kind}

/-- A sort rule with the property it names, and whether that reaches more than one value of an
entity. -/
structure ClassifiedRule (α : Type) where
  rule : SortRule
  property : Resolved α
  many : Bool

namespace ClassifiedRule

variable {α : Type}

/-- What the rule becomes. -/
def keyOf (o : SortOptions) (c : ClassifiedRule α) : Except CompileError (Option (SortKey α)) :=
  c.rule.keyOf o c.property c.many

/-- The key of a rule that reaches one value. -/
def direct (c : ClassifiedRule α) : SortKey α := ⟨c.rule, c.property.accessor.read⟩

/-- The key where an aggregate says which value counts. -/
def aggregated (a : Aggregate) (c : ClassifiedRule α) : SortKey α :=
  if c.many then ⟨c.rule, fun e => a.choose (c.property.accessor.reached e)⟩ else c.direct

@[simp] theorem rule_aggregated (a : Aggregate) (c : ClassifiedRule α) :
    (c.aggregated a).rule = c.rule := by
  unfold aggregated
  split <;> rfl

theorem keyOf_aggregate (skip : Bool) (a : Aggregate) (c : ClassifiedRule α) :
    c.keyOf ⟨skip, some a⟩ = .ok (some (c.aggregated a)) := by
  unfold keyOf SortRule.keyOf aggregated
  cases c.many <;> rfl

theorem keyOf_skip (c : ClassifiedRule α) :
    c.keyOf ⟨true, none⟩ = .ok (if c.many then none else some c.direct) := by
  unfold keyOf SortRule.keyOf
  cases c.many <;> rfl

theorem keyOf_default (c : ClassifiedRule α) :
    c.keyOf .default = if c.many then .error (.ambiguousSort c.rule.property)
      else .ok (some c.direct) := by
  unfold keyOf SortRule.keyOf
  cases c.many <;> rfl

/-- Without an aggregate the first rule that reaches many values is refused. -/
theorem failure?_mapM_keyOf_default (cs : List (ClassifiedRule α)) :
    failure? (cs.mapM (keyOf .default)) =
      (cs.find? many).map fun c => .ambiguousSort c.rule.property := by
  rw [failure?_mapM]
  induction cs with
  | nil => rfl
  | cons c cs ih =>
    rw [List.findSome?_cons, List.find?_cons, keyOf_default, ih]
    cases c.many <;> rfl

end ClassifiedRule

namespace SortOrder

open ClassifiedRule

variable {rules : SortOrder}

/-- The rules of a sort order, classified. -/
def classified (S : Schema) (kind : S.Kind) (rules : SortOrder) :
    Except CompileError (List (ClassifiedRule (S.Entity kind))) :=
  rules.mapM fun r => (r.classify : Resolving S kind _).alone.map fun c => ⟨r, c.1, c.2⟩

theorem forall₂_of_classified {cs : List (ClassifiedRule (S.Entity kind))}
    (h : classified S kind rules = .ok cs) : List.Forall₂ (fun r c => c.rule = r ∧
      (r.classify : Resolving S kind _).alone = .ok (c.property, c.many)) rules cs := by
  refine (mapM_eq_ok_iff.mp h).imp fun r c hc => ?_
  obtain ⟨⟨p, many⟩, hr, rfl⟩ := map_eq_ok_iff.mp hc
  exact ⟨rfl, hr⟩

theorem map_rule_of_classified {cs : List (ClassifiedRule (S.Entity kind))}
    (h : classified S kind rules = .ok cs) : cs.map rule = rules := by
  have items := forall₂_of_classified h
  clear h
  induction items with
  | nil => rfl
  | cons hc _ ih => rw [List.map_cons, hc.1, ih]

/-- Some of the rules are classified as they are among all. -/
theorem classified_filter {cs : List (ClassifiedRule (S.Entity kind))}
    (h : classified S kind rules = .ok cs) (p : ClassifiedRule (S.Entity kind) → Bool) :
    classified S kind ((cs.filter p).map rule) = .ok (cs.filter p) := by
  refine mapM_eq_ok_iff.mpr (List.forall₂_map_left_iff.mpr (List.forall₂_same.mpr fun c hc => ?_))
  obtain ⟨r, -, hr⟩ := exists_of_mem_mapM h (List.mem_filter.mp hc).1
  obtain ⟨⟨q, many⟩, hq, rfl⟩ := map_eq_ok_iff.mp hr
  exact map_eq_ok_iff.mpr ⟨_, hq, rfl⟩

/-! ### Compiling classified rules -/

theorem alone_key?_eq (o : SortOptions) (r : SortRule) :
    (r.key? o : Resolving S kind _).alone =
      (r.classify : Resolving S kind _).alone >>= fun (p, many) => r.keyOf o p many := by
  rw [SortRule.key?_eq,
    (SortRule.transparent_classify r).alone_bind fun _ => Resolving.transparent_liftExcept _]
  simp only [Resolving.alone_liftExcept]

/-- What rules compile to depends on their classes. -/
theorem compile_of_classified (o : SortOptions) {cs : List (ClassifiedRule (S.Entity kind))}
    (h : classified S kind rules = .ok cs) : SortOrder.compile S kind o rules =
      (cs.mapM (keyOf o)).map fun keys => ⟨keys.filterMap id⟩ := by
  rw [compile_eq]
  congr 1
  have items := forall₂_of_classified h
  clear h
  induction items with
  | nil => rfl
  | cons hc _ ih =>
    rw [List.mapM_cons, List.mapM_cons, ih, alone_key?_eq, hc.2, ← hc.1]
    rfl

/-- Where no class is refused, rules compile just if they can be classified. -/
theorem compile_of_total {o : SortOptions}
    {key : ClassifiedRule (S.Entity kind) → Option (SortKey (S.Entity kind))}
    (total : ∀ c : ClassifiedRule (S.Entity kind), c.keyOf o = .ok (key c)) :
    SortOrder.compile S kind o rules =
      (classified S kind rules).map fun cs => ⟨cs.filterMap key⟩ := by
  have items : (rules.mapM fun r => (r.key? o : Resolving S kind _).alone) =
      (classified S kind rules).map (List.map key) := by
    refine mapM_eq_map fun r _ => ?_
    rw [alone_key?_eq]
    cases (r.classify : Resolving S kind _).alone with
    | error err => rfl
    | ok c => exact total ⟨r, c.1, c.2⟩
  rw [compile_eq, items]
  cases classified S kind rules with
  | error err => rfl
  | ok cs =>
    change Except.ok (Comparator.mk ((cs.map key).filterMap id)) = _
    rw [List.filterMap_map]
    rfl

/-- Rules that reach one value compile without an aggregate. -/
theorem compile_default_of_single {cs : List (ClassifiedRule (S.Entity kind))}
    (h : classified S kind rules = .ok cs) (single : ∀ c ∈ cs, c.many = false) :
    SortOrder.compile S kind .default rules = .ok ⟨cs.map direct⟩ := by
  have keys : cs.mapM (keyOf .default) = .ok (cs.map fun c => some c.direct) := by
    refine mapM_eq_ok_iff.mpr (List.forall₂_map_right_iff.mpr (List.forall₂_same.mpr ?_))
    intro c hc
    rw [keyOf_default, single c hc]
    rfl
  rw [compile_of_classified _ h, keys]
  change Except.ok (Comparator.mk ((cs.map fun c => some c.direct).filterMap id)) = _
  rw [List.filterMap_map, ← List.filterMap_eq_map]
  rfl

/-! ### The partition -/

theorem partition_eq : SortOrder.partition S kind rules = (classified S kind rules).map fun cs =>
    ((cs.filter fun c => !c.many).map rule, (cs.filter many).map rule) := by
  have step (r : SortRule) : (do return (r, (← r.classify).2) :
      Resolving S kind (SortRule × Bool)).Transparent :=
    (SortRule.transparent_classify r).bind fun _ => Resolving.transparent_pure _
  have items : (rules.mapM fun r => (do return (r, (← r.classify).2) :
      Resolving S kind (SortRule × Bool))).alone =
        (classified S kind rules).map (List.map fun c => (c.rule, c.many)) := by
    rw [Resolving.alone_mapM step]
    refine mapM_eq_map fun r _ => ?_
    rw [(SortRule.transparent_classify r).alone_bind fun _ => Resolving.transparent_pure _]
    cases (r.classify : Resolving S kind _).alone <;> rfl
  have parts := congrArg (Except.map fun cs : List (SortRule × Bool) =>
    ((cs.filter fun c => !c.2).map Prod.fst, (cs.filter Prod.snd).map Prod.fst)) items
  refine Eq.trans parts ?_
  cases classified S kind rules with
  | error err => rfl
  | ok cs =>
    simp only [Except.map, List.filter_map, List.map_map]
    rfl

section Parts

variable {direct collection : List SortRule}

theorem exists_classified (h : SortOrder.partition S kind rules = .ok (direct, collection)) :
    ∃ cs, classified S kind rules = .ok cs ∧ cs.map rule = rules ∧
      direct = (cs.filter fun c => !c.many).map rule ∧ collection = (cs.filter many).map rule := by
  rw [partition_eq] at h
  obtain ⟨cs, hcs, parts⟩ := map_eq_ok_iff.mp h
  obtain ⟨rfl, rfl⟩ := Prod.mk.inj parts
  exact ⟨cs, hcs, map_rule_of_classified hcs, rfl, rfl⟩

/-- The parts share the rules out, in their order. -/
theorem shared_of_partition (h : SortOrder.partition S kind rules = .ok (direct, collection)) :
    direct.Sublist rules ∧ collection.Sublist rules ∧ (direct ++ collection).Perm rules := by
  obtain ⟨cs, -, rfl, rfl, rfl⟩ := exists_classified h
  refine ⟨List.filter_sublist.map rule, List.filter_sublist.map rule, ?_⟩
  rw [← List.map_append]
  exact (List.perm_append_comm.trans (List.filter_append_perm many cs)).map rule

/-- The first part compiles as all rules do where those on collections are dropped. -/
theorem exists_comparator_of_partition
    (h : SortOrder.partition S kind rules = .ok (direct, collection)) :
    ∃ c, SortOrder.compile S kind .default direct = .ok c ∧
      SortOrder.compile S kind ⟨true, none⟩ rules = .ok c ∧ c.rules = direct := by
  obtain ⟨cs, hcs, -, rfl, -⟩ := exists_classified h
  refine ⟨_, compile_default_of_single (classified_filter hcs _) ?_, ?_, ?_⟩
  · intro c hc
    simpa using (List.mem_filter.mp hc).2
  · rw [compile_of_total keyOf_skip, hcs]
    change Except.ok (Comparator.mk _) = _
    congr 2
    clear hcs h
    induction cs with
    | nil => rfl
    | cons c cs ih =>
      rw [List.filterMap_cons, List.filter_cons, ih]
      cases c.many <;> rfl
  · rw [Comparator.rules, List.map_map]
    rfl

/-- Without an aggregate the first rule of the second part is refused, if there is one. -/
theorem failure?_compile_default
    (h : SortOrder.partition S kind rules = .ok (direct, collection)) :
    failure? (SortOrder.compile S kind .default rules) =
      collection.head?.map fun r => .ambiguousSort r.property := by
  obtain ⟨cs, hcs, -, -, rfl⟩ := exists_classified h
  rw [compile_of_classified _ hcs, failure?_map, failure?_mapM_keyOf_default, List.head?_map,
    List.head?_filter, Option.map_map]
  rfl

/-- With an aggregate every rule becomes a key. -/
theorem exists_aggregated_of_partition
    (h : SortOrder.partition S kind rules = .ok (direct, collection)) (skip : Bool)
    (a : Aggregate) :
    ∃ c, SortOrder.compile S kind ⟨skip, some a⟩ rules = .ok c ∧ c.rules = rules := by
  obtain ⟨cs, hcs, all, -, -⟩ := exists_classified h
  rw [compile_of_total (keyOf_aggregate skip a), hcs]
  refine ⟨_, rfl, ?_⟩
  rw [Comparator.rules, List.map_filterMap, ← all, ← List.filterMap_eq_map]
  simp

end Parts

/-- **A partition says what becomes of the rules.** It fails just as a compilation with an aggregate
does. Its two parts share the rules out, in their order. The first part compiles by itself, into the
comparator that all rules have where those on collections are dropped. All rules compile without an
aggregate if the second part is empty, and otherwise the error names its first rule. With an
aggregate every rule becomes a key. -/
theorem partition_agrees (S : Schema) (kind : S.Kind) (rules : SortOrder) :
    (∀ skip a err, SortOrder.partition S kind rules = .error err ↔
      SortOrder.compile S kind ⟨skip, some a⟩ rules = .error err) ∧
    ∀ direct collection, SortOrder.partition S kind rules = .ok (direct, collection) →
      (direct.Sublist rules ∧ collection.Sublist rules ∧ (direct ++ collection).Perm rules) ∧
      (∃ c, SortOrder.compile S kind .default direct = .ok c ∧
        SortOrder.compile S kind ⟨true, none⟩ rules = .ok c ∧ c.rules = direct) ∧
      ((∃ c, SortOrder.compile S kind .default rules = .ok c) ↔ collection = []) ∧
      (∀ r, collection.head? = some r →
        SortOrder.compile S kind .default rules = .error (.ambiguousSort r.property)) ∧
      ∀ skip a, ∃ c, SortOrder.compile S kind ⟨skip, some a⟩ rules = .ok c ∧ c.rules = rules := by
  refine ⟨fun skip a err => ?_, fun direct collection h => ?_⟩
  · rw [partition_eq, compile_of_total (keyOf_aggregate skip a), ← failure?_eq_some_iff,
      ← failure?_eq_some_iff, failure?_map, failure?_map]
  · have refused := failure?_compile_default h
    refine ⟨shared_of_partition h, exists_comparator_of_partition h, ?_, fun r hr => ?_,
      exists_aggregated_of_partition h⟩
    · rw [← failure?_eq_none_iff, refused, Option.map_eq_none_iff, List.head?_eq_none_iff]
    · rw [← failure?_eq_some_iff, refused, hr, Option.map_some]

/-- Of three rules on authors the one on their names is a key by itself. The tags of all books are
reached through a collection, and those of the best known book are one. -/
theorem partition_agrees_books :
    let rules : SortOrder := [⟨"books[].tags", true⟩, ⟨"name", false⟩, ⟨"known.tags", false⟩]
    let collection : List SortRule := [⟨"books[].tags", true⟩, ⟨"known.tags", false⟩]
    SortOrder.partition Shelf.schema .author rules = .ok ([⟨"name", false⟩], collection) ∧
      (∃ c, SortOrder.compile Shelf.schema .author .default [⟨"name", false⟩] = .ok c ∧
        SortOrder.compile Shelf.schema .author ⟨true, none⟩ rules = .ok c ∧
        c.rules = [⟨"name", false⟩]) ∧
      SortOrder.compile Shelf.schema .author .default rules =
        .error (.ambiguousSort "books[].tags") ∧
      ∀ skip a, ∃ c, SortOrder.compile Shelf.schema .author ⟨skip, some a⟩ rules = .ok c ∧
        c.rules = rules := by
  intro rules collection
  obtain ⟨_, h, rfl⟩ := exists_of_toOption (f := id) (b := ([⟨"name", false⟩], collection))
    (x := SortOrder.partition Shelf.schema .author rules) (by decide +kernel)
  obtain ⟨-, compiled, -, refused, aggregated⟩ :=
    (partition_agrees Shelf.schema .author rules).2 _ _ h
  exact ⟨h, compiled, refused _ rfl, aggregated⟩

end SortOrder

end EntityQuery
