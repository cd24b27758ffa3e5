import EntityQuery.Proofs.Sort.Extreme
import EntityQuery.Proofs.Sort.Partition

/-!
# Sorting by collections

A rule on a collection sorts by one of the scalars that its path reaches: by all values at the end
of a walk along the path, in the order of the collections, with the lists among them taken apart.
Which of them counts is up to the aggregate (`Aggregate.Counts`).

Two entities may differ only in the order of the elements of collections along a path, of relations
to many entities and of lists at any depth (`Schema.Rearranged`). Then the scalars that are reached
on the one are a permutation of those on the other. The least and the greatest of them do not depend
on their order, but for values that are equal in sort order, and so no comparison by them does.

The main result is `SortOrder.aggregate_counts`.
-/

namespace EntityQuery

open Outcome

/-! ### Rearranged values -/

/-- A value whose lists, at any depth, have their items in another order. -/
inductive Value.Rearranged : Value → Value → Prop where
  /-- Nothing has moved. -/
  | refl (v : Value) : Rearranged v v
  /-- The items of a list have moved. -/
  | items {vs ws : List Value} : vs.Perm ws → Rearranged (.list vs) (.list ws)
  /-- Something has moved inside an item. -/
  | item {v w : Value} (before after : List Value) : Rearranged v w →
      Rearranged (.list (before ++ v :: after)) (.list (before ++ w :: after))
  /-- One thing has moved after the other. -/
  | trans {u v w : Value} : Rearranged u v → Rearranged v w → Rearranged u w

namespace Value

theorem Rearranged.perm_leaves {v w : Value} (h : v.Rearranged w) : v.leaves.Perm w.leaves := by
  induction h with
  | refl v => exact .refl _
  | @items vs ws perm =>
    rw [leaves_list, leaves_list]
    exact perm.flatMap_right leaves
  | @item v w before after _ ih =>
    simp only [leaves_list, List.flatMap_append, List.flatMap_cons]
    exact (ih.append_right _).append_left _
  | trans _ _ ih ih' => exact ih.trans ih'

end Value

namespace Schema

variable {S : Schema} {kind : S.Kind} {segments : List Segment}

/-! ### Rearranged entities -/

/-- Two entities that differ, along some segments, only in the order of the elements of
collections. -/
def Rearranged (S : Schema) : (kind : S.Kind) → List Segment → S.Entity kind → S.Entity kind → Prop
  | _, [], _, _ => True
  | kind, segment :: rest, e, f =>
    match S.member? kind segment.name with
    | none => True
    | some (.value _ get) => (get e).Rearranged (get f)
    | some (.one target get) => Option.Rel (S.Rearranged target rest) (get e) (get f)
    | some (.many target get) => ∃ moved, ((get e).getD []).Perm moved ∧
        List.Forall₂ (S.Rearranged target rest) moved ((get f).getD [])

/-- The scalars that are reached on an entity along some segments. -/
def scalars (S : Schema) (kind : S.Kind) (segments : List Segment) (e : S.Entity kind) :
    List Value :=
  Value.leavesOfAll (S.walk kind segments e)

/-- The scalars are the leaves of what the walk reaches, one value after the other. -/
theorem scalars_eq_flatMap (e : S.Entity kind) :
    S.scalars kind segments e = (S.walk kind segments e).flatMap Value.leaves :=
  Value.leavesOfAll_eq_flatMap _

/-- No scalar is a list. -/
theorem items?_of_mem_scalars {e : S.Entity kind} {v : Value}
    (hv : v ∈ S.scalars kind segments e) : v.items? = none := by
  rw [scalars_eq_flatMap] at hv
  obtain ⟨_, -, hv⟩ := List.mem_flatMap.mp hv
  exact Value.items?_of_mem_leaves hv

theorem Resolves.perm_scalars {p : Resolved (S.Entity kind)} (h : S.Resolves kind segments p)
    (noRecord : p.type.leaf.isRecord = false) {e f : S.Entity kind}
    (moved : S.Rearranged kind segments e f) :
    (S.scalars kind segments e).Perm (S.scalars kind segments f) := by
  rw [scalars_eq_flatMap, scalars_eq_flatMap]
  induction h with
  | value hm =>
    simp only [Rearranged, hm] at moved
    simp only [walk, hm, List.flatMap_cons, List.flatMap_nil, List.append_nil]
    exact moved.perm_leaves
  | one _ => cases noRecord
  | many _ => cases noRecord
  | @throughOne kind target name get rest r hm hr h ih =>
    simp only [Rearranged, hm] at moved
    simp only [walk, hm, List.isEmpty_iff, hr, if_false]
    generalize get e = next at moved
    generalize get f = next' at moved
    cases moved with
    | none => exact .refl _
    | some moved => exact ih noRecord moved
  | @throughMany kind target name get rest r hm hr h ih =>
    simp only [Rearranged, hm] at moved
    simp only [walk, hm, List.isEmpty_iff, hr, if_false]
    obtain ⟨between, perm, moved⟩ := moved
    rw [List.flatMap_assoc, List.flatMap_assoc]
    refine (perm.flatMap_right _).trans ?_
    clear perm
    generalize (get f).getD [] = last at moved ⊢
    induction moved with
    | nil => exact .refl _
    | cons first _ rest =>
      rw [List.flatMap_cons, List.flatMap_cons]
      exact (ih noRecord first).append rest

end Schema

variable {S : Schema} {kind : S.Kind}

/-! ### Keys -/

namespace ClassifiedRule

/-- A rule that is classified has a path that resolves, and not to the presence of entities. -/
theorem resolve_eq {r : SortRule} {c : ClassifiedRule (S.Entity kind)}
    (h : (r.classify : Resolving S kind _).alone = .ok (c.property, c.many)) :
    S.resolve kind r.property = .ok c.property ∧ c.property.type.leaf.isRecord = false ∧
      c.many = (c.property.isQuantified || c.property.isCollection) := by
  rw [SortRule.alone_classify] at h
  obtain ⟨p, hp, h⟩ := bind_eq_ok_iff.mp h
  obtain ⟨many, hm, h⟩ := bind_eq_ok_iff.mp h
  obtain ⟨rfl, rfl⟩ := Prod.mk.inj (Except.ok.inj h)
  unfold SortRule.reachesMany at hm
  split at hm
  · cases hm
  · next noRecord => exact ⟨hp, by simpa using noRecord, (Except.ok.inj hm).symm⟩

end ClassifiedRule

/-- The scalar that counts alone is the one that is there. -/
theorem Aggregate.counts_singleton (a : Aggregate) (v : Value) : a.Counts [v] v := by
  have extreme (excluded : Ordering) (h : excluded ≠ .eq) : Value.Extreme excluded [v] v := by
    refine ⟨by simp, fun _ => ⟨List.mem_singleton_self v, fun w hw _ => ?_⟩⟩
    rw [List.mem_singleton.mp hw, Value.sortOrder_self]
    exact h.symm
  cases a with
  | first => rfl
  | min => exact extreme .gt (by decide)
  | max => exact extreme .lt (by decide)

namespace ClassifiedRule

variable {r : SortRule} {c : ClassifiedRule (S.Entity kind)} {segments : List Segment}

/-- The key of a rule is the scalar that counts. -/
theorem counts_aggregated (hS : S.WellTyped) (a : Aggregate)
    (h : S.Resolves kind segments c.property)
    (hmany : c.many = (c.property.isQuantified || c.property.isCollection)) (e : S.Entity kind) :
    a.Counts (S.scalars kind segments e) ((c.aggregated a).extract e) := by
  have typed : ∀ v ∈ c.property.accessor.reached e, v.HasType c.property.type := h.hasType hS e
  rw [Schema.scalars, ← h.reached, aggregated, hmany]
  split
  · exact a.counts_choose typed
  · next single =>
    simp only [Bool.or_eq_true, not_or, Bool.not_eq_true] at single
    have element : (c.property.accessor.read e).leaves = [c.property.accessor.read e] :=
      Value.leaves_of_items?
        (Value.items?_of_hasType (Accessor.hasType_read single.1 typed) single.2)
    rw [Accessor.reached_eq_singleton single.1, Value.leavesOfAll_eq_flatMap, List.flatMap_cons,
      List.flatMap_nil, List.append_nil, element]
    exact a.counts_singleton _

end ClassifiedRule

theorem SortKey.order_eq_eq {α : Type} {k : SortKey α} {a b : α}
    (h : Value.sortOrder (k.extract a) (k.extract b) = .eq) : k.order a b = .eq := by
  rw [order, h]
  split <;> rfl

theorem Comparator.orderBy_eq_eq {α : Type} {keys : List (SortKey α)} {a b : α}
    (h : ∀ k ∈ keys, k.order a b = .eq) : orderBy keys a b = .eq := by
  induction keys with
  | nil => rfl
  | cons k keys ih =>
    rw [orderBy, h k List.mem_cons_self, ih fun k hk => h k (List.mem_cons_of_mem _ hk)]
    rfl

namespace SortOrder

open ClassifiedRule

variable {skip : Bool} {a : Aggregate} {rules : SortOrder} {c : Comparator (S.Entity kind)}

/-- With an aggregate every rule is a key: the scalar that counts of those its path reaches. -/
theorem exists_scalars_of_mem_keys (hS : S.WellTyped)
    (h : SortOrder.compile S kind ⟨skip, some a⟩ rules = .ok c) {k : SortKey (S.Entity kind)}
    (hk : k ∈ c.keys) : k.rule ∈ rules ∧ ∃ segments p,
      Path.segments k.rule.property = .ok segments ∧ S.Resolves kind segments p ∧
        p.type.leaf.isRecord = false ∧
        ∀ e, a.Counts (S.scalars kind segments e) (k.extract e) := by
  rw [compile_of_total (keyOf_aggregate skip a)] at h
  obtain ⟨cs, hcs, rfl⟩ := map_eq_ok_iff.mp h
  obtain ⟨d, hd, hk⟩ := List.mem_filterMap.mp hk
  obtain rfl := Option.some.inj hk
  obtain ⟨r, hr, hd⟩ := exists_of_mem_mapM hcs hd
  obtain ⟨⟨p, many⟩, classified, rfl⟩ := map_eq_ok_iff.mp hd
  obtain ⟨resolved, noRecord, hmany⟩ :=
    ClassifiedRule.resolve_eq (c := ⟨r, p, many⟩) classified
  obtain ⟨segments, hs, resolves⟩ := exists_segments resolved
  rw [rule_aggregated]
  exact ⟨hr, segments, p, hs, resolves, noRecord, counts_aggregated hS a resolves hmany⟩

/-- With an aggregate every path is a key that does not lead to the presence of entities. -/
theorem exists_key_of_resolve {r : SortRule} {p : Resolved (S.Entity kind)}
    (hp : S.resolve kind r.property = .ok p) (noRecord : p.type.leaf.isRecord = false) :
    ∃ k, k.rule = r ∧ SortOrder.compile S kind ⟨skip, some a⟩ [r] = .ok ⟨[k]⟩ := by
  have classify : (r.classify : Resolving S kind _).alone =
      .ok (p, p.isQuantified || p.isCollection) := by
    rw [SortRule.alone_classify, hp]
    change (r.reachesMany p >>= fun many => .ok (p, many)) = _
    rw [SortRule.reachesMany, noRecord]
    rfl
  have single : classified S kind [r] = .ok [⟨r, p, p.isQuantified || p.isCollection⟩] :=
    mapM_eq_ok_iff.mpr (.cons (map_eq_ok_iff.mpr ⟨_, classify, rfl⟩) .nil)
  exact ⟨_, rule_aggregated a _, by rw [compile_of_total (keyOf_aggregate skip a), single]; rfl⟩

theorem rules_of_compile_aggregate
    (h : SortOrder.compile S kind ⟨skip, some a⟩ rules = .ok c) : c.rules = rules := by
  rw [compile_of_total (keyOf_aggregate skip a)] at h
  obtain ⟨cs, hcs, rfl⟩ := map_eq_ok_iff.mp h
  rw [Comparator.rules, List.map_filterMap, ← map_rule_of_classified hcs, ← List.filterMap_eq_map]
  simp

/-- Rearranged entities are equal to a comparator that does not look at the order of values. -/
theorem order_eq_of_rearranged (hS : S.WellTyped)
    (h : SortOrder.compile S kind ⟨skip, some a⟩ rules = .ok c) (unordered : a ≠ .first)
    {e f : S.Entity kind} (moved : ∀ r ∈ rules, ∃ segments,
      Path.segments r.property = .ok segments ∧ S.Rearranged kind segments e f) :
    c.order e f = .eq := by
  refine Comparator.orderBy_eq_eq fun k hk => SortKey.order_eq_eq ?_
  obtain ⟨hr, segments, p, hs, resolves, noRecord, counts⟩ := exists_scalars_of_mem_keys hS h hk
  obtain ⟨segments', hs', moved⟩ := moved k.rule hr
  obtain rfl : segments = segments' := Except.ok.inj (hs.symm.trans hs')
  exact (counts e).sortOrder_eq unordered (counts f) fun v =>
    (resolves.perm_scalars noRecord moved).mem_iff

/-- **Sorting with an aggregate**. Every path that does not lead to the presence of entities is a key
then, and a comparator has the keys of all its rules. Each key is the one that counts of the scalars
that are reached along its path: the first, or the least or greatest of those that are not null, and
null if there is none. To the least and greatest the order of collections along the paths makes no
difference: entities that are rearranged compare alike with every entity. -/
theorem aggregate_counts (hS : S.WellTyped) (kind : S.Kind) (skip : Bool) (a : Aggregate) :
    (∀ (r : SortRule) (p : Resolved (S.Entity kind)), S.resolve kind r.property = .ok p →
      p.type.leaf.isRecord = false →
        ∃ k, k.rule = r ∧ SortOrder.compile S kind ⟨skip, some a⟩ [r] = .ok ⟨[k]⟩) ∧
    ∀ (rules : SortOrder) (c : Comparator (S.Entity kind)),
      SortOrder.compile S kind ⟨skip, some a⟩ rules = .ok c →
        c.rules = rules ∧
        (∀ k ∈ c.keys, ∃ segments, Path.segments k.rule.property = .ok segments ∧ ∀ e,
          (∀ v ∈ S.scalars kind segments e, v.items? = none) ∧
            a.Counts (S.scalars kind segments e) (k.extract e)) ∧
        (a ≠ .first → ∀ e f : S.Entity kind, (∀ r ∈ rules, ∃ segments,
            Path.segments r.property = .ok segments ∧ S.Rearranged kind segments e f) →
          ∀ d, c.order e d = c.order f d ∧ c.order d e = c.order d f) := by
  refine ⟨fun r p hp noRecord => exists_key_of_resolve hp noRecord, fun rules c h => ?_⟩
  refine ⟨rules_of_compile_aggregate h, fun k hk => ?_, fun unordered e f moved d => ?_⟩
  · obtain ⟨-, segments, p, hs, resolves, -, counts⟩ := exists_scalars_of_mem_keys hS h hk
    exact ⟨segments, hs, fun e => ⟨fun v => Schema.items?_of_mem_scalars, counts e⟩⟩
  · have preorder := transCmp_of_compile hS h
    have same := order_eq_of_rearranged hS h unordered moved
    exact ⟨Std.TransCmp.congr_left same, Std.TransCmp.congr_right same⟩

/-- Authors sort by the least tag of all their books. The tags of the one who wrote two are put the
other way round, and so are the books, one of which has no tags. -/
theorem aggregate_counts_tags :
    let rules : SortOrder := [⟨"books[].tags", true⟩, ⟨"age", false⟩]
    let untagged : Shelf.Book := ⟨"Nostromo", none⟩
    let e : Shelf.schema.Entity .author :=
      Shelf.Author.mk "Conrad" 66 none (some [untagged, ⟨"Typhoon", some ["storm", "sea"]⟩])
    let f : Shelf.schema.Entity .author :=
      Shelf.Author.mk "Conrad" 66 none (some [⟨"Typhoon", some ["sea", "storm"]⟩, untagged])
    Shelf.schema.WellTyped ∧
      ∃ c, SortOrder.compile Shelf.schema .author ⟨false, some .min⟩ rules = .ok c ∧
        c.rules = rules ∧
        (∀ k ∈ c.keys, ∃ segments, Path.segments k.rule.property = .ok segments ∧ ∀ e,
          Aggregate.min.Counts (Shelf.schema.scalars .author segments e) (k.extract e)) ∧
        (∀ r ∈ rules, ∃ segments, Path.segments r.property = .ok segments ∧
          Shelf.schema.Rearranged .author segments e f) ∧
        ∀ d, c.order e d = c.order f d ∧ c.order d e = c.order d f := by
  intro rules untagged e f
  obtain ⟨c, hc, -⟩ := Outcome.exists_of_toOption (f := Comparator.rules) (b := rules)
    (x := SortOrder.compile Shelf.schema .author ⟨false, some .min⟩ rules) (by decide +kernel)
  obtain ⟨all, counts, alike⟩ :=
    (aggregate_counts Shelf.wellTyped .author false .min).2 rules c hc
  have tags : Value.Rearranged (.list [.string "storm", .string "sea"])
      (.list [.string "sea", .string "storm"]) := .items (.swap _ _ [])
  have moved : ∀ r ∈ rules, ∃ segments, Path.segments r.property = .ok segments ∧
      Shelf.schema.Rearranged .author segments e f := by
    simp only [rules, List.forall_mem_cons]
    refine ⟨⟨[⟨"books", true⟩, ⟨"tags", false⟩], ?_, ?_⟩, ⟨[⟨"age", false⟩], ?_, ?_⟩,
      List.forall_mem_nil _⟩
    · decide +kernel
    · refine ⟨[⟨"Typhoon", some ["storm", "sea"]⟩, untagged], .swap _ _ [], .cons tags (.cons ?_ .nil)⟩
      exact .refl .null
    · decide +kernel
    · exact .refl (.int32 66)
  exact ⟨Shelf.wellTyped, c, hc, all,
    fun k hk => (counts k hk).imp fun _ h => ⟨h.1, fun e => (h.2 e).2⟩, moved,
    alike nofun e f moved⟩

end SortOrder

end EntityQuery
