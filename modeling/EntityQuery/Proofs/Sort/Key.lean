import EntityQuery.Proofs.Outcome
import EntityQuery.Proofs.Path.Cache
import EntityQuery.Sort.Comparator

/-!
# Keys of a sort order

A sort rule becomes the same key, or fails with the same error, whatever paths have been resolved
before it: what it becomes is put together from what its path resolves to.
-/

namespace EntityQuery

open Outcome

variable {S : Schema} {kind : S.Kind}

namespace SortRule

/-- What a rule becomes whose path is resolved. -/
def keyOf {α : Type} (o : SortOptions) (r : SortRule) (p : Resolved α) (many : Bool) :
    Except CompileError (Option (SortKey α)) :=
  if !many then .ok (some ⟨r, p.accessor.read⟩)
  else match o.aggregate with
    | some a => .ok (some ⟨r, fun e => a.choose (p.accessor.reached e)⟩)
    | none => if o.skipCollections then .ok none else .error (.ambiguousSort r.property)

theorem transparent_classify (r : SortRule) :
    (r.classify : Resolving S kind _).Transparent :=
  (Resolving.transparent_resolve _).bind fun _ =>
    (Resolving.transparent_liftExcept _).bind fun _ => Resolving.transparent_pure _

theorem alone_classify (r : SortRule) :
    (r.classify : Resolving S kind _).alone =
      S.resolve kind r.property >>= fun p => r.reachesMany p >>= fun many => .ok (p, many) := by
  unfold classify
  rw [(Resolving.transparent_resolve _).alone_bind fun _ =>
    (Resolving.transparent_liftExcept _).bind fun _ => Resolving.transparent_pure _,
    Resolving.alone_resolve]
  congr 1
  funext p
  rw [(Resolving.transparent_liftExcept _).alone_bind fun _ => Resolving.transparent_pure _,
    Resolving.alone_liftExcept]
  rfl

theorem key?_eq (o : SortOptions) (r : SortRule) :
    (r.key? o : Resolving S kind _) =
      r.classify >>= fun (p, many) => liftExcept (r.keyOf o p many) := by
  unfold key?
  congr 1
  funext ⟨p, many⟩
  unfold keyOf
  cases many with
  | false => rfl
  | true =>
    cases o.aggregate with
    | some a => rfl
    | none => cases o.skipCollections <;> rfl

theorem transparent_key? (o : SortOptions) (r : SortRule) :
    (r.key? o : Resolving S kind _).Transparent := by
  rw [key?_eq]
  exact (transparent_classify r).bind fun _ => Resolving.transparent_liftExcept _

/-- The key of a rule is that of what its path resolves to. -/
theorem alone_key? (o : SortOptions) (r : SortRule) :
    (r.key? o : Resolving S kind _).alone =
      S.resolve kind r.property >>= fun p => r.reachesMany p >>= fun many => r.keyOf o p many := by
  rw [key?_eq, (transparent_classify r).alone_bind fun _ => Resolving.transparent_liftExcept _,
    alone_classify]
  simp only [bind_assoc, Resolving.alone_liftExcept]
  rfl

/-- What a key reads: a property that reaches one value, or the value that counts of a property
that reaches many. The presence of entities is no key. -/
theorem exists_of_key? {o : SortOptions} {r : SortRule} {k : SortKey (S.Entity kind)}
    (h : (r.key? o : Resolving S kind _).alone = .ok (some k)) :
    ∃ p, S.resolve kind r.property = .ok p ∧ p.type.leaf.isRecord = false ∧
      ((p.isQuantified = false ∧ p.isCollection = false ∧ k = ⟨r, p.accessor.read⟩) ∨
        ∃ a, k = ⟨r, fun e => Aggregate.choose a (p.accessor.reached e)⟩) := by
  rw [alone_key?] at h
  obtain ⟨p, hp, h⟩ := bind_eq_ok_iff.mp h
  obtain ⟨many, hm, hk⟩ := bind_eq_ok_iff.mp h
  unfold reachesMany at hm
  split at hm
  · cases hm
  · next hr =>
    refine ⟨p, hp, by simpa using hr, ?_⟩
    obtain rfl := Except.ok.inj hm
    unfold keyOf at hk
    split at hk
    · next single =>
      simp only [Bool.not_eq_true', Bool.or_eq_false_iff] at single
      exact .inl ⟨single.1, single.2, (Option.some.inj (Except.ok.inj hk)).symm⟩
    · split at hk
      · next a _ => exact .inr ⟨a, (Option.some.inj (Except.ok.inj hk)).symm⟩
      · split at hk <;> cases hk

end SortRule

namespace SortOrder

/-- What a sort order compiles to is put together from what its rules become. -/
theorem compile_eq (o : SortOptions) (rules : SortOrder) : SortOrder.compile S kind o rules =
    (rules.mapM fun r => (SortRule.key? o r : Resolving S kind _).alone).map
      fun keys => ⟨keys.filterMap id⟩ :=
  congrArg (Except.map _) (Resolving.alone_mapM (SortRule.transparent_key? o) rules)

/-- The keys of a sort order that compiles are what its rules become, less those that are
dropped. -/
theorem exists_keys {o : SortOptions} {rules : SortOrder}
    {c : Comparator (S.Entity kind)} (h : SortOrder.compile S kind o rules = .ok c) :
    ∃ keys, (rules.mapM fun r => (SortRule.key? o r : Resolving S kind _).alone) = .ok keys ∧
      c.keys = keys.filterMap id := by
  rw [compile_eq] at h
  obtain ⟨keys, hk, rfl⟩ := map_eq_ok_iff.mp h
  exact ⟨keys, hk, rfl⟩

/-- A sort order that is put together from two has the keys of both. -/
theorem compile_append {o : SortOptions} {rules rules' : SortOrder}
    {c c' : Comparator (S.Entity kind)} (h : SortOrder.compile S kind o rules = .ok c)
    (h' : SortOrder.compile S kind o rules' = .ok c') :
    SortOrder.compile S kind o (rules ++ rules') = .ok ⟨c.keys ++ c'.keys⟩ := by
  obtain ⟨keys, hk, eq⟩ := exists_keys h
  obtain ⟨keys', hk', eq'⟩ := exists_keys h'
  rw [compile_eq, List.mapM_append, hk, hk', eq, eq', ← List.filterMap_append]
  rfl

end SortOrder

end EntityQuery
