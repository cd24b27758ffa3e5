import EntityQuery.Proofs.Path.Walk
import EntityQuery.Schema

/-!
# Types along a path

Where the getters of a schema read what its types promise, a path that resolves to a type reaches
values of that type only, however many relations and collections are on the way.
-/

namespace EntityQuery

theorem hasType_presence {β : Type} (e : Option β) (name : String) :
    (presence e).HasType (.record name) := by
  cases e with
  | none => exact .null _
  | some _ => exact .record name

theorem hasType_presences {β : Type} (es : Option (List β)) (name : String) :
    (presences es).HasType (.list (.record name)) := by
  cases es with
  | none => exact .null _
  | some es =>
    refine .list fun v hv => ?_
    obtain ⟨_, -, rfl⟩ := List.mem_map.mp hv
    exact .record name

/-- The value of a property that reaches one value has the type of the property. -/
theorem Accessor.hasType_read {α : Type} {a : Accessor α} {t : ValueType} {e : α}
    (single : a.isQuantified = false) (h : ∀ v ∈ a.reached e, v.HasType t) :
    (a.read e).HasType t := by
  rw [reached_eq_singleton single] at h
  exact h _ (List.mem_singleton_self _)

namespace Schema

variable {S : Schema} {kind : S.Kind} {segments : List Segment} {r : Resolved (S.Entity kind)}

/-- **A path reaches values of its type**, if the getters read values of theirs. -/
theorem Resolves.hasType (hS : S.WellTyped) (h : S.Resolves kind segments r)
    (e : S.Entity kind) : ∀ v ∈ r.accessor.reached e, v.HasType r.type := by
  induction h with
  | value hm =>
    intro v hv
    obtain rfl := List.mem_singleton.mp hv
    exact hS _ _ _ _ hm e
  | one hm =>
    intro v hv
    obtain rfl := List.mem_singleton.mp hv
    exact hasType_presence _ _
  | many hm =>
    intro v hv
    obtain rfl := List.mem_singleton.mp hv
    exact hasType_presences _ _
  | @throughOne kind target name get rest r hm hr h ih =>
    intro v hv
    rw [show (r.throughOne get).accessor = r.accessor.throughOne get from rfl,
      Accessor.reached_throughOne] at hv
    split at hv
    · next next _ => exact ih next v hv
    · -- What is missing is null, which has every type.
      split at hv
      · cases hv
      · obtain rfl := List.mem_singleton.mp hv
        exact .null _
  | @throughMany kind target name get rest r hm hr h ih =>
    intro v hv
    rw [show (r.throughMany get).accessor = r.accessor.throughMany get from rfl,
      Accessor.reached_throughMany] at hv
    obtain ⟨next, -, hv⟩ := List.mem_flatMap.mp hv
    exact ih next v hv

/-- A path has the type of a value member, unless it is about the presence of entities. -/
theorem Resolves.declared (h : S.Resolves kind segments r) :
    (∃ (owner : S.Kind) (name : String) (get : S.Entity owner → Value),
        S.member? owner name = some (.value r.type get)) ∨
      r.type.leaf.isRecord = true := by
  induction h with
  | value hm => exact .inl ⟨_, _, _, hm⟩
  | one _ => exact .inr rfl
  | many _ => exact .inr rfl
  | throughOne _ _ _ ih => exact ih
  | throughMany _ _ _ ih => exact ih

end Schema

end EntityQuery
