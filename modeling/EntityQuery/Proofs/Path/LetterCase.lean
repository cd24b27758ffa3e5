import EntityQuery.Proofs.Path.Walk
import EntityQuery.Proofs.Value.LetterCase

/-!
# Entities that differ in letter case

Entities may refer to each other in circles, so that two entities are the same up to letter case if
this can be assumed without being contradicted: if they are in a relation that the members of a type
respect. Members that are values read recased values, a relation is missing on both sides or on
none, and the entities behind it are again in the relation.

A path that resolves reaches recased values on such entities, one by one:
`Schema.Resolves.reached_recased`.
-/

namespace EntityQuery

/-- A member is the same on two entities up to letter case, the entities that it leads to being in
the given relation. -/
def Member.Recased {Kind : Type} {Entity : Kind → Type} {owner : Kind}
    (R : ∀ kind, Entity kind → Entity kind → Prop) :
    Member Kind Entity owner → Entity owner → Entity owner → Prop
  | .value _ get, e, e' => (get e).Recased (get e')
  | .one target get, e, e' => Option.Rel (R target) (get e) (get e')
  | .many target get, e, e' => Option.Rel (List.Forall₂ (R target)) (get e) (get e')

/-- All members respect the relation. -/
def Schema.Recasing (S : Schema) (R : ∀ kind, S.Entity kind → S.Entity kind → Prop) : Prop :=
  ∀ {kind : S.Kind} {name : String} {m : S.Member kind}, S.member? kind name = some m →
    ∀ {e e'}, R kind e e' → m.Recased R e e'

/-- Two entities differ in letter case only. -/
def Schema.Recased (S : Schema) (kind : S.Kind) (e e' : S.Entity kind) : Prop :=
  ∃ R, S.Recasing R ∧ R kind e e'

/-! ### Presence -/

variable {α β : Type} {R : β → β → Prop}

theorem presence_recased {e e' : Option β} (h : Option.Rel R e e') :
    (presence e).Recased (presence e') := by
  cases h <;> exact .refl _

theorem presences_recased {es es' : Option (List β)} (h : Option.Rel (List.Forall₂ R) es es') :
    (presences es).Recased (presences es') := by
  cases h with
  | none => exact .refl _
  | some h => exact .list (List.rel_map (fun _ _ _ => .refl .record) h)

namespace Accessor

/-- What is read is recased if all that is reached is. -/
theorem read_recased {a : Accessor α} {e e' : α}
    (h : List.Forall₂ Value.Recased (a.reached e) (a.reached e')) :
    (a.read e).Recased (a.read e') := by
  cases hq : a.isQuantified with
  | true =>
    rw [read_eq_list hq, read_eq_list hq]
    exact .list h
  | false =>
    rw [reached_eq_singleton hq, reached_eq_singleton hq] at h
    exact (List.forall₂_cons.mp h).1

variable {a : Accessor β} {e e' : α}

theorem reached_throughOne_recased {get : α → Option β} (h : Option.Rel R (get e) (get e'))
    (ih : ∀ n n', R n n' → List.Forall₂ Value.Recased (a.reached n) (a.reached n')) :
    List.Forall₂ Value.Recased ((a.throughOne get).reached e) ((a.throughOne get).reached e') := by
  rw [reached_throughOne, reached_throughOne]
  generalize get e = next at h
  generalize get e' = next' at h
  cases h with
  | some h => exact ih _ _ h
  | none =>
    dsimp only
    split
    · exact .nil
    · exact .cons (.refl .null) .nil

theorem reached_throughMany_recased {get : α → Option (List β)}
    (h : Option.Rel (List.Forall₂ R) (get e) (get e'))
    (ih : ∀ n n', R n n' → List.Forall₂ Value.Recased (a.reached n) (a.reached n')) :
    List.Forall₂ Value.Recased ((a.throughMany get).reached e)
      ((a.throughMany get).reached e') := by
  rw [reached_throughMany, reached_throughMany]
  generalize get e = next at h
  generalize get e' = next' at h
  cases h with
  | none => exact .nil
  | some h => exact List.rel_flatMap h fun n n' hn => ih n n' hn

end Accessor

namespace Schema

variable {S : Schema} {kind : S.Kind} {segments : List Segment} {r : Resolved (S.Entity kind)}

/-- **Along a path letter case is all that differs**, if it is all that differs at the start. -/
theorem Resolves.reached_recased {R : ∀ kind, S.Entity kind → S.Entity kind → Prop}
    (hR : S.Recasing R) (h : S.Resolves kind segments r) {e e' : S.Entity kind}
    (he : R kind e e') :
    List.Forall₂ Value.Recased (r.accessor.reached e) (r.accessor.reached e') := by
  induction h with
  | value hm => exact .cons (hR hm he) .nil
  | one hm => exact .cons (presence_recased (hR hm he)) .nil
  | many hm => exact .cons (presences_recased (hR hm he)) .nil
  | throughOne hm _ _ ih =>
    exact Accessor.reached_throughOne_recased (hR hm he) fun n n' hn => ih hn
  | throughMany hm _ _ ih =>
    exact Accessor.reached_throughMany_recased (hR hm he) fun n n' hn => ih hn

end Schema

end EntityQuery
