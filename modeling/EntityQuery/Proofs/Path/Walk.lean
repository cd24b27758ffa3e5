import EntityQuery.Path.Resolve
import EntityQuery.Proofs.Outcome

/-!
# Walking along a path

A path that resolves has an accessor, which is built from the end of the path to its start. The
values that it reaches are those of a walk in the other direction: from the entity along the
segments, over every element of a marked collection, to the last member. Where a relation to one
entity is missing the walk ends with null, or with nothing at all if a marked collection was
still to come.

`Schema.Resolves` says what a path that resolves looks like, one rule for each way of going on.
The main result is `Schema.Resolves.reached`: the accessor reaches what the walk collects.
-/

namespace EntityQuery

namespace Schema

/-- The values at the end of a walk from an entity along some segments, in the order of the
collections on the way. -/
def walk (S : Schema) : (kind : S.Kind) → List Segment → S.Entity kind → List Value
  | _, [], _ => []
  | kind, segment :: rest, e =>
    match S.member? kind segment.name with
    | none => []
    | some (.value _ get) => [get e]
    | some (.one target get) =>
      if rest.isEmpty then [presence (get e)]
      else match get e with
        | some next => S.walk target rest next
        | none => if rest.any Segment.many then [] else [.null]
    | some (.many target get) =>
      if rest.isEmpty then [presences (get e)]
      else ((get e).getD []).flatMap (S.walk target rest)

/-- What some segments resolve to. -/
inductive Resolves (S : Schema) :
    (kind : S.Kind) → List Segment → Resolved (S.Entity kind) → Prop where
  /-- A value ends the path. -/
  | value {kind : S.Kind} {name : String} {type : ValueType} {get : S.Entity kind → Value} :
      S.member? kind name = some (.value type get) →
      Resolves S kind [⟨name, false⟩] ⟨type, .member get⟩
  /-- A relation to one entity ends the path: it is about the presence of the entity. -/
  | one {kind target : S.Kind} {name : String} {get : S.Entity kind → Option (S.Entity target)} :
      S.member? kind name = some (.one target get) →
      Resolves S kind [⟨name, false⟩]
        ⟨.record (S.name target), .guarded fun e => presence (get e)⟩
  /-- A collection without a marker ends the path: it is the list of its elements. -/
  | many {kind target : S.Kind} {name : String}
      {get : S.Entity kind → Option (List (S.Entity target))} :
      S.member? kind name = some (.many target get) →
      Resolves S kind [⟨name, false⟩]
        ⟨.list (.record (S.name target)), .guarded fun e => presences (get e)⟩
  /-- The path goes on behind a relation to one entity. -/
  | throughOne {kind target : S.Kind} {name : String}
      {get : S.Entity kind → Option (S.Entity target)} {rest : List Segment}
      {r : Resolved (S.Entity target)} :
      S.member? kind name = some (.one target get) → rest ≠ [] → Resolves S target rest r →
      Resolves S kind (⟨name, false⟩ :: rest) (r.throughOne get)
  /-- The path goes on behind a marked collection. -/
  | throughMany {kind target : S.Kind} {name : String}
      {get : S.Entity kind → Option (List (S.Entity target))} {rest : List Segment}
      {r : Resolved (S.Entity target)} :
      S.member? kind name = some (.many target get) → rest ≠ [] → Resolves S target rest r →
      Resolves S kind (⟨name, true⟩ :: rest) (r.throughMany get)

variable {S : Schema}

/-- Segments resolve only by these rules. -/
theorem resolves_of_resolveSegments {kind : S.Kind} {segments : List Segment}
    {r : Resolved (S.Entity kind)} (h : S.resolveSegments kind segments = .ok r) :
    S.Resolves kind segments r := by
  induction segments generalizing kind with
  | nil => simp [resolveSegments] at h
  | cons segment rest ih =>
    obtain ⟨name, many⟩ := segment
    rw [resolveSegments] at h
    cases hm : S.member? kind name with
    | none => simp [hm] at h
    | some member =>
      cases member with
      | value type get =>
        cases many with
        | true => simp [hm] at h
        | false =>
          cases rest with
          | nil =>
            simp only [hm, Bool.false_eq_true, if_false, Except.ok.injEq] at h
            exact h ▸ .value hm
          | cons next rest => simp [hm] at h
      | one target get =>
        cases many with
        | true => simp [hm] at h
        | false =>
          cases rest with
          | nil =>
            simp only [hm, Bool.false_eq_true, if_false, List.isEmpty_nil, if_true,
              Except.ok.injEq] at h
            exact h ▸ .one hm
          | cons next rest =>
            simp only [hm, Bool.false_eq_true, if_false, List.isEmpty_cons] at h
            obtain ⟨q, hq, rfl⟩ := Outcome.map_eq_ok_iff.mp h
            exact .throughOne hm (List.cons_ne_nil _ _) (ih hq)
      | many target get =>
        cases many with
        | true =>
          cases rest with
          | nil => simp [hm] at h
          | cons next rest =>
            simp only [hm, if_true, List.isEmpty_cons, Bool.false_eq_true, if_false] at h
            obtain ⟨q, hq, rfl⟩ := Outcome.map_eq_ok_iff.mp h
            exact .throughMany hm (List.cons_ne_nil _ _) (ih hq)
        | false =>
          cases rest with
          | nil =>
            simp only [hm, Bool.false_eq_true, if_false, List.isEmpty_nil, if_true,
              Except.ok.injEq] at h
            exact h ▸ .many hm
          | cons next rest => simp [hm] at h

/-- Behind a relation to one entity, the rest of a path resolves on its own. -/
theorem resolveSegments_one {kind target : S.Kind} {name : String}
    {get : S.Entity kind → Option (S.Entity target)}
    (hm : S.member? kind name = some (.one target get)) {rest : List Segment} (hr : rest ≠ []) :
    S.resolveSegments kind (⟨name, false⟩ :: rest) =
      (S.resolveSegments target rest).map fun r => r.throughOne get := by
  simp [resolveSegments, hm, hr]

/-- Behind a marked collection, the rest of a path resolves on its own. -/
theorem resolveSegments_many {kind target : S.Kind} {name : String}
    {get : S.Entity kind → Option (List (S.Entity target))}
    (hm : S.member? kind name = some (.many target get)) {rest : List Segment} (hr : rest ≠ []) :
    S.resolveSegments kind (⟨name, true⟩ :: rest) =
      (S.resolveSegments target rest).map fun r => r.throughMany get := by
  simp [resolveSegments, hm, hr]

/-- Whatever these rules give is what the segments resolve to. -/
theorem Resolves.resolveSegments_eq {kind : S.Kind} {segments : List Segment}
    {r : Resolved (S.Entity kind)} (h : S.Resolves kind segments r) :
    S.resolveSegments kind segments = .ok r := by
  induction h with
  | value hm => simp [resolveSegments, hm]
  | one hm => simp [resolveSegments, hm]
  | many hm => simp [resolveSegments, hm]
  | throughOne hm hr _ ih =>
    rw [resolveSegments_one hm hr, ih]
    rfl
  | throughMany hm hr _ ih =>
    rw [resolveSegments_many hm hr, ih]
    rfl

theorem resolveSegments_eq_ok_iff {kind : S.Kind} {segments : List Segment}
    {r : Resolved (S.Entity kind)} :
    S.resolveSegments kind segments = .ok r ↔ S.Resolves kind segments r :=
  ⟨resolves_of_resolveSegments, Resolves.resolveSegments_eq⟩

/-- A path resolves along its segments, by these rules. -/
theorem resolve_eq_ok_iff {kind : S.Kind} {path : String} {r : Resolved (S.Entity kind)} :
    S.resolve kind path = .ok r ↔
      ∃ segments, Path.segments path = .ok segments ∧ S.Resolves kind segments r := by
  unfold resolve
  cases Path.segments path with
  | error fault => simp [Except.bind, Except.mapError]
  | ok segments =>
    cases hr : S.resolveSegments kind segments <;>
      simp [← resolveSegments_eq_ok_iff, Except.bind, Except.mapError, hr]

end Schema

/-! ### What an accessor behind a relation reaches -/

namespace Accessor

variable {α β : Type}

/-- Off collections one value is reached, and it is what is read. -/
theorem reached_eq_singleton {a : Accessor α} (h : a.isQuantified = false) (e : α) :
    a.reached e = [a.read e] := by
  cases a with
  | member get => rfl
  | guarded get => rfl
  | quantified collector => cases h

/-- Behind a collection, what is read is the list of all values reached. -/
theorem read_eq_list {a : Accessor α} (h : a.isQuantified = true) (e : α) :
    a.read e = .list (a.reached e) := by
  cases a with
  | member get => cases h
  | guarded get => cases h
  | quantified collector => rfl

theorem isQuantified_throughOne (a : Accessor β) (get : α → Option β) :
    (a.throughOne get).isQuantified = a.isQuantified := by
  cases a <;> rfl

theorem reached_throughOne (a : Accessor β) (get : α → Option β) (e : α) :
    (a.throughOne get).reached e =
      match get e with
      | some next => a.reached next
      | none => if a.isQuantified then [] else [.null] := by
  cases a with
  | member get' =>
    cases hg : get e <;> simp [throughOne, reached, collectInto, read, isQuantified, hg]
  | guarded get' =>
    cases hg : get e <;> simp [throughOne, reached, collectInto, read, isQuantified, hg]
  | quantified collector =>
    cases hg : get e <;> simp [throughOne, reached, collectInto, isQuantified, hg]

theorem reached_throughMany (a : Accessor β) (get : α → Option (List β)) (e : α) :
    (a.throughMany get).reached e = ((get e).getD []).flatMap a.reached := by
  show (((get e).getD []).foldl (fun out next => a.collectInto next out) #[]).toList = _
  rw [foldl_collectInto]
  simp

end Accessor

namespace Schema

variable {S : Schema}

/-! ### Walks -/

/-- A path leads through a collection exactly if it has a marked segment. -/
theorem Resolves.isQuantified {kind : S.Kind} {segments : List Segment}
    {r : Resolved (S.Entity kind)} (h : S.Resolves kind segments r) :
    r.isQuantified = segments.any Segment.many := by
  induction h with
  | value _ => rfl
  | one _ => rfl
  | many _ => rfl
  | throughOne _ _ _ ih =>
    simp only [List.any_cons, Bool.false_or, ← ih]
    exact Accessor.isQuantified_throughOne _ _
  | throughMany _ _ _ _ => simp only [List.any_cons, Bool.true_or]; rfl

/-- **An accessor reaches what a walk collects**: the same values in the same order. -/
theorem Resolves.reached {kind : S.Kind} {segments : List Segment}
    {r : Resolved (S.Entity kind)} (h : S.Resolves kind segments r) (e : S.Entity kind) :
    r.accessor.reached e = S.walk kind segments e := by
  induction h with
  | value hm => simp [walk, hm, Accessor.reached, Accessor.collectInto]
  | one hm => simp [walk, hm, Accessor.reached, Accessor.collectInto]
  | many hm => simp [walk, hm, Accessor.reached, Accessor.collectInto]
  | @throughOne kind target name get rest r hm hr h ih =>
    have hq : r.accessor.isQuantified = rest.any Segment.many := h.isQuantified
    rw [walk, hm]
    simp only [List.isEmpty_iff, hr, if_false]
    rw [show (r.throughOne get).accessor = r.accessor.throughOne get from rfl,
      Accessor.reached_throughOne, hq]
    cases get e with
    | some next => exact ih next
    | none => rfl
  | @throughMany kind target name get rest r hm hr h ih =>
    rw [walk, hm]
    simp only [List.isEmpty_iff, hr, if_false]
    rw [show (r.throughMany get).accessor = r.accessor.throughMany get from rfl,
      Accessor.reached_throughMany]
    exact congrArg (List.flatMap · _) (funext ih)

end Schema

/-- A path resolves along its segments. -/
theorem exists_segments {S : Schema} {kind : S.Kind} {path : String}
    {left : Resolved (S.Entity kind)}
    (h : S.resolve kind path = .ok left) :
    ∃ segments, Path.segments path = .ok segments ∧ S.Resolves kind segments left :=
  Schema.resolve_eq_ok_iff.mp h

end EntityQuery
