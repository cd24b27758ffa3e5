import EntityQuery.Proofs.Path.Typing
import EntityQuery.Proofs.Shelf

/-!
# Which paths resolve, and what they read

A path resolves just if it splits into segments that lead to a member: each segment before the
last names a relation of the entity type that has been reached, without a marker if it leads to
one entity and with it if it leads to many, and the last segment has no marker and names any
member (`Schema.EndsAt`). The member at the end decides the type of the path, and the markers
decide how it is read. Whatever is wrong with a path, the error is about the whole of it:
`Schema.resolve_iff_endsAt`.

What such a path reads is what a walk along its segments collects: `Schema.reads_walk`.
-/

namespace EntityQuery

/-! ### Paths that lead to a member -/

namespace Schema

variable {S : Schema}

/-- Some segments lead from an entity type to a member. -/
inductive EndsAt (S : Schema) :
    S.Kind → List Segment → (owner : S.Kind) → S.Member owner → Prop where
  /-- The last segment names the member. -/
  | last {kind : S.Kind} {name : String} {m : S.Member kind} :
      S.member? kind name = some m → EndsAt S kind [⟨name, false⟩] kind m
  /-- A segment without a marker names a relation to one entity. -/
  | one {kind target owner : S.Kind} {name : String} {rest : List Segment} {m : S.Member owner}
      {get : S.Entity kind → Option (S.Entity target)} :
      S.member? kind name = some (.one target get) → EndsAt S target rest owner m →
      EndsAt S kind (⟨name, false⟩ :: rest) owner m
  /-- A segment with a marker names a relation to many entities. -/
  | many {kind target owner : S.Kind} {name : String} {rest : List Segment} {m : S.Member owner}
      {get : S.Entity kind → Option (List (S.Entity target))} :
      S.member? kind name = some (.many target get) → EndsAt S target rest owner m →
      EndsAt S kind (⟨name, true⟩ :: rest) owner m

theorem EndsAt.ne_nil {kind owner : S.Kind} {segments : List Segment} {m : S.Member owner}
    (h : S.EndsAt kind segments owner m) : segments ≠ [] := by
  cases h with
  | last _ => simp
  | one _ _ => simp
  | many _ _ => simp

/-- The type of a path that ends at a member. -/
def typeAt (S : Schema) {owner : S.Kind} : S.Member owner → ValueType
  | .value type _ => type
  | .one target _ => .record (S.name target)
  | .many target _ => .list (.record (S.name target))

end Schema

namespace Accessor

/-- The ways to read a property. -/
inductive Form where
  | member
  | guarded
  | quantified
deriving DecidableEq, Repr

/-- How an accessor reads. -/
def form {α : Type} : Accessor α → Form
  | .member _ => .member
  | .guarded _ => .guarded
  | .quantified _ => .quantified

/-- How a path with these segments is read, given the member at its end: through a collection if a
segment is marked, directly if its one segment names a value, and else with a guard. -/
def Form.ofPath {S : Schema} {owner : S.Kind} (segments : List Segment) (m : S.Member owner) :
    Form :=
  if segments.any Segment.many then .quantified
  else match segments, m with
    | [_], .value _ _ => .member
    | _, _ => .guarded

variable {α β : Type}

theorem form_throughOne (a : Accessor β) (get : α → Option β) :
    (a.throughOne get).form = if a.isQuantified then .quantified else .guarded := by
  cases a <;> rfl

theorem Form.ofPath_cons {S : Schema} {owner : S.Kind} {m : S.Member owner} {name : String}
    {rest : List Segment} (hr : rest ≠ []) :
    ofPath (⟨name, false⟩ :: rest) m =
      if rest.any Segment.many then .quantified else .guarded := by
  cases rest with
  | nil => exact absurd rfl hr
  | cons next rest => rfl

end Accessor

namespace Schema

variable {S : Schema} {kind : S.Kind} {segments : List Segment}

/-- Segments that resolve lead to a member, which decides the type and the form. -/
theorem Resolves.exists_endsAt {r : Resolved (S.Entity kind)} (h : S.Resolves kind segments r) :
    ∃ (owner : S.Kind) (m : S.Member owner), S.EndsAt kind segments owner m ∧
      r.type = S.typeAt m ∧ r.accessor.form = .ofPath segments m := by
  induction h with
  | value hm => exact ⟨_, _, .last hm, rfl, rfl⟩
  | one hm => exact ⟨_, _, .last hm, rfl, rfl⟩
  | many hm => exact ⟨_, _, .last hm, rfl, rfl⟩
  | @throughOne kind target name get rest r hm hr h ih =>
    obtain ⟨owner, m, ends, type, -⟩ := ih
    refine ⟨owner, m, .one hm ends, type, ?_⟩
    show (r.accessor.throughOne get).form = _
    rw [Accessor.form_throughOne, Accessor.Form.ofPath_cons hr, ← h.isQuantified]
    rfl
  | throughMany hm _ _ ih =>
    obtain ⟨owner, m, ends, type, -⟩ := ih
    exact ⟨owner, m, .many hm ends, type, rfl⟩

/-- Segments that lead to a member resolve. -/
theorem EndsAt.exists_resolves {owner : S.Kind} {m : S.Member owner}
    (h : S.EndsAt kind segments owner m) : ∃ r, S.Resolves kind segments r := by
  induction h with
  | @last kind name m hm =>
    cases m with
    | value type get => exact ⟨_, .value hm⟩
    | one target get => exact ⟨_, .one hm⟩
    | many target get => exact ⟨_, .many hm⟩
  | one hm ends ih =>
    obtain ⟨r, hr⟩ := ih
    exact ⟨_, .throughOne hm ends.ne_nil hr⟩
  | many hm ends ih =>
    obtain ⟨r, hr⟩ := ih
    exact ⟨_, .throughMany hm ends.ne_nil hr⟩

theorem exists_fault {path : String} {err : CompileError} (h : S.resolve kind path = .error err) :
    ∃ fault, err = .path path fault := by
  unfold resolve at h
  cases hs : (Path.segments path).bind (S.resolveSegments kind) with
  | error fault =>
    rw [hs] at h
    exact ⟨fault, (Except.error.inj h).symm⟩
  | ok r => simp [hs, Except.mapError] at h

/-- **Which paths resolve**: those that split into segments which lead to a member. The member
decides the type, the segments decide how the path is read, and every error is about the path. -/
theorem resolve_iff_endsAt (S : Schema) (kind : S.Kind) (path : String) :
    ((∃ r, S.resolve kind path = .ok r) ↔
      ∃ (segments : List Segment) (owner : S.Kind) (m : S.Member owner),
        Path.segments path = .ok segments ∧ S.EndsAt kind segments owner m) ∧
    (∀ r, S.resolve kind path = .ok r →
      ∃ (segments : List Segment) (owner : S.Kind) (m : S.Member owner),
        Path.segments path = .ok segments ∧ S.EndsAt kind segments owner m ∧
          r.type = S.typeAt m ∧ r.accessor.form = .ofPath segments m) ∧
    ∀ err, S.resolve kind path = .error err → ∃ fault, err = .path path fault := by
  have accepted (r : Resolved (S.Entity kind)) (h : S.resolve kind path = .ok r) :
      ∃ (segments : List Segment) (owner : S.Kind) (m : S.Member owner),
        Path.segments path = .ok segments ∧ S.EndsAt kind segments owner m ∧
          r.type = S.typeAt m ∧ r.accessor.form = .ofPath segments m := by
    obtain ⟨segments, hs, hr⟩ := resolve_eq_ok_iff.mp h
    obtain ⟨owner, m, ends, type, form⟩ := hr.exists_endsAt
    exact ⟨segments, owner, m, hs, ends, type, form⟩
  refine ⟨⟨?_, ?_⟩, accepted, fun err => exists_fault⟩
  · rintro ⟨r, h⟩
    obtain ⟨segments, owner, m, hs, ends, -⟩ := accepted r h
    exact ⟨segments, owner, m, hs, ends⟩
  · rintro ⟨segments, owner, m, hs, ends⟩
    obtain ⟨r, hr⟩ := ends.exists_resolves
    exact ⟨r, resolve_eq_ok_iff.mpr ⟨segments, hs, hr⟩⟩

/-! ### What a path reads -/

/-- **What a path reads**: the values that a walk along its segments collects, in their order,
appended to what has been collected before. Without a marker that is one value, and it is what is
read; with one, what is read is the list of all. If the getters read values of their types, all of
them have the type of the path. -/
theorem reads_walk {path : String} {r : Resolved (S.Entity kind)}
    (h : S.resolve kind path = .ok r) :
    ∃ segments, Path.segments path = .ok segments ∧ ∀ e : S.Entity kind,
      (∀ out, r.accessor.collectInto e out = out ++ (S.walk kind segments e).toArray) ∧
      (if segments.any Segment.many then r.accessor.read e = .list (S.walk kind segments e)
        else S.walk kind segments e = [r.accessor.read e]) ∧
      (S.WellTyped → ∀ v ∈ S.walk kind segments e, v.HasType r.type) := by
  obtain ⟨segments, hs, hr⟩ := resolve_eq_ok_iff.mp h
  have marked : r.accessor.isQuantified = segments.any Segment.many := hr.isQuantified
  refine ⟨segments, hs, fun e => ⟨fun out => ?_, ?_, fun hS => ?_⟩⟩
  · rw [Accessor.collectInto_eq, hr.reached]
  · rw [← hr.reached]
    split
    · next hq => exact Accessor.read_eq_list (marked.trans hq) e
    · next hq =>
      rw [Bool.not_eq_true] at hq
      exact Accessor.reached_eq_singleton (marked.trans hq) e
  · rw [← hr.reached]
    exact hr.hasType hS e

/-- A book without tags has the value null, and an author without books no value at all; both leave
what has been collected before. -/
theorem reads_walk_tags :
    let path := "books[].tags"
    let conrad : Shelf.schema.Entity .author := Shelf.Author.mk "Conrad" 66 none
      (some [⟨"Nostromo", none⟩, ⟨"Typhoon", some ["storm", "sea"]⟩])
    let ashford : Shelf.schema.Entity .author := Shelf.Author.mk "Ashford" 9 none none
    ∃ r, Shelf.schema.resolve .author path = .ok r ∧
      r.accessor.collectInto conrad #[.bool true] =
        #[.bool true, .null, .list [.string "storm", .string "sea"]] ∧
      r.accessor.collectInto ashford #[.bool true] = #[.bool true] ∧
      r.accessor.read conrad = .list [.null, .list [.string "storm", .string "sea"]] ∧
      Value.HasType (.list [.string "storm", .string "sea"]) r.type := by
  intro path conrad ashford
  have run : (Shelf.schema.resolve .author path).toOption.map Resolved.isQuantified =
      some true := by decide +kernel
  obtain ⟨r, hr, -⟩ := Outcome.exists_of_toOption run
  obtain ⟨segments, hs, reads⟩ := reads_walk hr
  obtain rfl : segments = [⟨"books", true⟩, ⟨"tags", false⟩] :=
    Except.ok.inj (hs.symm.trans (by decide +kernel))
  obtain ⟨collects, list, typed⟩ := reads conrad
  exact ⟨r, hr, collects _, (reads ashford).1 _, list,
    typed Shelf.wellTyped _ (List.mem_cons_of_mem _ List.mem_cons_self)⟩

end Schema

end EntityQuery
