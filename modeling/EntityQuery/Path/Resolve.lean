import EntityQuery.Path.Accessor
import EntityQuery.Path.Segment

/-!
# Resolving paths

A path is resolved against an entity type once, to the type of its last member and an accessor.
Each segment must name a member of the type reached so far. A value ends the path. A relation to
one entity is followed without a marker, and may end the path, which then is about the presence
of the entity. A collection is followed with a marker; without one it ends the path, which then
is the list of its elements.

`Schema.resolve` formalizes `resolve`. `Schema.resolveSegments` is `resolve_segments` together with
the `resolve` of `HasOne` and `HasMany`, which call each other.
-/

namespace EntityQuery

/-- A resolved path: the type of the property, and how it is read. -/
structure Resolved (α : Type) where
  type : ValueType
  accessor : Accessor α

namespace Resolved

variable {α β : Type}

/-- Does the path lead through a collection? -/
def isQuantified (r : Resolved α) : Bool := r.accessor.isQuantified

/-- Is the property itself a collection? -/
def isCollection (r : Resolved α) : Bool := r.type.isCollection

/-- The path behind a relation to one entity. -/
def throughOne (r : Resolved β) (get : α → Option β) : Resolved α :=
  ⟨r.type, r.accessor.throughOne get⟩

/-- The path behind a relation to many entities. -/
def throughMany (r : Resolved β) (get : α → Option (List β)) : Resolved α :=
  ⟨r.type, r.accessor.throughMany get⟩

end Resolved

/-- The presence of an entity as a value. -/
def presence {β : Type} (e : Option β) : Value :=
  match e with
  | some _ => .record
  | none => .null

/-- The presence of each element of a collection as a value. -/
def presences {β : Type} (es : Option (List β)) : Value :=
  match es with
  | some es => .list (es.map fun _ => .record)
  | none => .null

namespace Schema

variable (S : Schema)

/-- Resolves segments against an entity type. -/
def resolveSegments : (kind : S.Kind) → List Segment → Except PathFault (Resolved (S.Entity kind))
  | _, [] => .error .empty
  | kind, segment :: rest =>
    match S.member? kind segment.name with
    | none => .error (.unknownMember segment.name (S.name kind))
    | some (.value type get) =>
      if segment.many then
        .error (if type.isCollection then .endsAtMarker segment.name
          else .notCollection segment.name)
      else match rest with
        | next :: _ => .error (.notEntity next.name type segment.name)
        | [] => .ok ⟨type, .member get⟩
    | some (.one target get) =>
      if segment.many then .error (.notCollection segment.name)
      else if rest.isEmpty then
        .ok ⟨.record (S.name target), .guarded fun e => presence (get e)⟩
      else (resolveSegments target rest).map fun r => r.throughOne get
    | some (.many target get) =>
      if segment.many then
        if rest.isEmpty then .error (.endsAtMarker segment.name)
        else (resolveSegments target rest).map fun r => r.throughMany get
      else if rest.isEmpty then
        .ok ⟨.list (.record (S.name target)), .guarded fun e => presences (get e)⟩
      else .error (.unmarkedCollection segment.name)

/-- Resolves a path against an entity type. -/
def resolve (kind : S.Kind) (path : String) : Except CompileError (Resolved (S.Entity kind)) :=
  ((Path.segments path).bind (S.resolveSegments kind)).mapError (.path path)

end Schema

end EntityQuery
