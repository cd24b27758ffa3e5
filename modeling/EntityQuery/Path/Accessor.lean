import EntityQuery.Schema

/-!
# Accessors

How a property is read from an entity. A member is read directly; behind a relation to one
entity a property is null when the entity is missing; behind a collection there is a value for
every element that is reached. Accessors are lifted over a relation step by step, from the end
of a path to its start.

The values behind a collection are appended to what has been collected so far, so that nested
collections fill one array.

`Accessor` formalizes the accessor enum: `collectInto`, `read`, `throughOne` and `throughMany` are
its `collect_into`, `read`, `through_one` and `through_many`.
-/

namespace EntityQuery

/-- A way to collect values from an entity into an array. It appends to the array, and what it
appends depends on the entity alone. -/
structure Collector (α : Type) where
  into : α → Array Value → Array Value
  appends (e : α) (out : Array Value) : into e out = out ++ into e #[]

/-- A way to read a property from an entity. -/
inductive Accessor (α : Type) where
  /-- Reads a value member. -/
  | member (get : α → Value)
  /-- Reads through relations to one entity. -/
  | guarded (get : α → Value)
  /-- Reads through a collection. -/
  | quantified (collector : Collector α)

namespace Accessor

variable {α β : Type}

/-- Does it read through a collection? -/
def isQuantified : Accessor α → Bool
  | .quantified _ => true
  | _ => false

/-- Appends the values that are reached on an entity. -/
def collectInto (a : Accessor α) (e : α) (out : Array Value) : Array Value :=
  match a with
  | .member get => out.push (get e)
  | .guarded get => out.push (get e)
  | .quantified collector => collector.into e out

/-- The values that are reached on an entity. -/
def reached (a : Accessor α) (e : α) : List Value := (a.collectInto e #[]).toList

/-- The property of an entity: its value, or the list of all that are reached. -/
def read (a : Accessor α) (e : α) : Value :=
  match a with
  | .member get => get e
  | .guarded get => get e
  | .quantified _ => .list (a.reached e)

/-- What has been collected before stays in front of the values that are reached. -/
theorem collectInto_eq (a : Accessor α) (e : α) (out : Array Value) :
    a.collectInto e out = out ++ (a.reached e).toArray := by
  cases a with
  | member get => simp [reached, collectInto]
  | guarded get => simp [reached, collectInto]
  | quantified collector => exact collector.appends e out

/-- Collecting from one entity after another. -/
theorem foldl_collectInto (a : Accessor α) (es : List α) (out : Array Value) :
    es.foldl (fun out e => a.collectInto e out) out = out ++ (es.flatMap a.reached).toArray := by
  induction es generalizing out with
  | nil => simp
  | cons e es ih =>
    rw [List.foldl_cons, ih, collectInto_eq]
    simp

/-- The accessor behind a relation to one entity. What is missing has the value null, or no
values at all where a collection follows. -/
def throughOne (a : Accessor β) (get : α → Option β) : Accessor α :=
  match a with
  | .quantified collector => .quantified
    { into := fun e out =>
        match get e with
        | some next => collector.into next out
        | none => out
      appends := fun e out => by
        cases get e with
        | some next => exact collector.appends next out
        | none => simp }
  | a => .guarded fun e =>
    match get e with
    | some next => a.read next
    | none => .null

/-- The accessor behind a relation to many entities. -/
def throughMany (a : Accessor β) (get : α → Option (List β)) : Accessor α :=
  .quantified
    { into := fun e out => ((get e).getD []).foldl (fun out next => a.collectInto next out) out
      appends := fun e out => by simp [foldl_collectInto] }

end Accessor

end EntityQuery
