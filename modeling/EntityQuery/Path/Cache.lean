import EntityQuery.Path.Resolve

/-!
# Path caches

A specification may use one path in many rules. A cache remembers the paths that have been
resolved, so that each is resolved once; a path that does not resolve is not remembered.

`PathCache` formalizes the cache of the same name, `PathCache.resolve` its `resolve` and
`PathCache.size` its `len`.
-/

namespace EntityQuery

/-- The paths of an entity type that have been resolved so far. -/
structure PathCache (S : Schema) (kind : S.Kind) where
  resolved : List (String × Resolved (S.Entity kind))

/-- A computation that resolves paths of an entity type through a cache, and may fail. -/
abbrev Resolving (S : Schema) (kind : S.Kind) (α : Type) : Type :=
  ExceptT CompileError (StateM (PathCache S kind)) α

namespace PathCache

variable {S : Schema} {kind : S.Kind}

/-- The cache that remembers nothing. -/
def empty : PathCache S kind := ⟨[]⟩

/-- The number of paths remembered. -/
def size (c : PathCache S kind) : Nat := c.resolved.length

/-- Is nothing remembered? -/
def isEmpty (c : PathCache S kind) : Bool := c.resolved.isEmpty

/-- What is remembered of a path. -/
def find? (c : PathCache S kind) (path : String) : Option (Resolved (S.Entity kind)) :=
  c.resolved.lookup path

/-- The cache that remembers one more path. -/
def insert (c : PathCache S kind) (path : String) (r : Resolved (S.Entity kind)) :
    PathCache S kind :=
  ⟨(path, r) :: c.resolved⟩

@[simp] theorem find?_empty (path : String) : (empty : PathCache S kind).find? path = none := rfl

/-- A path that has been remembered is found, and every other path as before. -/
theorem find?_insert (c : PathCache S kind) (p q : String) (r : Resolved (S.Entity kind)) :
    (c.insert p r).find? q = if q = p then some r else c.find? q := by
  by_cases h : q = p
  · simp [find?, insert, h]
  · have hne : (q == p) = false := by simpa using h
    simp [find?, insert, List.lookup_cons, hne, h]

@[simp] theorem size_insert (c : PathCache S kind) (p : String) (r : Resolved (S.Entity kind)) :
    (c.insert p r).size = c.size + 1 := rfl

/-- Resolves a path: what is remembered of it, or what is found and then remembered. -/
def resolve (path : String) : Resolving S kind (Resolved (S.Entity kind)) := do
  match (← getThe (PathCache S kind)).find? path with
  | some r => pure r
  | none =>
    let r ← liftExcept (S.resolve kind path)
    modify fun c => c.insert path r
    pure r

end PathCache

end EntityQuery
