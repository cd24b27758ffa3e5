import EntityQuery.Condition.Rule
import EntityQuery.Filter.Group

/-!
# Compiling groups

A group holds of an entity as its connective says of its children, an empty group of every
entity, and a negated group where it otherwise does not. Groups are compiled without repeated
children. The first rule that does not compile is the error of the whole.

In a sequence each group is joined to all that comes before it, by the connective that the group
just before it names. An empty sequence holds of every entity.

`Group.compile` formalizes `compile`, and `Group.compileAll` formalizes `compile_groups`. Both
compile a group by `Group.compileShared`, which is `compile_deduplicated`, and that by
`Node.compile` with `GroupOf.combine`, which are `compile_group`.
-/

namespace EntityQuery

variable {S : Schema} {kind : S.Kind}

/-- The predicate of a group whose children have been compiled. -/
def GroupOf.combine {ν α : Type} (g : GroupOf ν) (children : List (Predicate α)) : Predicate α :=
  let joined :=
    if children.isEmpty then .constant true
    else match g.connective with
      | .and => Predicate.all children
      | .or => Predicate.any children
  joined.negateIf g.negated

mutual
/-- The predicate of a node. -/
def Node.compile (o : FilterOptions) : Node → Resolving S kind (Predicate (S.Entity kind))
  | .rule r => r.compile o
  | .group g => return g.combine (← Node.compileAll o g.children)
/-- The predicates of nodes. -/
def Node.compileAll (o : FilterOptions) :
    List Node → Resolving S kind (List (Predicate (S.Entity kind)))
  | [] => return []
  | a :: as => return (← Node.compile o a) :: (← Node.compileAll o as)
end

namespace Group

/-- The predicate of a group, resolving paths through a shared cache. -/
def compileShared (o : FilterOptions) (g : Group) :
    Resolving S kind (Predicate (S.Entity kind)) :=
  Node.compile o (.group g.deduplicated)

/-- The predicate of a group. -/
def compile (S : Schema) (kind : S.Kind) (o : FilterOptions) (g : Group) :
    Except CompileError (Predicate (S.Entity kind)) :=
  ((g.compileShared o).run.run PathCache.empty).1

/-- Two predicates joined by a connective. -/
def join {α : Type} (c : Connective) (p q : Predicate α) : Predicate α :=
  match c with
  | .and => p.and q
  | .or => p.or q

/-- The predicate of the rest of a sequence, `before` being the predicate of what comes before it
and `inter` the connective named last. -/
def compileRest (o : FilterOptions) (before : Predicate (S.Entity kind)) (inter : Connective) :
    List Group → Resolving S kind (Predicate (S.Entity kind))
  | [] => return before
  | g :: groups => do
    let p ← g.compileShared o
    compileRest o (join inter before p) g.inter groups

/-- The predicate of a sequence of groups, resolving paths through a shared cache. -/
def compileSequence (o : FilterOptions) :
    List Group → Resolving S kind (Predicate (S.Entity kind))
  | [] => return .constant true
  | g :: groups => do
    let p ← g.compileShared o
    compileRest o p g.inter groups

/-- The predicate of a sequence of groups. -/
def compileAll (S : Schema) (kind : S.Kind) (o : FilterOptions) (groups : List Group) :
    Except CompileError (Predicate (S.Entity kind)) :=
  ((compileSequence o groups).run.run PathCache.empty).1

end Group

end EntityQuery
