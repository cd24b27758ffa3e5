import EntityQuery.Filter.Rule

/-!
# Groups

A filter is a tree. Its leaves are rules, and a group joins its children, which are rules and
groups again, by one connective and may reverse the result. In a sequence of groups each one
also says how the next is joined to what comes before it.

Repeated children change nothing but cost time. `Group.deduplicated` drops them, innermost
groups first, so that groups which differ only by repetitions become equal.

`GroupOf` and `Node` formalize `FilterGroup` and `FilterNode`: `rules`, `ruleCount` and
`deduplicated` are `all_rules`, `rule_count` and `deduplicated`, `add`, `joinNext` and `negate` are
`with`, `then` and `negated`, and `same` is their equality.
-/

namespace EntityQuery

/-- A group of children. -/
structure GroupOf (ν : Type) where
  /-- Joins the children. -/
  connective : Connective
  /-- Joins the next group of a sequence to this one. -/
  inter : Connective
  /-- Is the result reversed? -/
  negated : Bool
  children : List ν

/-- A child of a group. -/
inductive Node where
  | rule (r : Rule)
  | group (g : GroupOf Node)

/-- A group of rules and groups. -/
abbrev Group := GroupOf Node

mutual
/-- Equality of nodes, part by part. -/
def Node.same : Node → Node → Bool
  | .rule r, .rule s => r.same s
  | .group g, .group h =>
    g.connective == h.connective && g.inter == h.inter && g.negated == h.negated &&
      Node.sameAll g.children h.children
  | _, _ => false
/-- Equality of lists of nodes. -/
def Node.sameAll : List Node → List Node → Bool
  | [], [] => true
  | a :: as, b :: bs => Node.same a b && Node.sameAll as bs
  | _, _ => false
end

mutual
/-- The rules of a node, depth first. -/
def Node.rules : Node → List Rule
  | .rule r => [r]
  | .group g => Node.rulesOfAll g.children
/-- The rules of nodes, one after the other. -/
def Node.rulesOfAll : List Node → List Rule
  | [] => []
  | a :: as => Node.rules a ++ Node.rulesOfAll as
end

theorem Node.rulesOfAll_append (as bs : List Node) :
    rulesOfAll (as ++ bs) = rulesOfAll as ++ rulesOfAll bs := by
  induction as with
  | nil => rfl
  | cons a as ih => rw [List.cons_append, rulesOfAll, rulesOfAll, ih, List.append_assoc]

/-- The rules of nodes are those of each of them. -/
theorem Node.mem_rulesOfAll {as : List Node} {r : Rule} :
    r ∈ rulesOfAll as ↔ ∃ a ∈ as, r ∈ rules a := by
  induction as with
  | nil => simp [rulesOfAll]
  | cons a as ih => simp [rulesOfAll, ih]

mutual
/-- The number of rules of a node. -/
def Node.ruleCount : Node → Nat
  | .rule _ => 1
  | .group g => Node.ruleCountOfAll g.children
/-- The number of rules of nodes. -/
def Node.ruleCountOfAll : List Node → Nat
  | [] => 0
  | a :: as => Node.ruleCount a + Node.ruleCountOfAll as
end

/-- Appends a node, unless an equal one is there. -/
def Node.addNew (kept : List Node) (a : Node) : List Node :=
  if kept.any fun b => b.same a then kept else kept ++ [a]

mutual
/-- A node without repeated children at any depth. -/
def Node.deduplicated : Node → Node
  | .rule r => .rule r
  | .group g => .group { g with children := Node.deduplicatedAll g.children [] }
/-- Appends what is new of the deduplicated nodes to those kept so far. -/
def Node.deduplicatedAll : List Node → List Node → List Node
  | [], kept => kept
  | a :: as, kept => Node.deduplicatedAll as (Node.addNew kept (Node.deduplicated a))
end

namespace Group

/-- An empty group. -/
def empty (connective : Connective) : Group := ⟨connective, .or, false, []⟩

/-- The group with one more child. -/
def add (g : Group) (child : Node) : Group := { g with children := g.children ++ [child] }

/-- The group with another connective to the next group of a sequence. -/
def joinNext (g : Group) (inter : Connective) : Group := { g with inter := inter }

/-- The group with its result reversed. -/
def negate (g : Group) : Group := { g with negated := !g.negated }

/-- Has it no children? -/
def isEmpty (g : Group) : Bool := g.children.isEmpty

/-- The number of rules in the group and the groups inside it. -/
def ruleCount (g : Group) : Nat := Node.ruleCountOfAll g.children

/-- The rules of the group and the groups inside it, depth first. -/
def rules (g : Group) : List Rule := Node.rulesOfAll g.children

/-- The group without repeated children at any depth. -/
def deduplicated (g : Group) : Group :=
  { g with children := Node.deduplicatedAll g.children [] }

/-- Equality of groups, part by part. -/
def same (g h : Group) : Bool := Node.same (.group g) (.group h)

end Group

end EntityQuery
