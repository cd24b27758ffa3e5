/-!
# Predicates

Compiled tests on entities, with the connectives of logic. Of no predicates all hold, and not
any does.

`Predicate` formalizes the predicate type, with its `constant`, `not`, `and`, `or`, `all`, `any` and
`filter`; `holds` is `matches`.
-/

namespace EntityQuery

/-- A test on entities. -/
structure Predicate (α : Type) where
  holds : α → Bool

namespace Predicate

variable {α : Type}

/-- The predicate with one result. -/
def constant (b : Bool) : Predicate α := ⟨fun _ => b⟩

/-- The predicate that holds where another does not. -/
def not (p : Predicate α) : Predicate α := ⟨fun e => !p.holds e⟩

/-- The predicate that holds where both do. -/
def and (p q : Predicate α) : Predicate α := ⟨fun e => p.holds e && q.holds e⟩

/-- The predicate that holds where one of two does. -/
def or (p q : Predicate α) : Predicate α := ⟨fun e => p.holds e || q.holds e⟩

/-- The predicate that holds where all do. A single one is taken as it is. -/
def all : List (Predicate α) → Predicate α
  | [] => constant true
  | [p] => p
  | p :: q :: ps => ⟨fun e => (p :: q :: ps).all fun p => p.holds e⟩

/-- The predicate that holds where any does. A single one is taken as it is. -/
def any : List (Predicate α) → Predicate α
  | [] => constant false
  | [p] => p
  | p :: q :: ps => ⟨fun e => (p :: q :: ps).any fun p => p.holds e⟩

/-- The predicate, reversed if `negated` says so. -/
def negateIf (negated : Bool) (p : Predicate α) : Predicate α := if negated then p.not else p

/-- The entities that the predicate keeps. -/
def filter (p : Predicate α) (es : List α) : List α := es.filter p.holds

/-! ### What the connectives hold of -/

@[simp] theorem holds_constant (b : Bool) (e : α) : (constant b).holds e = b := rfl

@[simp] theorem holds_not (p : Predicate α) (e : α) : p.not.holds e = !p.holds e := rfl

@[simp] theorem holds_and (p q : Predicate α) (e : α) :
    (p.and q).holds e = (p.holds e && q.holds e) := rfl

@[simp] theorem holds_or (p q : Predicate α) (e : α) :
    (p.or q).holds e = (p.holds e || q.holds e) := rfl

/-- However many predicates there are, all of them hold. -/
@[simp] theorem holds_all (ps : List (Predicate α)) (e : α) :
    (all ps).holds e = ps.all fun p => p.holds e := by
  cases ps with
  | nil => rfl
  | cons p ps =>
    cases ps with
    | nil => exact (Bool.and_true _).symm
    | cons q ps => rfl

/-- However many predicates there are, one of them holds. -/
@[simp] theorem holds_any (ps : List (Predicate α)) (e : α) :
    (any ps).holds e = ps.any fun p => p.holds e := by
  cases ps with
  | nil => rfl
  | cons p ps =>
    cases ps with
    | nil => exact (Bool.or_false _).symm
    | cons q ps => rfl

/-- Reversing a predicate flips its result where `negated` says so, and keeps it otherwise. -/
@[simp] theorem holds_negateIf (negated : Bool) (p : Predicate α) (e : α) :
    (p.negateIf negated).holds e = (negated ^^ p.holds e) := by
  cases negated <;> simp [negateIf]

/-! ### Equal predicates -/

/-- Predicates that hold of the same entities are the same. -/
theorem eq_of_holds {p q : Predicate α} (h : ∀ e, p.holds e = q.holds e) : p = q := by
  cases p
  exact congrArg Predicate.mk (funext h)

theorem negateIf_not (negated : Bool) (p : Predicate α) :
    p.negateIf (!negated) = (p.negateIf negated).not :=
  eq_of_holds fun e => by simp

theorem not_any (ps : List (Predicate α)) : (any ps).not = all (ps.map not) := by
  refine eq_of_holds fun e => ?_
  rw [holds_not, holds_any, holds_all, List.all_map, List.not_any_eq_all_not]
  rfl

end Predicate

end EntityQuery
