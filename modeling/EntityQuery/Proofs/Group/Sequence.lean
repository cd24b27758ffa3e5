import EntityQuery.Proofs.Group.Compile

/-!
# Sequences of groups

In a sequence each group is joined to all that comes before it, by the connective that the group
just before it names. So a sequence is read from the left: `((g₁ c₁ g₂) c₂ g₃) c₃ …`, where `cᵢ` is
the connective of `gᵢ`, and what the last group names joins nothing.

The groups share a cache, which makes no difference: the main result `Group.compileAll_eq_chain`
is about groups that are compiled each on its own.
-/

namespace EntityQuery

open Outcome

/-! ### Chains of truth values -/

namespace Connective

/-- Two truth values joined by a connective. -/
def apply : Connective → Bool → Bool → Bool
  | .and, a, b => a && b
  | .or, a, b => a || b

/-- Truth values joined from the left, each one by the connective at the place before it; of none
it is truth. -/
def chain (cs : List Connective) : List Bool → Bool
  | [] => true
  | b :: bs => (cs.zip bs).foldl (fun joined step => step.1.apply joined step.2) b

/-- Both connectives join what comes before them first. -/
example : chain [.or, .and, .or] [true, false, false] = ((true || false) && false) := rfl

end Connective

namespace Group

variable {S : Schema} {kind : S.Kind} {o : FilterOptions}

theorem holds_join {α : Type} (c : Connective) (p q : Predicate α) (e : α) :
    (join c p q).holds e = c.apply (p.holds e) (q.holds e) := by
  cases c <;> rfl

/-! ### Compiling a sequence through a cache -/

theorem transparent_compileShared (g : Group) :
    (g.compileShared o : Resolving S kind _).Transparent :=
  Node.transparent_compile o _

theorem transparent_compileRest (groups : List Group) :
    ∀ (before : Predicate (S.Entity kind)) (inter : Connective),
      (compileRest o before inter groups).Transparent := by
  induction groups with
  | nil => exact fun before _ => Resolving.transparent_pure before
  | cons g groups ih => exact fun _ _ => (transparent_compileShared g).bind fun _ => ih _ _

/-- What the rest of a sequence compiles to, put together from its groups: each joins what comes
before it by the connective named last. -/
theorem alone_compileRest (groups : List Group) :
    ∀ (before : Predicate (S.Entity kind)) (inter : Connective),
      (compileRest o before inter groups).alone =
        (groups.mapM (compile S kind o)).map fun ps =>
          ((inter :: groups.map GroupOf.inter).zip ps).foldl
            (fun joined step => join step.1 joined step.2) before := by
  induction groups with
  | nil => exact fun _ _ => rfl
  | cons g groups ih =>
    intro before inter
    rw [compileRest, (transparent_compileShared g).alone_bind fun _ =>
      transparent_compileRest groups _ _, List.mapM_cons]
    change (g.compile S kind o >>= _) = _
    cases g.compile S kind o with
    | error err => rfl
    | ok p =>
      change (compileRest o (join inter before p) g.inter groups).alone = _
      rw [ih]
      cases groups.mapM (compile S kind o) <;> rfl

/-- What a sequence compiles to, put together from its groups. -/
theorem compileAll_cons (g : Group) (groups : List Group) :
    compileAll S kind o (g :: groups) = g.compile S kind o >>= fun p =>
      (groups.mapM (compile S kind o)).map fun ps =>
        ((g.inter :: groups.map GroupOf.inter).zip ps).foldl
          (fun joined step => join step.1 joined step.2) p := by
  have whole : compileAll S kind o (g :: groups) =
      (g.compileShared o >>= fun p => compileRest o p g.inter groups).alone := rfl
  rw [whole, (transparent_compileShared g).alone_bind fun _ => transparent_compileRest groups _ _]
  simp only [alone_compileRest]
  rfl

/-! ### The error of a sequence and what it says -/

/-- The error of a sequence is that of its first group that has one. -/
theorem failure?_compileAll (groups : List Group) :
    failure? (compileAll S kind o groups) =
      groups.findSome? fun g => failure? (g.compile S kind o) := by
  cases groups with
  | nil => rfl
  | cons g groups =>
    rw [compileAll_cons, failure?_bind, failure?_mapM, List.findSome?_cons]
    cases g.compile S kind o <;> rfl

/-- Joining predicates from the left joins what they say. -/
theorem holds_foldl_join {α : Type} (cs : List Connective) (ps : List (Predicate α))
    (before : Predicate α) (e : α) :
    ((cs.zip ps).foldl (fun joined step => join step.1 joined step.2) before).holds e =
      (cs.zip (ps.map fun p => p.holds e)).foldl (fun joined step => step.1.apply joined step.2)
        (before.holds e) := by
  induction cs generalizing ps before with
  | nil => rfl
  | cons c cs ih =>
    cases ps with
    | nil => rfl
    | cons p ps =>
      simp only [List.map_cons, List.zip_cons_cons, List.foldl_cons]
      rw [ih, holds_join]

/-- A sequence that compiles says what its groups say on their own, joined from the left. -/
theorem exists_compile_of_compileAll {groups : List Group} {p : Predicate (S.Entity kind)}
    (h : compileAll S kind o groups = .ok p) :
    ∃ ps, List.Forall₂ (fun g q => g.compile S kind o = .ok q) groups ps ∧
      ∀ e, p.holds e =
        Connective.chain (groups.map GroupOf.inter) (ps.map fun q => q.holds e) := by
  cases groups with
  | nil =>
    obtain rfl : Predicate.constant true = p := Except.ok.inj h
    exact ⟨[], .nil, fun _ => rfl⟩
  | cons g groups =>
    rw [compileAll_cons, bind_eq_ok_iff] at h
    obtain ⟨q, hq, h⟩ := h
    obtain ⟨qs, hqs, rfl⟩ := map_eq_ok_iff.mp h
    refine ⟨q :: qs, .cons hq (mapM_eq_ok_iff.mp hqs), fun e => ?_⟩
    exact holds_foldl_join _ qs q e

/-! ### The last group -/

theorem compileShared_joinNext (g : Group) (c : Connective) :
    ((g.joinNext c).compileShared o : Resolving S kind _) = g.compileShared o := by
  simp only [compileShared, Node.compile]
  rfl

theorem compileRest_joinNext (last : Group) (c : Connective) (groups : List Group) :
    ∀ (before : Predicate (S.Entity kind)) (inter : Connective),
      compileRest o before inter (groups ++ [last.joinNext c]) =
        compileRest o before inter (groups ++ [last]) := by
  induction groups with
  | nil =>
    intro before inter
    simp only [List.nil_append, compileRest, compileShared_joinNext]
  | cons g groups ih =>
    intro before inter
    simp only [List.cons_append, compileRest, ih]

/-- The connective that the last group of a sequence names joins nothing. -/
theorem compileAll_joinNext (groups : List Group) (last : Group) (c : Connective) :
    compileAll S kind o (groups ++ [last.joinNext c]) = compileAll S kind o (groups ++ [last]) := by
  unfold compileAll
  cases groups with
  | nil => simp only [List.nil_append, compileSequence, compileRest, compileShared_joinNext]
  | cons g groups => simp only [List.cons_append, compileSequence, compileRest_joinNext]

/-- **Sequences are read from the left**: a sequence fails if one of its groups does, with the
error of the first that does; otherwise it says what the groups say on their own, each joined to
all before it by the connective of the group just before it. What the last group names does not
matter, and the empty sequence holds of every entity. -/
theorem compileAll_eq_chain (S : Schema) (kind : S.Kind) (o : FilterOptions)
    (groups : List Group) :
    ((∃ err, compileAll S kind o groups = .error err) ↔
        ∃ g ∈ groups, ∃ err, g.compile S kind o = .error err) ∧
      (∀ err, compileAll S kind o groups = .error err ↔
        ∃ before g after, groups = before ++ g :: after ∧
          (∀ h ∈ before, ∃ p, h.compile S kind o = .ok p) ∧ g.compile S kind o = .error err) ∧
      (∀ p, compileAll S kind o groups = .ok p →
        ∃ ps, List.Forall₂ (fun g q => g.compile S kind o = .ok q) groups ps ∧
          ∀ e, p.holds e =
            Connective.chain (groups.map GroupOf.inter) (ps.map fun q => q.holds e)) ∧
      (∀ before last c, groups = before ++ [last] →
        compileAll S kind o (before ++ [last.joinNext c]) = compileAll S kind o groups) ∧
      (groups = [] → ∃ p, compileAll S kind o groups = .ok p ∧ ∀ e, p.holds e = true) := by
  refine ⟨?_, fun err => ?_, fun p => exists_compile_of_compileAll, ?_, ?_⟩
  · rw [← isSome_failure?_iff, failure?_compileAll, List.findSome?_isSome_iff]
    simp only [isSome_failure?_iff]
  · rw [← failure?_eq_some_iff, failure?_compileAll, List.findSome?_eq_some_iff]
    simp only [failure?_eq_some_iff, failure?_eq_none_iff]
    constructor
    · rintro ⟨before, g, after, hg, he, hb⟩
      exact ⟨before, g, after, hg, hb, he⟩
    · rintro ⟨before, g, after, hg, hb, he⟩
      exact ⟨before, g, after, hg, he, hb⟩
  · rintro before last c rfl
    exact compileAll_joinNext before last c
  · rintro rfl
    exact ⟨_, rfl, fun _ => rfl⟩

end Group

end EntityQuery
