import EntityQuery.Condition.Group
import EntityQuery.Proofs.Rule.Compile
import EntityQuery.Proofs.Shelf

/-!
# What a group says

A tree of rules has a truth value as soon as its rules have: a group joins the truth values of
its children, an empty group is true, and a negated group is reversed last. The truth value of a
rule is its predicate, compiled with nothing remembered; a rule that is excluded is true, whatever
else it says, though a negated group around it turns that about.

The main result is `Group.holds_compile_eq_truth`: a group that compiles holds of an entity if its
tree without repetitions is true of it. The children of a group share a cache, which makes no
difference because every step is transparent.
-/

namespace EntityQuery

variable {S : Schema} {kind : S.Kind} {o : FilterOptions}

/-! ### Truth values of trees -/

/-- What a connective makes of truth values; of none it makes truth. -/
def Connective.joins (c : Connective) (bs : List Bool) : Bool :=
  bs.isEmpty || match c with
    | .and => bs.all id
    | .or => bs.any id

mutual
/-- The truth value of a tree, given those of its rules. -/
def Node.truth (v : Rule → Bool) : Node → Bool
  | .rule r => v r
  | .group g => g.negated ^^ g.connective.joins (Node.truths v g.children)
/-- The truth values of trees. -/
def Node.truths (v : Rule → Bool) : List Node → List Bool
  | [] => []
  | a :: as => Node.truth v a :: Node.truths v as
end

instance (o : FilterOptions) (r : Rule) : Decidable (o.Excludes r) :=
  decidable_of_iff _ FilterOptions.allowsRule_eq_false_iff

/-- The truth value of a rule on its own: true where it is excluded, and what its predicate says
otherwise. -/
def Rule.verdict (S : Schema) (kind : S.Kind) (o : FilterOptions) (e : S.Entity kind) (r : Rule) :
    Bool :=
  if o.Excludes r then true
  else match r.compileAlone S kind o with
    | .ok p => p.holds e
    | .error _ => false

/-- A rule that compiles has the truth value of its predicate, excluded or not. -/
theorem Rule.verdict_of_ok {r : Rule} {p : Predicate (S.Entity kind)}
    (h : r.compileAlone S kind o = .ok p) (e : S.Entity kind) :
    r.verdict S kind o e = p.holds e := by
  unfold verdict
  split
  · next he =>
    rw [compileAlone_of_excludes he] at h
    rw [← Except.ok.inj h, Predicate.holds_constant]
  · rw [h]

/-! ### Compiling a tree through a cache -/

mutual
theorem Node.transparent_compile (o : FilterOptions) :
    ∀ a, (Node.compile o a : Resolving S kind _).Transparent
  | .rule r => Rule.transparent_compile o r
  | .group g =>
    (Node.transparent_compileAll o g.children).bind fun _ => Resolving.transparent_pure _
theorem Node.transparent_compileAll (o : FilterOptions) :
    ∀ as, (Node.compileAll o as : Resolving S kind _).Transparent
  | [] => Resolving.transparent_pure _
  | a :: as =>
    (Node.transparent_compile o a).bind fun _ =>
      (Node.transparent_compileAll o as).bind fun _ => Resolving.transparent_pure _
end

namespace Node

theorem alone_compile_rule (r : Rule) :
    (compile o (.rule r) : Resolving S kind _).alone = r.compileAlone S kind o := rfl

theorem alone_compile_group (g : Group) :
    (compile o (.group g) : Resolving S kind _).alone =
      (compileAll o g.children : Resolving S kind _).alone.map g.combine := by
  rw [compile, (transparent_compileAll o g.children).alone_bind fun _ =>
    Resolving.transparent_pure _]
  cases (compileAll o g.children : Resolving S kind _).alone <;> rfl

theorem alone_compileAll_nil : (compileAll o [] : Resolving S kind _).alone = .ok [] := rfl

theorem alone_compileAll_cons (a : Node) (as : List Node) :
    (compileAll o (a :: as) : Resolving S kind _).alone =
      (compile o a : Resolving S kind _).alone >>= fun p =>
        (compileAll o as : Resolving S kind _).alone.map fun ps => p :: ps := by
  have rest (p : Predicate (S.Entity kind)) :
      (compileAll o as >>= fun ps => pure (p :: ps) : Resolving S kind _).alone =
        (compileAll o as : Resolving S kind _).alone.map fun ps => p :: ps := by
    rw [(transparent_compileAll o as).alone_bind fun _ => Resolving.transparent_pure _]
    cases (compileAll o as : Resolving S kind _).alone <;> rfl
  rw [compileAll, (transparent_compile o a).alone_bind fun _ =>
    (transparent_compileAll o as).bind fun _ => Resolving.transparent_pure _]
  simp only [rest]

end Node

theorem GroupOf.holds_combine {ν α : Type} (g : GroupOf ν) (ps : List (Predicate α)) (e : α) :
    (g.combine ps).holds e = (g.negated ^^ g.connective.joins (ps.map fun p => p.holds e)) := by
  unfold combine Connective.joins
  cases ps with
  | nil => simp
  | cons p ps => cases g.connective <;> simp

/-! ### What compiled trees hold of -/

mutual
/-- A tree that compiles holds where it is true. -/
theorem Node.holds_eq_truth (e : S.Entity kind) : ∀ (a : Node) (p : Predicate (S.Entity kind)),
    (Node.compile o a : Resolving S kind _).alone = .ok p →
      p.holds e = Node.truth (Rule.verdict S kind o e) a
  | .rule r, p, h => by
    rw [Node.alone_compile_rule] at h
    rw [Node.truth, Rule.verdict_of_ok h e]
  | .group g, p, h => by
    rw [Node.alone_compile_group, Outcome.map_eq_ok_iff] at h
    obtain ⟨ps, hps, rfl⟩ := h
    rw [Node.truth, GroupOf.holds_combine, Node.map_holds_eq_truths e g.children ps hps]
theorem Node.map_holds_eq_truths (e : S.Entity kind) :
    ∀ (as : List Node) (ps : List (Predicate (S.Entity kind))),
      (Node.compileAll o as : Resolving S kind _).alone = .ok ps →
        ps.map (fun p => p.holds e) = Node.truths (Rule.verdict S kind o e) as
  | [], ps, h => by
    rw [Node.alone_compileAll_nil] at h
    obtain rfl := Except.ok.inj h
    rfl
  | a :: as, ps, h => by
    rw [Node.alone_compileAll_cons, Outcome.bind_eq_ok_iff] at h
    obtain ⟨p, hp, h⟩ := h
    obtain ⟨qs, hqs, rfl⟩ := Outcome.map_eq_ok_iff.mp h
    rw [List.map_cons, Node.truths, Node.holds_eq_truth e a p hp,
      Node.map_holds_eq_truths e as qs hqs]
end

mutual
/-- The error of a tree is that of its first rule that has one. -/
theorem Node.failure?_compile : ∀ a : Node,
    Outcome.failure? (Node.compile o a : Resolving S kind _).alone =
      (Node.rules a).findSome? fun r => Outcome.failure? (r.compileAlone S kind o)
  | .rule r => by
    rw [Node.alone_compile_rule, Node.rules, List.findSome?_singleton]
  | .group g => by
    rw [Node.alone_compile_group, Outcome.failure?_map, Node.rules,
      Node.failure?_compileAll g.children]
theorem Node.failure?_compileAll : ∀ as : List Node,
    Outcome.failure? (Node.compileAll o as : Resolving S kind _).alone =
      (Node.rulesOfAll as).findSome? fun r => Outcome.failure? (r.compileAlone S kind o)
  | [] => rfl
  | a :: as => by
    rw [Node.alone_compileAll_cons, Outcome.failure?_bind, Node.rulesOfAll, List.findSome?_append,
      Node.failure?_compile a, Node.failure?_compileAll as]
end

namespace Group

theorem compile_eq_alone (g : Group) : g.compile S kind o =
    (Node.compile o (.group g.deduplicated) : Resolving S kind _).alone := rfl

/-- If a group compiles, the rules that are left without repetitions do. -/
theorem exists_compileAlone {g : Group} {p : Predicate (S.Entity kind)}
    (h : g.compile S kind o = .ok p) {r : Rule} (hr : r ∈ g.deduplicated.rules) :
    ∃ q, r.compileAlone S kind o = .ok q := by
  rw [compile_eq_alone] at h
  have hn := Outcome.failure?_eq_none_iff.mpr ⟨p, h⟩
  rw [Node.failure?_compile, List.findSome?_eq_none_iff] at hn
  exact Outcome.failure?_eq_none_iff.mp (hn r hr)

/-- A group that compiles holds where its tree without repetitions is true. -/
theorem holds_eq_truth_deduplicated {g : Group} {p : Predicate (S.Entity kind)}
    (h : g.compile S kind o = .ok p) (e : S.Entity kind) :
    p.holds e = Node.truth (Rule.verdict S kind o e) (.group g.deduplicated) := by
  rw [compile_eq_alone] at h
  exact Node.holds_eq_truth e _ p h

/-- **What a group says**: every rule that is left without repetitions compiles on its own, and
the group holds where the tree of these rules is true. -/
theorem holds_compile_eq_truth {g : Group} {p : Predicate (S.Entity kind)}
    (h : g.compile S kind o = .ok p) :
    (∀ r ∈ g.deduplicated.rules, ∃ q, r.compileAlone S kind o = .ok q) ∧
      ∀ e, p.holds e = Node.truth (Rule.verdict S kind o e) (.group g.deduplicated) :=
  ⟨fun _ hr => exists_compileAlone h hr, holds_eq_truth_deduplicated h⟩

/-- An excluded rule is true although its path does not resolve and it is negated, and false under
a negated group: who is of age is kept, and nobody else. -/
theorem holds_compile_excluded :
    let excluded : Rule := ⟨"salary", .between, none, none, true⟩
    let adult : Rule := ⟨"age", .greaterThanOrEqual, some (.number (.ofInt64 18)), none, false⟩
    let g : Group := ⟨.and, .or, false, [.rule excluded, .group ⟨.or, .or, false,
      [.rule adult, .group ⟨.and, .or, true, [.rule excluded]⟩, .rule adult]⟩]⟩
    let o : FilterOptions := ⟨some ["age", "name"], .ordinal⟩
    ∃ p, g.compile Shelf.schema .author o = .ok p ∧
      p.holds (Shelf.Author.mk "Conrad" 66 none none) = true ∧
      p.holds (Shelf.Author.mk "Ashford" 9 none none) = false ∧
      (∀ r ∈ g.deduplicated.rules, ∃ q, r.compileAlone Shelf.schema .author o = .ok q) ∧
      ∀ e, p.holds e = Node.truth (Rule.verdict Shelf.schema .author o e) (.group g.deduplicated) := by
  intro excluded adult g o
  have hrun : (g.compile Shelf.schema .author o).toOption.map
      (fun p => (p.holds (Shelf.Author.mk "Conrad" 66 none none),
        p.holds (Shelf.Author.mk "Ashford" 9 none none))) = some (true, false) := by decide +kernel
  obtain ⟨p, hp, hh⟩ := Outcome.exists_of_toOption hrun
  rw [Prod.mk.injEq] at hh
  exact ⟨p, hp, hh.1, hh.2, holds_compile_eq_truth hp⟩

end Group

end EntityQuery
