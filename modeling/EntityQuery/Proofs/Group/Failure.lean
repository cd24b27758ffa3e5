import EntityQuery.Proofs.Group.Compile
import EntityQuery.Proofs.Rule.Same

/-!
# The first error of a group

Of a group only the tree without repetitions is compiled, yet the error is that of the first rule
of the whole tree that has one. What is dropped has an equal child before it, which has been kept;
and rules that count as the same fail together. So the first rule that fails is never dropped, and
nothing that fails is moved before it.

The main result is `Group.compile_eq_error_iff`.
-/

namespace EntityQuery

open Outcome

/-! ### Appending what is new -/

namespace Node

/-- A node is appended, or an equal one is there. -/
theorem addNew_cases (kept : List Node) (a : Node) :
    addNew kept a = kept ++ [a] ∨ addNew kept a = kept ∧ ∃ b ∈ kept, b.same a = true := by
  unfold addNew
  split
  · next h => exact .inr ⟨rfl, List.any_eq_true.mp h⟩
  · exact .inl rfl

end Node

/-! ### The first of the rules that something is found of

Something is found of some rules, and of rules that count as the same it is found or not found
together. -/

section

variable {ε : Type} {f : Rule → Option ε}

mutual
/-- In nodes that count as the same it is found or not found together. -/
theorem Node.isSome_findSome?_of_same (hf : ∀ r s, r.same s = true → (f r).isSome = (f s).isSome) :
    ∀ a b : Node, a.same b = true →
      ((Node.rules a).findSome? f).isSome = ((Node.rules b).findSome? f).isSome
  | .rule r, b, h => by
    cases b with
    | rule s => simpa [Node.rules] using hf r s (by simpa [Node.same] using h)
    | group _ => simp [Node.same] at h
  | .group g, b, h => by
    cases b with
    | rule _ => simp [Node.same] at h
    | group g' =>
      simp only [Node.same, Bool.and_eq_true] at h
      exact Node.isSome_findSome?_of_sameAll hf g.children g'.children h.2
theorem Node.isSome_findSome?_of_sameAll
    (hf : ∀ r s, r.same s = true → (f r).isSome = (f s).isSome) :
    ∀ as bs : List Node, Node.sameAll as bs = true →
      ((Node.rulesOfAll as).findSome? f).isSome = ((Node.rulesOfAll bs).findSome? f).isSome
  | [], bs, h => by
    cases bs with
    | nil => rfl
    | cons _ _ => simp [Node.sameAll] at h
  | a :: as, bs, h => by
    cases bs with
    | nil => simp [Node.sameAll] at h
    | cons b bs =>
      simp only [Node.sameAll, Bool.and_eq_true] at h
      rw [Node.rulesOfAll, Node.rulesOfAll, List.findSome?_append, List.findSome?_append,
        Option.isSome_or, Option.isSome_or, Node.isSome_findSome?_of_same hf a b h.1,
        Node.isSome_findSome?_of_sameAll hf as bs h.2]
end

namespace Node

/-- A node that is dropped has an equal one before it, where something was found already. -/
theorem findSome?_addNew (hf : ∀ r s, r.same s = true → (f r).isSome = (f s).isSome)
    (kept : List Node) (a : Node) :
    (rulesOfAll (addNew kept a)).findSome? f =
      ((rulesOfAll kept).findSome? f).or ((rules a).findSome? f) := by
  obtain h | ⟨h, b, hb, hs⟩ := addNew_cases kept a
  · rw [h, rulesOfAll_append, List.findSome?_append]
    simp [rulesOfAll]
  · rw [h]
    cases ha : (rules a).findSome? f with
    | none => rw [Option.or_none]
    | some err =>
      have found : ((rules b).findSome? f).isSome = true := by
        rw [isSome_findSome?_of_same hf b a hs, ha]
        rfl
      obtain ⟨r, hr, hfr⟩ := List.findSome?_isSome_iff.mp found
      have earlier : ((rulesOfAll kept).findSome? f).isSome = true :=
        List.findSome?_isSome_iff.mpr ⟨r, mem_rulesOfAll.mpr ⟨b, hb, hr⟩, hfr⟩
      rw [Option.or_of_isSome earlier]

end Node

mutual
/-- What is found first in a tree is found first in it without repetitions. -/
theorem Node.findSome?_deduplicated (hf : ∀ r s, r.same s = true → (f r).isSome = (f s).isSome) :
    ∀ a : Node, (Node.rules (Node.deduplicated a)).findSome? f = (Node.rules a).findSome? f
  | .rule r => by rw [Node.deduplicated]
  | .group g => by
    rw [Node.deduplicated, Node.rules, Node.rules, Node.findSome?_deduplicatedAll hf g.children []]
    rfl
theorem Node.findSome?_deduplicatedAll
    (hf : ∀ r s, r.same s = true → (f r).isSome = (f s).isSome) : ∀ as kept : List Node,
    (Node.rulesOfAll (Node.deduplicatedAll as kept)).findSome? f =
      ((Node.rulesOfAll kept).findSome? f).or ((Node.rulesOfAll as).findSome? f)
  | [], kept => by rw [Node.deduplicatedAll, Node.rulesOfAll, List.findSome?_nil, Option.or_none]
  | a :: as, kept => by
    rw [Node.deduplicatedAll, Node.findSome?_deduplicatedAll hf as, Node.findSome?_addNew hf,
      Node.findSome?_deduplicated hf a, Node.rulesOfAll, List.findSome?_append, Option.or_assoc]
end

end

/-! ### The error of a group -/

namespace Group

variable {S : Schema} {kind : S.Kind} {o : FilterOptions}

/-- The error of a group is that of the first of all its rules that has one. -/
theorem failure?_compile (g : Group) : failure? (g.compile S kind o) =
    g.rules.findSome? fun r => failure? (r.compileAlone S kind o) := by
  rw [compile_eq_alone, Node.failure?_compile]
  exact Node.findSome?_deduplicated
    (fun r s h => (Rule.alike_compileAlone h).failure?_isSome) (.group g)

/-- A group compiles if all its rules do. -/
theorem exists_compile {g : Group} (h : ∀ r ∈ g.rules, ∃ p, r.compileAlone S kind o = .ok p) :
    ∃ p, g.compile S kind o = .ok p := by
  rw [← failure?_eq_none_iff, failure?_compile, List.findSome?_eq_none_iff]
  exact fun r hr => failure?_eq_none_iff.mpr (h r hr)

/-- **The error of a group**: it has one if one of all its rules does not compile on its own, and
then it is that of the first of them, in the order of the whole tree, which is never an excluded
rule. -/
theorem compile_eq_error_iff (g : Group) :
    ((∃ err, g.compile S kind o = .error err) ↔
        ∃ r ∈ g.rules, ∃ err, r.compileAlone S kind o = .error err) ∧
      ∀ err, g.compile S kind o = .error err ↔
        ∃ before r after, g.rules = before ++ r :: after ∧
          (∀ q ∈ before, ∃ p, q.compileAlone S kind o = .ok p) ∧
          r.compileAlone S kind o = .error err ∧ ¬ o.Excludes r := by
  constructor
  · rw [← isSome_failure?_iff, failure?_compile, List.findSome?_isSome_iff]
    simp only [isSome_failure?_iff]
  · intro err
    rw [← failure?_eq_some_iff, failure?_compile, List.findSome?_eq_some_iff]
    simp only [failure?_eq_some_iff, failure?_eq_none_iff]
    constructor
    · rintro ⟨before, r, after, hg, hr, hb⟩
      have ha := FilterOptions.allowsRule_eq_true_iff.mp
        (Rule.allowsRule_of_compileAlone_eq_error hr)
      exact ⟨before, r, after, hg, hb, hr, ha⟩
    · rintro ⟨before, r, after, hg, hb, hr, -⟩
      exact ⟨before, r, after, hg, hr, hb⟩

end Group

end EntityQuery
