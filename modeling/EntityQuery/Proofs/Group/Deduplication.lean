import EntityQuery.Proofs.Group.Failure
import EntityQuery.Proofs.Group.NormalForm

/-!
# What repetitions change

A child that is dropped counts as the same as one that is kept. If rules that count as the same
are true of the same entities, then so are trees of them, and a connective does not see how often
a truth value occurs: the tree without repetitions is true of the same entities as the whole one.

Rules that count as the same may differ in the signs of float zeros, and where they read text this
makes a difference: of the two rules that a name equals `0.0` and that it equals `-0.0`, the
second is dropped. The main result, `Group.holds_as_written_iff`, says that this is all that can
go wrong. A stock of rules can be combined to groups at will, each of which holds where its whole
tree is true, if and only if those rules of the stock that read text, and count as the same but
are not, have the same truth value everywhere.
-/

namespace EntityQuery

open Outcome

/-! ### The rules that are left -/

/-- Without repetitions a tree has no other rules. -/
theorem Node.rules_deduplicated_subset (a : Node) :
    Node.rules (Node.deduplicated a) ⊆ Node.rules a :=
  (Node.rules_deduplicated_sublist a).subset

/-! ### Truth values of trees that count as the same -/

/-- On rules from `R`, those that count as the same have the same truth value. -/
def Rule.Coherent (R : Rule → Prop) (v : Rule → Bool) : Prop :=
  ∀ r s, R r → R s → r.same s = true → v r = v s

section

variable {R : Rule → Prop} {v : Rule → Bool}

mutual
/-- Trees that count as the same have the same truth value. -/
theorem Node.truth_eq_of_same (hv : Rule.Coherent R v) : ∀ a b : Node, a.same b = true →
    (∀ r ∈ Node.rules a, R r) → (∀ r ∈ Node.rules b, R r) → Node.truth v a = Node.truth v b
  | .rule r, b, h, ha, hb => by
    cases b with
    | rule s => exact hv r s (ha r (by simp [Node.rules])) (hb s (by simp [Node.rules])) h
    | group _ => simp [Node.same] at h
  | .group g, b, h, ha, hb => by
    cases b with
    | rule _ => simp [Node.same] at h
    | group g' =>
      simp only [Node.same, Bool.and_eq_true, beq_iff_eq] at h
      obtain ⟨⟨⟨hc, -⟩, hn⟩, hs⟩ := h
      rw [Node.truth, Node.truth, hc, hn,
        Node.truths_eq_of_sameAll hv g.children g'.children hs ha hb]
theorem Node.truths_eq_of_sameAll (hv : Rule.Coherent R v) : ∀ as bs : List Node,
    Node.sameAll as bs = true → (∀ r ∈ Node.rulesOfAll as, R r) →
      (∀ r ∈ Node.rulesOfAll bs, R r) → Node.truths v as = Node.truths v bs
  | [], bs, h, _, _ => by
    cases bs with
    | nil => rfl
    | cons _ _ => simp [Node.sameAll] at h
  | a :: as, bs, h, ha, hb => by
    cases bs with
    | nil => simp [Node.sameAll] at h
    | cons b bs =>
      simp only [Node.sameAll, Bool.and_eq_true] at h
      simp only [Node.rulesOfAll, List.forall_mem_append] at ha hb
      rw [Node.truths, Node.truths, Node.truth_eq_of_same hv a b h.1 ha.1 hb.1,
        Node.truths_eq_of_sameAll hv as bs h.2 ha.2 hb.2]
end

/-! ### Truth values without repetitions -/

/-- A connective sees only which truth values occur. -/
theorem Connective.joins_congr (c : Connective) {bs cs : List Bool} (h : ∀ b, b ∈ bs ↔ b ∈ cs) :
    c.joins bs = c.joins cs := by
  have empty : bs.isEmpty = cs.isEmpty := by
    rw [Bool.eq_iff_iff, List.isEmpty_iff, List.isEmpty_iff, List.eq_nil_iff_forall_not_mem,
      List.eq_nil_iff_forall_not_mem]
    simp only [h]
  have all : bs.all id = cs.all id := by
    rw [Bool.eq_iff_iff, List.all_eq_true, List.all_eq_true]
    simp only [h]
  have any : bs.any id = cs.any id := by
    rw [Bool.eq_iff_iff, List.any_eq_true, List.any_eq_true]
    simp only [h]
  unfold joins
  rw [empty, all, any]

namespace Node

theorem mem_truths {as : List Node} {b : Bool} : b ∈ truths v as ↔ ∃ a ∈ as, truth v a = b := by
  induction as with
  | nil => simp [truths]
  | cons a as ih => simp [truths, ih, eq_comm]

/-- Without repetitions a tree has the same truth value. -/
theorem truth_deduplicated (hv : Rule.Coherent R v) (a : Node) (h : ∀ r ∈ rules a, R r) :
    truth v a.deduplicated = truth v a := by
  induction a using tree_induction with
  | rule r => rw [deduplicated_rule]
  | group g ih =>
    have inR (a : Node) (ha : a ∈ g.children) : ∀ r ∈ rules a, R r :=
      fun r hr => h r (mem_rulesOfAll.mpr ⟨a, ha, hr⟩)
    have keptInR (a : Node) (ha : a ∈ g.children) : ∀ r ∈ rules a.deduplicated, R r :=
      fun r hr => inR a ha r (rules_deduplicated_subset a hr)
    have occur (b : Bool) :
        b ∈ truths v g.deduplicated.children ↔ b ∈ truths v g.children := by
      rw [mem_truths, mem_truths]
      constructor
      · rintro ⟨b, hb, rfl⟩
        obtain ⟨a, ha, rfl⟩ := exists_of_mem_deduplicated hb
        exact ⟨a, ha, (ih a ha (inR a ha)).symm⟩
      · -- A child that is dropped has an equal one that is kept.
        rintro ⟨a, ha, rfl⟩
        obtain ⟨b, hb, same⟩ := exists_same_deduplicated ha
        obtain ⟨c, hc, rfl⟩ := exists_of_mem_deduplicated hb
        have equal := truth_eq_of_same hv _ _ same (keptInR c hc) (keptInR a ha)
        exact ⟨_, hb, equal.trans (ih a ha (inR a ha))⟩
    rw [deduplicated_group, truth, truth, Connective.joins_congr _ occur]
    rfl

end Node

end

/-! ### What a group says of its whole tree -/

variable {S : Schema} {kind : S.Kind} {o : FilterOptions} {R : Rule → Prop}

/-- Rules that count as the same have the same truth value, unless they read text. -/
theorem Rule.verdict_eq_of_same {r s : Rule} (h : r.same s = true)
    (ht : ¬ r.ReadsText S kind) (e : S.Entity kind) :
    r.verdict S kind o e = s.verdict S kind o e := by
  have alike : Alike (Agree S kind r) (r.compileAlone S kind o) (s.compileAlone S kind o) :=
    alike_compileAlone h
  generalize hx : r.compileAlone S kind o = x at alike
  generalize hy : s.compileAlone S kind o = y at alike
  cases alike with
  | ok hpq => rw [verdict_of_ok hx, verdict_of_ok hy, hpq ht e]
  | error err err' =>
    have hr := FilterOptions.allowsRule_eq_true_iff.mp (allowsRule_of_compileAlone_eq_error hx)
    have hs := FilterOptions.allowsRule_eq_true_iff.mp (allowsRule_of_compileAlone_eq_error hy)
    rw [verdict, verdict, if_neg hr, if_neg hs, hx, hy]

namespace Group

/-- Two rules that count as the same are one rule if both are in a group. -/
theorem deduplicated_pair {r s : Rule} (h : r.same s = true) (c : Connective) :
    deduplicated ⟨c, .or, false, [.rule r, .rule s]⟩ = ⟨c, .or, false, [.rule r]⟩ := by
  simp [deduplicated, Node.deduplicatedAll, Node.deduplicated, Node.addNew, Node.same, h]

/-- If rules that count as the same have the same truth value, a group of rules that compile holds
where its whole tree is true. -/
theorem holds_eq_truth_of_coherent {g : Group}
    (hc : ∀ r ∈ g.rules, ∃ p, r.compileAlone S kind o = .ok p)
    (hv : ∀ e, Rule.Coherent (· ∈ g.rules) (Rule.verdict S kind o e)) :
    ∃ p, g.compile S kind o = .ok p ∧
      ∀ e, p.holds e = Node.truth (Rule.verdict S kind o e) (.group g) := by
  obtain ⟨p, hp⟩ := exists_compile hc
  refine ⟨p, hp, fun e => ?_⟩
  rw [holds_eq_truth_deduplicated hp e]
  exact Node.truth_deduplicated (hv e) (.group g) fun r hr => hr

/-- **What repetitions change**: the groups that can be made of a stock of rules hold where their
whole trees are true, if and only if the rules of the stock that read text and count as the same,
though they are not, have the same truth value everywhere. -/
theorem holds_as_written_iff (hR : ∀ r, R r → ∃ p, r.compileAlone S kind o = .ok p) :
    (∀ g : Group, (∀ r ∈ g.rules, R r) → ∃ p, g.compile S kind o = .ok p ∧
      ∀ e, p.holds e = Node.truth (Rule.verdict S kind o e) (.group g)) ↔
    ∀ r s, R r → R s → r.same s = true → r ≠ s → r.ReadsText S kind → ¬ o.Excludes r →
      ∀ e, r.verdict S kind o e = s.verdict S kind o e := by
  constructor
  · intro h r s hr hs hrs _ _ _ e
    -- Joined by either connective, the pair is as true as the first rule alone.
    have pair (c : Connective) : r.verdict S kind o e =
        c.joins [r.verdict S kind o e, s.verdict S kind o e] := by
      have inR : ∀ q ∈ rules ⟨c, .or, false, [.rule r, .rule s]⟩, R q := by
        simp [rules, Node.rulesOfAll, Node.rules, hr, hs]
      obtain ⟨p, hp, hh⟩ := h ⟨c, .or, false, [.rule r, .rule s]⟩ inR
      have kept := holds_eq_truth_deduplicated hp e
      rw [deduplicated_pair hrs, hh e] at kept
      cases c <;> simpa [Node.truth, Node.truths, Connective.joins] using kept.symm
    have both := pair .and
    have either := pair .or
    revert both either
    cases r.verdict S kind o e <;> cases s.verdict S kind o e <;> decide
  · intro h g hg
    refine holds_eq_truth_of_coherent (fun r hr => hR r (hg r hr)) fun e r s hr hs hrs => ?_
    by_cases hne : r = s
    · rw [hne]
    by_cases ht : r.ReadsText S kind
    · by_cases hx : o.Excludes r
      · obtain ⟨w, rfl, -⟩ := Rule.eq_with_value_of_same hrs
        have hx' : o.Excludes { r with value := w } := hx
        rw [Rule.verdict, Rule.verdict, if_pos hx, if_pos hx']
      · exact h r s (hg r hr) (hg s hs) hrs hne ht hx e
    · exact Rule.verdict_eq_of_same hrs ht e

/-- The rule that a property equals a float zero of a sign. -/
def zeroRule (property : String) (negative : Bool) : Rule :=
  ⟨property, .equal, some (.floatZero negative), none, false⟩

/-- Of an integer both zeros say the same, so that groups of such rules may repeat either. -/
theorem holds_as_written_ageZero :
    let R : Rule → Prop := fun r => ∃ b, r = zeroRule "age" b
    (∀ r, R r → ∃ p, r.compileAlone Shelf.schema .author .default = .ok p) ∧
      ∀ g : Group, (∀ r ∈ g.rules, R r) → ∃ p, g.compile Shelf.schema .author .default = .ok p ∧
        ∀ e, p.holds e = Node.truth (Rule.verdict Shelf.schema .author .default e) (.group g) := by
  intro R
  have hR : ∀ r, R r → ∃ p, r.compileAlone Shelf.schema .author .default = .ok p := by
    rintro r ⟨b, rfl⟩
    have run : ((zeroRule "age" b).compileAlone Shelf.schema .author .default).toOption.map
        (fun p => p.holds (Shelf.Author.mk "Conrad" 66 none none)) = some false := by
      cases b <;> decide +kernel
    obtain ⟨p, hp, -⟩ := Outcome.exists_of_toOption run
    exact ⟨p, hp⟩
  refine ⟨hR, (holds_as_written_iff hR).mpr ?_⟩
  rintro r s ⟨b, rfl⟩ - - - ⟨-, left, hl, ht⟩
  have integer : (Shelf.schema.resolve .author "age").toOption.map (fun left => left.type.base) =
      some .int32 := by decide +kernel
  change Shelf.schema.resolve .author "age" = .ok left at hl
  rw [hl] at integer
  rw [show left.type.base = .int32 from Option.some.inj integer] at ht
  cases ht

/-- As texts the two zeros differ: an author of the name `-0.0` is found by the second of two rules
alone, and lost when it is dropped for being the same as the first. -/
theorem nameZero_lost :
    let g : Group := ⟨.or, .or, false,
      [.rule (zeroRule "name" false), .rule (zeroRule "name" true)]⟩
    let a : Shelf.schema.Entity .author := Shelf.Author.mk "-0.0" 66 none none
    (∀ r ∈ g.rules, ∃ p, r.compileAlone Shelf.schema .author .default = .ok p) ∧
      Node.truth (Rule.verdict Shelf.schema .author .default a) (.group g) = true ∧
      ∃ p, g.compile Shelf.schema .author .default = .ok p ∧ p.holds a = false := by
  intro g a
  have group : (g.compile Shelf.schema .author .default).toOption.map (fun p => p.holds a) =
      some false := by decide +kernel
  have first : ((zeroRule "name" false).compileAlone Shelf.schema .author .default).toOption.map
      (fun p => p.holds a) = some false := by decide +kernel
  have second : ((zeroRule "name" true).compileAlone Shelf.schema .author .default).toOption.map
      (fun p => p.holds a) = some true := by decide +kernel
  obtain ⟨p, hp, hpa⟩ := Outcome.exists_of_toOption group
  obtain ⟨q, hq, hqa⟩ := Outcome.exists_of_toOption first
  obtain ⟨q', hq', hqa'⟩ := Outcome.exists_of_toOption second
  refine ⟨?_, ?_, p, hp, hpa⟩
  · have both : g.rules = [zeroRule "name" false, zeroRule "name" true] := rfl
    simp only [both, List.forall_mem_cons]
    exact ⟨⟨q, hq⟩, ⟨q', hq'⟩, fun r hr => absurd hr List.not_mem_nil⟩
  · simp only [g, Node.truth, Node.truths, Rule.verdict_of_ok hq, Rule.verdict_of_ok hq', hqa, hqa']
    rfl

end Group

end EntityQuery
