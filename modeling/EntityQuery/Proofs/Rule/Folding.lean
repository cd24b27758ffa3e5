import EntityQuery.Proofs.Condition.Element
import EntityQuery.Proofs.Condition.Folding
import EntityQuery.Proofs.Rule.Literal
import EntityQuery.Proofs.Shelf

/-!
# Rules where case is ignored

Texts that are the same have the same lower case. So a rule that asks whether a text is equal to
another, or is one of a list, holds where case is ignored if it holds where it is not. A rule that
looks for a piece of a text does so if its pattern is settled, and else there is a text for which it
holds only as long as case is not ignored. The rule compiles in both ways or in none.

The main result is `Rule.ignoreCase_permits`.
-/

namespace EntityQuery

open Outcome

variable {t : ValueType} {j : Json} {op : Operator} {r : Rule}

/-- The operators that ask for a text or for a piece of it, in positive form. -/
def Operator.findsText : Operator → Bool
  | .equal | .isIn | .like | .contains | .startsWith | .endsWith => true
  | _ => false

theorem Operator.positive_of_findsText (h : op.findsText = true) : op.positive = op := by
  cases op <;> first | rfl | cases h

/-- The pattern of a text that an operator looks for, if it looks for one. -/
def Operator.pattern? : Operator → Option (String → Pattern)
  | .like => some .ofText
  | .contains => some .contains
  | .startsWith => some .startsWith
  | .endsWith => some .endsWith
  | _ => none

/-- The pattern that a rule on strings looks for, if it looks for one. -/
def Rule.pattern? (r : Rule) : Option Pattern :=
  r.operator.pattern?.bind fun make => (r.literal.bind Literal.toString?).map make

/-- Equal values are equal where case is ignored. -/
theorem Value.EqualUnder.ignoreCase {v w : Value} (h : v.EqualUnder .ordinal w) :
    v.EqualUnder .ignoreCase w := by
  cases h with
  | string same => exact .string (congrArg _ same)
  | other apart equal => exact .other apart equal

/-! ### Tests of values -/

namespace ElementTest

/-- What passes the test also passes where case is ignored. -/
def Permissive (x : ElementTest) : Prop :=
  ∀ v, x.passes .ordinal v = true → x.passes .ignoreCase v = true

theorem permissive_equals (w : Value) : (equals w).Permissive := fun _ passes =>
  Value.equalBy_iff.mpr (Value.equalBy_iff.mp passes).ignoreCase

theorem permissive_isOneOf (ws : List Value) : (isOneOf ws).Permissive := by
  intro v passes
  obtain ⟨w, hw, equal⟩ := List.any_eq_true.mp passes
  exact List.any_eq_true.mpr ⟨w, hw, permissive_equals w v equal⟩

theorem permissive_text {p : Pattern} (h : p.Settled) : (text p).Permissive := by
  intro v passes
  cases v with
  | string s => exact h.accepts_ignoreCase passes
  | _ => cases passes

/-- The test of an operator that looks for a pattern. -/
theorem ofLiteral_of_pattern? {make : String → Pattern} (hop : op.pattern? = some make)
    {x : ElementTest} (h : ofLiteral r op .string j = .ok x) :
    ∃ s, Literal.toString? j = some s ∧ x = .text (make s) := by
  have made : (textOf .string j).map (fun s => ElementTest.text (make s)) = .ok x := by
    cases op <;> cases hop <;> exact h
  obtain ⟨s, hs, rfl⟩ := map_eq_ok_iff.mp made
  unfold textOf at hs
  split at hs
  · next written => exact ⟨s, Except.ok.inj hs ▸ written, rfl⟩
  · cases hs

/-- The other operators that ask for a text ask for equality. -/
theorem permissive_of_pattern?_eq_none (finds : op.findsText = true) (hop : op.pattern? = none)
    {x : ElementTest} (h : ofLiteral r op t j = .ok x) : x.Permissive := by
  have listed {x : ElementTest} (h : ofMembers t j = .ok x) : x.Permissive := by
    obtain ⟨ws, -, rfl⟩ := map_eq_ok_iff.mp h
    exact permissive_isOneOf ws
  cases op <;> cases finds <;> cases hop
  · rw [ofLiteral] at h
    split at h
    · exact listed h
    · obtain ⟨w, -, rfl⟩ := map_eq_ok_iff.mp h
      exact permissive_equals w
  · exact listed h

end ElementTest

/-! ### Tests of properties -/

/-- The value of a property that has one element, or is just it. -/
def ValueType.single (t : ValueType) (v : Value) : Value := if t.isCollection then .list [v] else v

namespace PropertyTest

/-- What passes the test also passes where case is ignored. -/
def Permissive (test : PropertyTest) : Prop :=
  ∀ v, test.passes .ordinal v = true → test.passes .ignoreCase v = true

theorem passes_lift_single (mode : StringComparison) (x : ElementTest) (v : Value) :
    (lift t x).passes mode (t.single v) = x.passes mode v := by
  unfold lift ValueType.single
  split
  · simp [passes, Value.items?]
  · rfl

/-- A rule that asks for a text has a test that is permissive, or that is one of a pattern. -/
theorem permissive_or_pattern {test : PropertyTest} (finds : r.operator.findsText = true)
    (text : t.leaf = .string) (h : ofRule r t = .ok test) :
    (r.pattern? = none ∧ test.Permissive) ∨
      ∃ p, r.pattern? = some p ∧ test = lift t (.text p) := by
  have positive := Operator.positive_of_findsText finds
  have notAny : r.operator.positive ≠ .any := by
    rw [positive]
    intro any
    rw [any] at finds
    cases finds
  cases hl : r.literal with
  | none =>
    rcases of_ofRule_absent hl h with ⟨any, -⟩ | ⟨-, rfl⟩
    · exact absurd any notAny
    · exact .inl ⟨by simp [Rule.pattern?, hl], fun v passes => passes⟩
  | some j =>
    rw [ofRule_literal hl, if_neg notAny, positive, text] at h
    obtain ⟨x, hx, rfl⟩ := map_eq_ok_iff.mp h
    cases hop : r.operator.pattern? with
    | none =>
      have permissive := ElementTest.permissive_of_pattern?_eq_none finds hop hx
      exact .inl ⟨by simp [Rule.pattern?, hop], fun v => passes_lift_mono permissive⟩
    | some make =>
      obtain ⟨s, hs, rfl⟩ := ElementTest.ofLiteral_of_pattern? hop hx
      exact .inr ⟨make s, by simp [Rule.pattern?, hop, hl, hs], rfl⟩

end PropertyTest

/-! ### Rules -/

namespace Rule

variable {S : Schema} {kind : S.Kind} {allowed : Option (List String)}
  {left : Resolved (S.Entity kind)} {made : Predicate (S.Entity kind)}

/-- A rule that asks for a text holds as its test passes, whichever way strings are compared. -/
theorem exists_compileAlone_of_findsText {test : PropertyTest} (finds : r.operator.findsText = true)
    (plain : r.negated = false) (hr : r.otherProperty = none)
    (hl : S.resolve kind r.property = .ok left) (ht : PropertyTest.ofRule r left.type = .ok test)
    {o : FilterOptions} (ha : o.allowsRule r = true) :
    ∃ made, r.compileAlone S kind o = .ok made ∧
      ∀ e, made.holds e = (Condition.tests left.accessor test).holds o.comparison e := by
  have positive : r.operator.isNegative = false := by
    rw [Operator.isNegative, Operator.positive_of_findsText finds, bne_self_eq_false]
  exact ⟨_, compileAlone_of_test ha hr hl ht, fun e => by simp [plain, positive, Condition.predicate]⟩

/-- **Ignoring case permits more.** A rule that asks for a text, in positive form, also compiles
where case is ignored. If its pattern is settled or it has none, it then holds wherever it else
does. If its pattern is not settled, there is a text of which it holds only as long as case is not
ignored. -/
theorem ignoreCase_permits (finds : r.operator.findsText = true) (plain : r.negated = false)
    (hr : r.otherProperty = none) (hl : S.resolve kind r.property = .ok left)
    (text : left.type.leaf = .string)
    (h : r.compileAlone S kind ⟨allowed, .ordinal⟩ = .ok made) :
    ∃ folded, r.compileAlone S kind ⟨allowed, .ignoreCase⟩ = .ok folded ∧
      ((∀ p ∈ r.pattern?, p.Settled) → ∀ e, made.holds e = true → folded.holds e = true) ∧
      ((FilterOptions.mk allowed .ordinal).allowsRule r = true → ∀ p ∈ r.pattern?, ¬ p.Settled →
        ∃ s, ∀ e, left.accessor.reached e = [left.type.single (.string s)] →
          made.holds e = true ∧ folded.holds e = false) := by
  cases ha : (FilterOptions.mk allowed .ordinal).allowsRule r with
  | false =>
    -- the rule is dropped, whichever way strings are compared
    have excludes := FilterOptions.allowsRule_eq_false_iff.mp ha
    rw [compileAlone_of_excludes excludes] at h
    cases h
    exact ⟨_, compileAlone_of_excludes excludes, fun _ _ holds => holds, nofun⟩
  | true =>
    obtain ⟨left', test, hl', ht, -⟩ := exists_test_of_compileAlone ha hr h
    obtain rfl := Except.ok.inj (hl.symm.trans hl')
    obtain ⟨made', hm, holds⟩ := exists_compileAlone_of_findsText finds plain hr hl ht ha
    obtain rfl := Except.ok.inj (h.symm.trans hm)
    obtain ⟨folded, hf, folds⟩ : ∃ folded,
        r.compileAlone S kind ⟨allowed, .ignoreCase⟩ = .ok folded ∧
        ∀ e, folded.holds e = (Condition.tests left.accessor test).holds .ignoreCase e :=
      exists_compileAlone_of_findsText finds plain hr hl ht ha
    refine ⟨folded, hf, ?_⟩
    simp only [holds, folds]
    rcases PropertyTest.permissive_or_pattern finds text ht with ⟨none, permissive⟩ | ⟨p, hp, rfl⟩
    · refine ⟨fun _ e held => Condition.holds_tests_mono permissive held, fun _ p hp => ?_⟩
      rw [none] at hp
      cases hp
    · refine ⟨fun settled e held => ?_, fun _ p' hp' unsettled => ?_⟩
      · have permissive := ElementTest.permissive_text (settled p hp)
        exact Condition.holds_tests_mono (fun v => PropertyTest.passes_lift_mono permissive) held
      · obtain rfl : p = p' := Option.some.inj (hp.symm.trans hp')
        obtain ⟨s, accepted, refused⟩ := Pattern.exists_refused unsettled
        refine ⟨s, fun e reads => ?_⟩
        simp only [Condition.holds, reads, List.any_cons, List.any_nil, Bool.or_false,
          PropertyTest.passes_lift_single]
        exact ⟨accepted, refused⟩

/-- The name of an author is read as it is. -/
theorem resolve_name : Shelf.schema.resolve .author "name" =
    .ok ⟨.string, .member fun a : Shelf.Author => .string a.name⟩ :=
  Schema.resolve_eq_ok_iff.mpr ⟨[⟨"name", false⟩], by decide +kernel, .value rfl⟩

/-- `Wo` is in a name wherever case is ignored if it is where it is not, and `ΑΣ` is not. -/
theorem ignoreCase_permits_names :
    let name : Resolved (Shelf.schema.Entity .author) :=
      ⟨.string, .member fun a : Shelf.Author => .string a.name⟩
    let woolf : Shelf.schema.Entity .author := Shelf.Author.mk "Woolf" 59 none none
    let r := withLiteral "name" .contains (.string "Wo")
    let r' := withLiteral "name" .contains (.string "ΑΣ")
    (r.operator.findsText = true ∧ r.negated = false ∧ r.otherProperty = none ∧
      Shelf.schema.resolve .author r.property = .ok name ∧ name.type.leaf = .string ∧
      ∃ made folded, r.compileAlone Shelf.schema .author ⟨none, .ordinal⟩ = .ok made ∧
        r.compileAlone Shelf.schema .author ⟨none, .ignoreCase⟩ = .ok folded ∧
        made.holds woolf = true ∧ folded.holds woolf = true) ∧
    (r'.operator.findsText = true ∧ r'.negated = false ∧ r'.otherProperty = none ∧
      Shelf.schema.resolve .author r'.property = .ok name ∧
      ∃ made folded s, r'.compileAlone Shelf.schema .author ⟨none, .ordinal⟩ = .ok made ∧
        r'.compileAlone Shelf.schema .author ⟨none, .ignoreCase⟩ = .ok folded ∧
        made.holds (Shelf.Author.mk s 59 none none) = true ∧
        folded.holds (Shelf.Author.mk s 59 none none) = false) := by
  intro name woolf r r'
  refine ⟨⟨rfl, rfl, rfl, resolve_name, rfl, ?_⟩, rfl, rfl, rfl, resolve_name, ?_⟩
  · have run : (r.compileAlone Shelf.schema .author ⟨none, .ordinal⟩).toOption.map
        (fun made => made.holds woolf) = some true := by decide +kernel
    obtain ⟨made, hm, held⟩ := exists_of_toOption run
    obtain ⟨folded, hf, permits, -⟩ := ignoreCase_permits rfl rfl rfl resolve_name rfl hm
    have settled : ∀ p ∈ r.pattern?, p.Settled := by
      rintro p ⟨⟩
      exact Pattern.settled_of_not_mem (by decide +kernel)
    exact ⟨made, folded, hm, hf, held, permits settled woolf held⟩
  · have run : (r'.compileAlone Shelf.schema .author ⟨none, .ordinal⟩).toOption.map
        (fun _ => true) = some true := by decide +kernel
    obtain ⟨made, hm, -⟩ := exists_of_toOption run
    obtain ⟨folded, hf, -, loses⟩ := ignoreCase_permits rfl rfl rfl resolve_name rfl hm
    have unsettled : ¬ (Pattern.contains "ΑΣ").Settled := fun settled =>
      settled.2 ⟨['Α'], [], rfl, by decide +kernel, nofun⟩
    obtain ⟨s, lost⟩ := loses rfl _ rfl unsettled
    exact ⟨made, folded, s, hm, hf, lost (Shelf.Author.mk s 59 none none) rfl⟩

/-- Where case is ignored, `ΑΣ` is no longer in `ΑΣΑ`: the one ends with the sigma of the end of a
word, and the other has another sigma in this place. -/
theorem contains_lost :
    let name : Resolved (Shelf.schema.Entity .author) :=
      ⟨.string, .member fun a : Shelf.Author => .string a.name⟩
    let r := withLiteral "name" .contains (.string "ΑΣ")
    let author : Shelf.schema.Entity .author := Shelf.Author.mk "ΑΣΑ" 59 none none
    r.operator.findsText = true ∧ r.negated = false ∧ r.otherProperty = none ∧
      Shelf.schema.resolve .author r.property = .ok name ∧ name.type.leaf = .string ∧
      ∃ made folded, r.compileAlone Shelf.schema .author ⟨none, .ordinal⟩ = .ok made ∧
        r.compileAlone Shelf.schema .author ⟨none, .ignoreCase⟩ = .ok folded ∧
        made.holds author = true ∧ folded.holds author = false := by
  intro name r author
  have run (mode : StringComparison) : (r.compileAlone Shelf.schema .author
      ⟨none, mode⟩).toOption.map (fun made => made.holds author) = some (mode == .ordinal) := by
    cases mode <;> decide +kernel
  obtain ⟨made, hm, held⟩ := exists_of_toOption (run .ordinal)
  obtain ⟨folded, hf, refused⟩ := exists_of_toOption (run .ignoreCase)
  exact ⟨rfl, rfl, rfl, resolve_name, rfl, made, folded, hm, hf, held, refused⟩

end Rule

end EntityQuery
