import EntityQuery.Proofs.Group.Deduplication
import EntityQuery.Proofs.Group.Failure
import EntityQuery.Proofs.Rule.LetterCase

/-!
# Filters that cannot see letter case

A group joins what its rules say. So where case is ignored it has the same result on two entities
that differ in letter case only, if this is so for those of its rules that compare lists of strings:
the others cannot tell the two apart. Nor is anything less enough for all groups that can be made of
a stock of rules, which is `Group.caseBlind_iff`.
-/

namespace EntityQuery

open Outcome

variable {v w : Rule → Bool}

mutual
/-- A tree is as true as its rules. -/
theorem Node.truth_congr : ∀ a : Node, (∀ r ∈ Node.rules a, v r = w r) →
    Node.truth v a = Node.truth w a
  | .rule r, h => h r (List.mem_singleton_self r)
  | .group g, h => by rw [Node.truth, Node.truth, Node.truths_congr g.children h]
theorem Node.truths_congr : ∀ as : List Node, (∀ r ∈ Node.rulesOfAll as, v r = w r) →
    Node.truths v as = Node.truths w as
  | [], _ => rfl
  | a :: as, h => by
    rw [Node.rulesOfAll, List.forall_mem_append] at h
    rw [Node.truths, Node.truths, Node.truth_congr a h.1, Node.truths_congr as h.2]
end

variable {S : Schema} {kind : S.Kind} {allowed : Option (List String)} {e e' : S.Entity kind}

namespace Group

/-- A rule that is a group by itself. -/
def single (r : Rule) : Group := ⟨.and, .or, false, [.rule r]⟩

/-- A rule that compiles does so by itself in a group, which then says what the rule says. -/
theorem exists_compile_single {o : FilterOptions} {r : Rule} {q : Predicate (S.Entity kind)}
    (h : r.compileAlone S kind o = .ok q) :
    ∃ p, (single r).compile S kind o = .ok p ∧ ∀ e, p.holds e = q.holds e := by
  have compiles : ∃ p, (single r).compile S kind o = .ok p := exists_compile fun s hs => by
    obtain rfl := List.mem_singleton.mp hs
    exact ⟨q, h⟩
  obtain ⟨p, hp⟩ := compiles
  refine ⟨p, hp, fun e => ?_⟩
  have kept : (single r).deduplicated = single r := by
    simp [single, deduplicated, Node.deduplicatedAll, Node.deduplicated, Node.addNew]
  rw [holds_eq_truth_deduplicated hp, kept, ← Rule.verdict_of_ok h]
  simp [single, Node.truth, Node.truths, Connective.joins]

/-- **Letter case is not seen**: where case is ignored, the groups that can be made of a stock of
rules tell two entities that differ in letter case only apart just if some rule of the stock does
that compares lists of strings and is not excluded. -/
theorem caseBlind_iff (hS : S.WellTyped) (h : S.Recased kind e e') (R : Rule → Prop) :
    (∀ (g : Group) (p : Predicate (S.Entity kind)), (∀ r ∈ g.rules, R r) →
      g.compile S kind ⟨allowed, .ignoreCase⟩ = .ok p → p.holds e = p.holds e') ↔
    ∀ r, R r → r.ComparesLists S kind → ¬ FilterOptions.Excludes ⟨allowed, .ignoreCase⟩ r →
      r.verdict S kind ⟨allowed, .ignoreCase⟩ e = r.verdict S kind ⟨allowed, .ignoreCase⟩ e' := by
  constructor
  · intro blind r hr _ excluded
    -- A rule that does not compile holds nowhere, and any other one is a group by itself.
    cases hq : r.compileAlone S kind ⟨allowed, .ignoreCase⟩ with
    | error err => rw [Rule.verdict, Rule.verdict, if_neg excluded, if_neg excluded, hq]
    | ok q =>
      obtain ⟨p, hp, holds⟩ := exists_compile_single hq
      rw [Rule.verdict_of_ok hq, Rule.verdict_of_ok hq, ← holds, ← holds]
      refine blind (single r) p (fun s hs => ?_) hp
      obtain rfl := List.mem_singleton.mp hs
      exact hr
  · intro blind g p hg hp
    rw [holds_eq_truth_deduplicated hp, holds_eq_truth_deduplicated hp]
    refine Node.truth_congr _ fun r hr => ?_
    have stocked : R r := hg r (Node.rules_deduplicated_subset (.group g) hr)
    by_cases lists : r.ComparesLists S kind
    · by_cases excluded : FilterOptions.Excludes ⟨allowed, .ignoreCase⟩ r
      · rw [Rule.verdict, Rule.verdict, if_pos excluded, if_pos excluded]
      · exact blind r stocked lists excluded
    · exact Rule.verdict_eq_of_recased hS h lists

end Group

/-! ### A shelf in capitals -/

namespace Shelf

/-- Books that differ in letter case. -/
def BookRecased (b b' : Book) : Prop :=
  Text.lowercase b.title = Text.lowercase b'.title ∧ (tagValue b).Recased (tagValue b')

/-- Authors that differ in letter case, their books included. -/
def AuthorRecased (a a' : Author) : Prop :=
  Text.lowercase a.name = Text.lowercase a'.name ∧ a.age = a'.age ∧
    Option.Rel BookRecased a.known a'.known ∧
    Option.Rel (List.Forall₂ BookRecased) a.books a'.books

/-- Entities that differ in letter case. -/
def EntityRecased : (kind : Kind) → Entity kind → Entity kind → Prop
  | .author => AuthorRecased
  | .book => BookRecased

theorem recasing : schema.Recasing EntityRecased := by
  intro kind name m h e e' he
  obtain ⟨field, hf, eq⟩ := Option.map_eq_some_iff.mp h
  have mem : field ∈ fields kind := List.mem_of_find?_eq_some hf
  clear h hf
  cases kind with
  | author =>
    obtain ⟨name, age, known, books⟩ : AuthorRecased e e' := he
    simp only [fields, List.mem_cons, List.not_mem_nil, or_false] at mem
    rcases mem with rfl | rfl | rfl | rfl <;> cases eq
    · exact .string name
    · change (Value.int32 (Author.age e)).Recased (.int32 (Author.age e'))
      rw [age]
      exact .refl _
    · exact known
    · exact books
  | book =>
    obtain ⟨title, tags⟩ : BookRecased e e' := he
    simp only [fields, List.mem_cons, List.not_mem_nil, or_false] at mem
    rcases mem with rfl | rfl <;> cases eq
    · exact .string title
    · exact tags

/-- No property of the shelf is a list of lists. -/
theorem not_comparesLists {kind : Kind} (r : Rule) : ¬ r.ComparesLists schema kind := by
  rintro ⟨-, -, left, hl, lists⟩
  obtain ⟨segments, -, resolves⟩ := exists_segments hl
  obtain ⟨t, ht, -⟩ := lists.exists_list
  rcases resolves.declared with ⟨owner, name, get, h⟩ | record
  · obtain ⟨field, hf, eq⟩ := Option.map_eq_some_iff.mp h
    have mem : field ∈ fields owner := List.mem_of_find?_eq_some hf
    rw [ht] at eq
    clear h hf
    cases owner with
    | author =>
      simp only [fields, List.mem_cons, List.not_mem_nil, or_false] at mem
      rcases mem with rfl | rfl | rfl | rfl <;> cases eq
    | book =>
      simp only [fields, List.mem_cons, List.not_mem_nil, or_false] at mem
      rcases mem with rfl | rfl <;> cases eq
  · rw [ht] at record
    cases record

end Shelf

namespace Group

/-- Filters on the shelf do not see whether it is in capitals. -/
theorem caseBlind_shelf :
    let conrad : Shelf.schema.Entity .author := Shelf.Author.mk "Conrad" 66
      (some ⟨"Nostromo", none⟩) (some [⟨"Typhoon", some ["Storm", "Sea"]⟩])
    let capitals : Shelf.schema.Entity .author := Shelf.Author.mk "CONRAD" 66
      (some ⟨"NOSTROMO", none⟩) (some [⟨"TYPHOON", some ["STORM", "SEA"]⟩])
    let g : Group := ⟨.and, .or, false, [
      .rule (Rule.withLiteral "books[].tags" .equal (.string "sEA")),
      .rule ⟨"name", .lessThan, none, some "known.title", false⟩]⟩
    Shelf.schema.WellTyped ∧ Shelf.schema.Recased .author conrad capitals ∧
      (∃ p, g.compile Shelf.schema .author ⟨none, .ignoreCase⟩ = .ok p ∧ p.holds conrad = true ∧
        p.holds capitals = true) ∧
      ∀ g p, compile Shelf.schema .author ⟨none, .ignoreCase⟩ g = .ok p →
        p.holds conrad = p.holds capitals := by
  intro conrad capitals g
  have recased : Shelf.schema.Recased .author conrad capitals := by
    refine ⟨Shelf.EntityRecased, Shelf.recasing, by decide +kernel, rfl, .some ⟨?_, .refl _⟩,
      .some (.cons ⟨?_, ?_⟩ .nil)⟩
    · decide +kernel
    · decide +kernel
    · exact .list (.cons (.string (by decide +kernel)) (.cons (.string (by decide +kernel)) .nil))
  have blind (g : Group) (p : Predicate (Shelf.schema.Entity .author))
      (hp : g.compile Shelf.schema .author ⟨none, .ignoreCase⟩ = .ok p) :
      p.holds conrad = p.holds capitals :=
    (caseBlind_iff Shelf.wellTyped recased fun _ => True).mpr
      (fun r _ lists => absurd lists (Shelf.not_comparesLists r)) g p (fun _ _ => trivial) hp
  have run : (g.compile Shelf.schema .author ⟨none, .ignoreCase⟩).toOption.map
      (fun p => p.holds conrad) = some true := by decide +kernel
  obtain ⟨p, hp, held⟩ := exists_of_toOption run
  exact ⟨Shelf.wellTyped, recased, ⟨p, hp, held, blind g p hp ▸ held⟩, blind⟩

end Group

/-! ### Lists of lists -/

/-- A sheet of rows of words. -/
structure Sheet where
  rows : List (List String)

namespace Sheet

/-- The rows as a value. -/
def rowsValue (s : Sheet) : Value := .list (s.rows.map fun row => .list (row.map .string))

/-- The schema of sheets. -/
abbrev schema : Schema :=
  ⟨Unit, fun _ => Sheet, fun _ => "Sheet",
    fun _ => [⟨"rows", .value (.list (.list .string)) rowsValue⟩]⟩

theorem member_rows {name : String} {m : schema.Member ()} (h : schema.member? () name = some m) :
    m = .value (.list (.list .string)) rowsValue := by
  obtain ⟨field, hf, rfl⟩ := Option.map_eq_some_iff.mp h
  rw [List.mem_singleton.mp (List.mem_of_find?_eq_some hf)]

theorem wellTyped : schema.WellTyped := by
  intro kind name type get h e
  cases member_rows h
  refine .list fun row hrow => ?_
  obtain ⟨row, -, rfl⟩ := List.mem_map.mp hrow
  refine .list fun word hword => ?_
  obtain ⟨word, -, rfl⟩ := List.mem_map.mp hword
  exact .string word

/-- Of two sheets that differ in letter case a filter finds one, though case is ignored. -/
theorem rows_show_case :
    let small : schema.Entity () := Sheet.mk [["abc"]]
    let capitals : schema.Entity () := Sheet.mk [["ABC"]]
    let g : Group := Group.single (Rule.withLiteral "rows" .contains (.array [.string "abc"]))
    schema.WellTyped ∧ schema.Recased () small capitals ∧
      ∃ p, g.compile schema () ⟨none, .ignoreCase⟩ = .ok p ∧ p.holds small = true ∧
        p.holds capitals = false := by
  intro small capitals g
  have recased : schema.Recased () small capitals := by
    refine ⟨fun _ e e' => (rowsValue e).Recased (rowsValue e'), ?_, ?_⟩
    · intro kind name m h e e' he
      cases member_rows h
      exact he
    · exact .list (.cons (.list (.cons (.string (by decide +kernel)) .nil)) .nil)
  have run : (g.compile schema () ⟨none, .ignoreCase⟩).toOption.map
      (fun p => (p.holds small, p.holds capitals)) = some (true, false) := by decide +kernel
  obtain ⟨p, hp, held⟩ := exists_of_toOption run
  rw [Prod.mk.injEq] at held
  exact ⟨wellTyped, recased, p, hp, held.1, held.2⟩

end Sheet

end EntityQuery
