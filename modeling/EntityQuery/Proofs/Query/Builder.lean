import EntityQuery.Query.Builder
import Mathlib.Data.List.DropRight

/-!
# What a builder has built

A builder grows at the end only: a step starts a group behind the others, or changes the one that
is last (`BuildStep.Changes`). So nothing that has been said is lost, said twice or moved. The
rules of the query are those that the steps bring along, one step after the other, and its sort
order is what the last step that sets one has set, with what was appended later.

Beside whole nodes a rule may be added in ten ways, eight of which are called by its operator. What
each of them adds is written out in `BuildStep.added?`, part by part, and what the steps for sort
orders set and append in `BuildStep.sort?` and `BuildStep.thenBy?`.

The main result is `QueryBuilder.build_run`.
-/

namespace EntityQuery

/-- The rule that compares with a literal, which is absent if it is null. -/
def Rule.comparedWith (property : String) (operator : Operator) (literal : Json) : Rule :=
  { property, operator, value := (some literal).filter fun j => !j.isNull, compareTo := none,
    negated := false }

theorem Rule.withLiteral_eq (property : String) (operator : Operator) (literal : Json) :
    withLiteral property operator literal = comparedWith property operator literal := by
  unfold withLiteral comparedWith
  cases h : literal.isNull <;> simp [Option.filter, h]

namespace BuildStep

/-- The connective of the group that the step starts. -/
def started? : BuildStep → Option Connective
  | .group connective => some connective
  | .withGroup g => some g.connective
  | _ => none

/-- Does the step start a group? -/
def starts (s : BuildStep) : Bool := s.started?.isSome

/-- The child that the step adds to a group. -/
def added? : BuildStep → Option Node
  | .filter child => some child
  | .rule p op j => some (.rule (.comparedWith p op j))
  | .equal p j => some (.rule (.comparedWith p .equal j))
  | .notEqual p j => some (.rule (.comparedWith p .notEqual j))
  | .greaterThan p j => some (.rule (.comparedWith p .greaterThan j))
  | .lessThan p j => some (.rule (.comparedWith p .lessThan j))
  | .like p pattern => some (.rule ⟨p, .like, some (.string pattern), none, false⟩)
  | .between p least most => some (.rule ⟨p, .between, some (.array [least, most]), none, false⟩)
  | .any p => some (.rule ⟨p, .any, none, none, false⟩)
  | .notAny p => some (.rule ⟨p, .notAny, none, none, false⟩)
  | .compare p op other => some (.rule ⟨p, op, none, some other, false⟩)
  | _ => none

/-- Does the step add a child to a group? -/
def adds (s : BuildStep) : Bool := s.added?.isSome

/-- The connective of the group that is there because of some steps though none of them starts it: a
child was added before any group. -/
def implicit (steps : List BuildStep) : List Connective :=
  if (steps.takeWhile fun s => !s.starts).any adds then [.and] else []

/-- The rules that the step brings along, depth first. -/
def rules : BuildStep → List Rule
  | .withGroup g => g.rules
  | s => s.added?.toList.flatMap Node.rules

/-- The sort order that the step sets. -/
def sort? : BuildStep → Option SortOrder
  | .sort rules => some rules
  | .sortByAsc p => some [⟨p, false⟩]
  | .sortByDesc p => some [⟨p, true⟩]
  | _ => none

/-- The sort rule that the step appends. -/
def thenBy? : BuildStep → Option SortRule
  | .thenByAsc p => some ⟨p, false⟩
  | .thenByDesc p => some ⟨p, true⟩
  | _ => none

/-- The name that the step gives. -/
def named? : BuildStep → Option String
  | .name text => some text
  | _ => none

/-- Does the step say how the query sorts? -/
def orders (s : BuildStep) : Bool := s.sort?.isSome || s.thenBy?.isSome

/-- What a step makes of the groups so far. -/
inductive Changes : BuildStep → List Group → List Group → Prop where
  /-- An empty group is started. -/
  | group (connective : Connective) (groups : List Group) :
      Changes (.group connective) groups (groups ++ [⟨connective, .or, false, []⟩])
  /-- A whole group is appended. -/
  | withGroup (g : Group) (groups : List Group) : Changes (.withGroup g) groups (groups ++ [g])
  /-- A child is the last one of the last group. -/
  | child {s : BuildStep} {child : Node} (h : s.added? = some child) (before : List Group)
      (g : Group) :
      Changes s (before ++ [g]) (before ++ [{ g with children := g.children ++ [child] }])
  /-- A child that no group is there for gets one, where all children must hold. -/
  | firstChild {s : BuildStep} {child : Node} (h : s.added? = some child) :
      Changes s [] [⟨.and, .or, false, [child]⟩]
  /-- The last group joins the next one otherwise. -/
  | joinNext (inter : Connective) (before : List Group) (g : Group) :
      Changes (.joinNext inter) (before ++ [g]) (before ++ [{ g with inter := inter }])
  /-- The last group is reversed. -/
  | negateGroup (before : List Group) (g : Group) :
      Changes .negateGroup (before ++ [g]) (before ++ [{ g with negated := !g.negated }])
  /-- There is no group to join. -/
  | joinNone (inter : Connective) : Changes (.joinNext inter) [] []
  /-- There is no group to reverse. -/
  | negateNone : Changes .negateGroup [] []
  /-- A name concerns no group. -/
  | name (name : String) (groups : List Group) : Changes (.name name) groups groups
  /-- How the query sorts concerns no group. -/
  | orders {s : BuildStep} (h : s.orders = true) (groups : List Group) : Changes s groups groups

variable {s : BuildStep} {child : Node} {groups groups' : List Group}

/-! ### The kinds of steps -/

theorem started?_of_added? (h : s.added? = some child) : s.started? = none := by
  cases s <;> first | rfl | cases h

theorem rules_of_added? (h : s.added? = some child) : s.rules = child.rules := by
  cases s with
  | withGroup g => cases h
  | _ => simp [rules, h]

/-- A step for the sort order adds no child and starts no group. -/
theorem idle_of_orders (h : s.orders = true) :
    s.added? = none ∧ s.started? = none ∧ s.rules = [] := by
  cases s <;> first | exact ⟨rfl, rfl, rfl⟩ | cases h

/-! ### Changes of the groups -/

/-- A step brings its rules along behind those that are there. -/
theorem Changes.rules_eq (h : s.Changes groups groups') :
    groups'.flatMap Group.rules = groups.flatMap Group.rules ++ s.rules := by
  cases h with
  | group c => simp [Group.rules, Node.rulesOfAll, rules, added?]
  | withGroup g => simp [rules]
  | child added before g =>
    rw [rules_of_added? added]
    simp [Group.rules, Node.rulesOfAll_append, Node.rulesOfAll]
  | firstChild added =>
    rw [rules_of_added? added]
    simp [Group.rules, Node.rulesOfAll]
  | joinNext inter before g => simp [Group.rules, rules, added?]
  | negateGroup before g => simp [Group.rules, rules, added?]
  | orders sorts => rw [(idle_of_orders sorts).2.2, List.append_nil]
  | _ => simp [rules, added?]

/-- A step leaves the connectives of the groups as they are, and may add one. -/
theorem Changes.connectives_eq (h : s.Changes groups groups') :
    groups'.map GroupOf.connective = groups.map GroupOf.connective ++
      if groups.isEmpty && s.adds then [.and] else s.started?.toList := by
  cases h with
  | child added before g => simp [started?_of_added? added]
  | firstChild added => simp [adds, added]
  | orders sorts => simp [adds, idle_of_orders sorts]
  | _ => simp [started?, adds, added?]

theorem started?_of_adds (h : s.adds = true) : s.started? = none := by
  obtain ⟨child, added⟩ := Option.isSome_iff_exists.mp h
  exact started?_of_added? added

theorem implicit_cons (s : BuildStep) (steps : List BuildStep) : implicit (s :: steps) =
    if s.starts then [] else if s.adds then [.and] else implicit steps := by
  unfold implicit
  rw [List.takeWhile_cons]
  cases s.starts <;> cases ha : s.adds <;> simp [ha]

end BuildStep

namespace QueryBuilder

variable {b : QueryBuilder}

theorem run_cons (b : QueryBuilder) (s : BuildStep) (steps : List BuildStep) :
    b.run (s :: steps) = (b.step s).run steps := rfl

theorem run_concat (b : QueryBuilder) (steps : List BuildStep) (s : BuildStep) :
    b.run (steps ++ [s]) = (b.run steps).step s := by
  rw [run, List.foldl_append]
  rfl

/-! ### Groups -/

theorem changeLast_concat (change : Group → Group) (before : List Group) (g : Group) :
    changeLast change (before ++ [g]) = before ++ [change g] := by
  induction before with
  | nil => rfl
  | cons h before ih =>
    have some : before ++ [g] ≠ [] := List.concat_ne_nil g before
    rw [List.cons_append, changeLast, ih, List.cons_append]
    exact fun none => some none

/-- Every way to add a rule adds it as a child, with the parts that it is written out with. -/
theorem step_of_added? {s : BuildStep} {child : Node} (h : s.added? = some child) :
    b.step s = b.filter child := by
  have literal (p : String) (op : Operator) (j : Json)
      (h : some (Node.rule (.comparedWith p op j)) = some child) :
      b.filter (.rule (.withLiteral p op j)) = b.filter child := by
    rw [Rule.withLiteral_eq, Option.some.inj h]
  cases s with
  | rule p op j => exact literal p op j h
  | equal p j => exact literal p .equal j h
  | notEqual p j => exact literal p .notEqual j h
  | greaterThan p j => exact literal p .greaterThan j h
  | lessThan p j => exact literal p .lessThan j h
  | filter | like | between | any | notAny | compare =>
    obtain rfl := Option.some.inj h
    rfl
  | _ => cases h

/-- A step for the sort order leaves the groups alone. -/
theorem groups_step_of_orders {s : BuildStep} (h : s.orders = true) :
    (b.step s).groups = b.groups := by
  cases s <;> first | rfl | cases h

theorem changes_filter {s : BuildStep} {child : Node} (h : s.added? = some child) :
    s.Changes b.groups (b.filter child).groups := by
  obtain ⟨name, groups, sorts⟩ := b
  obtain rfl | ⟨before, g, rfl⟩ := List.eq_nil_or_concat' groups
  · exact .firstChild h
  · have some : (before ++ [g]).isEmpty = false := by simp
    simp only [filter, addToLast, some, changeLast_concat]
    exact .child h before g

/-- **One step** changes the groups in one of these ways. -/
theorem changes_step (b : QueryBuilder) (s : BuildStep) :
    s.Changes b.groups (b.step s).groups := by
  by_cases sorts : s.orders = true
  · rw [groups_step_of_orders sorts]
    exact .orders sorts b.groups
  cases added : s.added? with
  | some child =>
    rw [step_of_added? added]
    exact changes_filter added
  | none =>
    obtain ⟨name, groups, sorts⟩ := b
    cases s with
    | name name => exact .name name groups
    | group connective => exact .group connective groups
    | withGroup g => exact .withGroup g groups
    | joinNext inter =>
      obtain rfl | ⟨before, g, rfl⟩ := List.eq_nil_or_concat' groups
      · exact .joinNone inter
      · simp only [step, changeLast_concat]
        exact .joinNext inter before g
    | negateGroup =>
      obtain rfl | ⟨before, g, rfl⟩ := List.eq_nil_or_concat' groups
      · exact .negateNone
      · simp only [step, changeLast_concat]
        exact .negateGroup before g
    | sort | sortByAsc | sortByDesc | thenByAsc | thenByDesc => exact absurd rfl sorts
    | _ => cases added

/-- The rules of the query are appended to by one step after the other. -/
theorem rules_run (b : QueryBuilder) (steps : List BuildStep) :
    (b.run steps).build.rules = b.build.rules ++ steps.flatMap BuildStep.rules := by
  induction steps generalizing b with
  | nil => rw [List.flatMap_nil, List.append_nil]; rfl
  | cons s steps ih =>
    have first : (b.step s).build.rules = b.build.rules ++ s.rules := (changes_step b s).rules_eq
    rw [run_cons, ih, first, List.flatMap_cons, List.append_assoc]

/-- Where there is a group, only the steps that start one add groups. -/
theorem connectives_run (some : b.groups ≠ []) (steps : List BuildStep) :
    (b.run steps).groups.map GroupOf.connective =
      b.groups.map GroupOf.connective ++ steps.filterMap BuildStep.started? := by
  induction steps generalizing b with
  | nil => rw [List.filterMap_nil, List.append_nil]; rfl
  | cons s steps ih =>
    have first := (changes_step b s).connectives_eq
    rw [List.isEmpty_eq_false_iff.mpr some, Bool.false_and, if_neg Bool.false_ne_true] at first
    have kept : (b.step s).groups ≠ [] := by
      intro none
      rw [none, List.map_nil, eq_comm, List.append_eq_nil_iff] at first
      exact some (List.map_eq_nil_iff.mp first.1)
    rw [run_cons, ih kept, first, List.filterMap_cons]
    cases s.started? <;> simp

/-- Where there is no group, one is added for a child that comes before all of them. -/
theorem connectives_run_of_nil (none : b.groups = []) (steps : List BuildStep) :
    (b.run steps).groups.map GroupOf.connective =
      BuildStep.implicit steps ++ steps.filterMap BuildStep.started? := by
  induction steps generalizing b with
  | nil =>
    rw [run, List.foldl_nil, none]
    rfl
  | cons s steps ih =>
    have first := (changes_step b s).connectives_eq
    rw [none, List.isEmpty_nil, Bool.true_and, List.map_nil, List.nil_append] at first
    have continued (some : (b.step s).groups.map GroupOf.connective ≠ []) :=
      connectives_run (fun none => some (List.map_eq_nil_iff.mpr none)) steps
    rw [run_cons, BuildStep.implicit_cons, BuildStep.starts, List.filterMap_cons]
    cases ha : s.adds with
    | true =>
      rw [ha, if_pos rfl] at first
      rw [continued (by simp [first]), first, BuildStep.started?_of_adds ha]
      rfl
    | false =>
      rw [ha, if_neg Bool.false_ne_true] at first
      cases hs : s.started? with
      | some c =>
        rw [hs, Option.toList_some] at first
        rw [continued (by simp [first]), first]
        rfl
      | none =>
        rw [hs, Option.toList_none, List.map_eq_nil_iff] at first
        rw [ih first]
        rfl

/-! ### Sort orders -/

/-- A step sets the sort order, or leaves it and appends what it appends. -/
theorem sorts_step (b : QueryBuilder) (s : BuildStep) :
    (b.step s).sorts = s.sort?.getD (b.sorts ++ s.thenBy?.toList) := by
  cases s with
  | sort | sortByAsc | sortByDesc | thenByAsc | thenByDesc => rfl
  | _ => exact (List.append_nil b.sorts).symm

/-- The sort order is the one set last, with what has been appended since. -/
theorem sorts_run_new (steps : List BuildStep) : (new.run steps).sorts =
    (steps.filterMap BuildStep.sort?).getLast?.getD [] ++
      (steps.rtakeWhile fun s => s.sort?.isNone).filterMap BuildStep.thenBy? := by
  induction steps using List.reverseRecOn with
  | nil => rfl
  | append_singleton steps s ih =>
    rw [run_concat, sorts_step, List.filterMap_append, List.rtakeWhile_concat, ih]
    cases set : s.sort? with
    | some rules => simp [set]
    | none => cases appended : s.thenBy? <;> simp [set, appended]

/-! ### Names -/

theorem name_step (b : QueryBuilder) (s : BuildStep) : (b.step s).name = s.named?.getD b.name := by
  cases s <;> rfl

/-- The name is the one given last. -/
theorem name_run_new (steps : List BuildStep) :
    (new.run steps).name = (steps.filterMap BuildStep.named?).getLast?.getD "New Query" := by
  induction steps using List.reverseRecOn with
  | nil => rfl
  | append_singleton steps s ih =>
    rw [run_concat, name_step, List.filterMap_append, ih]
    cases named : s.named? <;> simp [named]

/-- **What has been built** by some steps: the rules are those that the steps bring along, in their
order, whichever of the ways to add a rule is taken. The groups are those that steps start, after one
where all children must hold if a child was added before all of these. Each further step starts a
group or changes the last one as it says, and changes nothing else. The sort order is that of the last
step that sets one, or none, and what has been appended since. The name is the one given last. -/
theorem build_run (steps : List BuildStep) :
    let q := (new.run steps).build
    q.rules = steps.flatMap BuildStep.rules ∧
      (q.filters.map GroupOf.connective =
          BuildStep.implicit steps ++ steps.filterMap BuildStep.started? ∧
        q.filters.length = steps.countP BuildStep.starts +
          if (steps.takeWhile fun s => !s.starts).any BuildStep.adds then 1 else 0) ∧
      (∀ s : BuildStep, s.Changes q.filters (new.run (steps ++ [s])).build.filters) ∧
      q.sorts = (steps.filterMap BuildStep.sort?).getLast?.getD [] ++
        (steps.rtakeWhile fun s => s.sort?.isNone).filterMap BuildStep.thenBy? ∧
      q.name = (steps.filterMap BuildStep.named?).getLast?.getD "New Query" := by
  intro q
  have connectives : q.filters.map GroupOf.connective =
      BuildStep.implicit steps ++ steps.filterMap BuildStep.started? :=
    connectives_run_of_nil rfl steps
  refine ⟨rules_run new steps, ⟨connectives, ?_⟩, fun s => ?_, sorts_run_new steps,
    name_run_new steps⟩
  · have length := congrArg List.length connectives
    rw [List.length_map, List.length_append, List.length_filterMap_eq_countP] at length
    rw [length, Nat.add_comm, BuildStep.implicit]
    split <;> rfl
  · rw [run_concat]
    exact changes_step _ s

/-- A rule gets a group of its own, as there is none, and nothing has been reversed before. A literal
null is none. -/
example :
    let q := (new.run [.negateGroup, .like "name" "C%", .sortByDesc "name", .sortByAsc "age",
      .group .or, .compare "born" .lessThan "died", .negateGroup, .notEqual "died" .null,
      .thenByDesc "name"]).build
    q.rules = [⟨"name", .like, some (.string "C%"), none, false⟩,
        ⟨"born", .lessThan, none, some "died", false⟩, ⟨"died", .notEqual, none, none, false⟩] ∧
      q.filters.map (fun g => (g.connective, g.negated)) = [(.and, false), (.or, true)] ∧
      q.sorts = [⟨"age", false⟩, ⟨"name", true⟩] :=
  ⟨rfl, rfl, rfl⟩

end QueryBuilder

end EntityQuery
