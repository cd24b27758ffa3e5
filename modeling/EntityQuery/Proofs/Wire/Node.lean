import EntityQuery.Proofs.Wire.Filter

/-!
# Rules and groups are told apart

A node has the form of a rule or of a group, and nothing but its fields says which. No value has
both forms: the fields of an object are closed and a rule must name its property, and what stands in
the second place of an array would have to name an operator and a connective. So it does not matter
which form is tried first, and a rule that is misspelled is not taken for an empty group, which
would hold of every entity.

The main result is `Node.decode_unambiguous`.
-/

namespace EntityQuery

open Outcome Wire

variable {j : Json}

/-! ### Names -/

/-- **No text names both** an operator and a connective. -/
theorem Connective.ofText?_eq_none {text : String} {op : Operator}
    (h : Operator.ofText? text = some op) : ofText? text = none := by
  have noSymbol : ∀ entry ∈ Operator.symbols, ofText? entry.1 = none := by decide +kernel
  have noName : ∀ entry ∈ Operator.names, names.lookup entry.1 = none := by decide +kernel
  rcases Option.or_eq_some_iff.mp h with symbol | ⟨-, name⟩
  · exact noSymbol (text, op) (mem_of_lookup symbol)
  · unfold ofText?
    exact noName (Text.lowercase text, op) (mem_of_lookup name)

theorem Operator.exists_text {op : Operator} (h : decode j = .ok op) :
    ∃ text, j = .string text ∧ ofText? text = some op := by
  cases j with
  | string text =>
    refine ⟨text, rfl, ?_⟩
    cases read : ofText? text with
    | none =>
      rw [decode, string, Except.bind, read] at h
      cases h
    | some op' =>
      rw [decode, string, Except.bind, read] at h
      exact congrArg some (Except.ok.inj h)
  | _ => cases h

/-- What is read as an operator is not read as a connective. -/
theorem Connective.decode_ne_ok {op : Operator} (h : Operator.decode j = .ok op) (c : Connective) :
    decode j ≠ .ok c := by
  obtain ⟨text, rfl, operator⟩ := Operator.exists_text h
  rw [decode, string, Except.bind, ofText?_eq_none operator]
  nofun

/-! ### Forms -/

/-- Objects with the form of a group have no property. -/
theorem Group.lookup_property {fields : List (String × Json)}
    (h : Group.form.Fits (.object fields)) : fields.lookup "Property" = none :=
  RecordForm.lookup_of_knowsAll (h.2 rfl) (by decide)

/-- **Nothing is read both as a rule and as a group.** -/
theorem Rule.ReadFrom.not_group {r : Rule} {g : Group} (hr : r.ReadFrom j)
    (hg : Group.ReadFrom j g) : False := by
  cases j with
  | object fields =>
    have property := hr.property
    rw [Json.field?, Group.lookup_property hg.fits] at property
    cases property
  | array items =>
    have operator := hr.operator
    have inter := hg.inter
    simp only [Json.field?] at operator inter
    -- In the second place a rule has its operator, and a group the connective to the next one.
    cases place : items[1]? with
    | none =>
      rw [place] at operator
      cases operator
    | some k =>
      rw [place] at operator inter
      exact Connective.decode_ne_ok operator _ inter
  | _ => exact hr.fits

theorem Group.decode_ne_ok {r : Rule} (h : Rule.decode j = .ok r) (g : Group) :
    Group.decode j ≠ .ok g := fun hg =>
  (Rule.decode_eq_ok_iff.mp h).not_group (Group.decode_eq_ok_iff.mp hg)

/-- A node is a rule or a group, whichever form the value has. -/
theorem Node.decode_eq_ok_iff {n : Node} : Node.decode j = .ok n ↔
    (∃ r, Rule.decode j = .ok r ∧ n = .rule r) ∨ ∃ g, Group.decode j = .ok g ∧ n = .group g := by
  unfold Node.decode Node.ofEither
  cases hr : Rule.decode j with
  | ok r => simp [Group.decode_ne_ok hr, eq_comm]
  | error err =>
    simp only [reduceCtorEq, false_and, exists_false, false_or]
    rw [map_eq_ok_iff]
    simp only [eq_comm]

/-- To try the form of a group first gives the same node. -/
theorem Node.toOption_decode (j : Json) : (Node.decode j).toOption =
    ((Group.decode j).toOption.map .group).or ((Rule.decode j).toOption.map .rule) := by
  unfold Node.decode Node.ofEither
  cases hr : Rule.decode j with
  | error err => cases Group.decode j <;> rfl
  | ok r =>
    cases hg : Group.decode j with
    | error err => rfl
    | ok g => exact (Group.decode_ne_ok hr g hg).elim

/-- An object has a field that no group has. -/
def Group.Foreign (fields : List (String × Json)) : Prop :=
  ∃ field ∈ fields, field.1 ∉ Group.form.names

theorem Group.not_fits_of_foreign {fields : List (String × Json)} (h : Group.Foreign fields) :
    ¬ Group.form.Fits (.object fields) := by
  obtain ⟨field, mem, foreign⟩ := h
  intro fits
  have known := List.all_eq_true.mp (fits.2 rfl) field mem
  exact foreign (List.contains_iff_mem.mp known)

/-- An object with such a field is no group. -/
theorem Group.decode_ne_ok_of_foreign {fields : List (String × Json)} (h : Group.Foreign fields)
    (g : Group) : Group.decode (.object fields) ≠ .ok g := fun hg =>
  Group.not_fits_of_foreign h (Group.decode_eq_ok_iff.mp hg).fits

/-! ### Nodes inside a group -/

/-- The form at the end of a path: from each group the path goes on to the child at a place. -/
def Group.formAt? : List Nat → Json → Option Json
  | [], j => some j
  | place :: path, j => (forms j)[place]?.bind (formAt? path)

/-- The node at the end of a path. -/
def Node.at? : List Nat → Node → Option Node
  | [], n => some n
  | _ :: _, .rule _ => none
  | place :: path, .group g => g.children[place]?.bind (Node.at? path)

/-- A rule has no forms of children in it. -/
theorem Rule.ReadFrom.forms_eq_nil {r : Rule} (h : r.ReadFrom j) : Group.forms j = [] := by
  unfold Group.forms
  cases j with
  | object fields =>
    have noRules : fields.lookup "Rules" = none :=
      RecordForm.lookup_of_knowsAll (h.fits.2 rfl) (by decide)
    rw [Json.field?, noRules]
    rfl
  | array items =>
    have other := h.compareTo
    simp only [Json.field?] at other ⊢
    -- In the fourth place a group has its children, and a rule a text or null.
    cases place : items[3]? with
    | none => rfl
    | some k =>
      rw [place] at other
      cases k with
      | array _ => cases other
      | _ => rfl
  | _ => rfl

/-- **At any depth** a node is read from the form at its place: there is a node just where there is
a form. -/
theorem Node.decode_formAt? (path : List Nat) : ∀ {j : Json} {n : Node}, Node.decode j = .ok n →
    (Group.formAt? path j).map Node.decode = (n.at? path).map .ok := by
  induction path with
  | nil =>
    intro j n h
    exact congrArg some h
  | cons place path ih =>
    intro j n h
    rcases decode_eq_ok_iff.mp h with ⟨r, hr, rfl⟩ | ⟨g, hg, rfl⟩
    · rw [Group.formAt?, (Rule.decode_eq_ok_iff.mp hr).forms_eq_nil]
      rfl
    · -- The children are read one by one, so each stands at the place of its form.
      have children := map_eq_of_mapM (Group.decode_eq_ok_iff.mp hg).mapM_forms
      have child : (Group.forms j)[place]?.map Node.decode = g.children[place]?.map .ok := by
        rw [← List.getElem?_map, ← List.getElem?_map, children]
      rw [Group.formAt?, Node.at?]
      cases form : (Group.forms j)[place]? with
      | none =>
        rw [form, Option.map_none, eq_comm, Option.map_eq_none_iff] at child
        rw [child]
        rfl
      | some k =>
        rw [form, Option.map_some, eq_comm, Option.map_eq_some_iff] at child
        obtain ⟨m, hm, hk⟩ := child
        rw [hm]
        exact ih hk.symm

/-- Where an object with a field that no group has stands among the nodes, there is a rule. -/
theorem Node.exists_rule_of_foreign {fields : List (String × Json)} (h : Group.Foreign fields)
    {n : Node} {path : List Nat} (read : Node.decode j = .ok n)
    (form : Group.formAt? path j = some (.object fields)) :
    ∃ r, Rule.decode (.object fields) = .ok r ∧ n.at? path = some (.rule r) := by
  have place := decode_formAt? path read
  rw [form, Option.map_some, eq_comm, Option.map_eq_some_iff] at place
  obtain ⟨m, hm, hn⟩ := place
  rcases decode_eq_ok_iff.mp hn.symm with ⟨r, hr, rfl⟩ | ⟨g, hg, -⟩
  · exact ⟨r, hr, hm⟩
  · exact (Group.decode_ne_ok_of_foreign h g hg).elim

/-- **Nodes are unambiguous**: no value is read both as a rule and as a group, so a node is whichever
of the two can be read, and the group may be tried first. Wherever an object with a field that no
group has stands among the nodes, at any depth, there is a rule or nothing is read at all. -/
theorem Node.decode_unambiguous :
    (∀ j, ¬ ((∃ r, Rule.decode j = .ok r) ∧ ∃ g, Group.decode j = .ok g)) ∧
      (∀ j n, Node.decode j = .ok n ↔
        (∃ r, Rule.decode j = .ok r ∧ n = .rule r) ∨ ∃ g, Group.decode j = .ok g ∧ n = .group g) ∧
      (∀ j, (Node.decode j).toOption =
        ((Group.decode j).toOption.map .group).or ((Rule.decode j).toOption.map .rule)) ∧
      ∀ fields, Group.Foreign fields →
        (∀ g, Group.decode (.object fields) ≠ .ok g) ∧
          ∀ j n path, Node.decode j = .ok n → Group.formAt? path j = some (.object fields) →
            ∃ r, Rule.decode (.object fields) = .ok r ∧ n.at? path = some (.rule r) := by
  have disjoint (j : Json) : ¬ ((∃ r, Rule.decode j = .ok r) ∧ ∃ g, Group.decode j = .ok g) :=
    fun ⟨⟨_, hr⟩, g, hg⟩ => Group.decode_ne_ok hr g hg
  exact ⟨disjoint, fun _ _ => decode_eq_ok_iff, toOption_decode, fun _ foreign =>
    ⟨Group.decode_ne_ok_of_foreign foreign, fun _ _ _ => exists_rule_of_foreign foreign⟩⟩

/-- The empty object is an empty group, but a rule without an operator is nothing. -/
example : (Node.decode (.object [])).toOption.isSome = true ∧
    (Node.decode (.object [("Rules", .array [.object [("Property", .string "age")]])])).toOption =
      none := by
  decide +kernel

end EntityQuery
