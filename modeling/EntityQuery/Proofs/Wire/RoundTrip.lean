import EntityQuery.Proofs.Wire.Node
import EntityQuery.Wire.Query

/-!
# Round trips

What is written as JSON is read back as it was, if none of its rules has the literal null. Nothing
that is read has such a rule: a null in its place is no literal. So JSON that is read, in whatever
way it was written, may be written anew and read again, and makes the same object.

The main result is `Wire.faithful`.
-/

namespace EntityQuery

open Outcome Wire

/-! ### Faithful codecs -/

/-- Objects that are plain, and no others, go to JSON and back. -/
structure Wire.Faithful {α : Type} (decode : Json → Except WireError α) (encode : α → Json)
    (Plain : α → Prop) : Prop where
  /-- A plain object is read back from what it is written as. -/
  back : ∀ a, Plain a → decode (encode a) = .ok a
  /-- What is read is plain. -/
  plain : ∀ j a, decode j = .ok a → Plain a
  /-- To write what has been read, and to read it again, makes no difference. -/
  again : ∀ j, ((decode j).bind fun a => decode (encode a)) = decode j

theorem Wire.Faithful.of {α : Type} {decode : Json → Except WireError α} {encode : α → Json}
    {Plain : α → Prop} (back : ∀ a, Plain a → decode (encode a) = .ok a)
    (plain : ∀ j a, decode j = .ok a → Plain a) : Faithful decode encode Plain := by
  refine ⟨back, plain, fun j => ?_⟩
  cases h : decode j with
  | error err => rfl
  | ok a => exact back a (plain j a h)

/-- Where every object is plain it is enough that each is read back. -/
theorem Wire.Faithful.of_back {α : Type} {decode : Json → Except WireError α} {encode : α → Json}
    (back : ∀ a, decode (encode a) = .ok a) : Faithful decode encode fun _ => True :=
  .of (fun a _ => back a) fun _ _ _ => trivial

/-- The list of what some objects are written as is read back, if each of them is. -/
theorem Wire.mapM_map_encode {α : Type} {decode : Json → Except WireError α} {encode : α → Json}
    {as : List α} (back : ∀ a ∈ as, decode (encode a) = .ok a) :
    (as.map encode).mapM decode = .ok as := by
  rw [mapM_eq_ok_iff, List.forall₂_map_left_iff, List.forall₂_same]
  exact back

/-- What is read in a list is read from an item. -/
theorem Wire.exists_of_mem_list {α : Type} {decode : Json → Except WireError α}
    {slot : Option Json} {as : List α} (h : withDefault [] (list decode) slot = .ok as) {a : α}
    (ha : a ∈ as) : ∃ j, decode j = .ok a := by
  cases slot with
  | none =>
    obtain rfl := Except.ok.inj h
    cases ha
  | some j =>
    cases j with
    | array items =>
      obtain ⟨k, -, hk⟩ := exists_of_mem_mapM h ha
      exact ⟨k, hk⟩
    | _ => cases h

/-! ### Rules -/

/-- The rule has a literal other than null, or none. -/
def Rule.Plain (r : Rule) : Prop := r.value ≠ some .null

theorem Operator.decode_encode (op : Operator) : decode op.encode = .ok op := by
  rw [encode, decode, string, Except.bind, ofText?_name]
  rfl

theorem Connective.decode_encode (c : Connective) : decode c.encode = .ok c := by
  rw [encode, decode, string, Except.bind, ofText?_name]
  rfl

/-- A rule is read from what it is written as: a part that is left out is one that is missing. -/
theorem Rule.readFrom_encode {r : Rule} (h : r.Plain) : r.ReadFrom r.encode := by
  obtain ⟨property, operator, value, compareTo, negated⟩ := r
  -- What is read drops a literal null, which the rule does not have.
  have literal : value = value.filter fun j => !j.isNull := by
    cases value with
    | none => rfl
    | some j => cases j <;> first | rfl | exact (h rfl).elim
  cases value <;> cases compareTo <;> exact {
    fits := ⟨rfl, fun _ => rfl⟩
    property := rfl
    operator := Operator.decode_encode operator
    value := literal
    compareTo := rfl
    negated := rfl }

theorem Rule.ReadFrom.plain {j : Json} {r : Rule} (h : r.ReadFrom j) : r.Plain := by
  intro null
  rw [h.value, Option.filter_eq_some_iff] at null
  cases null.2

/-! ### Groups -/

/-- All rules of the node are plain. -/
def Node.Plain (n : Node) : Prop := ∀ r ∈ n.rules, r.Plain

/-- All rules of the group are plain. -/
def Group.Plain (g : Group) : Prop := ∀ r ∈ Group.rules g, r.Plain

/-- A group is read from what it is written as, if its children are. -/
theorem Group.readFrom_encodeWith {g : Group} {forms : List Json}
    (children : forms.mapM Node.decode = .ok g.children) :
    Group.ReadFrom (Group.encodeWith g forms) g where
  fits := ⟨rfl, fun _ => rfl⟩
  connective := Connective.decode_encode g.connective
  inter := Connective.decode_encode g.inter
  negated := rfl
  children := children

mutual
/-- A node is read back, whichever form is tried first. -/
theorem Node.decode_encode : ∀ n : Node, n.Plain → Node.decode n.encode = .ok n
  | .rule r, h =>
    have plain : r.Plain := h r (List.mem_singleton_self r)
    decode_eq_ok_iff.mpr
      (.inl ⟨r, Rule.decode_eq_ok_iff.mpr (Rule.readFrom_encode plain), rfl⟩)
  | .group g, h =>
    have children := Node.mapM_encodeAll g.children h
    decode_eq_ok_iff.mpr
      (.inr ⟨g, Group.decode_eq_ok_iff.mpr (Group.readFrom_encodeWith children), rfl⟩)
theorem Node.mapM_encodeAll : ∀ ns : List Node, (∀ r ∈ Node.rulesOfAll ns, r.Plain) →
    (Node.encodeAll ns).mapM Node.decode = .ok ns
  | [], _ => rfl
  | n :: ns, h => by
    have first := Node.decode_encode n fun r hr => h r (List.mem_append_left _ hr)
    have rest := Node.mapM_encodeAll ns fun r hr => h r (List.mem_append_right _ hr)
    rw [encodeAll, List.mapM_cons, first, rest]
    rfl
end

theorem Group.decode_encode {g : Group} (h : Group.Plain g) : Group.decode (Group.encode g) = .ok g :=
  Group.decode_eq_ok_iff.mpr (Group.readFrom_encodeWith (Node.mapM_encodeAll g.children h))

/-- Rules that have been read at any depth are plain. -/
theorem Node.plain_of_decode : ∀ (j : Json) (n : Node), Node.decode j = .ok n → n.Plain := by
  refine Group.forms_induction fun j ih n h r hr => ?_
  rcases decode_eq_ok_iff.mp h with ⟨r', hr', rfl⟩ | ⟨g, hg, rfl⟩
  · obtain rfl := List.mem_singleton.mp hr
    exact (Rule.decode_eq_ok_iff.mp hr').plain
  · obtain ⟨child, mem, hr⟩ := Node.mem_rulesOfAll.mp hr
    obtain ⟨k, hk, read⟩ := exists_of_mem_mapM (Group.decode_eq_ok_iff.mp hg).mapM_forms mem
    exact ih k hk child read r hr

theorem Group.plain_of_decode {j : Json} {g : Group} (h : Group.decode j = .ok g) :
    Group.Plain g :=
  Node.plain_of_decode j (.group g) (Node.decode_eq_ok_iff.mpr (.inr ⟨g, h, rfl⟩))

/-! ### Sort orders, queries and configurations -/

theorem SortRule.decode_encode (r : SortRule) : decode r.encode = .ok r := rfl

theorem SortOrder.decode_encode (o : SortOrder) : SortOrder.decode o.encode = .ok o :=
  mapM_map_encode fun r _ => r.decode_encode

theorem StringComparison.decode_name (c : StringComparison) : decode (.string c.name) = .ok c := by
  cases c <;> rfl

theorem Aggregate.decode_name (a : Aggregate) : decode (.string a.name) = .ok a := by
  cases a <;> rfl

theorem Config.decode_encode (c : Config) : decode c.encode = .ok c := by
  have comparison : withDefault default.stringComparison StringComparison.decode
      (some (.string c.stringComparison.name)) = .ok c.stringComparison :=
    c.stringComparison.decode_name
  have aggregate : withDefault default.aggregate (nullable Aggregate.decode)
      (some ((c.aggregate.map fun a => Json.string a.name).getD .null)) = .ok c.aggregate := by
    cases c.aggregate with
    | none => rfl
    | some a => exact map_eq_ok_iff.mpr ⟨a, a.decode_name, rfl⟩
  have slots : decode c.encode = ofSlots [some (.string c.stringComparison.name),
      some (.bool c.skipCollections),
      some ((c.aggregate.map fun a => Json.string a.name).getD .null)] := rfl
  rw [slots, ofSlots, comparison, aggregate]
  rfl

/-- All rules of the query are plain. -/
def Query.Plain (q : Query) : Prop := ∀ r ∈ q.rules, r.Plain

theorem Query.decode_encode {q : Query} (h : q.Plain) : decode q.encode = .ok q := by
  have filters : withDefault [] (list Group.decode) (some (.array (q.filters.map Group.encode))) =
      .ok q.filters :=
    mapM_map_encode fun g hg => Group.decode_encode fun r hr =>
      h r (List.mem_flatMap_of_mem hg hr)
  have sorts : withDefault [] SortOrder.decode (some q.sorts.encode) = .ok q.sorts :=
    q.sorts.decode_encode
  have slots : decode q.encode = ofSlots [some (.string q.name),
      some (.array (q.filters.map Group.encode)), some q.sorts.encode] := rfl
  rw [slots, ofSlots, filters, sorts]
  rfl

theorem Query.plain_of_decode {j : Json} {q : Query} (h : decode j = .ok q) : q.Plain := by
  obtain ⟨-, h⟩ := RecordForm.bind_slots_eq_ok_iff.mp h
  obtain ⟨_, -, h⟩ := bind_eq_ok_iff.mp h
  obtain ⟨filters, read, h⟩ := bind_eq_ok_iff.mp h
  obtain ⟨_, -, h⟩ := bind_eq_ok_iff.mp h
  obtain rfl := Except.ok.inj h
  intro r hr
  obtain ⟨g, mem, hr⟩ := List.mem_flatMap.mp hr
  obtain ⟨k, hk⟩ := exists_of_mem_list read mem
  exact Group.plain_of_decode hk r hr

/-! ### All objects -/

/-- **Every codec is faithful**: rules, nodes, groups of any depth and queries without a literal
null, and all sort rules, sort orders and configurations, are read back as they were; and what is
read, however it was written, has no literal null and stays the same when it is written and read
again. -/
theorem Wire.faithful :
    Faithful Rule.decode Rule.encode Rule.Plain ∧
      Faithful Node.decode Node.encode Node.Plain ∧
      Faithful Group.decode Group.encode Group.Plain ∧
      Faithful SortRule.decode SortRule.encode (fun _ => True) ∧
      Faithful SortOrder.decode SortOrder.encode (fun _ => True) ∧
      Faithful Query.decode Query.encode Query.Plain ∧
      Faithful Config.decode Config.encode (fun _ => True) := by
  have rule : Faithful Rule.decode Rule.encode Rule.Plain :=
    .of (fun _ plain => Rule.decode_eq_ok_iff.mpr (Rule.readFrom_encode plain))
      fun _ _ read => (Rule.decode_eq_ok_iff.mp read).plain
  have node : Faithful Node.decode Node.encode Node.Plain :=
    .of Node.decode_encode Node.plain_of_decode
  have group : Faithful Group.decode Group.encode Group.Plain :=
    .of (fun _ => Group.decode_encode) fun _ _ => Group.plain_of_decode
  have query : Faithful Query.decode Query.encode Query.Plain :=
    .of (fun _ => Query.decode_encode) fun _ _ => Query.plain_of_decode
  exact ⟨rule, node, group, .of_back SortRule.decode_encode, .of_back SortOrder.decode_encode,
    query, .of_back Config.decode_encode⟩

/-- A rule in the form of an array, with a symbol and with nulls, is written in full. -/
example : (Node.decode (.array [.string "age", .string ">=", .null, .null])).map Node.encode =
    .ok (.object [("IsNegated", .bool false), ("Operator", .string "GreaterThanOrEqual"),
      ("Property", .string "age")]) := by rfl

end EntityQuery
