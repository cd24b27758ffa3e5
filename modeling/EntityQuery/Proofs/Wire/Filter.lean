import EntityQuery.Proofs.Wire.Record
import EntityQuery.Wire.Filter

/-!
# Reading filters

What JSON a rule or a group is read from, field by field: `Rule.decode_eq_ok_iff` and
`Group.decode_eq_ok_iff`. The forms of the children of a group stand in its field `Rules`, and they
are smaller than the form of the group, so whatever holds of a form as soon as it holds of these
holds of all JSON (`Group.forms_induction`).
-/

namespace EntityQuery

open Outcome Wire

variable {j : Json}

/-! ### Rules -/

/-- The rule is read from the value: each of its parts from its field. -/
structure Rule.ReadFrom (j : Json) (r : Rule) : Prop where
  fits : Rule.form.Fits j
  property : required string (j.field? "Property" 0) = .ok r.property
  operator : required Operator.decode (j.field? "Operator" 1) = .ok r.operator
  value : r.value = (j.field? "Value" 2).filter fun j => !j.isNull
  compareTo : withDefault none (nullable string) (j.field? "CompareToProperty" 3) = .ok r.compareTo
  negated : withDefault false bool (j.field? "IsNegated" 4) = .ok r.negated

/-- **A rule is read** from just these values. -/
theorem Rule.decode_eq_ok_iff {r : Rule} : decode j = .ok r ↔ r.ReadFrom j := by
  refine RecordForm.bind_slots_eq_ok_iff.trans ⟨?_, ?_⟩
  · rintro ⟨fits, h⟩
    obtain ⟨_, property, h⟩ := bind_eq_ok_iff.mp h
    obtain ⟨_, operator, h⟩ := bind_eq_ok_iff.mp h
    obtain ⟨_, compareTo, h⟩ := bind_eq_ok_iff.mp h
    obtain ⟨_, negated, h⟩ := bind_eq_ok_iff.mp h
    obtain rfl := Except.ok.inj h
    exact ⟨fits, property, operator, rfl, compareTo, negated⟩
  · rintro ⟨fits, property, operator, value, compareTo, negated⟩
    refine ⟨fits, ?_⟩
    change ofSlots [j.field? "Property" 0, j.field? "Operator" 1, j.field? "Value" 2,
      j.field? "CompareToProperty" 3, j.field? "IsNegated" 4] = .ok r
    rw [ofSlots, property, operator, compareTo, negated, ← value]
    rfl

/-! ### Groups -/

/-- The group is read from the value: each of its parts from its field, the children item by
item. -/
structure Group.ReadFrom (j : Json) (g : Group) : Prop where
  fits : Group.form.Fits j
  connective : withDefault .and Connective.decode (j.field? "LogicalOperator" 0) =
    .ok g.connective
  inter : withDefault .or Connective.decode (j.field? "InterOperator" 1) = .ok g.inter
  negated : withDefault false bool (j.field? "IsNegated" 2) = .ok g.negated
  children : withDefault [] (list Node.decode) (j.field? "Rules" 3) = .ok g.children

theorem Node.decodeAll_eq (js : List Json) : Node.decodeAll js = js.mapM Node.decode := by
  induction js with
  | nil => rfl
  | cons j js ih =>
    rw [Node.decodeAll, ih, List.mapM_cons]
    rfl

theorem Node.children_eq (j : Json) : Node.children j = list Node.decode j := by
  cases j with
  | array items => exact Node.decodeAll_eq items
  | _ => rfl

theorem Node.childrenField_eq (fields : List (String × Json)) :
    Node.childrenField fields =
      withDefault [] (list Node.decode) ((Json.object fields).field? "Rules" 3) := by
  rw [Json.field?]
  induction fields with
  | nil => rfl
  | cons field fields ih =>
    obtain ⟨name, j⟩ := field
    rw [Node.childrenField, List.lookup_cons]
    cases same : name == "Rules" with
    | true =>
      rw [beq_iff_eq] at same
      rw [same]
      exact Node.children_eq j
    | false =>
      rw [BEq.comm] at same
      rw [same]
      exact ih

theorem Node.childrenItem_eq (items : List Json) :
    Node.childrenItem items =
      withDefault [] (list Node.decode) ((Json.array items).field? "Rules" 3) := by
  match items with
  | [] | [_] | [_, _] | [_, _, _] => rfl
  | _ :: _ :: _ :: j :: _ => exact Node.children_eq j

/-- A group is put together from its children and its slots. -/
theorem Group.decode_eq (j : Json) : Group.decode j =
    withDefault [] (list Node.decode) (j.field? "Rules" 3) >>= fun children =>
      form.slots j >>= Group.ofSlots children := by
  cases j with
  | object fields => rw [Group.decode, Node.childrenField_eq]; rfl
  | array items => rw [Group.decode, Node.childrenItem_eq]; rfl
  | _ => rfl

/-- **A group is read** from just these values. -/
theorem Group.decode_eq_ok_iff {g : Group} : Group.decode j = .ok g ↔ Group.ReadFrom j g := by
  rw [Group.decode_eq]
  constructor
  · intro h
    obtain ⟨_, children, h⟩ := bind_eq_ok_iff.mp h
    obtain ⟨fits, h⟩ := RecordForm.bind_slots_eq_ok_iff.mp h
    obtain ⟨_, connective, h⟩ := bind_eq_ok_iff.mp h
    obtain ⟨_, inter, h⟩ := bind_eq_ok_iff.mp h
    obtain ⟨_, negated, h⟩ := bind_eq_ok_iff.mp h
    obtain rfl := Except.ok.inj h
    exact ⟨fits, connective, inter, negated, children⟩
  · rintro ⟨fits, connective, inter, negated, children⟩
    refine bind_eq_ok_iff.mpr
      ⟨_, children, RecordForm.bind_slots_eq_ok_iff.mpr ⟨fits, ?_⟩⟩
    change Group.ofSlots g.children [j.field? "LogicalOperator" 0, j.field? "InterOperator" 1,
      j.field? "IsNegated" 2, j.field? "Rules" 3] = .ok g
    rw [ofSlots, connective, inter, negated]
    rfl

/-! ### Children -/

/-- The items of an array. -/
def Json.items : Json → List Json
  | .array items => items
  | _ => []

/-- The forms of the children of a group: the items of its field. -/
def Group.forms (j : Json) : List Json := ((j.field? "Rules" 3).map Json.items).getD []

theorem Json.sizeOf_field?_lt {name : String} {place : Nat} {k : Json}
    (h : j.field? name place = some k) : sizeOf k < sizeOf j := by
  cases j with
  | object fields =>
    have small := List.sizeOf_lt_of_mem (mem_of_lookup h)
    simp only [Prod.mk.sizeOf_spec, Json.object.sizeOf_spec] at small ⊢
    omega
  | array items =>
    have small := List.sizeOf_lt_of_mem (List.mem_of_getElem? h)
    simp only [Json.array.sizeOf_spec]
    omega
  | _ => cases h

theorem Json.sizeOf_lt_of_mem_items {k : Json} (h : k ∈ j.items) : sizeOf k < sizeOf j := by
  cases j with
  | array items =>
    have small : sizeOf k < sizeOf items := List.sizeOf_lt_of_mem h
    simp only [Json.array.sizeOf_spec]
    omega
  | _ => cases h

/-- The form of a child is smaller than that of the group. -/
theorem Group.sizeOf_lt_of_mem_forms {k : Json} (h : k ∈ forms j) : sizeOf k < sizeOf j := by
  unfold forms at h
  cases field : j.field? "Rules" 3 with
  | none =>
    rw [field] at h
    cases h
  | some rules =>
    rw [field] at h
    exact Nat.lt_trans (Json.sizeOf_lt_of_mem_items h) (Json.sizeOf_field?_lt field)

/-- **Induction over the forms of children**: what holds of any JSON if it holds of the forms of the
children in it holds of all JSON. -/
theorem Group.forms_induction {P : Json → Prop} (step : ∀ j, (∀ k ∈ forms j, P k) → P j)
    (j : Json) : P j :=
  step j fun k _ => forms_induction step k
termination_by sizeOf j
decreasing_by exact sizeOf_lt_of_mem_forms ‹_›

/-- The children of a group that is read are the nodes read from the forms. -/
theorem Group.ReadFrom.mapM_forms {g : Group} (h : Group.ReadFrom j g) :
    (forms j).mapM Node.decode = .ok g.children := by
  have children := h.children
  unfold forms
  cases field : j.field? "Rules" 3 with
  | none =>
    rw [field] at children
    exact children
  | some rules =>
    rw [field] at children
    cases rules with
    | array items => exact children
    | _ => cases children

end EntityQuery
