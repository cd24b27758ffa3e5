import EntityQuery.Filter.Group
import EntityQuery.Wire.Record

/-!
# Filters on the wire

The JSON forms of rules, nodes and groups. A rule always writes its property, its operator and
its negation, and writes literal and other property only if it has them; a group writes all its
fields. Both forms are closed. A node has the form of a rule or else of a group, so the empty
object and the empty array are empty groups.

`decode` and `encode` formalize the derived forms of `FilterOperator`, `LogicalOperator`,
`FilterRule`, `FilterGroup` and `FilterNode`.
-/

namespace EntityQuery

open Wire

/-- An operator by its symbol or name. -/
def Operator.decode (j : Json) : Except WireError Operator :=
  (string j).bind fun s => (ofText? s).elim (.error (.unknownOperator s)) .ok

/-- An operator by its canonical name. -/
def Operator.encode (op : Operator) : Json := .string op.name

/-- A connective by its symbol or name. -/
def Connective.decode (j : Json) : Except WireError Connective :=
  (string j).bind fun s => (ofText? s).elim (.error (.unknownConnective s)) .ok

/-- A connective by its canonical name. -/
def Connective.encode (c : Connective) : Json := .string c.name

namespace Rule

/-- The form of a rule. -/
def form : RecordForm :=
  ⟨["Property", "Operator", "Value", "CompareToProperty", "IsNegated"], true⟩

/-- A rule from its slots. A literal null is none. -/
def ofSlots : List (Option Json) → Except WireError Rule
  | [property, operator, value, other, negated] => do
    return {
      property := ← required string property
      operator := ← required Operator.decode operator
      value := value.filter fun j => !j.isNull
      compareTo := ← withDefault none (nullable string) other
      negated := ← withDefault false bool negated }
  | _ => .error .malformed

/-- A rule from its JSON form. -/
def decode (j : Json) : Except WireError Rule := (form.slots j).bind ofSlots

/-- The JSON form of a rule. -/
def encode (r : Rule) : Json :=
  .object (
    (r.compareTo.map fun s => ("CompareToProperty", Json.string s)).toList ++
      [("IsNegated", .bool r.negated), ("Operator", r.operator.encode),
        ("Property", .string r.property)] ++
      (r.value.map fun j => ("Value", j)).toList)

end Rule

namespace Group

/-- The form of a group. -/
def form : RecordForm := ⟨["LogicalOperator", "InterOperator", "IsNegated", "Rules"], true⟩

/-- A group from its slots, apart from its children. -/
def ofSlots (children : List Node) : List (Option Json) → Except WireError Group
  | [connective, inter, negated, _] => do
    return {
      connective := ← withDefault .and Connective.decode connective
      inter := ← withDefault .or Connective.decode inter
      negated := ← withDefault false bool negated
      children := children }
  | _ => .error .malformed

end Group

/-- A node that is a rule if it can be one, and else a group. -/
def Node.ofEither (r : Except WireError Rule) (g : Except WireError Group) :
    Except WireError Node :=
  match r with
  | .ok r => .ok (.rule r)
  | .error _ => g.map .group

mutual
/-- A group from its JSON form. -/
def Group.decode : Json → Except WireError Group
  | .object fields => do
    Group.ofSlots (← Node.childrenField fields) (← Group.form.slotsOfFields fields)
  | .array items => do
    Group.ofSlots (← Node.childrenItem items) (← Group.form.slotsOfItems items)
  | _ => .error .malformed
/-- The children among the fields of a group. -/
def Node.childrenField : List (String × Json) → Except WireError (List Node)
  | [] => .ok []
  | (k, j) :: fields => if k == "Rules" then Node.children j else Node.childrenField fields
/-- The children among the items of a group. -/
def Node.childrenItem : List Json → Except WireError (List Node)
  | _ :: _ :: _ :: j :: _ => Node.children j
  | _ => .ok []
/-- The children of a group from their JSON form. -/
def Node.children : Json → Except WireError (List Node)
  | .array items => Node.decodeAll items
  | _ => .error .malformed
/-- Nodes from their JSON forms. -/
def Node.decodeAll : List Json → Except WireError (List Node)
  | [] => .ok []
  | j :: js => do
    return (← Node.ofEither (Rule.decode j) (Group.decode j)) :: (← Node.decodeAll js)
end

/-- A node from its JSON form. -/
def Node.decode (j : Json) : Except WireError Node :=
  Node.ofEither (Rule.decode j) (Group.decode j)

/-- The JSON form of a group, given those of its children. -/
def Group.encodeWith {ν : Type} (g : GroupOf ν) (children : List Json) : Json :=
  .object [("InterOperator", g.inter.encode), ("IsNegated", .bool g.negated),
    ("LogicalOperator", g.connective.encode), ("Rules", .array children)]

mutual
/-- The JSON form of a node. -/
def Node.encode : Node → Json
  | .rule r => r.encode
  | .group g => Group.encodeWith g (Node.encodeAll g.children)
/-- The JSON forms of nodes. -/
def Node.encodeAll : List Node → List Json
  | [] => []
  | a :: as => Node.encode a :: Node.encodeAll as
end

/-- The JSON form of a group. -/
def Group.encode (g : Group) : Json := Node.encode (.group g)

end EntityQuery
