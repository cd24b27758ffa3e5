import EntityQuery.Filter.Group
import EntityQuery.Proofs.Literal.Twin

/-!
# Equality of trees

Trees are compared part by part, and the two zeros of a float literal are one number. So two trees
are the same just if they become one tree once every float zero has lost its sign
(`Node.same_iff`), and being the same is an equivalence.
-/

namespace EntityQuery

/-! ### Zeros without a sign -/

namespace Binary

variable {F : Binary.Format} {x y : Binary F}

/-- The number, the positive zero standing for both. -/
def unsignedZero (x : Binary F) : Binary F :=
  if x.code = 0 then { x with negative := false } else x

@[simp] theorem code_unsignedZero (x : Binary F) : x.unsignedZero.code = x.code := by
  unfold unsignedZero
  split <;> rfl

theorem place_unsignedZero (x : Binary F) : x.unsignedZero.place = x.place := by
  unfold unsignedZero
  split
  · next h => simp [place, h]
  · rfl

theorem place_eq_iff : x.place = y.place ↔ x.unsignedZero = y.unsignedZero := by
  constructor
  · intro h
    rcases eq_or_zero_of_place_eq h with rfl | ⟨hx, hy⟩
    · rfl
    · obtain ⟨_, _, _⟩ := x
      obtain ⟨_, _, _⟩ := y
      subst hx hy
      rfl
  · intro h
    rw [← place_unsignedZero x, h, place_unsignedZero]

end Binary

/-- The number, the positive zero standing for both. -/
def JsonNumber.unsignedZero : JsonNumber → JsonNumber
  | .integer n fits => .integer n fits
  | .float x finite => .float x.unsignedZero (by
      unfold Binary.isFinite at finite ⊢
      rwa [Binary.code_unsignedZero])

theorem JsonNumber.same_iff {n m : JsonNumber} :
    n.same m = true ↔ n.unsignedZero = m.unsignedZero := by
  cases n <;> cases m <;> simp [same, unsignedZero, Binary.place_eq_iff]

namespace Json

mutual
/-- The value with positive zeros for both. -/
def unsignedZeros : Json → Json
  | .number n => .number n.unsignedZero
  | .array items => .array (unsignedZerosOfItems items)
  | .object fields => .object (unsignedZerosOfFields fields)
  | j => j
/-- The values with positive zeros for both. -/
def unsignedZerosOfItems : List Json → List Json
  | [] => []
  | x :: xs => unsignedZeros x :: unsignedZerosOfItems xs
/-- The fields with positive zeros for both. -/
def unsignedZerosOfFields : List (String × Json) → List (String × Json)
  | [] => []
  | (k, x) :: fs => (k, unsignedZeros x) :: unsignedZerosOfFields fs
end

mutual
theorem same_iff : ∀ j k : Json, j.same k = true ↔ j.unsignedZeros = k.unsignedZeros
  | .array js, k => by
    cases k <;> simp [same, unsignedZeros, sameItems_iff js]
  | .object fs, k => by
    cases k <;> simp [same, unsignedZeros, sameFields_iff fs]
  | .null, k => by cases k <;> simp [same, unsignedZeros]
  | .bool b, k => by cases k <;> simp [same, unsignedZeros]
  | .number n, k => by cases k <;> simp [same, unsignedZeros, JsonNumber.same_iff]
  | .string s, k => by cases k <;> simp [same, unsignedZeros]
theorem sameItems_iff : ∀ js ks : List Json,
    sameItems js ks = true ↔ unsignedZerosOfItems js = unsignedZerosOfItems ks
  | [], ks => by cases ks <;> simp [sameItems, unsignedZerosOfItems]
  | j :: js, ks => by
    cases ks <;> simp [sameItems, unsignedZerosOfItems, same_iff j, sameItems_iff js]
theorem sameFields_iff : ∀ fs gs : List (String × Json),
    sameFields fs gs = true ↔ unsignedZerosOfFields fs = unsignedZerosOfFields gs
  | [], gs => by
    cases gs <;> simp [sameFields, unsignedZerosOfFields]
  | (k, x) :: fs, gs => by
    cases gs <;> simp [sameFields, unsignedZerosOfFields, same_iff x, sameFields_iff fs, and_assoc]
end

end Json

/-! ### Rules and trees -/

/-- The rule with positive zeros in its literal. -/
def Rule.unsignedZeros (r : Rule) : Rule := { r with value := r.value.map Json.unsignedZeros }

theorem Rule.same_iff {r s : Rule} : r.same s = true ↔ r.unsignedZeros = s.unsignedZeros := by
  obtain ⟨property, operator, value, compareTo, negated⟩ := r
  obtain ⟨property', operator', value', compareTo', negated'⟩ := s
  cases value <;> cases value' <;>
    simp [same, sameValue, unsignedZeros, Json.same_iff, and_assoc]

namespace Node

mutual
/-- The tree with positive zeros in its literals. -/
def unsignedZeros : Node → Node
  | .rule r => .rule r.unsignedZeros
  | .group g => .group { g with children := unsignedZerosOfAll g.children }
/-- The trees with positive zeros in their literals. -/
def unsignedZerosOfAll : List Node → List Node
  | [] => []
  | a :: as => unsignedZeros a :: unsignedZerosOfAll as
end

mutual
/-- **Trees are the same** just if they are one tree, but for the signs of zeros. -/
theorem same_iff : ∀ a b : Node, a.same b = true ↔ a.unsignedZeros = b.unsignedZeros
  | .rule r, b => by cases b <;> simp [same, unsignedZeros, Rule.same_iff]
  | .group g, b => by
    cases b <;> simp [same, unsignedZeros, sameAll_iff g.children, and_assoc]
theorem sameAll_iff : ∀ as bs : List Node,
    sameAll as bs = true ↔ unsignedZerosOfAll as = unsignedZerosOfAll bs
  | [], bs => by cases bs <;> simp [sameAll, unsignedZerosOfAll]
  | a :: as, bs => by
    cases bs <;> simp [sameAll, unsignedZerosOfAll, same_iff a, sameAll_iff as]
end

@[simp] theorem same_self (a : Node) : a.same a = true := (same_iff a a).mpr rfl

theorem same_trans {a b c : Node} (hab : a.same b = true) (hbc : b.same c = true) :
    a.same c = true :=
  (same_iff a c).mpr (((same_iff a b).mp hab).trans ((same_iff b c).mp hbc))

end Node

end EntityQuery
