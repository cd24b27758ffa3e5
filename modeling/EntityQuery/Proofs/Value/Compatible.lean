import EntityQuery.Condition.Basic
import EntityQuery.Proofs.Value.Number
import EntityQuery.Schema

/-!
# Values that may be compared

Two values are *compatible* if one of them is null, if they belong to one category, or if they are
lists whose items are compatible. Values of one type are compatible, and so are values of two types
that may be compared with each other. In a category whose values have a meaningful order, two values
are without order only because one of them is a not-a-number.
-/

namespace EntityQuery

namespace Value

/-- The category of a value; null belongs to all of them. -/
def category? : Value → Option Category
  | .null => none
  | .bool _ => some .bool
  | .int32 _ | .int64 _ | .float32 _ | .float64 _ | .decimal _ => some .numeric
  | .string _ => some .string
  | .uuid _ => some .uuid
  | .date _ | .timestamp _ => some .temporal
  | .enum _ => some .enum
  | .record => some .record
  | .list _ => some .collection

/-- Is it a not-a-number? -/
def isNaN : Value → Bool
  | .float32 x => x.isNaN
  | .float64 x => x.isNaN
  | _ => false

/-- It has no place in the order of its category: it is null, or a not-a-number. -/
def Unordered (v : Value) : Prop := v = .null ∨ v.isNaN = true

/-- Two values may be compared. -/
inductive Compatible : Value → Value → Prop where
  /-- The first one is null. -/
  | nullLeft (w : Value) : Compatible .null w
  /-- The second one is null. -/
  | nullRight (v : Value) : Compatible v .null
  /-- Both belong to one category, and are no lists. -/
  | category {v w : Value} {c : Category} : v.category? = some c → w.category? = some c →
      c ≠ .collection → Compatible v w
  /-- Both are lists, and each item of the one may be compared with each item of the other. -/
  | lists {vs ws : List Value} : (∀ v ∈ vs, ∀ w ∈ ws, Compatible v w) →
      Compatible (.list vs) (.list ws)

variable {v w : Value} {t u : ValueType} {mode : StringComparison}

/-! ### Values of types -/

/-- A value belongs to the category of its type, unless it is null. -/
theorem HasType.category?_eq (h : v.HasType t) : v = .null ∨ v.category? = some t.category := by
  cases h <;> first | exact .inl rfl | exact .inr rfl

/-- Values of one type may be compared, lists by their items. -/
theorem compatible_of_hasType (hv : v.HasType t) : ∀ {w : Value}, w.HasType t → v.Compatible w := by
  induction hv with
  | null t =>
    intro w _
    exact .nullLeft w
  | list _ ih =>
    intro w hw
    cases hw with
    | null => exact .nullRight _
    | list hws => exact .lists fun v hv w hw => ih v hv (hws w hw)
  | _ =>
    intro w hw
    cases hw <;> first | exact .nullRight _ | exact .category rfl rfl nofun

theorem category_eq_of_comparableWith (h : t.comparableWith u = true) :
    t.category = u.category ∧ t.category ≠ .collection := by
  have noList : t.category ≠ .collection := by
    intro isList
    cases t <;> cases isList
    cases u <;> cases h
  refine ⟨?_, noList⟩
  unfold ValueType.comparableWith at h
  split at h <;> first | rfl | contradiction | simpa using h

/-- Values of two types that may be compared may be compared themselves. -/
theorem compatible_of_comparableWith (hv : v.HasType t) (hw : w.HasType u)
    (h : t.comparableWith u = true) : v.Compatible w := by
  obtain ⟨same, noList⟩ := category_eq_of_comparableWith h
  rcases hv.category?_eq with rfl | hv
  · exact .nullLeft w
  rcases hw.category?_eq with rfl | hw
  · exact .nullRight v
  exact .category hv (same ▸ hw) noList

/-! ### Values without order -/

/-- A value of the numeric category is a number, and not a not-a-number unless it says so. -/
theorem exists_number (h : v.category? = some .numeric) :
    ∃ a, v.number? = some a ∧ (v.isNaN = false → a.isNaN = false) := by
  cases v <;> cases h
  case float32 x => exact ⟨_, rfl, Binary.isNaN_convert⟩
  all_goals exact ⟨_, rfl, id⟩

theorem compareBy?_of_numbers {a b : AnyNumber} (hv : v.number? = some a) (hw : w.number? = some b) :
    v.compareBy? mode w = a.compare? b := by
  cases v <;> cases hv <;> cases w <;> cases hw <;> rfl

/-- Two values of one category with a meaningful order are in an order, if both are in one at
all. -/
theorem exists_compareBy? (mode : StringComparison) (ht : t.isOrdered = true)
    (hv : v.category? = some t.category) (hw : w.category? = some t.category)
    (nv : v.isNaN = false) (nw : w.isNaN = false) :
    ∃ o, v.compareBy? mode w = some o := by
  unfold ValueType.isOrdered at ht
  generalize t.category = c at ht hv hw
  cases c with
  | numeric =>
    obtain ⟨a, ha, na⟩ := exists_number hv
    obtain ⟨b, hb, nb⟩ := exists_number hw
    rw [compareBy?_of_numbers ha hb]
    exact AnyNumber.exists_compare? (na nv) (nb nw)
  | temporal => cases v <;> cases hv <;> cases w <;> cases hw <;> exact ⟨_, rfl⟩
  | string | enum =>
    cases v <;> cases hv
    cases w <;> cases hw
    exact ⟨_, rfl⟩
  | _ => cases ht

/-- Where values are ordered, only null and not-a-numbers have no order to another value. -/
theorem unordered_of_compareBy?_eq_none (ht : t.isOrdered = true) (same : t.category = u.category)
    (hv : v.HasType t) (hw : w.HasType u) (h : v.compareBy? mode w = none) :
    v.Unordered ∨ w.Unordered := by
  rcases hv.category?_eq with rfl | hv
  · exact .inl (.inl rfl)
  rcases hw.category?_eq with rfl | hw
  · exact .inr (.inl rfl)
  cases nv : v.isNaN with
  | true => exact .inl (.inr nv)
  | false =>
    cases nw : w.isNaN with
    | true => exact .inr (.inr nw)
    | false =>
      obtain ⟨o, ho⟩ := exists_compareBy? mode ht hv (same ▸ hw) nv nw
      rw [ho] at h
      cases h

end Value

end EntityQuery
