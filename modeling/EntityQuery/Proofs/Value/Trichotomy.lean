import EntityQuery.Condition.Rule
import EntityQuery.Proofs.Value.Compatible
import EntityQuery.Proofs.Value.Twin

/-!
# Less, equal, greater

Six operators compare two values: by equality, by one of the four orders, and by inequality.
Equality and order are asked in two different ways, and both fold strings on their own. They agree
on all values that have a place in the order of their category, whatever the widths of numbers, and
also on a date and a point of time: exactly one of less, equal and greater holds, and the other
three operators are put together from these (`Value.trichotomy`). Null is not compared with
anything but by being unequal to it.
-/

namespace EntityQuery

/-- Does a comparison hold of two values? -/
def Value.comparesBy (mode : StringComparison) (op : Operator) (v w : Value) : Bool :=
  op.isNegative ^^
    match op.positive.relation? with
    | some relation => v.relatedBy mode relation w
    | none => v.equalBy mode w

/-- Of what the six comparisons say: one of less, equal and greater holds, and no two of them, and
the others are put together from these. -/
structure Operator.Trichotomy (holds : Operator → Bool) : Prop where
  exactlyOne : [holds .lessThan, holds .equal, holds .greaterThan].count true = 1
  lessThanOrEqual : holds .lessThanOrEqual = (holds .lessThan || holds .equal)
  greaterThanOrEqual : holds .greaterThanOrEqual = (holds .greaterThan || holds .equal)
  notEqual : holds .notEqual = !holds .equal

namespace Value

variable {mode : StringComparison} {v w : Value} {t u : ValueType}

/-- Where values are ordered, they are equal if they are in no other order. -/
theorem equalBy_eq_of_isOrdered (ht : t.isOrdered = true) (hv : v.category? = some t.category)
    (hw : w.category? = some t.category) :
    v.equalBy mode w = (v.compareBy? mode w == some .eq) := by
  unfold ValueType.isOrdered at ht
  generalize t.category = c at ht hv hw
  cases c with
  | numeric =>
    obtain ⟨b, hb, -⟩ := exists_number hw
    rw [equalBy_number hb, compareBy?_number hb, equal_number hb]
  | string =>
    cases v <;> cases hv
    cases w <;> cases hw
    next x y =>
      change (mode.fold x == mode.fold y) = (some (compare (mode.fold x) (mode.fold y)) == some .eq)
      rw [Bool.eq_iff_iff]
      simp only [beq_iff_eq, Option.some.injEq, Std.compare_eq_iff_eq]
  | temporal => cases v <;> cases hv <;> cases w <;> cases hw <;> rfl
  | enum =>
    cases v <;> cases hv
    cases w <;> cases hw
    rfl
  | _ => cases ht

/-- One order of two values decides the six comparisons. -/
theorem trichotomy_of_compareBy? {order : Ordering} (ho : v.compareBy? mode w = some order)
    (he : v.equalBy mode w = (v.compareBy? mode w == some .eq)) :
    Operator.Trichotomy fun op => v.comparesBy mode op w := by
  have related (r : Relation) : v.relatedBy mode r w = r.accepts order := by
    rw [relatedBy, ho, Option.any_some]
  rw [ho] at he
  constructor <;>
    simp only [comparesBy, Operator.isNegative, Operator.positive, Operator.relation?, related,
      he] <;>
    cases order <;> rfl

/-- **Less, equal, greater**: of two values that have a place in the order of their category exactly
one of these holds. -/
theorem trichotomy (ht : t.isOrdered = true) (same : t.category = u.category) (hv : v.HasType t)
    (hw : w.HasType u) (pv : ¬ v.Unordered) (pw : ¬ w.Unordered) :
    Operator.Trichotomy fun op => v.comparesBy mode op w := by
  obtain ⟨notNull, number⟩ := not_or.mp pv
  obtain ⟨notNull', number'⟩ := not_or.mp pw
  have cv := hv.category?_eq.resolve_left notNull
  have cw := hw.category?_eq.resolve_left notNull'
  rw [← same] at cw
  rw [Bool.not_eq_true] at number number'
  obtain ⟨order, ho⟩ := exists_compareBy? mode ht cv cw number number'
  exact trichotomy_of_compareBy? ho (equalBy_eq_of_isOrdered ht cv cw)

/-- Null is unequal to every other value, and that is all. -/
theorem comparesBy_null {op : Operator} (hw : w ≠ .null) (hop : op.comparesProperties = true) :
    comparesBy mode op .null w = (op == .notEqual) := by
  have unordered : compareBy? mode .null w = none := by cases w <;> rfl
  have unequal : equalBy mode .null w = false := by
    cases w <;> first | rfl | exact absurd rfl hw
  have unrelated (r : Relation) : relatedBy mode r .null w = false := by
    rw [relatedBy, unordered, Option.any_none]
  cases op <;> cases hop <;>
    simp only [comparesBy, Operator.isNegative, Operator.positive, Operator.relation?, unrelated,
      unequal] <;> rfl

end Value

end EntityQuery
