import EntityQuery.Proofs.Value.Number

/-!
# The sort order

Every value has a tier. Values of different tiers are in the order of their tiers, and values of
one tier that are not numbers are in the order of what they hold. Numbers are among themselves in
an order of their own, which is not transitive for two reasons only, and these two are the whole
difference between the sort order and a total order (`Value.sortOrder_transitive_iff`): a float may
tie with an integer or a decimal that another number tells apart from it, and the variants of enums
stand between the decimals and all other numbers, whatever numbers these are.
-/

namespace EntityQuery.Value

variable {v w : Value}

/-! ### Kinds -/

/-- The names of the kinds of values, in their order. -/
def kinds : Vector String 14 :=
  #v["bool", "date", "datetime", "decimal", "enum", "float32", "float64", "int32", "int64", "list",
    "null", "record", "string", "uuid"]

/-- The place of the kind of a value among the names of kinds. -/
def kindIndex : Value → Fin 14
  | .bool _ => 0
  | .date _ => 1
  | .timestamp _ => 2
  | .decimal _ => 3
  | .enum _ => 4
  | .float32 _ => 5
  | .float64 _ => 6
  | .int32 _ => 7
  | .int64 _ => 8
  | .list _ => 9
  | .null => 10
  | .record => 11
  | .string _ => 12
  | .uuid _ => 13

theorem compare_kinds : ∀ i j : Fin 14, compare kinds[i] kinds[j] = compare i j := by
  decide

/-- Kinds are in the order of their names. -/
theorem compare_kind (v w : Value) : compare v.kind w.kind = compare v.kindIndex w.kindIndex := by
  have kind_eq (v : Value) : v.kind = kinds[v.kindIndex] := by cases v <;> rfl
  rw [kind_eq, kind_eq, compare_kinds]

/-! ### Tiers -/

/-- The tier of a value. Dates share theirs with points of time; the numbers that are no decimals
share one above the variants of enums. -/
def tier : Value → ℕ
  | .null => 0
  | .bool _ => 1
  | .date _ | .timestamp _ => 2
  | .decimal _ => 3
  | .enum _ => 4
  | .float32 _ | .float64 _ | .int32 _ | .int64 _ => 5
  | .list _ => 6
  | .record => 7
  | .string _ => 8
  | .uuid _ => 9

theorem number?_eq_none_iff : v.number? = none ↔ v.tier ≠ 3 ∧ v.tier ≠ 5 := by
  cases v <;> simp [number?, tier]

theorem tier_eq_five_iff : v.tier = 5 ↔ v.number? ≠ none ∧ ∀ d, v ≠ .decimal d := by
  cases v <;> simp [number?, tier]

theorem exists_decimal (h : v.tier = 3) : ∃ d, v = .decimal d := by
  cases v <;> first | exact ⟨_, rfl⟩ | cases h

theorem exists_enum (h : v.tier = 4) : ∃ ordinal, v = .enum ordinal := by
  cases v <;> first | exact ⟨_, rfl⟩ | cases h

/-- Kinds of different tiers are in the order of their tiers. -/
theorem compare_kind_of_tier (h : v.tier ≠ w.tier) (hv : v.isNull = false) (hw : w.isNull = false) :
    compare v.kind w.kind = compare v.tier w.tier := by
  rw [compare_kind]
  cases v <;> cases w <;> first | rfl | exact absurd rfl h | contradiction

theorem compareOther?_of_tier (h : v.tier ≠ w.tier) : compareOther? v w = none := by
  cases v <;> cases w <;> first | rfl | exact absurd rfl h

theorem sortOrder_of_numbers {a b : AnyNumber} (hv : v.number? = some a) (hw : w.number? = some b) :
    sortOrder v w = a.order b := by
  cases v <;> cases hv <;> cases w <;> cases hw <;> rfl

theorem sortOrder_of_not_null (hv : v.isNull = false) (hw : w.isNull = false) :
    sortOrder v w = sortOrderPresent v w := by
  cases v <;> first | contradiction | cases w <;> first | rfl | contradiction

/-- Values that are not both numbers are in the order of their tiers, if these differ. -/
theorem sortOrder_of_tier (h : v.tier ≠ w.tier) (hn : v.number? = none ∨ w.number? = none) :
    sortOrder v w = compare v.tier w.tier := by
  -- Null is the only value of its tier, the lowest one.
  cases hv : v.isNull with
  | true =>
    cases v <;> cases hv
    cases w <;> rfl
  | false =>
    cases hw : w.isNull with
    | true =>
      cases w <;> cases hw
      cases v <;> rfl
    | false =>
      rw [sortOrder_of_not_null hv hw, sortOrderPresent, compare?, compareOther?_of_tier h,
        ← compare_kind_of_tier h hv hw]
      rcases hn with hn | hn
      · rw [hn]
        rfl
      · rw [hn]
        cases v.number? <;> rfl

/-! ### The order in a tier -/

/-- The seconds of a date or a point of time; other values have none. -/
def seconds : Value → ℤ
  | .date d => (Timestamp.midnight d).seconds
  | .timestamp t => t.seconds
  | _ => 0

/-- What a value counts: a truth value as 0 or 1, an ordinal, the number of an identifier, and the
nanoseconds of a point of time. -/
def count : Value → ℕ
  | .bool b => b.toNat
  | .timestamp t => t.nanos
  | .enum ordinal => ordinal
  | .uuid u => u.value
  | _ => 0

/-- The text of a string; other values have none. -/
def text (v : Value) : String := v.string?.getD ""

/-- The order of values of one tier that are not numbers. -/
def orderInTier : Value → Value → Ordering :=
  compareLex (compareOn seconds) (compareLex (compareOn count) (compareOn text))

instance : Std.TransCmp orderInTier := inferInstanceAs (Std.TransCmp (compareLex _ _))

/-- Midnights are in the order of their days. -/
theorem compare_midnight (d e : Date) :
    compare (Timestamp.midnight d).seconds (Timestamp.midnight e).seconds =
      compare d.day e.day := by
  rw [← cmp_eq_compare, ← cmp_eq_compare]
  exact cmp_mul_pos_right (by decide) _ _

/-- Values of one tier that are not numbers are in the order of what they hold. -/
theorem sortOrder_of_same_tier (h : v.tier = w.tier) (hv : v.number? = none) :
    sortOrder v w = orderInTier v w := by
  have parts : orderInTier v w = (compare v.seconds w.seconds).then
    ((compare v.count w.count).then (compare v.text w.text)) := rfl
  rw [parts]
  cases v <;> cases hv <;> cases w <;> try cases h
  case bool.refl.bool.refl a b => cases a <;> cases b <;> rfl
  case date.refl.date.refl d e =>
    simp only [seconds, compare_midnight, count, text, string?, Option.getD_none,
      Std.ReflCmp.compare_self, Ordering.then_eq]
    rfl
  case list.refl.list.refl vs ws =>
    simp only [seconds, count, text, string?, Option.getD_none, Std.ReflCmp.compare_self,
      Ordering.then_eq]
    exact (Std.ReflCmp.compare_self : compare "list" "list" = .eq)
  all_goals
    simp only [seconds, count, text, string?, Option.getD_none, Option.getD_some,
      Std.ReflCmp.compare_self, Ordering.then_eq, Ordering.eq_then]
    rfl

/-! ### Swapping -/

/-- Swapping the values swaps the order. -/
theorem sortOrder_swap (v w : Value) : sortOrder w v = (sortOrder v w).swap := by
  by_cases hn : v.number? = none ∨ w.number? = none
  · by_cases h : v.tier = w.tier
    · have both : v.number? = none ∧ w.number? = none := by
        simp only [number?_eq_none_iff, h, or_self] at hn
        simpa only [number?_eq_none_iff, h, and_self] using hn
      rw [sortOrder_of_same_tier h both.1, sortOrder_of_same_tier h.symm both.2]
      exact Std.OrientedCmp.eq_swap
    · rw [sortOrder_of_tier h hn, sortOrder_of_tier (Ne.symm h) hn.symm]
      exact Std.OrientedCmp.eq_swap
  · simp only [not_or, ← ne_eq, Option.ne_none_iff_exists'] at hn
    obtain ⟨⟨a, ha⟩, b, hb⟩ := hn
    rw [sortOrder_of_numbers ha hb, sortOrder_of_numbers hb ha, AnyNumber.order_swap]

theorem sortOrder_self (v : Value) : sortOrder v v = .eq := by
  have := sortOrder_swap v v
  cases h : sortOrder v v <;> simp_all

/-! ### Transitivity -/

/-- The sort order is transitive on a set of values, and so is being equal in it. -/
def SortsTransitively (R : Value → Prop) : Prop :=
  (∀ u v w, R u → R v → R w → sortOrder u v ≠ .gt → sortOrder v w ≠ .gt → sortOrder u w ≠ .gt) ∧
    ∀ u v w, R u → R v → R w → sortOrder u v = .eq → sortOrder v w = .eq → sortOrder u w = .eq

/-- No number of a set tells a float and an exact number of it apart that are equal in order. -/
def TiesAgree (R : Value → Prop) : Prop :=
  ∀ u v w a b c, R u → R v → R w → u.number? = some a → v.number? = some b → w.number? = some c →
    a.isFloat ≠ b.isFloat → sortOrder u v = .eq → sortOrder u w = sortOrder v w

/-- Where a set has variants of enums, its decimals are less than all its other numbers. -/
def EnumsApart (R : Value → Prop) : Prop :=
  ∀ ordinal d v, R (.enum ordinal) → R (.decimal d) → R v → v.number? ≠ none →
    (∀ e, v ≠ .decimal e) → sortOrder (.decimal d) v = .lt

section Transitive

variable {R : Value → Prop} {u v w : Value}

/-- Transitivity by levels: values of different levels are in the order of their levels. -/
theorem sortOrder_trans_of_level (level : Value → ℕ)
    (apart : ∀ v w, R v → R w → level v ≠ level w → sortOrder v w = compare (level v) (level w))
    (same : level u = level v → level v = level w → sortOrder u v ≠ .gt → sortOrder v w ≠ .gt →
      sortOrder u w ≠ .gt)
    (mu : R u) (mv : R v) (mw : R w) (huv : sortOrder u v ≠ .gt) (hvw : sortOrder v w ≠ .gt) :
    sortOrder u w ≠ .gt := by
  have level_le {v w : Value} (mv : R v) (mw : R w) (h : sortOrder v w ≠ .gt) :
      level v ≤ level w := by
    by_contra hlt
    rw [apart v w mv mw (by omega)] at h
    exact hlt (compare_le_iff_le.mp h)
  have first := level_le mu mv huv
  have second := level_le mv mw hvw
  by_cases h : level u = level w
  · exact same (by omega) (by omega) huv hvw
  · rw [apart u w mu mw h]
    exact compare_le_iff_le.mpr (first.trans second)

/-- Values that are equal in tier, or all numbers, are in a transitive order. -/
theorem sortOrder_trans_of_same (ties : TiesAgree R) (mu : R u) (mv : R v) (mw : R w)
    (h : u.number? = none ∧ u.tier = v.tier ∧ v.tier = w.tier ∨
      u.number? ≠ none ∧ v.number? ≠ none ∧ w.number? ≠ none)
    (huv : sortOrder u v ≠ .gt) (hvw : sortOrder v w ≠ .gt) : sortOrder u w ≠ .gt := by
  rcases h with ⟨hu, first, second⟩ | ⟨hu, hv, hw⟩
  · have hv : v.number? = none := by rwa [number?_eq_none_iff, ← first, ← number?_eq_none_iff]
    rw [sortOrder_of_same_tier first hu] at huv
    rw [sortOrder_of_same_tier second hv] at hvw
    rw [sortOrder_of_same_tier (first.trans second) hu]
    exact Ordering.isLE_iff_ne_gt.mp (Std.TransCmp.isLE_trans
      (Ordering.isLE_iff_ne_gt.mpr huv) (Ordering.isLE_iff_ne_gt.mpr hvw))
  · obtain ⟨a, ha⟩ := Option.ne_none_iff_exists'.mp hu
    obtain ⟨b, hb⟩ := Option.ne_none_iff_exists'.mp hv
    obtain ⟨c, hc⟩ := Option.ne_none_iff_exists'.mp hw
    rw [sortOrder_of_numbers ha hb] at huv
    rw [sortOrder_of_numbers hb hc] at hvw
    rw [sortOrder_of_numbers ha hc]
    refine AnyNumber.order_trans (R := fun a => ∃ v, R v ∧ v.number? = some a) ?_
      ⟨u, mu, ha⟩ ⟨v, mv, hb⟩ ⟨w, mw, hc⟩ huv hvw
    rintro a b c ⟨u, mu, ha⟩ ⟨v, mv, hb⟩ ⟨w, mw, hc⟩ kind tie
    rw [← sortOrder_of_numbers ha hb] at tie
    rw [← sortOrder_of_numbers ha hc, ← sortOrder_of_numbers hb hc]
    exact ties u v w a b c mu mv mw ha hb hc kind tie

/-- Among enums, decimals and other numbers are on two sides of the enums. -/
theorem sortOrder_of_tier_of_enum (enums : EnumsApart R) {ordinal : ℕ} (me : R (.enum ordinal))
    (mv : R v) (mw : R w) (h : v.tier ≠ w.tier) : sortOrder v w = compare v.tier w.tier := by
  by_cases hn : v.number? = none ∨ w.number? = none
  · exact sortOrder_of_tier h hn
  · simp only [number?_eq_none_iff, not_or, not_and_or, not_not] at hn
    obtain ⟨hv | hv, hw | hw⟩ := hn
    · omega
    · obtain ⟨d, rfl⟩ := exists_decimal hv
      obtain ⟨number, other⟩ := tier_eq_five_iff.mp hw
      rw [enums ordinal d w me mv mw number other, hv, hw]
      rfl
    · obtain ⟨d, rfl⟩ := exists_decimal hw
      obtain ⟨number, other⟩ := tier_eq_five_iff.mp hv
      rw [sortOrder_swap, enums ordinal d v me mw mv number other, hv, hw]
      rfl
    · omega

/-- The tier where all numbers count as one. -/
def level (v : Value) : ℕ := if v.tier = 3 then 5 else v.tier

/-- Without enums, all numbers are on the same side of every other value. -/
theorem sortOrder_of_level (none : ∀ ordinal, ¬ R (.enum ordinal)) (mv : R v) (mw : R w)
    (h : v.level ≠ w.level) : sortOrder v w = compare v.level w.level := by
  have not_enum {v : Value} (mv : R v) : v.tier ≠ 4 := by
    intro h
    obtain ⟨ordinal, rfl⟩ := exists_enum h
    exact none ordinal mv
  have hv := not_enum mv
  have hw := not_enum mw
  have hn : v.number? = .none ∨ w.number? = .none := by
    simp only [number?_eq_none_iff]
    unfold level at h
    split_ifs at h <;> omega
  have ht : v.tier ≠ w.tier := by
    intro ht
    unfold level at h
    rw [ht] at h
    exact h rfl
  rw [sortOrder_of_tier ht hn]
  unfold level at h ⊢
  rcases lt_or_gt_of_ne ht with hlt | hgt
  · rw [compare_lt_iff_lt.mpr hlt]
    refine (compare_lt_iff_lt.mpr ?_).symm
    split_ifs at h ⊢ <;> omega
  · rw [compare_gt_iff_gt.mpr hgt]
    refine (compare_gt_iff_gt.mpr ?_).symm
    split_ifs at h ⊢ <;> omega

theorem sortOrder_trans (ties : TiesAgree R) (enums : EnumsApart R) (mu : R u) (mv : R v) (mw : R w)
    (huv : sortOrder u v ≠ .gt) (hvw : sortOrder v w ≠ .gt) : sortOrder u w ≠ .gt := by
  by_cases he : ∃ ordinal, R (.enum ordinal)
  · obtain ⟨ordinal, me⟩ := he
    refine sortOrder_trans_of_level tier (fun v w => sortOrder_of_tier_of_enum enums me)
      (fun first second => sortOrder_trans_of_same ties mu mv mw ?_) mu mv mw huv hvw
    by_cases hu : u.number? = none
    · exact .inl ⟨hu, first, second⟩
    · refine .inr ⟨hu, ?_, ?_⟩
      · rwa [ne_eq, number?_eq_none_iff, ← first, ← number?_eq_none_iff]
      · rwa [ne_eq, number?_eq_none_iff, ← second, ← first, ← number?_eq_none_iff]
  · refine sortOrder_trans_of_level level (fun v w => sortOrder_of_level (not_exists.mp he))
      (fun first second => sortOrder_trans_of_same ties mu mv mw ?_) mu mv mw huv hvw
    simp only [ne_eq, number?_eq_none_iff]
    unfold level at first second
    split_ifs at first second <;> omega

/-- Where the order is transitive, values that are equal in it are in the same order with others. -/
theorem sortOrder_congr (h : SortsTransitively R) (mu : R u) (mv : R v) (mw : R w)
    (tie : sortOrder u v = .eq) : sortOrder u w = sortOrder v w := by
  have tie' : sortOrder v u = .eq := by
    rw [sortOrder_swap, tie]
    rfl
  have left : sortOrder u w ≠ .gt ↔ sortOrder v w ≠ .gt :=
    ⟨h.1 v u w mv mu mw (by simp [tie']), h.1 u v w mu mv mw (by simp [tie])⟩
  have right : sortOrder w u ≠ .gt ↔ sortOrder w v ≠ .gt :=
    ⟨fun g => h.1 w u v mw mu mv g (by simp [tie]), fun g => h.1 w v u mw mv mu g (by simp [tie'])⟩
  rw [sortOrder_swap u w, sortOrder_swap v w] at right
  cases hu : sortOrder u w <;> cases hv : sortOrder v w <;> simp_all

end Transitive

/-- **The sort order is transitive on a set of values if and only if** its ties between floats and
exact numbers agree with all its numbers, and its enums, if it has any, do not come between a
decimal and another number. -/
theorem sortOrder_transitive_iff (R : Value → Prop) :
    SortsTransitively R ↔ TiesAgree R ∧ EnumsApart R := by
  constructor
  · intro h
    refine ⟨fun u v w _ _ _ mu mv mw _ _ _ _ tie => sortOrder_congr h mu mv mw tie, ?_⟩
    intro ordinal d v me md mv number other
    have hv : v.tier = 5 := tier_eq_five_iff.mpr ⟨number, other⟩
    have he : (Value.enum ordinal).tier = 4 := rfl
    have below : sortOrder (.decimal d) (.enum ordinal) = .lt :=
      sortOrder_of_tier (by simp [tier]) (.inr rfl)
    have above : sortOrder (.enum ordinal) v = .lt := by
      rw [sortOrder_of_tier (by omega) (.inl rfl), hv]
      rfl
    have le := h.1 _ _ _ md me mv (by simp [below]) (by simp [above])
    cases hd : sortOrder (.decimal d) v with
    | lt => rfl
    | gt => exact absurd hd le
    | eq =>
      have := sortOrder_congr h md mv me hd
      rw [below, sortOrder_swap, above] at this
      contradiction
  · rintro ⟨ties, enums⟩
    have trans (u v w) (mu : R u) (mv : R v) (mw : R w) := sortOrder_trans ties enums mu mv mw
    refine ⟨trans, fun u v w mu mv mw huv hvw => ?_⟩
    have le := trans u v w mu mv mw (by simp [huv]) (by simp [hvw])
    have ge := trans w v u mw mv mu (by simp [sortOrder_swap v w, hvw])
      (by simp [sortOrder_swap u v, huv])
    rw [sortOrder_swap] at ge
    cases h : sortOrder u w <;> simp_all

/-- `2 ^ 53` as a float ties with the integer `2 ^ 53 + 1`, which is greater than the integer
`2 ^ 53`; and the decimal ten is below a variant of an enum, which is below the integer five. -/
theorem sortOrder_not_transitive :
    (sortOrder (.int64 9007199254740993) (.float64 (Binary.ofBits _ 0x4340000000000000)) = .eq ∧
      sortOrder (.float64 (Binary.ofBits _ 0x4340000000000000)) (.int64 9007199254740992) = .eq ∧
      sortOrder (.int64 9007199254740993) (.int64 9007199254740992) = .gt) ∧
    sortOrder (.decimal (.ofInt64 10)) (.enum 0) = .lt ∧
      sortOrder (.enum 0) (.int64 5) = .lt ∧
      sortOrder (.decimal (.ofInt64 10)) (.int64 5) = .gt := by
  decide +kernel

end EntityQuery.Value
