import EntityQuery.Literal
import EntityQuery.Proofs.Outcome
import EntityQuery.Proofs.Value.Compatible

/-!
# Types of literals

A literal that converts to a type becomes a value of just that type, whatever kind of JSON it is: a
float is finite, an ordinal is one that the enum has, and a related entity is not written as a
literal at all. It becomes null only if it is null. The items of a list that it stands for are such
values of the type of the items, whether they come from an array, from a text with commas or from
the literal itself.

The main result is `Literal.convert_type_sound`. Other modules rely on less, that the value belongs to
the type and is no not-a-number: `Literal.constant_convert` and `Literal.constant_of_mem`.
-/

namespace EntityQuery

/-- A value of just a type, other than null, as a literal may stand for it. -/
inductive Value.Proper : ValueType → Value → Prop where
  | bool (b : Bool) : Proper .bool (.bool b)
  | int32 (n : Int32) : Proper .int32 (.int32 n)
  | int64 (n : Int64) : Proper .int64 (.int64 n)
  | float32 {x : Binary32} (finite : x.isFinite = true) : Proper .float32 (.float32 x)
  | float64 {x : Binary64} (finite : x.isFinite = true) : Proper .float64 (.float64 x)
  | decimal (d : Decimal) : Proper .decimal (.decimal d)
  | string (s : String) : Proper .string (.string s)
  | uuid (u : Uuid) : Proper .uuid (.uuid u)
  | date (d : Date) : Proper .date (.date d)
  | timestamp (t : Timestamp) : Proper .timestamp (.timestamp t)
  /-- A variant that the enum has. -/
  | enum {e : EnumType} {ordinal : Nat} (h : ordinal < e.variants.length) :
      Proper (.enum e) (.enum ordinal)
  /-- The items of a list are null, or values of just its element type. -/
  | list {t : ValueType} {items : List Value} (h : ∀ v ∈ items, v ≠ .null → Proper t v) :
      Proper (.list t) (.list items)

/-- A value that a literal may stand for, as one of a type. -/
structure Value.Constant (t : ValueType) (v : Value) : Prop where
  hasType : v.HasType t
  notNaN : v.isNaN = false

variable {t : ValueType} {j : Json} {v : Value}

/-! ### Values of just a type -/

theorem Value.Proper.ne_null (h : v.Proper t) : v ≠ .null := by
  rintro rfl
  cases h

theorem Value.Proper.hasType (h : v.Proper t) : v.HasType t := by
  induction h with
  | @list t items _ ih =>
    refine .list fun v hv => ?_
    by_cases null : v = .null
    · rw [null]
      exact .null t
    · exact ih v hv null
  | _ => constructor

theorem Value.Proper.constant (h : v.Proper t) : v.Constant t := by
  refine ⟨h.hasType, ?_⟩
  cases h with
  | float32 finite => exact Binary.isNaN_of_isFinite finite
  | float64 finite => exact Binary.isNaN_of_isFinite finite
  | _ => rfl

namespace Literal

/-! ### Single values -/

theorem isFinite_of_toFloat? {x : Binary64} (h : toFloat? j = some x) : x.isFinite = true := by
  unfold toFloat? at h
  dsimp only at h
  obtain ⟨y, -, h⟩ := Option.bind_eq_some_iff.mp h
  split at h
  · next finite =>
    obtain rfl := Option.some.inj h
    exact finite
  · cases h

/-- What is not beyond the largest number of the 32-bit format is not rounded to infinity there. -/
theorem isFinite_of_toFloat32? {x : Binary32} (h : toFloat32? j = some x) : x.isFinite = true := by
  obtain ⟨y, hy, h⟩ := Option.bind_eq_some_iff.mp h
  split at h
  · next within =>
    obtain rfl := Option.some.inj h
    have largest : (maxFloat32.convert .binary32).code < Binary.Format.binary32.infinity := by
      decide +kernel
    have finite : maxFloat32.isFinite = true := by decide +kernel
    exact Binary.isFinite_iff.mpr
      ((Binary.code_convert_le (isFinite_of_toFloat? hy) finite within).trans_lt largest)
  · cases h

/-- An ordinal, as a name or in digits, is that of a variant. -/
theorem lt_of_toOrdinal? {e : EnumType} {ordinal : Nat} (h : toOrdinal? e j = some ordinal) :
    ordinal < e.variants.length := by
  have contained (o : Option Nat) (h : o.filter e.contains = some ordinal) :
      ordinal < e.variants.length := by
    simpa [EnumType.contains] using (Option.filter_eq_some_iff.mp h).2
  cases j with
  | number n => exact contained _ h
  | string s =>
    rcases Option.or_eq_some_iff.mp h with named | ⟨-, written⟩
    · exact (List.findIdx?_eq_some_iff_getElem.mp named).1
    · exact contained _ written
  | _ => cases h

/-- A literal that is not null becomes a value of just the type. -/
theorem proper_of_toScalar? (h : toScalar? j t = some v) : v.Proper t := by
  cases t with
  | record | list => cases h
  | float32 =>
    obtain ⟨x, hx, rfl⟩ := Option.map_eq_some_iff.mp h
    exact .float32 (isFinite_of_toFloat32? hx)
  | float64 =>
    obtain ⟨x, hx, rfl⟩ := Option.map_eq_some_iff.mp h
    exact .float64 (isFinite_of_toFloat? hx)
  | enum e =>
    obtain ⟨ordinal, ho, rfl⟩ := Option.map_eq_some_iff.mp h
    exact .enum (lt_of_toOrdinal? ho)
  | _ =>
    obtain ⟨_, -, rfl⟩ := Option.map_eq_some_iff.mp h
    constructor

/-- A literal that is not null becomes what it is for the type, if it is anything. -/
theorem scalar_eq_ok_iff (h : j.isNull = false) : scalar t j = .ok v ↔ toScalar? j t = some v := by
  rw [scalar, h]
  cases toScalar? j t <;> simp

theorem scalar_eq_ok_iff_exists {α : Type} {o : Option α} {make : α → Value}
    (h : j.isNull = false) (made : toScalar? j t = o.map make) :
    scalar t j = .ok v ↔ ∃ a, v = make a ∧ o = some a := by
  rw [scalar_eq_ok_iff h, made, Option.map_eq_some_iff]
  exact exists_congr fun _ => and_comm.trans (and_congr_left' eq_comm)

theorem proper_scalar (h : scalar t j = .ok v) :
    v = .null ∧ j.isNull = true ∨ v.Proper t ∧ j.isNull = false := by
  cases null : j.isNull with
  | true =>
    rw [scalar, null] at h
    exact .inl ⟨(Except.ok.inj h).symm, rfl⟩
  | false => exact .inr ⟨proper_of_toScalar? ((scalar_eq_ok_iff null).mp h), rfl⟩

/-! ### Lists -/

/-- A list that a literal stands for has items that its elements are converted to, or strings that
its text is cut into. -/
theorem items_of_listOf {element : Json → Except CompileError Value} {strings : Bool}
    {P : Value → Prop} (converted : ∀ j v, element j = .ok v → P v)
    (cut : strings = true → ∀ s, P (.string s)) (h : listOf element strings j = .ok v) :
    v = .null ∧ j.isNull = true ∨ (∃ items, v = .list items ∧ ∀ m ∈ items, P m) ∧ j.isNull = false := by
  have single {j : Json} (h : (element j).map (fun v => .list [v]) = .ok v) :
      ∃ items, v = .list items ∧ ∀ m ∈ items, P m := by
    obtain ⟨w, hw, rfl⟩ := Outcome.map_eq_ok_iff.mp h
    refine ⟨[w], rfl, fun m hm => ?_⟩
    obtain rfl := List.mem_singleton.mp hm
    exact converted _ _ hw
  have each (js : List Json) (h : (js.mapM element).map Value.list = .ok v) :
      ∃ items, v = .list items ∧ ∀ m ∈ items, P m := by
    obtain ⟨items, hi, rfl⟩ := Outcome.map_eq_ok_iff.mp h
    refine ⟨items, rfl, fun m hm => ?_⟩
    obtain ⟨j, -, hj⟩ := Outcome.exists_of_mem_mapM hi hm
    exact converted j m hj
  cases j with
  | null => exact .inl ⟨(Except.ok.inj h).symm, rfl⟩
  | array js => exact .inr ⟨each js h, rfl⟩
  | string s =>
    refine .inr ⟨?_, rfl⟩
    rw [listOf] at h
    split at h
    · split at h
      · next hs =>
        refine ⟨_, (Except.ok.inj h).symm, fun m hm => ?_⟩
        obtain ⟨s, -, rfl⟩ := List.mem_map.mp hm
        exact cut hs s
      · next pieces _ _ =>
        refine each (pieces.map .string) ?_
        rwa [List.mapM_map]
    · exact single h
  | _ => exact .inr ⟨single h, rfl⟩

/-- Strings that a text is cut into are what the elements are to be. -/
theorem proper_string (h : t.isString = true) (s : String) : (Value.string s).Proper t := by
  cases t <;> cases h
  exact .string s

/-! ### Values of a type -/

theorem convertList_eq_convert (t : ValueType) (j : Json) : convertList t j = convert (.list t) j :=
  rfl

/-- Null becomes null, whatever the type. -/
theorem convert_of_isNull (h : j.isNull = true) : convert t j = .ok .null := by
  cases j <;> cases h
  cases t <;> rfl

/-- What a literal becomes is null, and then the literal is, or a value of just the type. -/
theorem null_or_proper (t : ValueType) : ∀ j v, convert t j = .ok v →
    v = .null ∧ j.isNull = true ∨ v.Proper t ∧ j.isNull = false := by
  induction t with
  | list t ih =>
    intro j v h
    have items := items_of_listOf (P := fun m => m ≠ .null → m.Proper t)
      (fun j m hm present => ((ih j m hm).resolve_left fun null => present null.1).1)
      (fun strings s _ => proper_string strings s) h
    rcases items with null | ⟨⟨items, rfl, hi⟩, present⟩
    · exact .inl null
    · exact .inr ⟨.list hi, present⟩
  | _ => exact fun _ _ h => proper_scalar h

/-- A literal becomes a value of the type that it is converted to, and a number if it becomes a
float. -/
theorem constant_convert (h : convert t j = .ok v) : v.Constant t := by
  rcases null_or_proper t j v h with ⟨rfl, -⟩ | ⟨proper, -⟩
  · exact ⟨.null t, rfl⟩
  · exact proper.constant

/-- Only null becomes null. -/
theorem isNull_of_convert (h : convert t j = .ok .null) : j.isNull = true := by
  rcases null_or_proper t j .null h with ⟨-, null⟩ | ⟨proper, -⟩
  · exact null
  · exact absurd rfl proper.ne_null

/-- The items of a list that a literal stands for are such values of the type of the items. -/
theorem constant_of_mem {items : List Value} (h : convertList t j = .ok (.list items)) :
    ∀ m ∈ items, m.Constant t := by
  intro m hm
  rcases null_or_proper (.list t) j _ h with ⟨null, -⟩ | ⟨proper, -⟩
  · cases null
  · cases proper with
    | list hi =>
      by_cases null : m = .null
      · rw [null]
        exact ⟨.null t, rfl⟩
      · exact (hi m hm null).constant

/-- **Conversion is sound.** What a literal becomes is null if and only if the literal is, and else
a value of just the type: its floats are finite, its ordinals are those of variants, and at every
depth the items of its lists are null or such values. This is so for the list that a literal stands
for, too, whether the literal is an array, a text with commas or a single value. Null converts to
every type, and nothing else to a related entity. -/
theorem convert_type_sound (t : ValueType) (j : Json) :
    (∀ v, convert t j = .ok v →
      (v = .null ↔ j.isNull = true) ∧ (j.isNull = false → v.Proper t)) ∧
    (∀ v, convertList t j = .ok v →
      (v = .null ↔ j.isNull = true) ∧ (j.isNull = false → v.Proper (.list t))) ∧
    (j.isNull = true → convert t j = .ok .null ∧ convertList t j = .ok .null) ∧
    (t.isRecord = true → j.isNull = false → convert t j = .error (mismatch j t)) := by
  have sound {t : ValueType} {v : Value} (h : convert t j = .ok v) :
      (v = .null ↔ j.isNull = true) ∧ (j.isNull = false → v.Proper t) := by
    rcases null_or_proper t j v h with ⟨rfl, null⟩ | ⟨proper, present⟩
    · exact ⟨iff_of_true rfl null, fun present => absurd null (by simp [present])⟩
    · exact ⟨iff_of_false proper.ne_null (by simp [present]), fun _ => proper⟩
  rw [convertList_eq_convert]
  refine ⟨fun v => sound, fun v => sound, fun null => ?_, fun record present => ?_⟩
  · exact ⟨convert_of_isNull null, convert_of_isNull null⟩
  · cases t with
    | record name =>
      change scalar (.record name) j = _
      rw [scalar, present]
      rfl
    | _ => cases record

/-- Variants of an enum in lists within a list: by name and by ordinal in a text with commas, and
one ordinal alone; a list that is missing stays missing. None of it is a related entity. -/
theorem convert_type_sound_variants :
    let status : EnumType := ⟨"Status", ["Active", "Suspended", "Closed"]⟩
    let t : ValueType := .list (.enum status)
    let j : Json := .array [.string "closed, 0", .null, .number (.integer 1 (by decide))]
    let expected : Value := .list [.list [.enum 2, .enum 0], .null, .list [.enum 1]]
    (∃ v, convertList t j = .ok v ∧ v.equal expected = true ∧ j.isNull = false ∧
      v ≠ .null ∧ v.Proper (.list t)) ∧
    (∃ v, convert (.list t) j = .ok v ∧ v.equal expected = true ∧ v ≠ .null ∧
      v.Proper (.list t)) ∧
    (ValueType.record "Author").isRecord = true ∧
    convert (.record "Author") j = .error (mismatch j (.record "Author")) ∧
    Json.null.isNull = true ∧ convert t .null = .ok .null := by
  intro status t j expected
  have run : (convertList t j).toOption.map (fun v => v.equal expected) = some true := by
    decide +kernel
  obtain ⟨v, hv, equal⟩ := Outcome.exists_of_toOption run
  obtain ⟨null, proper⟩ := (convert_type_sound t j).2.1 v hv
  obtain ⟨null', proper'⟩ := (convert_type_sound (.list t) j).1 v hv
  refine ⟨⟨v, hv, equal, rfl, fun h => ?_, proper rfl⟩, ⟨v, hv, equal, fun h => ?_, proper' rfl⟩, rfl,
    (convert_type_sound (.record "Author") j).2.2.2 rfl rfl, rfl,
    ((convert_type_sound t .null).2.2.1 rfl).1⟩
  · cases null.mp h
  · cases null'.mp h

end Literal

end EntityQuery
