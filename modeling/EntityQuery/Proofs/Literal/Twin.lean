import EntityQuery.Literal
import EntityQuery.Proofs.Outcome
import EntityQuery.Proofs.Value.Twin

/-!
# Literals that count as the same

Equality of literals does not see the sign of a float zero, and everything else it sees. So two
equal literals are *twins*: they are one literal, up to the signs of float zeros and to what
objects contain. Twins convert alike. As anything but a string both zeros become numbers that no
comparison tells apart; as strings they become the texts of the two zeros, `0.0` and `-0.0`, which
are not the same text.

The main result is `Literal.alike_convert`, which says this of every type.
-/

namespace EntityQuery

open Outcome

/-! ### The two zeros -/

namespace Binary

variable {F : Binary.Format} {x y : Binary F}

/-- Numbers at one place are the same, but for the two zeros. -/
theorem eq_or_zero_of_place_eq (h : x.place = y.place) : x = y ∨ x.code = 0 ∧ y.code = 0 := by
  obtain ⟨b, n, hn⟩ := x
  obtain ⟨c, m, hm⟩ := y
  simp only [place] at h
  rcases Nat.eq_zero_or_pos n with rfl | hpos
  · right
    constructor
    · rfl
    · simp only
      split at h <;> split at h <;> omega
  · left
    have parts : b = c ∧ n = m := by
      cases b <;> cases c <;> simp at h ⊢ <;> omega
    obtain ⟨rfl, rfl⟩ := parts
    rfl

/-- Nothing compares differently with the two zeros. -/
theorem compare?_zero (hx : x.code = 0) (hy : y.code = 0) (z : Binary F) :
    z.compare? x = z.compare? y := by
  simp [compare?, isNaN, place, hx, hy]

end Binary

theorem Decimal.ofBinary64?_zero {x : Binary64} (h : x.code = 0) :
    ofBinary64? x = ofParts? false 0 0 := by
  have hf : x.isFinite = true := by
    rw [Binary.isFinite, h]
    decide
  simp [ofBinary64?, hf, h]

/-- No number compares differently with the two float zeros. -/
theorem AnyNumber.compare?_floatZero {x y : Binary64} (hx : x.code = 0) (hy : y.code = 0) (a : AnyNumber) :
    a.compare? (.float x) = a.compare? (.float y) := by
  cases a with
  | integer n => exact Binary.compare?_zero hx hy _
  | float z => exact Binary.compare?_zero hx hy z
  | decimal d =>
    simp only [compare?, compareDecimalFloat?, Decimal.ofBinary64?_zero hx,
      Decimal.ofBinary64?_zero hy]
    rfl

/-! ### Twin literals -/

namespace Json

/-- The zero of a sign as a literal. -/
def floatZero (negative : Bool) : Json :=
  .number (.float (Binary.ofCode .binary64 negative 0) (by cases negative <;> decide))

/-- Literals that differ at most in the sign of zeros and within objects. -/
inductive Twin : Json → Json → Prop where
  /-- A literal with itself. -/
  | refl (j : Json) : Twin j j
  /-- Two float zeros. -/
  | zero (b c : Bool) : Twin (floatZero b) (floatZero c)
  /-- Arrays of twins. -/
  | array {js ks : List Json} : List.Forall₂ Twin js ks → Twin (.array js) (.array ks)
  /-- Two objects, whatever they contain. -/
  | object (fs gs : List (String × Json)) : Twin (.object fs) (.object gs)

theorem number_float_zero {x : Binary64} {hx : x.isFinite = true} (h : x.code = 0) :
    number (.float x hx) = floatZero x.negative := by
  obtain ⟨b, n, hn⟩ := x
  obtain rfl : n = 0 := h
  rfl

theorem Twin.of_number {n m : JsonNumber} (h : n.same m = true) : Twin (.number n) (.number m) := by
  cases n with
  | integer n hn =>
    cases m with
    | integer m hm =>
      obtain rfl : n = m := by simpa [JsonNumber.same] using h
      exact .refl _
    | float y hy => cases h
  | float x hx =>
    cases m with
    | integer m hm => cases h
    | float y hy =>
      have hp : x.place = y.place := by simpa [JsonNumber.same] using h
      rcases Binary.eq_or_zero_of_place_eq hp with rfl | ⟨hx, hy⟩
      · exact .refl _
      · rw [number_float_zero hx, number_float_zero hy]
        exact .zero _ _

mutual
/-- Literals that count as the same are twins. -/
theorem Twin.of_same : ∀ j k : Json, j.same k = true → Twin j k
  | .array js, k, h => by
    cases k with
    | array ks => exact .array (forall₂_of_sameItems js ks (by simpa [same] using h))
    | _ => cases h
  | .null, k, h => by
    cases k <;> first | exact .refl _ | cases h
  | .bool b, k, h => by
    cases k with
    | bool c =>
      obtain rfl : b = c := by simpa [same] using h
      exact .refl _
    | _ => cases h
  | .number n, k, h => by
    cases k with
    | number m => exact .of_number (by simpa [same] using h)
    | _ => cases h
  | .string s, k, h => by
    cases k with
    | string t =>
      obtain rfl : s = t := by simpa [same] using h
      exact .refl _
    | _ => cases h
  | .object fs, k, h => by
    cases k with
    | object gs => exact .object fs gs
    | _ => cases h
theorem forall₂_of_sameItems : ∀ js ks : List Json, sameItems js ks = true →
    List.Forall₂ Twin js ks
  | [], ks, h => by
    cases ks with
    | nil => exact .nil
    | cons k ks => cases h
  | j :: js, ks, h => by
    cases ks with
    | nil => cases h
    | cons k ks =>
      rw [sameItems, Bool.and_eq_true] at h
      exact .cons (Twin.of_same j k h.1) (forall₂_of_sameItems js ks h.2)
end

theorem Twin.isNull_eq {j k : Json} (h : Twin j k) : j.isNull = k.isNull := by
  cases h <;> rfl

theorem Twin.isArray_eq {j k : Json} (h : Twin j k) : j.isArray = k.isArray := by
  cases h <;> rfl

end Json

/-! ### Twins convert alike -/

/-- The type of what lists of a type hold, however deep they are. -/
def ValueType.base : ValueType → ValueType
  | .list t => t.base
  | t => t

namespace Literal

theorem toInt64?_floatZero (b : Bool) : toInt64? (.floatZero b) = some 0 := by
  cases b <;> decide +kernel

theorem toFloat?_floatZero (b : Bool) :
    toFloat? (.floatZero b) = some (Binary.ofCode .binary64 b 0) := by
  cases b <;> decide +kernel

theorem toFloat32?_floatZero (b : Bool) :
    toFloat32? (.floatZero b) = some (Binary.ofCode .binary32 b 0) := by
  cases b <;> decide +kernel

/-- The sign of a zero is lost on the way to a decimal. -/
theorem toDecimal?_floatZero (b : Bool) :
    toDecimal? (.floatZero b) = toDecimal? (.floatZero false) := by
  cases b <;> decide +kernel

theorem code_convert_zero (b : Bool) :
    ((Binary.ofCode .binary32 b 0).convert .binary64).code = 0 := by
  cases b <;> decide +kernel

/-- The two zeros become numbers that compare in the same way, or two texts. -/
theorem alike_scalar_floatZero (t : ValueType) (b c : Bool) :
    Alike (Value.Twin (t.base = .string)) (scalar t (.floatZero b)) (scalar t (.floatZero c)) := by
  cases t with
  | int32 =>
    simp only [scalar, toScalar?, toInt64?_floatZero]
    exact .refl .refl _
  | int64 =>
    simp only [scalar, toScalar?, toInt64?_floatZero]
    exact .refl .refl _
  | float32 =>
    simp only [scalar, toScalar?, toFloat32?_floatZero]
    exact .ok (.number rfl rfl
      (AnyNumber.compare?_floatZero (code_convert_zero b) (code_convert_zero c)))
  | float64 =>
    simp only [scalar, toScalar?, toFloat?_floatZero]
    exact .ok (.number rfl rfl (AnyNumber.compare?_floatZero rfl rfl))
  | decimal =>
    simp only [scalar, toScalar?, toDecimal?_floatZero b, toDecimal?_floatZero c]
    exact .refl .refl _
  | string => exact .ok (.text _ _ rfl)
  | _ => exact .error _ _

variable {t : ValueType} {j k : Json}

theorem alike_scalar (h : j.Twin k) (t : ValueType) :
    Alike (Value.Twin (t.base = .string)) (scalar t j) (scalar t k) := by
  cases h with
  | refl => exact .refl .refl _
  | zero b c => exact alike_scalar_floatZero t b c
  | array _ => cases t <;> exact .error _ _
  | object fs gs => cases t <;> exact .error _ _

/-- Twins stand for alike lists, if they do for alike elements. -/
theorem alike_listOf {text : Prop} {element : Json → Except CompileError Value}
    (he : ∀ j k, j.Twin k → Alike (Value.Twin text) (element j) (element k)) (h : j.Twin k)
    (strings : Bool) :
    Alike (Value.Twin text) (listOf element strings j) (listOf element strings k) := by
  have single {x y : Except CompileError Value} (hxy : Alike (Value.Twin text) x y) :
      Alike (Value.Twin text) (x.map fun v => .list [v]) (y.map fun v => .list [v]) :=
    hxy.map fun v w hvw => .list (.cons hvw .nil)
  cases h with
  | refl => exact .refl .refl _
  | zero b c => exact single (he _ _ (.zero b c))
  | array hs => exact (Alike.mapM he hs).map fun _ _ => .list
  | object fs gs => exact single (he _ _ (.object fs gs))

/-- **Twins convert alike**: both fail, or to values that no comparison tells apart, unless the
type is that of strings or of lists of them. -/
theorem alike_convert (t : ValueType) (h : j.Twin k) :
    Alike (Value.Twin (t.base = .string)) (convert t j) (convert t k) := by
  induction t generalizing j k with
  | list t ih => exact alike_listOf (fun _ _ => ih) h t.isString
  | _ => exact alike_scalar h _

/-- As a list, too, twins stand for alike values. -/
theorem alike_convertList (t : ValueType) (h : j.Twin k) :
    Alike (Value.Twin (t.base = .string)) (convertList t j) (convertList t k) :=
  alike_listOf (fun _ _ => alike_convert t) h t.isString

end Literal

end EntityQuery
