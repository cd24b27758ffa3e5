import EntityQuery.Proofs.Decimal.Rounding
import EntityQuery.Text.Piece
import Mathlib.Data.List.TakeWhile

/-!
# Numbers in plain notation

A number in plain notation is an optional sign and digits, any number of them, with at most one point
among them. As a decimal such a text becomes what the number is rounded to, and it becomes none just
if the number is too large to be rounded (`PlainNumber.ofText?_spec`). Without a point it is also the
text of an integer, which is never rounded (`PlainNumber.value_of_integer?`).
-/

namespace EntityQuery

open Decimal Scaled Text

/-! ### Digits -/

namespace Text

/-- The characters of digits. -/
def charsOf (digits : List (Fin 10)) : List Char := digits.map fun d => Nat.digitChar d.val

/-- The number that digits write, after the number `start`. -/
def numberAfter (start : ℕ) (digits : List (Fin 10)) : ℕ := extendBy start (digits.map Fin.val)

theorem digit?_digitChar : ∀ d : Fin 10, digit? (Nat.digitChar d.val) = some d.val := by decide

theorem filterMap_charsOf (ds : List (Fin 10)) :
    (charsOf ds).filterMap digit? = ds.map Fin.val := by
  simp [charsOf, List.filterMap_map, digit?_digitChar]

theorem digits?_charsOf (ds : List (Fin 10)) : digits? (charsOf ds) = some (ds.map Fin.val) := by
  induction ds with
  | nil => rfl
  | cons d ds ih =>
    have rest : (ds.map fun d => Nat.digitChar d.val).mapM digit? = some (ds.map Fin.val) := ih
    rw [digits?, charsOf, List.map_cons, List.mapM_cons, digit?_digitChar, rest]
    rfl

theorem numberAfter_append (start : ℕ) (ds es : List (Fin 10)) :
    numberAfter start (ds ++ es) = numberAfter (numberAfter start ds) es := by
  rw [numberAfter, List.map_append, extendBy, List.foldl_append]
  rfl

/-- Further digits are worth less than one unit. -/
theorem numberAfter_bounds (start : ℕ) (ds : List (Fin 10)) :
    start * 10 ^ ds.length ≤ numberAfter start ds ∧
      numberAfter start ds < (start + 1) * 10 ^ ds.length := by
  induction ds generalizing start with
  | nil => simp [numberAfter, extendBy]
  | cons d ds ih =>
    obtain ⟨lower, upper⟩ := ih (10 * start + d)
    change _ ≤ numberAfter (10 * start + d) ds ∧ numberAfter (10 * start + d) ds < _
    rw [List.length_cons, pow_succ']
    have digit := d.isLt
    constructor
    · refine le_trans ?_ lower
      rw [← mul_assoc]
      exact Nat.mul_le_mul_right _ (by omega)
    · refine upper.trans_le ?_
      rw [← mul_assoc]
      exact Nat.mul_le_mul_right _ (by omega)

end Text

/-! ### Digits of a decimal -/

namespace Decimal

variable {c s : ℕ}

/-- A digit is appended if it fits; otherwise it rounds the number. -/
theorem appendFraction_charsOf_cons (negative : Bool) (c s : ℕ) (d : Fin 10) (ds : List (Fin 10)) :
    appendFraction negative c s (charsOf (d :: ds)) =
      if s < maxScale ∧ 10 * c + d < limit then
        appendFraction negative (10 * c + d) (s + 1) (charsOf ds)
      else roundBy negative c s d := by
  rw [charsOf, List.map_cons, appendFraction, digit?_digitChar]
  rfl

/-- Digits are appended while they fit, and then the number is rounded. -/
theorem appendFraction_spec (hc : c < limit) (hs : s ≤ maxScale) (negative : Bool)
    (ds : List (Fin 10)) :
    (∃ d, appendFraction negative c s (charsOf ds) = some d ∧
        d.RoundedFrom (withSign negative (quotient (numberAfter c ds) (s + ds.length)))) ∨
      appendFraction negative c s (charsOf ds) = none ∧
        roundedLimit ≤ quotient (numberAfter c ds) (s + ds.length) := by
  induction ds generalizing c s with
  | nil =>
    have exact : quotient c s * 10 ^ s = c := div_mul_cancel₀ _ (by positivity)
    have parts : RoundedParts c s (quotient c s) :=
      ⟨hc, hs, by linarith, by linarith, .inl rfl⟩
    exact .inl (parts.exists_roundedFrom (quotient_nonneg _ _) negative)
  | cons d ds ih =>
    have length : s + (d :: ds).length = s + 1 + ds.length := by
      rw [List.length_cons]
      omega
    have number : numberAfter c (d :: ds) = numberAfter (10 * c + d) ds := rfl
    rw [appendFraction_charsOf_cons, length, number]
    split_ifs with fits
    · exact ih fits.2 fits.1
    · obtain ⟨lower, upper⟩ := numberAfter_bounds (10 * c + d) ds
      have scaled : quotient (numberAfter (10 * c + d) ds) (s + 1 + ds.length) * 10 ^ (s + 1) =
          (numberAfter (10 * c + d) ds : ℚ) / 10 ^ ds.length := by
        rw [quotient, pow_add]
        field_simp
      have unit : (0 : ℚ) < 10 ^ ds.length := by positivity
      refine roundBy_spec (quotient_nonneg _ _) hc hs (by omega) ?_ ?_ (by omega)
      · rw [scaled, le_div_iff₀ unit]
        exact_mod_cast lower
      · rw [scaled, div_lt_iff₀ unit]
        exact_mod_cast upper

/-- Digits before the point must fit. -/
theorem appendFraction_of_limit_le (hc : limit ≤ c) (negative : Bool) (ds : List (Fin 10)) :
    appendFraction negative c 0 (charsOf ds) = none := by
  have far (n : ℕ) (hn : limit ≤ n) : ofUnsignedZeroParts? negative n 0 = none :=
    dif_neg fun fits => fits.1.not_ge hn
  cases ds with
  | nil => exact far c hc
  | cons d ds =>
    have long : ¬(0 < maxScale ∧ 10 * c + d.val < limit) := by omega
    have carry : ¬c + 1 < limit := by omega
    rw [appendFraction_charsOf_cons, if_neg long, roundBy, if_neg carry, if_pos rfl, far c hc,
      ite_self]

end Decimal

/-! ### The notation -/

/-- A number in plain notation. -/
structure PlainNumber where
  /-- The sign, if one is written: is it a minus? -/
  sign : Option Bool
  whole : List (Fin 10)
  /-- The digits after the point, if there is a point. -/
  fraction : Option (List (Fin 10))
  digits_ne_nil : whole ++ fraction.getD [] ≠ []

namespace PlainNumber

def negative (p : PlainNumber) : Bool := p.sign.getD false

def places (p : PlainNumber) : List (Fin 10) := p.fraction.getD []

def signChars (p : PlainNumber) : List Char :=
  match p.sign with
  | none => []
  | some negative => [if negative then '-' else '+']

def pointChars (p : PlainNumber) : List Char :=
  match p.fraction with
  | none => []
  | some digits => '.' :: charsOf digits

/-- The text without its sign. -/
def body (p : PlainNumber) : List Char := charsOf p.whole ++ p.pointChars

def chars (p : PlainNumber) : List Char := p.signChars ++ p.body

def text (p : PlainNumber) : String := String.ofList p.chars

/-- The number without its sign. -/
def size (p : PlainNumber) : ℚ := quotient (numberAfter 0 (p.whole ++ p.places)) p.places.length

/-- The number that the text denotes. -/
def value (p : PlainNumber) : ℚ := withSign p.negative p.size

variable (p : PlainNumber)

theorem abs_value : |p.value| = p.size := abs_withSign _ (quotient_nonneg _ _)

variable {p} {P : Char → Prop}

/-- What holds of a point and of digits holds of the characters without the sign. -/
theorem forall_mem_body (point : P '.') (digit : ∀ d : Fin 10, P (Nat.digitChar d.val)) :
    ∀ c ∈ p.body, P c := by
  have digits (ds : List (Fin 10)) : ∀ c ∈ charsOf ds, P c := by
    intro c hc
    obtain ⟨d, -, rfl⟩ := List.mem_map.mp hc
    exact digit d
  intro c hc
  rcases List.mem_append.mp hc with hc | hc
  · exact digits _ c hc
  · unfold pointChars at hc
    split at hc
    · cases hc
    · rcases List.mem_cons.mp hc with rfl | hc
      · exact point
      · exact digits _ c hc

theorem forall_mem_chars (plus : P '+') (minus : P '-') (point : P '.')
    (digit : ∀ d : Fin 10, P (Nat.digitChar d.val)) : ∀ c ∈ p.chars, P c := by
  intro c hc
  rcases List.mem_append.mp hc with hc | hc
  · unfold signChars at hc
    split at hc
    · cases hc
    · next negative _ =>
      rw [List.mem_singleton.mp hc]
      cases negative
      · exact plus
      · exact minus
  · exact forall_mem_body point digit c hc

/-- There is nothing to trim. -/
theorem trim_chars : trim p.chars = p.chars := by
  have kept (s : List Char) (h : ∀ c ∈ s, isBlank c = false) : s.dropWhile isBlank = s :=
    List.dropWhile_eq_self_iff.mpr fun hs => by simp [h _ (List.getElem_mem hs)]
  have solid : ∀ c ∈ p.chars, isBlank c = false :=
    forall_mem_chars (by decide) (by decide) (by decide) (by decide)
  rw [trim, trimStart, kept _ solid, kept _ fun c hc => solid c (List.mem_reverse.mp hc),
    List.reverse_reverse]

/-- A sign is read off a text that begins with none. -/
theorem read_sign {α : Type} {f : List Char → α} {g : Bool → List Char → α}
    (minus : ∀ s, f ('-' :: s) = g true s) (plus : ∀ s, f ('+' :: s) = g false s)
    (other : ∀ s, (∀ t, s ≠ '-' :: t) → (∀ t, s ≠ '+' :: t) → f s = g false s) :
    f p.chars = g p.negative p.body := by
  unfold chars signChars negative
  rcases p.sign with _ | _ | _
  · have unsigned : ∀ c ∈ p.body, c ≠ '-' ∧ c ≠ '+' := forall_mem_body (by decide) (by decide)
    refine other p.body (fun t begins => ?_) fun t begins => ?_
    · exact (unsigned '-' (begins ▸ List.mem_cons_self)).1 rfl
    · exact (unsigned '+' (begins ▸ List.mem_cons_self)).2 rfl
  · exact plus _
  · exact minus _

theorem ofMagnitude?_body (negative : Bool) : ofMagnitude? negative p.body =
    appendFraction negative (numberAfter 0 p.whole) 0 (charsOf p.places) := by
  have grouped (ds : List (Fin 10)) : ∀ c ∈ charsOf ds, isGroupedDigit c = true := by
    intro c hc
    obtain ⟨d, -, rfl⟩ := List.mem_map.mp hc
    simp [isGroupedDigit, isDigit, digit?_digitChar]
  have point : p.pointChars.takeWhile isGroupedDigit = [] ∧
      p.pointChars.dropWhile isGroupedDigit = p.pointChars ∧
      p.pointChars.head?.all (· == '.') = true ∧ p.pointChars.drop 1 = charsOf p.places := by
    unfold pointChars places
    cases p.fraction <;> exact ⟨rfl, rfl, rfl, rfl⟩
  obtain ⟨before, after, head, fraction⟩ := point
  have whole : p.body.takeWhile isGroupedDigit = charsOf p.whole := by
    rw [body, List.takeWhile_append_of_pos (grouped _), before, List.append_nil]
  have rest : p.body.dropWhile isGroupedDigit = p.pointChars := by
    rw [body, List.dropWhile_append_of_pos (grouped _), after]
  have first : (charsOf p.whole ++ charsOf p.places).head?.any isDigit = true := by
    rw [charsOf, charsOf, ← List.map_append]
    obtain ⟨d, ds, digits⟩ := List.exists_cons_of_ne_nil p.digits_ne_nil
    rw [places, digits]
    simp [isDigit, digit?_digitChar]
  have all : (charsOf p.places).all isGroupedDigit = true := List.all_eq_true.mpr (grouped _)
  rw [ofMagnitude?]
  simp only [whole, rest, head, fraction, first, all, filterMap_charsOf, Bool.and_self, if_true]
  rfl

/-- A text without an exponent is read as one. -/
theorem ofText?_chars : ofText? p.chars =
    appendFraction p.negative (numberAfter 0 p.whole) 0 (charsOf p.places) := by
  have plain : ofPlain? p.chars = ofMagnitude? p.negative p.body := by
    refine read_sign (fun _ => rfl) (fun _ => rfl) fun s minus plus => ?_
    rw [ofPlain?]
    · exact minus
    · exact plus
  have marks : p.chars.dropWhile (fun c => !isExponentMark c) = [] := by
    rw [List.dropWhile_eq_nil_iff]
    exact forall_mem_chars (by decide) (by decide) (by decide) (by decide)
  have scientific : ofScientific? p.chars = none := by
    rw [ofScientific?, marks]
  rw [ofText?, scientific, Option.or_none, plain, ofMagnitude?_body]

/-- A text becomes the decimal that its number is rounded to, if the number is not too large. -/
theorem ofText?_spec (p : PlainNumber) :
    (∃ d, ofText? p.chars = some d ∧ d.RoundedFrom p.value) ∨
      ofText? p.chars = none ∧ roundedLimit ≤ |p.value| := by
  rw [ofText?_chars, abs_value, value, size, numberAfter_append]
  by_cases fits : numberAfter 0 p.whole < limit
  · simpa using appendFraction_spec fits (Nat.zero_le _) p.negative p.places
  · refine .inr ⟨appendFraction_of_limit_le (not_lt.mp fits) _ _, ?_⟩
    have large : (limit : ℚ) ≤ numberAfter 0 p.whole := by exact_mod_cast not_lt.mp fits
    have unit : (0 : ℚ) < 10 ^ p.places.length := by positivity
    refine le_trans (b := (numberAfter 0 p.whole : ℚ)) ?_ ?_
    · unfold roundedLimit
      linarith
    · rw [quotient, le_div_iff₀ unit]
      exact_mod_cast (numberAfter_bounds _ _).1

/-- A number that is a decimal is read, and not changed. -/
theorem exists_ofText?_of_value_eq {e : Decimal} (h : e.value = p.value) :
    ∃ d, ofText? p.chars = some d ∧ d.value = p.value := by
  rcases p.ofText?_spec with ⟨d, hd, rounded⟩ | ⟨-, large⟩
  · exact ⟨d, hd, rounded.value_eq_iff.mpr ⟨e, h⟩⟩
  · rw [← h] at large
    exact absurd e.abs_value_lt_roundedLimit large.not_gt

/-- A number is a decimal if its digits fit. -/
theorem exists_value_eq (digits : numberAfter 0 (p.whole ++ p.places) < limit)
    (places : p.places.length ≤ maxScale) : ∃ e : Decimal, e.value = p.value := by
  obtain ⟨e, -, -, -, value⟩ := ofUnsignedZeroParts?_spec digits places p.negative
  exact ⟨e, value⟩

/-- A text with a point is no integer. -/
theorem digits?_point (s t : List Char) : digits? (s ++ '.' :: t) = none := by
  have point : digit? '.' = none := by decide
  simp [digits?, List.mapM_append, List.mapM_cons, point]

/-- The integer that a text is read as is its number. -/
theorem value_of_integer? {k : ℤ} (h : integer? p.chars = some k) : p.value = k := by
  have signs : integer? p.chars = (natural? p.body).map (EntityQuery.signed p.negative) := by
    refine read_sign (g := fun negative s => (natural? s).map (EntityQuery.signed negative))
      (fun s => ?_) (fun _ => rfl) fun s minus plus => ?_
    · rw [integer?]
      cases natural? s <;> rfl
    · rw [integer?]
      · rfl
      · exact minus
      · exact plus
  rw [signs] at h
  obtain ⟨n, hn, rfl⟩ := Option.map_eq_some_iff.mp h
  unfold natural? body pointChars at hn
  cases written : p.fraction with
  | some ds =>
    rw [written] at hn
    simp only [digits?_point] at hn
    split at hn <;> cases hn
  | none =>
    rw [written] at hn
    simp only [List.append_nil, digits?_charsOf] at hn
    split at hn
    · cases hn
    · obtain rfl := Option.some.inj hn
      have places : p.places = [] := by rw [places, written]; rfl
      rw [value, size, places, List.append_nil, List.length_nil, quotient_zero_right]
      unfold withSign EntityQuery.signed numberAfter
      split <;> push_cast <;> rfl

end PlainNumber

end EntityQuery
