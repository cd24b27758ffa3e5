import EntityQuery.Condition.Pattern

/-!
# What patterns accept

A piece stands at the start of a text, at its end or anywhere in it: as lists of characters, it is
a prefix, a suffix or an infix, after both have been folded. A wildcard pattern is a piece with
percent signs at its open ends, and `Wildcard` has one rule for each of the four ways to write
it. A percent sign alone is open at the start.
-/

namespace EntityQuery

/-! ### Searching -/

namespace Text

theorem startsWith_iff {piece s : List Char} : startsWith piece s = true ↔ piece <+: s :=
  List.isPrefixOf_iff_prefix

theorem endsWith_iff {piece s : List Char} : endsWith piece s = true ↔ piece <:+ s :=
  List.isSuffixOf_iff_suffix

theorem occursIn_iff {piece s : List Char} : occursIn piece s = true ↔ piece <:+: s := by
  induction s with
  | nil => simp [occursIn]
  | cons c rest ih => rw [occursIn, Bool.or_eq_true, startsWith_iff, ih, List.infix_cons_iff]

theorem stripStart?_eq_some_iff {piece s rest : List Char} :
    stripStart? piece s = some rest ↔ s = piece ++ rest := by
  induction piece generalizing s with
  | nil => simp [stripStart?]
  | cons p piece ih =>
    cases s with
    | nil => simp [stripStart?]
    | cons c s =>
      rw [stripStart?, List.cons_append, List.cons.injEq]
      by_cases h : p = c
      · simp [h, ih]
      · simp [h, Ne.symm h]

theorem stripEnd?_eq_some_iff {piece s rest : List Char} :
    stripEnd? piece s = some rest ↔ s = rest ++ piece := by
  rw [stripEnd?, Option.map_eq_some_iff]
  constructor
  · rintro ⟨t, ht, rfl⟩
    rw [stripStart?_eq_some_iff, List.reverse_eq_iff] at ht
    simpa using ht
  · rintro rfl
    exact ⟨rest.reverse, by rw [stripStart?_eq_some_iff]; simp, by simp⟩

end Text

namespace StringComparison

variable (mode : StringComparison) (text piece : String)

/-- The piece stands somewhere in the text. -/
def Contains : Prop := (mode.fold piece).toList <:+: (mode.fold text).toList

/-- The piece stands at the start of the text. -/
def StartsWith : Prop := (mode.fold piece).toList <+: (mode.fold text).toList

/-- The piece stands at the end of the text. -/
def EndsWith : Prop := (mode.fold piece).toList <:+ (mode.fold text).toList

end StringComparison

/-- The text matches a pattern with percent signs at its open ends. -/
inductive Wildcard (mode : StringComparison) (text : String) : List Char → Prop where
  /-- Open at both ends. -/
  | both {piece : List Char} :
      mode.Contains text (String.ofList piece) → Wildcard mode text ('%' :: (piece ++ ['%']))
  /-- Open at the start only. -/
  | start {piece : List Char} : piece.getLast? ≠ some '%' →
      mode.EndsWith text (String.ofList piece) → Wildcard mode text ('%' :: piece)
  /-- Open at the end only. -/
  | finish {piece : List Char} : (piece ++ ['%']).head? ≠ some '%' →
      mode.StartsWith text (String.ofList piece) → Wildcard mode text (piece ++ ['%'])
  /-- Open at neither end. -/
  | neither {piece : List Char} : piece.head? ≠ some '%' → piece.getLast? ≠ some '%' →
      mode.Contains text (String.ofList piece) → Wildcard mode text piece

namespace Pattern

variable {mode : StringComparison} {text : String}

theorem accepts_contains_iff {piece : String} :
    (Pattern.contains piece).accepts mode text = true ↔ mode.Contains text piece :=
  Text.occursIn_iff

theorem accepts_startsWith_iff {piece : String} :
    (Pattern.startsWith piece).accepts mode text = true ↔ mode.StartsWith text piece :=
  Text.startsWith_iff

theorem accepts_endsWith_iff {piece : String} :
    (Pattern.endsWith piece).accepts mode text = true ↔ mode.EndsWith text piece :=
  Text.endsWith_iff

/-! ### The four ways to write a pattern -/

theorem stripStart?_eq_none {s : List Char} (h : s.head? ≠ some '%') :
    Text.stripStart? ['%'] s = none := by
  rw [Option.eq_none_iff_forall_ne_some]
  intro rest hr
  rw [Text.stripStart?_eq_some_iff] at hr
  exact h (by rw [hr]; rfl)

theorem stripEnd?_eq_none {s : List Char} (h : s.getLast? ≠ some '%') :
    Text.stripEnd? ['%'] s = none := by
  rw [Option.eq_none_iff_forall_ne_some]
  intro rest hr
  rw [Text.stripEnd?_eq_some_iff] at hr
  exact h (by rw [hr, List.getLast?_concat])

variable {pattern : String} {piece : List Char}

theorem ofText_both (h : pattern.toList = '%' :: (piece ++ ['%'])) :
    ofText pattern = .contains (String.ofList piece) := by
  have hs : Text.stripStart? ['%'] pattern.toList = some (piece ++ ['%']) :=
    Text.stripStart?_eq_some_iff.mpr h
  have he : Text.stripEnd? ['%'] (piece ++ ['%']) = some piece :=
    Text.stripEnd?_eq_some_iff.mpr rfl
  simp [ofText, hs, he]

theorem ofText_start (h : pattern.toList = '%' :: piece) (hl : piece.getLast? ≠ some '%') :
    ofText pattern = .endsWith (String.ofList piece) := by
  have hs : Text.stripStart? ['%'] pattern.toList = some piece :=
    Text.stripStart?_eq_some_iff.mpr h
  simp [ofText, hs, stripEnd?_eq_none hl]

theorem ofText_finish (h : pattern.toList = piece ++ ['%'])
    (hh : (piece ++ ['%']).head? ≠ some '%') :
    ofText pattern = .startsWith (String.ofList piece) := by
  have he : Text.stripEnd? ['%'] (piece ++ ['%']) = some piece :=
    Text.stripEnd?_eq_some_iff.mpr rfl
  simp [ofText, h, stripStart?_eq_none hh, he]

theorem ofText_neither (hh : pattern.toList.head? ≠ some '%')
    (hl : pattern.toList.getLast? ≠ some '%') : ofText pattern = .contains pattern := by
  simp [ofText, stripStart?_eq_none hh, stripEnd?_eq_none hl]

/-- **Wildcards**: a text is accepted exactly if it matches the pattern as it is written. -/
theorem accepts_ofText_iff :
    (ofText pattern).accepts mode text = true ↔ Wildcard mode text pattern.toList := by
  constructor
  · intro h
    by_cases hh : pattern.toList.head? = some '%'
    · obtain ⟨rest, hr⟩ := List.head?_eq_some_iff.mp hh
      by_cases hl : rest.getLast? = some '%'
      · obtain ⟨piece, rfl⟩ := List.getLast?_eq_some_iff.mp hl
        rw [ofText_both hr, accepts_contains_iff] at h
        exact hr ▸ .both h
      · rw [ofText_start hr hl, accepts_endsWith_iff] at h
        exact hr ▸ .start hl h
    · by_cases hl : pattern.toList.getLast? = some '%'
      · obtain ⟨piece, hp⟩ := List.getLast?_eq_some_iff.mp hl
        rw [hp] at hh
        rw [ofText_finish hp hh, accepts_startsWith_iff] at h
        exact hp ▸ .finish hh h
      · rw [ofText_neither hh hl, accepts_contains_iff] at h
        exact .neither hh hl (by rwa [String.ofList_toList])
  · intro h
    generalize hp : pattern.toList = written at h
    cases h with
    | both h => rwa [ofText_both hp, accepts_contains_iff]
    | start hl h => rwa [ofText_start hp hl, accepts_endsWith_iff]
    | finish hh h => rwa [ofText_finish hp hh, accepts_startsWith_iff]
    | neither hh hl h =>
      subst hp
      rw [String.ofList_toList] at h
      rwa [ofText_neither hh hl, accepts_contains_iff]

end Pattern

end EntityQuery
