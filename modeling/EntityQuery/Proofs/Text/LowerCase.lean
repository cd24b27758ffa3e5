import EntityQuery.Text.Case

/-!
# Lower case of a piece of a text

What a text becomes depends on its neighbours in one place only: a capital sigma, whose form says
whether a word ends with it. `lowerBetween` is the lower case of a piece that stands between two
neighbours, of which all that matters is whether they are cased, and a text that is cut in pieces
is lowered piece by piece, each between the others (`lowerBetween_append`).

A piece that stands alone is lowered as if nothing cased stood around it. A cased neighbour before
it changes this for the pieces that open with a sigma (`OpensWithSigma`), a cased neighbour after it
for those that close with one (`ClosesWithSigma`), and no neighbour changes anything else.
-/

namespace EntityQuery.Text

variable {before after : Bool} {s : List Char}

/-! ### Between neighbours -/

/-- Is the last character that is not skipped a cased one? If all are skipped, `before` says it. -/
def casedAfter (before : Bool) : List Char → Bool
  | [] => before
  | c :: rest => casedAfter (if isCaseIgnorable c then before else isCased c) rest

/-- Is the first character that is not skipped a cased one? If all are skipped, `after` says it. -/
def startsCasedBefore (after : Bool) : List Char → Bool
  | [] => after
  | c :: rest => if isCaseIgnorable c then startsCasedBefore after rest else isCased c

/-- A sigma is final if a cased character stands before it and none after it. -/
def sigma (before after : Bool) : Char := if before && !after then 'ς' else 'σ'

/-- Lower case of a piece, with or without a cased character before it and after it. -/
def lowerBetween (before after : Bool) : List Char → List Char
  | [] => []
  | c :: rest =>
    (if c == 'Σ' then [sigma before (startsCasedBefore after rest)] else lowerChar c) ++
      lowerBetween (if isCaseIgnorable c then before else isCased c) after rest

theorem startsCasedBefore_false (s : List Char) : startsCasedBefore false s = startsCased s := by
  induction s with
  | nil => rfl
  | cons c rest ih =>
    rw [startsCasedBefore, startsCased, List.dropWhile_cons]
    split
    · rw [ih, startsCased]
    · rfl

/-- A text that stands alone has nothing cased after it. -/
theorem lowerFrom_eq (before : Bool) (s : List Char) :
    lowerFrom before s = lowerBetween before false s := by
  induction s generalizing before with
  | nil => rfl
  | cons c rest ih =>
    rw [lowerFrom, lowerBetween, startsCasedBefore_false, ih]
    rfl

theorem startsCasedBefore_append (s t : List Char) :
    startsCasedBefore after (s ++ t) = startsCasedBefore (startsCasedBefore after t) s := by
  induction s with
  | nil => rfl
  | cons c rest ih => rw [List.cons_append, startsCasedBefore, startsCasedBefore, ih]

/-- **A text in pieces**: each is lowered between the other ones. -/
theorem lowerBetween_append (before after : Bool) (s t : List Char) :
    lowerBetween before after (s ++ t) =
      lowerBetween before (startsCasedBefore after t) s ++
        lowerBetween (casedAfter before s) after t := by
  induction s generalizing before with
  | nil => rfl
  | cons c rest ih =>
    rw [List.cons_append, lowerBetween, lowerBetween, casedAfter, ih, startsCasedBefore_append,
      List.append_assoc]

/-! ### Sigmas -/

theorem sigma_not_ignorable : isCaseIgnorable 'Σ' = false := by decide +kernel

theorem sigma_cased : isCased 'Σ' = true := by decide +kernel

/-- A sigma is never skipped. -/
theorem not_sigma {c : Char} (h : isCaseIgnorable c = true) : ¬ (c == 'Σ') = true := by
  rw [beq_iff_eq]
  rintro rfl
  rw [sigma_not_ignorable] at h
  cases h

theorem lowerBetween_sigma (s : List Char) :
    lowerBetween before after ('Σ' :: s) =
      sigma before (startsCasedBefore after s) :: lowerBetween true after s := by
  rw [lowerBetween, sigma_not_ignorable, sigma_cased]
  rfl

theorem casedAfter_skip (hs : ∀ c ∈ s, isCaseIgnorable c = true) :
    casedAfter before s = before := by
  induction s with
  | nil => rfl
  | cons c rest ih =>
    rw [List.forall_mem_cons] at hs
    rw [casedAfter, if_pos hs.1, ih hs.2]

theorem startsCasedBefore_skip (hs : ∀ c ∈ s, isCaseIgnorable c = true) :
    startsCasedBefore after s = after := by
  induction s with
  | nil => rfl
  | cons c rest ih =>
    rw [List.forall_mem_cons] at hs
    rw [startsCasedBefore, if_pos hs.1, ih hs.2]

/-- Characters that are skipped have no neighbours: a sigma is none of them. -/
theorem lowerBetween_skip (hs : ∀ c ∈ s, isCaseIgnorable c = true) :
    lowerBetween before after s = s.flatMap lowerChar := by
  induction s with
  | nil => rfl
  | cons c rest ih =>
    rw [List.forall_mem_cons] at hs
    rw [lowerBetween, if_neg (not_sigma hs.1), if_pos hs.1, ih hs.2, List.flatMap_cons]

/-- The first character that is not skipped is a sigma, and nothing cased comes next. -/
def OpensWithSigma (piece : List Char) : Prop :=
  ∃ x y, piece = x ++ 'Σ' :: y ∧ (∀ c ∈ x, isCaseIgnorable c = true) ∧ startsCased y = false

/-- The last character that is not skipped is a sigma, and something cased comes before it. -/
def ClosesWithSigma (before : Bool) (piece : List Char) : Prop :=
  ∃ x y, piece = x ++ 'Σ' :: y ∧ casedAfter before x = true ∧ ∀ c ∈ y, isCaseIgnorable c = true

/-! ### Pieces that their neighbours do not change -/

theorem OpensWithSigma.skip {c : Char} (hc : isCaseIgnorable c = true) (h : OpensWithSigma s) :
    OpensWithSigma (c :: s) := by
  obtain ⟨x, y, rfl, hx, hy⟩ := h
  exact ⟨c :: x, y, rfl, List.forall_mem_cons.mpr ⟨hc, hx⟩, hy⟩

/-- A cased neighbour before a piece only changes a sigma that opens it. -/
theorem lowerBetween_before (h : ¬ OpensWithSigma s) :
    lowerBetween true false s = lowerBetween false false s := by
  induction s with
  | nil => rfl
  | cons c rest ih =>
    rw [lowerBetween, lowerBetween]
    -- The neighbour is seen through what is skipped, up to the first character that is not.
    by_cases hc : isCaseIgnorable c = true
    · rw [if_neg (not_sigma hc), if_neg (not_sigma hc), if_pos hc, if_pos hc,
        ih fun opens => h (opens.skip hc)]
    · rw [if_neg hc, if_neg hc, startsCasedBefore_false]
      split
      · next hsigma =>
        obtain rfl := beq_iff_eq.mp hsigma
        cases follows : startsCased rest with
        | true => rfl
        | false => exact absurd ⟨[], rest, rfl, nofun, follows⟩ h
      · rfl

theorem ClosesWithSigma.cons {c : Char}
    (h : ClosesWithSigma (if isCaseIgnorable c then before else isCased c) s) :
    ClosesWithSigma before (c :: s) := by
  obtain ⟨x, y, rfl, hx, hy⟩ := h
  exact ⟨c :: x, y, rfl, hx, hy⟩

/-- What starts a text does so whatever stands after it, unless all of it is skipped. -/
theorem startsCasedBefore_eq_of_not_skip (h : ¬ ∀ c ∈ s, isCaseIgnorable c = true) :
    startsCasedBefore true s = startsCasedBefore false s := by
  induction s with
  | nil => exact absurd (by nofun) h
  | cons c rest ih =>
    rw [startsCasedBefore, startsCasedBefore]
    split
    · next hc => exact ih fun hrest => h (List.forall_mem_cons.mpr ⟨hc, hrest⟩)
    · rfl

/-- A cased neighbour after a piece only changes a sigma that closes it. -/
theorem lowerBetween_after (h : ¬ ClosesWithSigma before s) :
    lowerBetween before true s = lowerBetween before false s := by
  induction s generalizing before with
  | nil => rfl
  | cons c rest ih =>
    rw [lowerBetween, lowerBetween, ih fun closes => h closes.cons]
    split
    · next hsigma =>
      obtain rfl := beq_iff_eq.mp hsigma
      cases before with
      | false => rfl
      | true =>
        rw [startsCasedBefore_eq_of_not_skip fun skip => h ⟨[], rest, rfl, rfl, skip⟩]
    · rfl

/-- What a text ends with does not depend on what stands before it, unless all of it is skipped. -/
theorem casedAfter_eq_of_not_skip (h : ¬ ∀ c ∈ s, isCaseIgnorable c = true) :
    casedAfter true s = casedAfter false s := by
  induction s with
  | nil => exact absurd (by nofun) h
  | cons c rest ih =>
    rw [casedAfter, casedAfter]
    split
    · next hc => exact ih fun hrest => h (List.forall_mem_cons.mpr ⟨hc, hrest⟩)
    · rfl

/-- A piece that closes with a sigma after a cased character, but not by itself, opens with it. -/
theorem opensWithSigma_of_closes (h : ClosesWithSigma true s) (hn : ¬ ClosesWithSigma false s) :
    OpensWithSigma s := by
  obtain ⟨x, y, rfl, hx, hy⟩ := h
  have skips : ∀ c ∈ x, isCaseIgnorable c = true := Classical.byContradiction fun shows =>
    hn ⟨x, y, rfl, casedAfter_eq_of_not_skip shows ▸ hx, hy⟩
  exact ⟨x, y, rfl, skips, by rw [← startsCasedBefore_false, startsCasedBefore_skip hy]⟩

/-- **A settled piece** is lowered alike between all neighbours. -/
theorem lowerBetween_settled (before after : Bool) (opens : ¬ OpensWithSigma s)
    (closes : ¬ ClosesWithSigma false s) :
    lowerBetween before after s = lowerBetween false false s := by
  have unclosed : ¬ ClosesWithSigma before s := by
    cases before with
    | false => exact closes
    | true => exact fun h => opens (opensWithSigma_of_closes h closes)
  have unfollowed : lowerBetween before after s = lowerBetween before false s := by
    cases after with
    | false => rfl
    | true => exact lowerBetween_after unclosed
  rw [unfollowed]
  cases before with
  | false => rfl
  | true => exact lowerBetween_before opens

/-! ### Pieces that their neighbours do change

A letter before or after such a piece takes away one of its sigmas, and the piece is no longer to be
found in the lower case of the text, as one piece or in parts.
-/

/-- A cased neighbour before a piece that opens with a sigma makes it final. -/
theorem count_sigma_lt_of_opens (h : OpensWithSigma s) :
    (lowerBetween true false s).count 'σ' < (lowerBetween false false s).count 'σ' := by
  obtain ⟨x, y, rfl, hx, hy⟩ := h
  have lowered (before : Bool) : lowerBetween before false (x ++ 'Σ' :: y) =
      x.flatMap lowerChar ++ sigma before false :: lowerBetween true false y := by
    rw [lowerBetween_append, lowerBetween_skip hx, casedAfter_skip hx, lowerBetween_sigma,
      startsCasedBefore_false, hy]
  rw [lowered, lowered, List.count_append, List.count_append]
  simp [sigma]

/-- A cased neighbour after a piece that closes with a sigma makes it one that is not final. -/
theorem count_finalSigma_lt_of_closes (h : ClosesWithSigma false s) :
    (lowerBetween false true s).count 'ς' < (lowerBetween false false s).count 'ς' := by
  obtain ⟨x, y, rfl, hx, hy⟩ := h
  have starts (after : Bool) : startsCasedBefore after ('Σ' :: y) = true := by
    rw [startsCasedBefore, sigma_not_ignorable, sigma_cased]
    rfl
  have lowered (after : Bool) : lowerBetween false after (x ++ 'Σ' :: y) =
      lowerBetween false true x ++ sigma true after :: y.flatMap lowerChar := by
    rw [lowerBetween_append, starts, hx, lowerBetween_sigma, startsCasedBefore_skip hy,
      lowerBetween_skip hy]
  rw [lowered, lowered, List.count_append, List.count_append]
  simp [sigma]

theorem letter_spec : isCaseIgnorable 'a' = false ∧ isCased 'a' = true ∧ lowerChar 'a' = ['a'] := by
  decide +kernel

theorem lowerBetween_letter (s : List Char) :
    lowerBetween before after ('a' :: s) = 'a' :: lowerBetween true after s := by
  rw [lowerBetween, letter_spec.1, letter_spec.2.1, letter_spec.2.2]
  rfl

theorem not_sublist_of_opens (h : OpensWithSigma s) :
    ¬ (lowerBetween false false s).Sublist (lowerBetween false false ('a' :: s)) := by
  intro found
  have fewer := count_sigma_lt_of_opens h
  have counts := found.count_le 'σ'
  rw [lowerBetween_letter, List.count_cons_of_ne (by decide)] at counts
  omega

theorem not_sublist_of_closes (h : ClosesWithSigma false s) :
    ¬ (lowerBetween false false s).Sublist (lowerBetween false false (s ++ ['a'])) := by
  intro found
  have fewer := count_finalSigma_lt_of_closes h
  have counts := found.count_le 'ς'
  have starts : startsCasedBefore false ['a'] = true := by
    rw [startsCasedBefore, letter_spec.1, letter_spec.2.1]
    rfl
  rw [lowerBetween_append, starts, lowerBetween_letter, List.count_append,
    List.count_cons_of_ne (by decide)] at counts
  simp only [lowerBetween, List.count_nil] at counts
  omega

end EntityQuery.Text
