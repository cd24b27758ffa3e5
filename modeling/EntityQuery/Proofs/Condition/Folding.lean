import EntityQuery.Proofs.Condition.Pattern
import EntityQuery.Proofs.Text.LowerCase

/-!
# Patterns where case is ignored

The piece and the text are lowered apart from each other. So the piece is lowered as if nothing
stood around it, and where it stands in a text it may have become something else: `ΑΣ` is in `ΑΣΑ`,
but `ας` is not in `ασα`. A pattern is settled if there are no neighbours that change its piece, on
the sides where it has any. Then it accepts, where case is ignored, all that it accepts where it is
not (`Pattern.Settled.accepts_ignoreCase`); otherwise it does not (`Pattern.exists_refused`).
-/

namespace EntityQuery

open Text

theorem StringComparison.toList_fold_ignoreCase (s : String) :
    (fold .ignoreCase s).toList = lowerBetween false false s.toList := by
  rw [fold, lowercase, String.toList_ofList, lowerFrom_eq]

namespace Pattern

/-- No neighbour changes the lower case of the piece, on the sides where the pattern is open. -/
def Settled : Pattern → Prop
  | .contains piece => ¬ OpensWithSigma piece.toList ∧ ¬ ClosesWithSigma false piece.toList
  | .startsWith piece => ¬ ClosesWithSigma false piece.toList
  | .endsWith piece => ¬ OpensWithSigma piece.toList

variable {p : Pattern} {text : String}

/-- What the pattern looks for. -/
def piece : Pattern → String
  | .contains piece | .startsWith piece | .endsWith piece => piece

/-- A pattern without a capital sigma is settled. -/
theorem settled_of_not_mem (h : 'Σ' ∉ p.piece.toList) : p.Settled := by
  have opens : ¬ OpensWithSigma p.piece.toList := by
    rintro ⟨x, y, eq, -⟩
    exact h (by simp [eq])
  have closes : ¬ ClosesWithSigma false p.piece.toList := by
    rintro ⟨x, y, eq, -⟩
    exact h (by simp [eq])
  cases p with
  | contains => exact ⟨opens, closes⟩
  | startsWith => exact closes
  | endsWith => exact opens

/-- What a settled pattern accepts it also accepts where case is ignored. -/
theorem Settled.accepts_ignoreCase (h : p.Settled) (ha : p.accepts .ordinal text = true) :
    p.accepts .ignoreCase text = true := by
  cases p with
  | contains piece =>
    rw [accepts_contains_iff, StringComparison.Contains] at ha ⊢
    obtain ⟨u, w, eq⟩ : piece.toList <:+: text.toList := ha
    rw [StringComparison.toList_fold_ignoreCase, StringComparison.toList_fold_ignoreCase, ← eq,
      lowerBetween_append, lowerBetween_append, lowerBetween_settled (casedAfter false u) _ h.1 h.2]
    exact List.infix_append _ _ _
  | startsWith piece =>
    rw [accepts_startsWith_iff, StringComparison.StartsWith] at ha ⊢
    obtain ⟨w, eq⟩ : piece.toList <+: text.toList := ha
    rw [StringComparison.toList_fold_ignoreCase, StringComparison.toList_fold_ignoreCase, ← eq,
      lowerBetween_append]
    cases startsCasedBefore false w with
    | false => exact List.prefix_append _ _
    | true => exact lowerBetween_after h ▸ List.prefix_append _ _
  | endsWith piece =>
    rw [accepts_endsWith_iff, StringComparison.EndsWith] at ha ⊢
    obtain ⟨u, eq⟩ : piece.toList <:+ text.toList := ha
    rw [StringComparison.toList_fold_ignoreCase, StringComparison.toList_fold_ignoreCase, ← eq,
      lowerBetween_append]
    cases casedAfter false u with
    | false => exact List.suffix_append _ _
    | true => exact lowerBetween_before h ▸ List.suffix_append _ _

/-- A text that is accepted where case is ignored has the characters of the lowered piece. -/
theorem sublist_of_accepts (h : p.accepts .ignoreCase text = true) :
    (lowerBetween false false p.piece.toList).Sublist (lowerBetween false false text.toList) := by
  rw [← StringComparison.toList_fold_ignoreCase, ← StringComparison.toList_fold_ignoreCase]
  cases p with
  | contains => exact (accepts_contains_iff.mp h).sublist
  | startsWith => exact (accepts_startsWith_iff.mp h).sublist
  | endsWith => exact (accepts_endsWith_iff.mp h).sublist

theorem refuses_of_opens (h : OpensWithSigma p.piece.toList) :
    p.accepts .ignoreCase (String.ofList ('a' :: p.piece.toList)) = false := by
  refine Bool.eq_false_iff.mpr fun accepted => not_sublist_of_opens h ?_
  simpa using sublist_of_accepts accepted

theorem refuses_of_closes (h : ClosesWithSigma false p.piece.toList) :
    p.accepts .ignoreCase (String.ofList (p.piece.toList ++ ['a'])) = false := by
  refine Bool.eq_false_iff.mpr fun accepted => not_sublist_of_closes h ?_
  simpa using sublist_of_accepts accepted

/-- A pattern that is not settled refuses, where case is ignored, a text that it else accepts. -/
theorem exists_refused (h : ¬ p.Settled) :
    ∃ text, p.accepts .ordinal text = true ∧ p.accepts .ignoreCase text = false := by
  cases p with
  | contains piece =>
    rw [Settled, Classical.not_and_iff_not_or_not, Classical.not_not, Classical.not_not] at h
    rcases h with opens | closes
    · refine ⟨_, accepts_contains_iff.mpr ?_, refuses_of_opens opens⟩
      exact ⟨['a'], [], by simp [StringComparison.fold, Pattern.piece]⟩
    · refine ⟨_, accepts_contains_iff.mpr ?_, refuses_of_closes closes⟩
      exact ⟨[], ['a'], by simp [StringComparison.fold, Pattern.piece]⟩
  | startsWith piece =>
    refine ⟨_, accepts_startsWith_iff.mpr ?_, refuses_of_closes (Classical.not_not.mp h)⟩
    exact ⟨['a'], by simp [StringComparison.fold, Pattern.piece]⟩
  | endsWith piece =>
    refine ⟨_, accepts_endsWith_iff.mpr ?_, refuses_of_opens (Classical.not_not.mp h)⟩
    exact ⟨['a'], by simp [StringComparison.fold, Pattern.piece]⟩

end Pattern

end EntityQuery
