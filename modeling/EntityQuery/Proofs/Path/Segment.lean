import EntityQuery.Path.Segment
import EntityQuery.Proofs.Condition.Pattern
import EntityQuery.Proofs.Outcome

/-!
# Paths and their segments

A path is split at its points, and each piece must be a segment. A piece is a segment just if it
is how a well-formed segment is written, so splitting a path and writing its segments with points
between them are inverse to each other: `Path.segments_iff_ofSegments`. A text that does not split
is the path of no segments.
-/

namespace EntityQuery

open Outcome

/-! ### One segment -/

namespace Segment

variable {s : Segment} {raw : List Char}

/-- The name has a character, and no bracket. -/
def Plain (s : Segment) : Prop :=
  s.name.toList ≠ [] ∧ ∀ c ∈ s.name.toList, c ≠ '[' ∧ c ≠ ']'

theorem wellFormed_iff : s.WellFormed ↔ s.Plain ∧ '.' ∉ s.name.toList := by
  unfold WellFormed Plain
  constructor
  · rintro ⟨hne, h⟩
    exact ⟨⟨hne, fun c hc => (h c hc).2⟩, fun hc => (h '.' hc).1 rfl⟩
  · rintro ⟨⟨hne, h⟩, hp⟩
    exact ⟨hne, fun c hc => ⟨fun e => hp (e ▸ hc), h c hc⟩⟩

theorem mem_chars {c : Char} :
    c ∈ s.chars ↔ c ∈ s.name.toList ∨ (s.many = true ∧ (c = '[' ∨ c = ']')) := by
  unfold chars marker
  cases s.many <;> simp

theorem WellFormed.point_not_mem (h : s.WellFormed) : '.' ∉ s.chars := by
  rw [mem_chars]
  rintro (hc | ⟨-, hc | hc⟩)
  · exact (wellFormed_iff.mp h).2 hc
  · cases hc
  · cases hc

/-- A plain name does not end in the marker, so taking it off tells whether the segment has it. -/
theorem Plain.stripEnd?_chars (h : s.Plain) :
    Text.stripEnd? marker s.chars = if s.many then some s.name.toList else none := by
  unfold chars
  cases hm : s.many with
  | true => exact Text.stripEnd?_eq_some_iff.mpr rfl
  | false =>
    simp only [Bool.false_eq_true, if_false, List.append_nil]
    refine Option.eq_none_iff_forall_ne_some.mpr fun rest hr => ?_
    have closing : ']' ∈ s.name.toList := by
      rw [Text.stripEnd?_eq_some_iff.mp hr]
      simp [marker]
    exact (h.2 _ closing).2 rfl

theorem name_plain {name : List Char} (hne : name.isEmpty = false)
    (hb : (name.contains '[' || name.contains ']') = false) (many : Bool) :
    Plain ⟨String.ofList name, many⟩ := by
  simp only [Bool.or_eq_false_iff, List.contains_eq_mem, decide_eq_false_iff_not] at hb
  refine ⟨by simpa using hne, fun c hc => ⟨?_, ?_⟩⟩
  · rintro rfl
    exact hb.1 (by simpa using hc)
  · rintro rfl
    exact hb.2 (by simpa using hc)

/-- A piece between points is read as a segment just if it is how that is written, and the name is
plain. -/
theorem ofChars_eq_ok_iff : ofChars raw = .ok s ↔ s.Plain ∧ s.chars = raw := by
  constructor
  · intro h
    unfold ofChars at h
    simp only at h
    split at h
    · cases h
    next hne =>
    split at h
    · cases h
    next hb =>
    rw [Bool.not_eq_true] at hne hb
    obtain rfl := Except.ok.inj h
    refine ⟨name_plain hne hb _, ?_⟩
    unfold chars
    cases hs : Text.stripEnd? marker raw with
    | none => simp
    | some name => simpa using (Text.stripEnd?_eq_some_iff.mp hs).symm
  · rintro ⟨h, rfl⟩
    have name : (Text.stripEnd? marker s.chars).getD s.chars = s.name.toList := by
      rw [h.stripEnd?_chars, chars]
      cases s.many <;> simp
    have many : (Text.stripEnd? marker s.chars).isSome = s.many := by
      rw [h.stripEnd?_chars]
      cases s.many <;> rfl
    have opening : '[' ∉ s.name.toList := fun hc => (h.2 _ hc).1 rfl
    have closing : ']' ∉ s.name.toList := fun hc => (h.2 _ hc).2 rfl
    unfold ofChars
    simp only [name, many]
    rw [if_neg (by simpa using h.1), if_neg (by simp [opening, closing]), String.ofList_toList]

end Segment

/-! ### Segments with points between them -/

theorem not_mem_of_mem_splitOn {a : Char} {piece cs : List Char} (h : piece ∈ cs.splitOn a) :
    a ∉ piece := by
  induction cs generalizing piece with
  | nil =>
    rw [List.splitOn_nil, List.mem_singleton] at h
    simp [h]
  | cons c cs ih =>
    obtain ⟨first, rest, hs⟩ := List.exists_cons_of_ne_nil (List.splitOn_ne_nil a cs)
    rw [List.splitOn_cons_eq_if_modifyHead, hs] at h
    split at h
    · rcases List.mem_cons.mp h with rfl | h
      · simp
      · exact ih (hs ▸ h)
    next hc =>
    rw [List.modifyHead_cons] at h
    rcases List.mem_cons.mp h with rfl | h
    · have hf : a ∉ first := ih (hs ▸ List.mem_cons_self)
      have hne : a ≠ c := fun e => hc (by simp [e])
      simp [hf, hne]
    · exact ih (hs ▸ List.mem_cons_of_mem _ h)

theorem Segment.forall₂_ofChars_iff {pieces : List (List Char)} {segments : List Segment} :
    List.Forall₂ (fun piece s => ofChars piece = .ok s) pieces segments ↔
      pieces = segments.map chars ∧ ∀ s ∈ segments, s.Plain := by
  induction segments generalizing pieces with
  | nil => simp [List.forall₂_nil_right_iff]
  | cons s segments ih =>
    rw [List.forall₂_cons_right_iff, List.map_cons, List.forall_mem_cons]
    constructor
    · rintro ⟨piece, rest, hs, hrest, rfl⟩
      obtain ⟨plain, rfl⟩ := ofChars_eq_ok_iff.mp hs
      obtain ⟨rfl, plains⟩ := ih.mp hrest
      exact ⟨rfl, plain, plains⟩
    · rintro ⟨rfl, plain, plains⟩
      exact ⟨_, _, ofChars_eq_ok_iff.mpr ⟨plain, rfl⟩, ih.mpr ⟨rfl, plains⟩, rfl⟩

namespace Path

variable {path : String} {segments : List Segment}

/-- A path splits into these segments just if its pieces are how they are written. -/
theorem segments_eq_ok_iff_pieces :
    Path.segments path = .ok segments ↔
      path.toList.splitOn '.' = segments.map Segment.chars ∧ ∀ s ∈ segments, s.Plain := by
  rw [← Segment.forall₂_ofChars_iff, ← mapM_eq_ok_iff, Path.segments]
  split
  · next he =>
    -- The one piece of the empty path is no segment either.
    rw [show path = "" by simpa using he]
    simp [List.splitOn_nil, Segment.ofChars, Text.stripEnd?, Text.stripStart?, Segment.marker, bind,
      Except.bind]
  · rfl

/-- A path goes on after a segment just if the rest of it is a path. -/
theorem segments_cons_iff {s : Segment} (hs : s.WellFormed) {rest : String}
    (hp : path.toList = s.chars ++ '.' :: rest.toList) :
    Path.segments path = .ok segments ↔
      ∃ segments', Path.segments rest = .ok segments' ∧ segments = s :: segments' := by
  have plain := (Segment.wellFormed_iff.mp hs).1
  have split : path.toList.splitOn '.' = s.chars :: rest.toList.splitOn '.' := by
    rw [hp, List.splitOn_append_cons_self_of_not_mem hs.point_not_mem]
  simp only [segments_eq_ok_iff_pieces, split]
  constructor
  · rintro ⟨pieces, plains⟩
    cases segments with
    | nil => cases pieces
    | cons t segments =>
      obtain ⟨same, pieces⟩ := List.cons.inj pieces
      obtain ⟨tPlain, plains⟩ := List.forall_mem_cons.mp plains
      -- Both are what the first piece is read as.
      have hst : s = t := Except.ok.inj ((Segment.ofChars_eq_ok_iff.mpr ⟨plain, rfl⟩).symm.trans
        (Segment.ofChars_eq_ok_iff.mpr ⟨tPlain, same.symm⟩))
      exact ⟨segments, ⟨pieces, plains⟩, hst ▸ rfl⟩
  · rintro ⟨segments', ⟨pieces, plains⟩, rfl⟩
    exact ⟨by rw [pieces, List.map_cons], List.forall_mem_cons.mpr ⟨plain, plains⟩⟩

theorem ofSegments_toList :
    (ofSegments segments).toList = ['.'].intercalate (segments.map Segment.chars) := by
  simp [ofSegments]

/-- Well-formed segments are read back from the path that they make. -/
theorem segments_ofSegments (hne : segments ≠ []) (h : ∀ s ∈ segments, s.WellFormed) :
    Path.segments (ofSegments segments) = .ok segments := by
  rw [segments_eq_ok_iff_pieces, ofSegments_toList]
  refine ⟨List.splitOn_intercalate '.' ?_ (by simpa using hne), fun s hs => ?_⟩
  · intro piece hp
    obtain ⟨s, hs, rfl⟩ := List.mem_map.mp hp
    exact (h s hs).point_not_mem
  · exact (Segment.wellFormed_iff.mp (h s hs)).1

/-- The segments of a path are well formed, and make the path. -/
theorem wellFormed_of_segments (h : Path.segments path = .ok segments) :
    segments ≠ [] ∧ (∀ s ∈ segments, s.WellFormed) ∧ ofSegments segments = path := by
  obtain ⟨pieces, plain⟩ := segments_eq_ok_iff_pieces.mp h
  refine ⟨?_, fun s hs => ?_, ?_⟩
  · rintro rfl
    exact List.splitOn_ne_nil _ _ pieces
  · have hp : s.chars ∈ path.toList.splitOn '.' := pieces ▸ List.mem_map_of_mem hs
    refine Segment.wellFormed_iff.mpr ⟨plain s hs, fun hc => ?_⟩
    exact not_mem_of_mem_splitOn hp (Segment.mem_chars.mpr (.inl hc))
  · rw [ofSegments, ← pieces, List.intercalate_splitOn, String.ofList_toList]

/-- **Splitting a path is inverse to writing segments**: the segments of a path are well formed and
make just this path, well-formed segments are read back from the path that they make, and what is
no such path does not split. -/
theorem segments_iff_ofSegments (path : String) :
    (∀ segments, Path.segments path = .ok segments ↔
      segments ≠ [] ∧ (∀ s ∈ segments, s.WellFormed) ∧ ofSegments segments = path) ∧
    ((∃ fault, Path.segments path = .error fault) ↔
      ¬ ∃ segments, segments ≠ [] ∧ (∀ s ∈ segments, s.WellFormed) ∧
        ofSegments segments = path) := by
  have accepted (segments : List Segment) : Path.segments path = .ok segments ↔
      segments ≠ [] ∧ (∀ s ∈ segments, s.WellFormed) ∧ ofSegments segments = path := by
    refine ⟨wellFormed_of_segments, ?_⟩
    rintro ⟨hne, h, rfl⟩
    exact segments_ofSegments hne h
  refine ⟨accepted, ?_⟩
  simp only [← accepted]
  cases Path.segments path <;> simp

end Path

end EntityQuery
