import EntityQuery.Proofs.Path.Cache
import Mathlib.Data.List.Dedup

/-!
# The history of a path cache

Paths are resolved through one cache, one after the other, and a path that does not resolve stops
nothing. After any such history the cache is sound and remembers each path of the history that
resolves, once, and no other path (`PathCache.Remembers`). One call preserves this, and so every
call has the answer that the path has without a cache (`PathCache.resolveEach_transparent`).
-/

namespace EntityQuery.PathCache

variable {S : Schema} {kind : S.Kind} {c : PathCache S kind} {past : List String} {path : String}

/-- Resolves paths one after the other, each through the cache that the one before has left. -/
def resolveEach (paths : List String) :
    StateM (PathCache S kind) (List (Except CompileError (Resolved (S.Entity kind)))) :=
  paths.mapM fun path => (resolve path).run

/-- The paths that are remembered. -/
def paths (c : PathCache S kind) : List String := c.resolved.map Prod.fst

theorem length_paths (c : PathCache S kind) : c.paths.length = c.size := List.length_map _

theorem find?_eq_none_iff : c.find? path = none ↔ path ∉ c.paths := by
  rw [find?, List.lookup_eq_none_iff, paths, List.mem_map]
  simp only [bne_iff_ne, ne_eq, not_exists, not_and]
  exact forall₂_congr fun _ _ => not_congr eq_comm

theorem mem_paths_of_find? {r : Resolved (S.Entity kind)} (h : c.find? path = some r) :
    path ∈ c.paths := by
  by_contra missing
  rw [find?_eq_none_iff.mpr missing] at h
  cases h

/-- What a cache remembers after some paths: those of them that resolve, once each. -/
structure Remembers (c : PathCache S kind) (past : List String) : Prop where
  sound : c.Sound
  nodup : c.paths.Nodup
  mem_iff : ∀ path, path ∈ c.paths ↔ path ∈ past ∧ (S.resolve kind path).isOk = true

theorem remembers_empty : (empty : PathCache S kind).Remembers [] :=
  ⟨sound_empty, List.nodup_nil, fun path => by simp [paths, empty]⟩

namespace Remembers

/-- A path that is remembered already, or does not resolve, adds nothing to the history. -/
theorem append_of_known (h : c.Remembers past)
    (known : (S.resolve kind path).isOk = true → path ∈ c.paths) :
    c.Remembers (past ++ [path]) := by
  refine ⟨h.sound, h.nodup, fun q => ?_⟩
  rw [h.mem_iff q, List.mem_append, List.mem_singleton]
  constructor
  · rintro ⟨hq, resolves⟩
    exact ⟨.inl hq, resolves⟩
  · rintro ⟨hq | rfl, resolves⟩
    · exact ⟨hq, resolves⟩
    · exact (h.mem_iff q).mp (known resolves)

/-- A new path that resolves is remembered from then on. -/
theorem insert (h : c.Remembers past) (new : path ∉ c.paths) {r : Resolved (S.Entity kind)}
    (hr : S.resolve kind path = .ok r) : (c.insert path r).Remembers (past ++ [path]) := by
  refine ⟨h.sound.insert hr, List.nodup_cons.mpr ⟨new, h.nodup⟩, fun q => ?_⟩
  change q ∈ path :: c.paths ↔ _
  rw [List.mem_cons, h.mem_iff q, List.mem_append, List.mem_singleton]
  constructor
  · rintro (rfl | ⟨hq, resolves⟩)
    · exact ⟨.inr rfl, by rw [hr]; rfl⟩
    · exact ⟨.inl hq, resolves⟩
  · rintro ⟨hq | rfl, resolves⟩
    · exact .inr ⟨hq, resolves⟩
    · exact .inl rfl

/-- **One call** has the answer of resolving the path without a cache, and what it leaves remembers
the longer history. -/
theorem run_resolve (h : c.Remembers past) (path : String) :
    ((resolve path).run.run c).1 = S.resolve kind path ∧
      ((resolve path).run.run c).2.Remembers (past ++ [path]) := by
  refine ⟨Resolving.run_resolve_fst h.sound, ?_⟩
  rw [Resolving.run_resolve]
  cases hf : c.find? path with
  | some r => exact h.append_of_known fun _ => mem_paths_of_find? hf
  | none =>
    cases hr : S.resolve kind path with
    | ok r => exact h.insert (find?_eq_none_iff.mp hf) hr
    | error err => exact h.append_of_known fun resolves => by rw [hr] at resolves; cases resolves

/-- **Any number of calls** have the answers that the paths have without a cache. -/
theorem run_resolveEach (h : c.Remembers past) (paths : List String) :
    ((resolveEach paths).run c).1 = paths.map (S.resolve kind) ∧
      ((resolveEach paths).run c).2.Remembers (past ++ paths) := by
  induction paths generalizing c past with
  | nil => exact ⟨rfl, by rwa [List.append_nil]⟩
  | cons path paths ih =>
    obtain ⟨answer, left⟩ := h.run_resolve path
    obtain ⟨answers, last⟩ := ih left
    rw [List.append_assoc, List.singleton_append] at last
    have run : (resolveEach (path :: paths)).run c =
        (((resolve path).run.run c).1 :: ((resolveEach paths).run ((resolve path).run.run c).2).1,
          ((resolveEach paths).run ((resolve path).run.run c).2).2) := by
      rw [resolveEach, List.mapM_cons]
      rfl
    rw [run, List.map_cons, answer, answers]
    exact ⟨rfl, last⟩

/-- As many paths are remembered as there are different ones in the history that resolve. -/
theorem size_eq (h : c.Remembers past) :
    c.size = (past.filter fun path => (S.resolve kind path).isOk).dedup.length := by
  rw [← length_paths]
  refine List.Perm.length_eq ((List.perm_ext_iff_of_nodup h.nodup (List.nodup_dedup _)).mpr ?_)
  intro path
  rw [h.mem_iff, List.mem_dedup, List.mem_filter]

/-- A call that fails leaves the cache as it is. -/
theorem run_resolve_of_error (h : c.Remembers past) {err : CompileError}
    (failed : ((resolve path).run.run c).1 = .error err) :
    (resolve path).run.run c = (.error err, c) := by
  have answer : S.resolve kind path = .error err := (h.run_resolve path).1.symm.trans failed
  rw [Resolving.run_resolve]
  cases hf : c.find? path with
  | some r =>
    rw [h.sound path r hf] at answer
    cases answer
  | none => rw [answer]

end Remembers

/-- **A path cache is transparent**. Whatever paths are resolved through it, one after the other,
each has the answer that it has without a cache: the same error, or the same type and accessor. Its
size is the number of different paths so far that resolve. A path that fails leaves the cache as it
was, and fails with the same error again. -/
theorem resolveEach_transparent (S : Schema) (kind : S.Kind) (paths : List String) :
    let run := (resolveEach paths : StateM (PathCache S kind) _).run empty
    run.1 = paths.map (S.resolve kind) ∧
      run.2.size = (paths.filter fun path => (S.resolve kind path).isOk).dedup.length ∧
      ∀ path err, ((resolve path).run.run run.2).1 = .error err →
        ((resolve path).run.run run.2).2 = run.2 ∧
          ((resolve path).run.run ((resolve path).run.run run.2).2).1 = .error err := by
  intro run
  have start : (empty : PathCache S kind).Remembers [] := remembers_empty
  obtain ⟨answers, last⟩ := start.run_resolveEach paths
  rw [List.nil_append] at last
  refine ⟨answers, last.size_eq, fun path err failed => ?_⟩
  rw [last.run_resolve_of_error failed]
  exact ⟨rfl, failed⟩

end EntityQuery.PathCache
