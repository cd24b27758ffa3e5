import EntityQuery.Path.Cache

/-!
# Resolving through a cache

What a path resolves to does not depend on what has been resolved before. A cache is *sound* if
it remembers of a path only what resolving the path finds; the empty cache is, and resolving
keeps it so. A computation is *transparent* if on every sound cache it has the result that it has
alone, on the empty one, and leaves a sound cache. Resolving one path is transparent, and so is
every computation that is put together from transparent ones; its result is put together from
theirs.
-/

namespace EntityQuery

variable {S : Schema} {kind : S.Kind} {α β : Type}

/-- Everything that is remembered is what resolving finds. -/
def PathCache.Sound (c : PathCache S kind) : Prop :=
  ∀ path r, c.find? path = some r → S.resolve kind path = .ok r

theorem PathCache.sound_empty : (PathCache.empty : PathCache S kind).Sound := by
  intro path r h
  simp at h

theorem PathCache.Sound.insert {c : PathCache S kind} (hc : c.Sound) {path : String}
    {r : Resolved (S.Entity kind)} (hr : S.resolve kind path = .ok r) : (c.insert path r).Sound := by
  intro q s h
  rw [find?_insert] at h
  split at h
  · next hq => rw [hq, hr, Option.some.inj h]
  · exact hc q s h

namespace Resolving

/-- The result of a computation that starts with nothing remembered. -/
def alone (x : Resolving S kind α) : Except CompileError α := (x.run.run PathCache.empty).1

/-- **What is remembered makes no difference**: on every sound cache the computation has the
result that it has alone, and what it leaves is sound. -/
structure Transparent (x : Resolving S kind α) : Prop where
  result : ∀ c : PathCache S kind, c.Sound → (x.run.run c).1 = x.alone
  sound : ∀ c : PathCache S kind, c.Sound → (x.run.run c).2.Sound

/-! ### Single steps -/

@[simp] theorem alone_pure (a : α) : (pure a : Resolving S kind α).alone = .ok a := rfl

theorem transparent_pure (a : α) : (pure a : Resolving S kind α).Transparent :=
  ⟨fun _ _ => rfl, fun _ hc => hc⟩

@[simp] theorem alone_liftExcept (r : Except CompileError α) :
    (liftExcept r : Resolving S kind α).alone = r := by
  cases r <;> rfl

theorem transparent_liftExcept (r : Except CompileError α) :
    (liftExcept r : Resolving S kind α).Transparent := by
  cases r with
  | error err => exact ⟨fun _ _ => rfl, fun _ hc => hc⟩
  | ok a => exact ⟨fun _ _ => rfl, fun _ hc => hc⟩

/-! ### One step after another -/

theorem run_bind (x : Resolving S kind α) (f : α → Resolving S kind β) (c : PathCache S kind) :
    (x >>= f).run.run c =
      match x.run.run c with
      | (.ok a, d) => (f a).run.run d
      | (.error err, d) => (.error err, d) := by
  rw [ExceptT.run_bind, StateT.run_bind]
  rcases x.run.run c with ⟨_ | _, d⟩ <;> rfl

/-- From a sound cache, the second step of two has the result that it has alone. -/
theorem run_bind_fst {x : Resolving S kind α} {f : α → Resolving S kind β} (hx : x.Transparent)
    (hf : ∀ a, (f a).Transparent) {c : PathCache S kind} (hc : c.Sound) :
    ((x >>= f).run.run c).1 = x.alone >>= fun a => (f a).alone := by
  have hr := hx.result c hc
  have hs := hx.sound c hc
  rw [run_bind, ← hr]
  rcases hd : x.run.run c with ⟨_ | a, d⟩
  · rfl
  · rw [hd] at hs
    exact (hf a).result d hs

theorem Transparent.alone_bind {x : Resolving S kind α} {f : α → Resolving S kind β}
    (hx : x.Transparent) (hf : ∀ a, (f a).Transparent) :
    (x >>= f).alone = x.alone >>= fun a => (f a).alone :=
  run_bind_fst hx hf PathCache.sound_empty

theorem Transparent.bind {x : Resolving S kind α} {f : α → Resolving S kind β}
    (hx : x.Transparent) (hf : ∀ a, (f a).Transparent) : (x >>= f).Transparent := by
  refine ⟨fun c hc => ?_, fun c hc => ?_⟩
  · rw [hx.alone_bind hf, run_bind_fst hx hf hc]
  · have hs := hx.sound c hc
    rw [run_bind]
    rcases hd : x.run.run c with ⟨_ | a, d⟩ <;> rw [hd] at hs
    · exact hs
    · exact (hf a).sound d hs

/-! ### One step for each item -/

theorem transparent_mapM {f : α → Resolving S kind β} (hf : ∀ a, (f a).Transparent) (as : List α) :
    (as.mapM f).Transparent := by
  induction as with
  | nil => exact transparent_pure _
  | cons a as ih =>
    rw [List.mapM_cons]
    exact (hf a).bind fun _ => ih.bind fun _ => transparent_pure _

/-- Steps for the items of a list have the results that they have alone. -/
theorem alone_mapM {f : α → Resolving S kind β} (hf : ∀ a, (f a).Transparent) (as : List α) :
    (as.mapM f).alone = as.mapM fun a => (f a).alone := by
  induction as with
  | nil => rfl
  | cons a as ih =>
    have rest (b : β) : (as.mapM f >>= fun bs => pure (b :: bs)).Transparent :=
      (transparent_mapM hf as).bind fun _ => transparent_pure _
    rw [List.mapM_cons, List.mapM_cons, (hf a).alone_bind rest]
    congr 1
    funext b
    rw [(transparent_mapM hf as).alone_bind fun _ => transparent_pure _, ih]
    rfl

/-! ### Resolving a path -/

/-- What is remembered is found; otherwise the path is resolved, and remembered if that
succeeds. -/
theorem run_resolve (path : String) (c : PathCache S kind) :
    (PathCache.resolve path).run.run c =
      match c.find? path, S.resolve kind path with
      | some r, _ => (.ok r, c)
      | none, .ok r => (.ok r, c.insert path r)
      | none, .error err => (.error err, c) := by
  unfold PathCache.resolve
  rw [run_bind, show (getThe (PathCache S kind) : Resolving S kind _).run.run c = (.ok c, c) from rfl]
  dsimp only
  cases c.find? path with
  | some r => rfl
  | none =>
    dsimp only
    rw [run_bind]
    cases S.resolve kind path with
    | ok r => rfl
    | error err => rfl

/-- On a sound cache a path resolves to what it resolves to without one. -/
theorem run_resolve_fst {path : String} {c : PathCache S kind} (hc : c.Sound) :
    ((PathCache.resolve path).run.run c).1 = S.resolve kind path := by
  rw [run_resolve]
  cases hf : c.find? path with
  | some r => exact (hc path r hf).symm
  | none => cases S.resolve kind path <;> rfl

theorem alone_resolve (path : String) :
    (PathCache.resolve path : Resolving S kind _).alone = S.resolve kind path :=
  run_resolve_fst PathCache.sound_empty

theorem transparent_resolve (path : String) :
    (PathCache.resolve path : Resolving S kind _).Transparent := by
  refine ⟨fun c hc => ?_, fun c hc => ?_⟩
  · rw [run_resolve_fst hc, alone_resolve]
  · rw [run_resolve]
    cases c.find? path with
    | some r => exact hc
    | none =>
      cases hr : S.resolve kind path with
      | ok r => exact hc.insert hr
      | error err => exact hc

end Resolving

end EntityQuery
