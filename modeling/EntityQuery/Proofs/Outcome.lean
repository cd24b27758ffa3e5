import Mathlib.Data.List.Forall2

/-!
# Outcomes

What compiles has a value or an error. Where an outcome is put together from others it has a
value exactly if they have, and an error from the first that has one. Two outcomes are *alike* if
both are errors, of whatever kind, or both are values that some relation holds of.
-/

namespace EntityQuery.Outcome

variable {ε α β γ δ : Type}

/-! ### Values -/

theorem map_eq_ok_iff {x : Except ε α} {f : α → β} {b : β} :
    x.map f = .ok b ↔ ∃ a, x = .ok a ∧ f a = b := by
  cases x with
  | error err => simp [Except.map]
  | ok a => simp [Except.map]

theorem bind_eq_ok_iff {x : Except ε α} {f : α → Except ε β} {b : β} :
    (x >>= f) = .ok b ↔ ∃ a, x = .ok a ∧ f a = .ok b := by
  cases x with
  | error err => simp [bind, Except.bind]
  | ok a => simp [bind, Except.bind]

theorem map_bind_map (x : Except ε α) (f : α → Except ε β) (g : α → β → γ) (h : γ → δ) :
    (x >>= fun a => (f a).map (g a)).map h = x >>= fun a => (f a).map fun b => h (g a b) := by
  cases x with
  | error err => rfl
  | ok a =>
    change ((f a).map (g a)).map h = (f a).map _
    cases f a <;> rfl

/-- Outcomes for the items of a list have values together exactly if each of them has. -/
theorem mapM_eq_ok_iff {f : α → Except ε β} {as : List α} {bs : List β} :
    as.mapM f = .ok bs ↔ List.Forall₂ (fun a b => f a = .ok b) as bs := by
  induction as generalizing bs with
  | nil => cases bs <;> simp [pure, Except.pure]
  | cons a as ih =>
    rw [List.mapM_cons, bind_eq_ok_iff, List.forall₂_cons_left_iff]
    constructor
    · rintro ⟨b, hb, h⟩
      obtain ⟨bs', hbs, h⟩ := bind_eq_ok_iff.mp h
      exact ⟨b, bs', hb, ih.mp hbs, (Except.ok.inj h).symm⟩
    · rintro ⟨b, bs', hb, hbs, rfl⟩
      exact ⟨b, hb, bind_eq_ok_iff.mpr ⟨bs', ih.mpr hbs, rfl⟩⟩

/-- Each of these values is that of some item. -/
theorem exists_of_mem_mapM {f : α → Except ε β} {as : List α} {bs : List β}
    (h : as.mapM f = .ok bs) {b : β} (hb : b ∈ bs) : ∃ a ∈ as, f a = .ok b := by
  have items := mapM_eq_ok_iff.mp h
  clear h
  induction items with
  | nil => cases hb
  | @cons a b' as bs ha _ ih =>
    rcases List.mem_cons.mp hb with rfl | hb
    · exact ⟨a, List.mem_cons_self, ha⟩
    · obtain ⟨a', mem, ha'⟩ := ih hb
      exact ⟨a', List.mem_cons_of_mem _ mem, ha'⟩

/-- The outcomes for the items are just these values. -/
theorem map_eq_of_mapM {f : α → Except ε β} {as : List α} {bs : List β}
    (h : as.mapM f = .ok bs) : as.map f = bs.map .ok := by
  have items := mapM_eq_ok_iff.mp h
  clear h
  induction items with
  | nil => rfl
  | cons ha _ ih => rw [List.map_cons, List.map_cons, ha, ih]

/-- If the outcome for each item is made from another one, so are those for all items. -/
theorem mapM_eq_map {f : α → Except ε β} {g : α → Except ε γ} {h : β → γ} {as : List α}
    (items : ∀ a ∈ as, g a = (f a).map h) : as.mapM g = (as.mapM f).map (List.map h) := by
  induction as with
  | nil => rfl
  | cons a as ih =>
    rw [List.mapM_cons, List.mapM_cons, items a List.mem_cons_self,
      ih fun b hb => items b (List.mem_cons_of_mem a hb)]
    cases f a with
    | error err => rfl
    | ok b => cases as.mapM f <;> rfl

theorem exists_of_toOption {x : Except ε α} {f : α → β} {b : β}
    (h : x.toOption.map f = some b) : ∃ a, x = .ok a ∧ f a = b := by
  cases x with
  | error err => cases h
  | ok a => exact ⟨a, rfl, Option.some.inj h⟩

/-! ### Errors -/

/-- The error of an outcome, if it has one. -/
def failure? : Except ε α → Option ε
  | .error err => some err
  | .ok _ => none

@[simp] theorem failure?_map (f : α → β) (x : Except ε α) : failure? (x.map f) = failure? x := by
  cases x <;> rfl

/-- Of two steps, where the second does not look at what the first has found, the error is that of
the first that has one. -/
theorem failure?_bind (x : Except ε α) (y : Except ε β) (f : α → β → γ) :
    failure? (x >>= fun a => y.map (f a)) = (failure? x).or (failure? y) := by
  cases x with
  | error err => rfl
  | ok a => exact failure?_map (f a) y

/-- Of outcomes for the items of a list the error is that of the first that has one. -/
theorem failure?_mapM (f : α → Except ε β) (as : List α) :
    failure? (as.mapM f) = as.findSome? fun a => failure? (f a) := by
  induction as with
  | nil => rfl
  | cons a as ih =>
    rw [List.mapM_cons, List.findSome?_cons, ← ih]
    cases f a with
    | error err => rfl
    | ok b => cases as.mapM f <;> rfl

theorem failure?_eq_some_iff {x : Except ε α} {err : ε} :
    failure? x = some err ↔ x = .error err := by
  cases x <;> simp [failure?]

theorem failure?_eq_none_iff {x : Except ε α} : failure? x = none ↔ ∃ a, x = .ok a := by
  cases x <;> simp [failure?]

theorem isSome_failure?_iff {x : Except ε α} :
    (failure? x).isSome = true ↔ ∃ err, x = .error err := by
  cases x <;> simp [failure?]

/-! ### Alike outcomes -/

/-- Both are errors, or both are values and the relation holds of them. -/
inductive Alike (R : α → β → Prop) : Except ε α → Except ε β → Prop where
  /-- Two errors; they need not be the same. -/
  | error (err err' : ε) : Alike R (.error err) (.error err')
  /-- Two values in the relation. -/
  | ok {a : α} {b : β} : R a b → Alike R (.ok a) (.ok b)

theorem Alike.refl {R : α → α → Prop} (h : ∀ a, R a a) (x : Except ε α) : Alike R x x := by
  cases x with
  | error err => exact .error err err
  | ok a => exact .ok (h a)

theorem Alike.map {R : α → β → Prop} {R' : γ → δ → Prop} {x : Except ε α} {y : Except ε β}
    {f : α → γ} {g : β → δ} (h : Alike R x y) (hfg : ∀ a b, R a b → R' (f a) (g b)) :
    Alike R' (x.map f) (y.map g) := by
  cases h with
  | error err err' => exact .error err err'
  | ok hab => exact .ok (hfg _ _ hab)

theorem Alike.bind {R : α → β → Prop} {R' : γ → δ → Prop} {x : Except ε α} {y : Except ε β}
    {f : α → Except ε γ} {g : β → Except ε δ} (h : Alike R x y)
    (hfg : ∀ a b, R a b → Alike R' (f a) (g b)) : Alike R' (x >>= f) (y >>= g) := by
  cases h with
  | error err err' => exact .error err err'
  | ok hab => exact hfg _ _ hab

/-- Outcomes for the items of two lists, alike for the items at each place. -/
theorem Alike.mapM {T : α → γ → Prop} {R : β → δ → Prop} {f : α → Except ε β} {g : γ → Except ε δ}
    (hfg : ∀ a c, T a c → Alike R (f a) (g c)) {as : List α} {cs : List γ}
    (h : List.Forall₂ T as cs) : Alike (List.Forall₂ R) (as.mapM f) (cs.mapM g) := by
  induction h with
  | nil => exact .ok .nil
  | cons hac _ ih =>
    rw [List.mapM_cons, List.mapM_cons]
    refine (hfg _ _ hac).bind fun b d hbd => ih.bind fun bs ds hbds => ?_
    exact .ok (.cons hbd hbds)

theorem Alike.ite {R : α → β → Prop} {c : Prop} [Decidable c] {x x' : Except ε α}
    {y y' : Except ε β} (h : Alike R x y) (h' : Alike R x' y') :
    Alike R (if c then x else x') (if c then y else y') := by
  split
  · exact h
  · exact h'

theorem Alike.mono {R R' : α → β → Prop} {x : Except ε α} {y : Except ε β} (h : Alike R x y)
    (hR : ∀ a b, R a b → R' a b) : Alike R' x y := by
  cases h with
  | error err err' => exact .error err err'
  | ok hab => exact .ok (hR _ _ hab)

/-- Outcomes are alike if each has a value just where the other has the one that it stands for. -/
theorem Alike.of_iff {x : Except ε α} {y : Except ε β} {f : β → α}
    (h : ∀ a, x = .ok a ↔ ∃ b, y = .ok b ∧ a = f b) : Alike (fun a b => a = f b) x y := by
  cases y with
  | error err' =>
    cases x with
    | error err => exact .error err err'
    | ok a =>
      obtain ⟨b, hb, -⟩ := (h a).mp rfl
      cases hb
  | ok b =>
    rw [(h (f b)).mpr ⟨b, rfl, rfl⟩]
    exact .ok rfl

/-- The values of the second outcome may be taken to be its value. -/
theorem Alike.and_ok {R : α → β → Prop} {x : Except ε α} {y : Except ε β} (h : Alike R x y) :
    Alike (fun a b => R a b ∧ y = .ok b) x y := by
  cases h with
  | error err err' => exact .error err err'
  | ok hab => exact .ok ⟨hab, rfl⟩

/-- The values of alike outcomes are in the relation. -/
theorem Alike.rel {R : α → β → Prop} {x : Except ε α} {y : Except ε β} (h : Alike R x y) {a : α}
    {b : β} (hx : x = .ok a) (hy : y = .ok b) : R a b := by
  subst hx hy
  cases h with
  | ok hab => exact hab

/-- If the first of alike outcomes has a value, so has the second. -/
theorem Alike.exists_ok {R : α → β → Prop} {x : Except ε α} {y : Except ε β} (h : Alike R x y)
    {a : α} (hx : x = .ok a) : ∃ b, y = .ok b ∧ R a b := by
  subst hx
  cases h with
  | ok hab => exact ⟨_, rfl, hab⟩

theorem Alike.failure?_isSome {R : α → β → Prop} {x : Except ε α} {y : Except ε β}
    (h : Alike R x y) : (failure? x).isSome = (failure? y).isSome := by
  cases h <;> rfl

end EntityQuery.Outcome
