import Mathlib.Data.List.Perm.Basic

/-!
# Outcomes

A step of a run either yields a value or fails. This file says when a chain of steps and a walk
through a list succeed, and when two outcomes agree: both fail, for whatever reasons, or both
succeed with values that belong together.

## Main definitions

* `Agree r x y`: the outcomes `x` and `y` both fail, or succeed with values that `r` relates
* `failure? x`: the failure of an outcome

## Main results

* `bind_eq_ok_iff`, `mapM_eq_ok_iff`: a chain or a walk succeeds when each of its steps does
* `agree_mapM_of_perm`: walks through the same things in another order agree
* `failure?_bind`, `failure?_mapM`: a chain or a walk fails with the first of its steps that fails
* `bind_eq_error_iff`, `mapM_eq_error_iff`: what a failing chain or walk has behind it
-/

namespace ProtoClient

variable {ε α β : Type}

theorem exists_of_isOk {x : Except ε α} (h : x.isOk = true) : ∃ a, x = .ok a := by
  cases x with
  | error e => cases h
  | ok a => exact ⟨a, rfl⟩

/-- A chain of two steps succeeds when both do. -/
theorem bind_eq_ok_iff {x : Except ε α} {f : α → Except ε β} {b : β} :
    x >>= f = .ok b ↔ ∃ a, x = .ok a ∧ f a = .ok b := by
  cases x with
  | error e => simp [bind, Except.bind]
  | ok a => simp [bind, Except.bind]

/-- A value that was changed comes from the value before. -/
theorem map_eq_ok_iff {x : Except ε α} {f : α → β} {b : β} :
    x.map f = .ok b ↔ ∃ a, x = .ok a ∧ f a = b := by
  cases x with
  | error e => simp [Except.map]
  | ok a => simp [Except.map]

/-- An outcome whose failure is worded otherwise succeeds with what it yields. -/
theorem mapError_eq_ok_iff {ε' : Type} {f : ε → ε'} {x : Except ε α} {a : α} :
    x.mapError f = .ok a ↔ x = .ok a := by
  cases x <;> simp [Except.mapError]

/-- An outcome whose failure is worded otherwise fails with its failure in other words. -/
theorem mapError_eq_error_iff {ε' : Type} {f : ε → ε'} {x : Except ε α} {e' : ε'} :
    x.mapError f = .error e' ↔ ∃ e, x = .error e ∧ f e = e' := by
  cases x <;> simp [Except.mapError]

/-- Outcomes are equal when they are equal in other words, which differ for different failures. -/
theorem eq_of_mapError_eq {ε' : Type} {f : ε → ε'} (hf : ∀ e e', f e = f e' → e = e')
    {x y : Except ε α} (h : x.mapError f = y.mapError f) : x = y := by
  cases x with
  | ok a =>
    cases y with
    | ok b => exact congrArg _ (Except.ok.inj h)
    | error e => cases h
  | error e =>
    cases y with
    | ok b => cases h
    | error e' => exact congrArg _ (hf e e' (Except.error.inj h))

/-- A walk through a list succeeds when every step does, and yields what the steps yield. -/
theorem mapM_eq_ok_iff {f : α → Except ε β} {xs : List α} {ys : List β} :
    xs.mapM f = .ok ys ↔ List.Forall₂ (fun x y => f x = .ok y) xs ys := by
  induction xs generalizing ys with
  | nil => cases ys <;> simp [pure, Except.pure]
  | cons x xs ih =>
    rw [List.mapM_cons, bind_eq_ok_iff, List.forall₂_cons_left_iff]
    constructor
    · rintro ⟨y, hy, h⟩
      obtain ⟨ys', hys, h⟩ := bind_eq_ok_iff.mp h
      exact ⟨y, ys', hy, ih.mp hys, (Except.ok.inj h).symm⟩
    · rintro ⟨y, ys', hy, hys, rfl⟩
      exact ⟨y, hy, bind_eq_ok_iff.mpr ⟨ys', ih.mpr hys, rfl⟩⟩

/-- A chain of two steps fails with the first, or with the second after what the first yields. -/
theorem bind_eq_error_iff {x : Except ε α} {f : α → Except ε β} {e : ε} :
    x >>= f = .error e ↔ x = .error e ∨ ∃ a, x = .ok a ∧ f a = .error e := by
  cases x with
  | error e' => simp [bind, Except.bind]
  | ok a => simp [bind, Except.bind]

/-- Steps that are equal along a list make equal walks. -/
theorem mapM_congr {f g : α → Except ε β} {xs : List α} (h : ∀ x ∈ xs, f x = g x) :
    xs.mapM f = xs.mapM g := by
  induction xs with
  | nil => rfl
  | cons x xs ih =>
    rw [List.mapM_cons, List.mapM_cons, h x List.mem_cons_self,
      ih fun y hy => h y (List.mem_cons_of_mem _ hy)]

/-- What stands on the right of a walk has its partner on the left. -/
theorem exists_left_of_forall₂ {r : α → β → Prop} {xs : List α} {ys : List β}
    (h : List.Forall₂ r xs ys) {y : β} (hy : y ∈ ys) : ∃ x ∈ xs, r x y := by
  obtain ⟨i, hi, rfl⟩ := List.getElem_of_mem hy
  obtain ⟨hl, hget⟩ := List.forall₂_iff_get.mp h
  exact ⟨xs[i], List.getElem_mem _, hget i (hl ▸ hi) hi⟩

/-- What stands on the left of a walk has its partner on the right. -/
theorem exists_right_of_forall₂ {r : α → β → Prop} {xs : List α} {ys : List β}
    (h : List.Forall₂ r xs ys) {x : α} (hx : x ∈ xs) : ∃ y ∈ ys, r x y :=
  exists_left_of_forall₂ h.flip hx

/-- Every value of a successful walk comes from a step. -/
theorem exists_of_mem_of_mapM {f : α → Except ε β} {xs : List α} {ys : List β}
    (h : xs.mapM f = .ok ys) {y : β} (hy : y ∈ ys) : ∃ x ∈ xs, f x = .ok y :=
  exists_left_of_forall₂ (mapM_eq_ok_iff.mp h) hy

/-- Every step of a successful walk contributes its value. -/
theorem exists_mem_of_mapM {f : α → Except ε β} {xs : List α} {ys : List β}
    (h : xs.mapM f = .ok ys) {x : α} (hx : x ∈ xs) : ∃ y ∈ ys, f x = .ok y :=
  exists_right_of_forall₂ (mapM_eq_ok_iff.mp h) hx

/-- A walk relates what it walks through to what it yields, when its steps do. -/
theorem forall₂_of_mapM {r : α → β → Prop} {f : α → Except ε β} {xs : List α} {ys : List β}
    (hf : ∀ x ∈ xs, ∀ y, f x = .ok y → r x y) (h : xs.mapM f = .ok ys) : List.Forall₂ r xs ys := by
  rw [mapM_eq_ok_iff, List.forall₂_iff_get] at h
  exact List.forall₂_iff_get.mpr
    ⟨h.1, fun i hi hi' => hf _ (List.getElem_mem _) _ (h.2 i hi hi')⟩

/-- A walk that succeeds goes on to succeed, with the same values, when its steps do. -/
theorem mapM_eq_ok_of_forall {f g : α → Except ε β} {xs : List α} {ys : List β}
    (hfg : ∀ x ∈ xs, ∀ y, f x = .ok y → g x = .ok y) (h : xs.mapM f = .ok ys) :
    xs.mapM g = .ok ys := by
  rw [mapM_eq_ok_iff, List.forall₂_iff_get] at h ⊢
  exact ⟨h.1, fun i hi hi' => hfg _ (List.getElem_mem _) _ (h.2 i hi hi')⟩

/-- A walk through two lists walks through one after the other. -/
theorem mapM_append_eq_ok_iff {f : α → Except ε β} {xs xs' : List α} {ys : List β} :
    (xs ++ xs').mapM f = .ok ys ↔
      ∃ front rest, xs.mapM f = .ok front ∧ xs'.mapM f = .ok rest ∧ ys = front ++ rest := by
  rw [List.mapM_append, bind_eq_ok_iff]
  constructor
  · rintro ⟨front, hf, h⟩
    obtain ⟨rest, hr, h⟩ := bind_eq_ok_iff.mp h
    exact ⟨front, rest, hf, hr, (Except.ok.inj h).symm⟩
  · rintro ⟨front, rest, hf, hr, rfl⟩
    exact ⟨front, hf, bind_eq_ok_iff.mpr ⟨rest, hr, rfl⟩⟩

/-- What a walk yields, seen through `q`, is what it walks through, seen through `p`. -/
theorem map_of_mapM {γ : Type} {f : α → Except ε β} {p : α → γ} {q : β → γ} {xs : List α}
    {ys : List β} (hf : ∀ x y, f x = .ok y → q y = p x) (h : xs.mapM f = .ok ys) :
    ys.map q = xs.map p := by
  have hall := ((mapM_eq_ok_iff.mp h).imp hf).flip
  rw [← List.forall₂_map_right_iff, ← List.forall₂_map_left_iff, List.forall₂_eq_eq_eq] at hall
  exact hall

/-- A test of what a walk yields is a test of what it walks through. -/
theorem any_of_mapM {f : α → Except ε β} {p : α → Bool} {q : β → Bool} {xs : List α} {ys : List β}
    (hf : ∀ x y, f x = .ok y → q y = p x) (h : xs.mapM f = .ok ys) : ys.any q = xs.any p := by
  have hmap := congrArg (List.any · id) (map_of_mapM hf h)
  rwa [List.any_map, List.any_map] at hmap

/-- **Two outcomes agree**: both fail, or both succeed with values that `r` relates. -/
def Agree (r : α → β → Prop) : Except ε α → Except ε β → Prop
  | .ok a, .ok b => r a b
  | .error _, .error _ => True
  | _, _ => False

namespace Agree

variable {r : α → β → Prop} {x : Except ε α} {y : Except ε β}

/-- Outcomes agree when each value on either side has a partner on the other. -/
theorem of_forall (hl : ∀ a, x = .ok a → ∃ b, y = .ok b ∧ r a b)
    (hr : ∀ b, y = .ok b → ∃ a, x = .ok a) : Agree r x y := by
  cases x with
  | ok a =>
    obtain ⟨b, rfl, h⟩ := hl a rfl
    exact h
  | error e =>
    cases y with
    | ok b =>
      obtain ⟨a, h⟩ := hr b rfl
      exact absurd h (by simp)
    | error e' => trivial

theorem of_eq {r : α → α → Prop} (hr : ∀ a, r a a) {x y : Except ε α} (h : x = y) :
    Agree r x y := by
  subst h
  cases x with
  | ok a => exact hr a
  | error e => trivial

theorem imp {s : α → β → Prop} (hrs : ∀ a b, x = .ok a → y = .ok b → r a b → s a b)
    (h : Agree r x y) : Agree s x y := by
  cases x with
  | ok a =>
    cases y with
    | ok b => exact hrs a b rfl rfl h
    | error e => exact h
  | error e =>
    cases y with
    | ok b => exact h
    | error e' => trivial

/-- Outcomes agree whatever their failures are worded like. -/
theorem mapError {ε' : Type} {f : ε → ε'} (h : Agree r x y) :
    Agree r (x.mapError f) (y.mapError f) := by
  cases x <;> cases y <;> exact h

/-- Steps that agree after outcomes that agree make chains that agree. -/
theorem bind {α' β' : Type} {s : α' → β' → Prop} {f : α → Except ε α'} {g : β → Except ε β'}
    (h : Agree r x y) (hfg : ∀ a b, r a b → Agree s (f a) (g b)) :
    Agree s (x >>= f) (y >>= g) := by
  cases x with
  | ok a =>
    cases y with
    | ok b => exact hfg a b h
    | error e => exact h.elim
  | error e =>
    cases y with
    | ok b => exact h.elim
    | error e' => trivial

end Agree

/-- **Walks through the same things in another order agree**: each fails when some step does, and
otherwise they yield the same values in another order. -/
theorem agree_mapM_of_perm (f : α → Except ε β) {xs xs' : List α} (h : xs.Perm xs') :
    Agree List.Perm (xs.mapM f) (xs'.mapM f) := by
  have carry {us us' : List α} (hu : us.Perm us') {ys : List β} (hys : us.mapM f = .ok ys) :
      ∃ ys', us'.mapM f = .ok ys' ∧ ys.Perm ys' := by
    obtain ⟨ys', hys', hp⟩ := List.perm_comp_forall₂ hu.symm (mapM_eq_ok_iff.mp hys)
    exact ⟨ys', mapM_eq_ok_iff.mpr hys', hp.symm⟩
  apply Agree.of_forall
  · intro ys hys
    exact carry h hys
  · intro ys hys
    obtain ⟨ys', hys', -⟩ := carry h.symm hys
    exact ⟨ys', hys'⟩

/-! ### The first failure -/

/-- **The failure of an outcome**, if it is one. -/
def failure? : Except ε α → Option ε
  | .ok _ => none
  | .error e => some e

@[simp] theorem failure?_ok (a : α) : failure? (.ok a : Except ε α) = none := rfl

@[simp] theorem failure?_error (e : ε) : failure? (.error e : Except ε α) = some e := rfl

theorem failure?_eq_some_iff {x : Except ε α} {e : ε} : failure? x = some e ↔ x = .error e := by
  cases x <;> simp

theorem failure?_eq_none_iff {x : Except ε α} : failure? x = none ↔ ∃ a, x = .ok a := by
  cases x <;> simp

/-- **A chain of two steps fails with the first, or else with the second**, when what the first
yields does not matter for that. -/
theorem failure?_bind {x : Except ε α} {f : α → Except ε β} {later : Option ε}
    (h : ∀ a, x = .ok a → failure? (f a) = later) : failure? (x >>= f) = (failure? x).or later := by
  cases x with
  | error e => rfl
  | ok a => exact h a rfl

/-- A second step that does not fail leaves the failure of the first. -/
theorem failure?_bind_of_forall {x : Except ε α} {f : α → Except ε β}
    (h : ∀ a, failure? (f a) = none) : failure? (x >>= f) = failure? x := by
  rw [failure?_bind fun a _ => h a, Option.or_none]

/-- **A walk through a list fails with the first step that fails.** -/
theorem failure?_mapM (f : α → Except ε β) (xs : List α) :
    failure? (xs.mapM f) = xs.findSome? fun x => failure? (f x) := by
  induction xs with
  | nil => rfl
  | cons x xs ih =>
    have hrest (y : β) : failure? (xs.mapM f >>= fun ys => pure (y :: ys)) =
        xs.findSome? fun x => failure? (f x) := by
      rw [failure?_bind_of_forall fun _ => rfl, ih]
    rw [List.mapM_cons, failure?_bind fun y _ => hrest y, List.findSome?_cons]
    cases failure? (f x) <;> rfl

/-- A failure that is worded otherwise is the failure in other words. -/
theorem failure?_mapError {ε' : Type} (f : ε → ε') (x : Except ε α) :
    failure? (x.mapError f) = (failure? x).map f := by
  cases x <;> rfl

/-- Tests that are equal along a list make equal searches. -/
theorem findSome?_congr {f g : α → Option β} {xs : List α} (h : ∀ x ∈ xs, f x = g x) :
    xs.findSome? f = xs.findSome? g := by
  induction xs with
  | nil => rfl
  | cons x xs ih =>
    rw [List.findSome?_cons, List.findSome?_cons, h x List.mem_cons_self,
      ih fun y hy => h y (List.mem_cons_of_mem _ hy)]

/-- A search through lists in a row finds what is found in the first of them in which anything is.
-/
theorem findSome?_flatMap {α β γ : Type} (f : β → Option γ) (g : α → List β) (xs : List α) :
    (xs.flatMap g).findSome? f = xs.findSome? fun x => (g x).findSome? f := by
  induction xs with
  | nil => rfl
  | cons x xs ih =>
    rw [List.flatMap_cons, List.findSome?_append, ih, List.findSome?_cons]
    cases (g x).findSome? f <;> rfl

/-- A walk through a list fails at the step that fails after others that do not. -/
theorem mapM_eq_error_iff {f : α → Except ε β} {xs : List α} {e : ε} :
    xs.mapM f = .error e ↔
      ∃ front x back, xs = front ++ x :: back ∧ (∀ y ∈ front, ∃ b, f y = .ok b) ∧
        f x = .error e := by
  simp only [← failure?_eq_some_iff, ← failure?_eq_none_iff, failure?_mapM,
    List.findSome?_eq_some_iff, and_comm (a := failure? _ = some e)]

end ProtoClient
