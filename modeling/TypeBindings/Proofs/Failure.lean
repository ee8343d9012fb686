import Mathlib.Data.List.Forall2
import Mathlib.Logic.Basic

/-!
# Computations that can fail

A computation in `Except` succeeds exactly if all its steps do, and what it gives is what its last step gives from the
results of the others. If it fails, the first step that fails decides the error.
-/

namespace TypeBindings

/-- A computation that gives a result. -/
def Succeeds {ε α : Type} (x : Except ε α) : Prop := ∃ a, x = .ok a

variable {ε α β σ : Type}

theorem succeeds_ok (a : α) : Succeeds (.ok a : Except ε α) := ⟨a, rfl⟩

theorem not_succeeds_error (e : ε) : ¬ Succeeds (.error e : Except ε α) := fun ⟨_, h⟩ => by cases h

theorem succeeds_pure (a : α) : Succeeds (pure a : Except ε α) := ⟨a, rfl⟩

/-- A result that is seen without the error is a result. -/
theorem eq_ok_of_toOption {x : Except ε α} {a : α} (h : x.toOption = some a) : x = .ok a := by
  cases x with
  | error e => cases h
  | ok b => exact congrArg Except.ok (Option.some.inj h)

theorem bind_eq_ok_iff {x : Except ε α} {f : α → Except ε β} {b : β} :
    (x >>= f) = .ok b ↔ ∃ a, x = .ok a ∧ f a = .ok b := by
  cases x with
  | error error => exact ⟨nofun, fun ⟨_, h, _⟩ => nomatch h⟩
  | ok a =>
    refine ⟨fun h => ⟨a, rfl, h⟩, ?_⟩
    rintro ⟨a, ⟨⟩, h⟩
    exact h

theorem bind_eq_error_iff {x : Except ε α} {f : α → Except ε β} {e : ε} :
    (x >>= f) = .error e ↔ x = .error e ∨ ∃ a, x = .ok a ∧ f a = .error e := by
  cases x with
  | error error =>
    constructor
    · intro h
      exact .inl (congrArg Except.error (Except.error.inj h))
    · rintro (h | ⟨_, h, _⟩)
      · exact congrArg Except.error (Except.error.inj h)
      · cases h
  | ok a =>
    constructor
    · intro h
      exact .inr ⟨a, rfl, h⟩
    · rintro (h | ⟨b, h, hf⟩)
      · cases h
      · cases h
        exact hf

/-- What is not there is an error. -/
theorem elim_eq_ok_iff {o : Option α} {e : ε} {a : α} : o.elim (.error e) .ok = (.ok a : Except ε α) ↔ o = some a := by
  cases o with
  | none => exact ⟨fun h => (by cases h), fun h => (by cases h)⟩
  | some b => exact ⟨fun h => congrArg some (Except.ok.inj h), fun h => congrArg Except.ok (Option.some.inj h)⟩

theorem elim_eq_error_iff {o : Option α} {e error : ε} :
    o.elim (.error e) .ok = (.error error : Except ε α) ↔ o = none ∧ error = e := by
  cases o with
  | none => exact ⟨fun h => ⟨rfl, (Except.error.inj h).symm⟩, fun h => congrArg Except.error h.2.symm⟩
  | some b => exact ⟨fun h => (by cases h), fun h => (by cases h.1)⟩

theorem elim_eq_error_iff_forall {o : Option α} {e error : ε} :
    o.elim (.error e) .ok = (.error error : Except ε α) ↔
      (∀ a, ¬o.elim (.error e) .ok = (.ok a : Except ε α)) ∧ error = e := by
  simp only [elim_eq_error_iff, elim_eq_ok_iff, Option.eq_none_iff_forall_ne_some, ne_eq]

/-- Errors of another kind come where there were errors. -/
theorem mapError_eq_ok_iff {ε' : Type} {x : Except ε α} {f : ε → ε'} {a : α} : x.mapError f = .ok a ↔ x = .ok a := by
  cases x with
  | error error => exact ⟨fun h => (by cases h), fun h => (by cases h)⟩
  | ok b => exact ⟨fun h => congrArg Except.ok (Except.ok.inj h), fun h => congrArg Except.ok (Except.ok.inj h)⟩

theorem mapError_eq_error_iff {ε' : Type} {x : Except ε α} {f : ε → ε'} {e' : ε'} :
    x.mapError f = .error e' ↔ ∃ e, x = .error e ∧ e' = f e := by
  cases x with
  | error error =>
    constructor
    · intro h
      exact ⟨error, rfl, (Except.error.inj h).symm⟩
    · rintro ⟨e, h, rfl⟩
      cases h
      rfl
  | ok a =>
    constructor
    · intro h
      cases h
    · rintro ⟨e, h, _⟩
      cases h

theorem succeeds_bind {x : Except ε α} {f : α → Except ε β} :
    Succeeds (x >>= f) ↔ ∃ a, x = .ok a ∧ Succeeds (f a) := by
  unfold Succeeds
  simp only [bind_eq_ok_iff]
  exact ⟨fun ⟨b, a, ha, hb⟩ => ⟨a, ha, b, hb⟩, fun ⟨a, ha, b, hb⟩ => ⟨b, a, ha, hb⟩⟩

theorem succeeds_map {x : Except ε α} {f : α → β} : Succeeds (f <$> x) ↔ Succeeds x := by
  cases x with
  | error e => exact ⟨fun h => absurd h (not_succeeds_error e), fun h => absurd h (not_succeeds_error e)⟩
  | ok a => exact ⟨fun _ => succeeds_ok a, fun _ => succeeds_ok (f a)⟩

theorem succeeds_mapM {f : α → Except ε β} : ∀ {xs : List α}, Succeeds (xs.mapM f) ↔ ∀ x ∈ xs, Succeeds (f x)
  | [] => by simp [succeeds_pure]
  | x :: xs => by
    rw [List.mapM_cons, succeeds_bind, List.forall_mem_cons]
    simp only [succeeds_bind, succeeds_pure, and_true]
    rw [exists_and_right]
    exact and_congr Iff.rfl succeeds_mapM

/-- A list is gone through if each of its elements gives a result, and these are the results in order. -/
theorem mapM_eq_ok_iff {f : α → Except ε β} {xs : List α} {ys : List β} :
    xs.mapM f = .ok ys ↔ List.Forall₂ (fun x y => f x = .ok y) xs ys := by
  induction xs generalizing ys with
  | nil =>
    rw [List.mapM_nil, List.forall₂_nil_left_iff]
    exact ⟨fun h => (Except.ok.inj h).symm, fun h => congrArg Except.ok h.symm⟩
  | cons x xs ih =>
    rw [List.mapM_cons, bind_eq_ok_iff, List.forall₂_cons_left_iff]
    simp only [bind_eq_ok_iff, ih]
    constructor
    · rintro ⟨y, hy, zs, hzs, h⟩
      exact ⟨y, zs, hy, hzs, (Except.ok.inj h).symm⟩
    · rintro ⟨y, zs, hy, hzs, rfl⟩
      exact ⟨y, hy, zs, hzs, rfl⟩

/-- The first element that gives no result decides the error. -/
theorem mapM_eq_error_iff {f : α → Except ε β} {xs : List α} {e : ε} :
    xs.mapM f = .error e ↔
      ∃ before x after, xs = before ++ x :: after ∧ (∀ y ∈ before, Succeeds (f y)) ∧ f x = .error e := by
  induction xs with
  | nil =>
    rw [List.mapM_nil]
    constructor
    · intro h
      cases h
    · rintro ⟨before, x, after, h, _⟩
      simp at h
  | cons x xs ih =>
    rw [List.mapM_cons, bind_eq_error_iff]
    simp only [bind_eq_error_iff]
    constructor
    · rintro (h | ⟨y, hy, h | ⟨ys, _, h⟩⟩)
      · exact ⟨[], x, xs, rfl, by simp, h⟩
      · obtain ⟨before, z, after, rfl, hbefore, hz⟩ := ih.1 h
        exact ⟨x :: before, z, after, rfl, List.forall_mem_cons.2 ⟨⟨y, hy⟩, hbefore⟩, hz⟩
      · cases h
    · rintro ⟨before, z, after, h, hbefore, hz⟩
      cases before with
      | nil =>
        cases h
        exact .inl hz
      | cons y before =>
        cases h
        obtain ⟨⟨b, hb⟩, hrest⟩ := List.forall_mem_cons.1 hbefore
        exact .inr ⟨b, hb, .inl (ih.2 ⟨before, z, after, rfl, hrest, hz⟩)⟩

theorem forM_eq_ok {f : α → Except ε Unit} : ∀ {xs : List α}, (∀ x ∈ xs, f x = .ok ()) → xs.forM f = .ok ()
  | [], _ => rfl
  | x :: xs, h => by
    have hrest := forM_eq_ok fun y hy => h y (List.mem_cons_of_mem _ hy)
    change (f x >>= fun _ => xs.forM f) = .ok ()
    rw [h x List.mem_cons_self]
    exact hrest

/-- A way that can be gone step by step can be gone wherever each of its steps leads to the same. -/
theorem foldlM_eq_ok_of_forall {f g : σ → α → Except ε σ} (h : ∀ s x s', f s x = .ok s' → g s x = .ok s') :
    ∀ {xs : List α} {s s' : σ}, xs.foldlM f s = .ok s' → xs.foldlM g s = .ok s'
  | [], _, _, hway => hway
  | x :: xs, s, s', hway => by
    rw [List.foldlM_cons] at hway ⊢
    obtain ⟨middle, hstep, hrest⟩ := bind_eq_ok_iff.1 hway
    exact bind_eq_ok_iff.2 ⟨middle, h s x middle hstep, foldlM_eq_ok_of_forall h hrest⟩

end TypeBindings
