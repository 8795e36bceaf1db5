import Mathlib.Data.List.Forall2

/-!
# Computations that can fail

What a result of a whole computation says of its parts.

- `exists_of_bind_eq_ok`, `ok_bind`, `mapError_eq_ok_iff`: one step after the other;
- `mapM_eq_ok_iff`, `mapM_eq_error_iff`: one step for each element of a list.
-/

namespace MarketAlerts

/-! ## Steps -/

/-- What a computation in two steps comes of. -/
theorem exists_of_bind_eq_ok {ε α β : Type} {x : Except ε α} {f : α → Except ε β} {result : β}
    (h : (x >>= f) = .ok result) : ∃ a, x = .ok a ∧ f a = .ok result := by
  cases x with
  | error cause => cases h
  | ok a => exact ⟨a, rfl, h⟩

/-- What goes well goes on. -/
@[simp] theorem ok_bind {ε α β : Type} (a : α) (f : α → Except ε β) : (.ok a >>= f) = f a :=
  rfl

section MapError

variable {ε ε' α : Type} {f : ε → ε'} {a : α}

/-- A change of errors leaves what went well. -/
@[simp] theorem mapError_ok : (Except.ok a).mapError f = .ok a :=
  rfl

/-- A change of errors changes an error. -/
@[simp] theorem mapError_error {cause : ε} :
    (Except.error cause : Except ε α).mapError f = .error (f cause) :=
  rfl

/-- Errors that are told otherwise do not touch results. -/
theorem mapError_eq_ok_iff {x : Except ε α} : x.mapError f = .ok a ↔ x = .ok a := by
  cases x <;> simp

end MapError

/-! ## Lists -/

section Traversal

variable {α β ε : Type} {f : α → Except ε β} {xs : List α}

/-- A list is led through if each of its members is. -/
theorem mapM_eq_ok_iff {ys : List β} :
    xs.mapM f = .ok ys ↔ List.Forall₂ (fun x y => f x = .ok y) xs ys := by
  induction xs generalizing ys with
  | nil => cases ys <;> simp [pure, Except.pure]
  | cons x xs ih =>
    rw [List.mapM_cons, List.forall₂_cons_left_iff]
    cases hx : f x with
    | error e => simp [bind, Except.bind]
    | ok y =>
      cases hxs : xs.mapM f with
      | error e => simp [bind, Except.bind, ← ih, hxs]
      | ok zs => simp [bind, Except.bind, pure, Except.pure, ← ih, hxs, eq_comm]

/-- The first result that is an error ends the row. -/
theorem mapM_eq_error_iff {e : ε} :
    xs.mapM f = .error e ↔ ∃ before x after, xs = before ++ x :: after ∧
      (∀ z ∈ before, ∃ y, f z = .ok y) ∧ f x = .error e := by
  induction xs with
  | nil => simp [pure, Except.pure]
  | cons x xs ih =>
    rw [List.mapM_cons]
    cases hx : f x with
    | error e' =>
      simp only [bind, Except.bind, Except.error.injEq]
      constructor
      · rintro rfl
        exact ⟨[], x, xs, rfl, nofun, hx⟩
      · rintro ⟨before, z, after, heq, hbefore, hz⟩
        -- the first error is the only one that counts, so nothing stands before it
        rcases List.cons_eq_append_iff.1 heq with ⟨rfl, hcons⟩ | ⟨rest, rfl, -⟩
        · rw [List.cons.injEq] at hcons
          rw [hcons.1, hx] at hz
          exact Except.error.inj hz
        · obtain ⟨y, hy⟩ := hbefore x List.mem_cons_self
          rw [hx] at hy
          contradiction
    | ok y =>
      have hrest : ((do let y' ← .ok y; let ys ← xs.mapM f; pure (y' :: ys)) : Except ε (List β)) =
          .error e ↔ xs.mapM f = .error e := by
        cases xs.mapM f <;> simp [bind, Except.bind, pure, Except.pure]
      rw [hrest, ih]
      -- the row that ends early is longer by the element in front, which is no error
      constructor
      · rintro ⟨before, z, after, rfl, hbefore, hz⟩
        exact ⟨x :: before, z, after, rfl, List.forall_mem_cons.2 ⟨⟨y, hx⟩, hbefore⟩, hz⟩
      · rintro ⟨before, z, after, heq, hbefore, hz⟩
        rcases List.cons_eq_append_iff.1 heq with ⟨rfl, hcons⟩ | ⟨rest, rfl, rfl⟩
        · rw [List.cons.injEq] at hcons
          rw [hcons.1, hx] at hz
          contradiction
        · exact ⟨rest, z, after, rfl, (List.forall_mem_cons.1 hbefore).2, hz⟩

/-- What does the same to the members of a list leads it through alike. -/
theorem mapM_congr_of_mem {g : α → Except ε β} (h : ∀ x ∈ xs, f x = g x) :
    xs.mapM f = xs.mapM g := by
  induction xs with
  | nil => rfl
  | cons x xs ih =>
    obtain ⟨hx, hxs⟩ := List.forall_mem_cons.1 h
    rw [List.mapM_cons, List.mapM_cons, hx, ih hxs]

/-- Members are related one by one. -/
theorem exists_forall₂_iff {r : α → β → Prop} :
    (∃ ys, List.Forall₂ r xs ys) ↔ ∀ x ∈ xs, ∃ y, r x y := by
  induction xs with
  | nil => simp
  | cons x xs ih =>
    rw [List.forall_mem_cons, ← ih]
    constructor
    · rintro ⟨_, hx | ⟨hx, hxs⟩⟩
      exact ⟨⟨_, hx⟩, _, hxs⟩
    · rintro ⟨⟨y, hx⟩, ys, hxs⟩
      exact ⟨y :: ys, .cons hx hxs⟩

end Traversal

end MarketAlerts
