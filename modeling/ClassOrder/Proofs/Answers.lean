import Mathlib.Data.List.Forall2

/-!
# Computations that came to an answer

What an answer of a computation that may fail tells about the answers of its parts.
-/

namespace ClassOrder

variable {ε α β : Type}

theorem bind_eq_ok {x : Except ε α} {f : α → Except ε β} {b : β} :
    x >>= f = .ok b ↔ ∃ a, x = .ok a ∧ f a = .ok b := by
  cases x with
  | error e => simp [bind, Except.bind]
  | ok a => simp [bind, Except.bind]

/-- A computation with a state goes on with the answer of its first part. -/
theorem bind_of_ok {σ : Type} {x : EStateM ε σ α} {a : α} {s s' : σ} (h : x s = .ok a s')
    (f : α → EStateM ε σ β) : (x >>= f) s = f a s' := by
  change EStateM.bind x f s = _
  rw [EStateM.bind, h]

theorem map_eq_ok {x : Except ε α} {f : α → β} {b : β} :
    x.map f = .ok b ↔ ∃ a, x = .ok a ∧ f a = b := by
  cases x with
  | error e => simp [Except.map]
  | ok a => simp [Except.map]

theorem map_eq_error {x : Except ε α} {f : α → β} {e : ε} : x.map f = .error e ↔ x = .error e := by
  cases x with
  | error other => simp [Except.map]
  | ok a => simp [Except.map]

theorem mapError_eq_ok {ε' : Type} {x : Except ε α} {f : ε → ε'} {a : α} :
    x.mapError f = .ok a ↔ x = .ok a := by
  cases x with
  | error e => simp [Except.mapError]
  | ok b => simp [Except.mapError]

theorem toOption_eq_some_iff {x : Except ε α} {a : α} : x.toOption = some a ↔ x = .ok a := by
  cases x with
  | error e => simp [Except.toOption]
  | ok b => simp [Except.toOption]

theorem mapM_eq_ok_iff {f : α → Except ε β} {xs : List α} {ys : List β} :
    xs.mapM f = .ok ys ↔ List.Forall₂ (fun x y => f x = .ok y) xs ys := by
  induction xs generalizing ys with
  | nil =>
    rw [List.mapM_nil, List.forall₂_nil_left_iff]
    exact ⟨fun h => by cases h; rfl, fun h => by rw [h]; rfl⟩
  | cons x xs ih =>
    rw [List.mapM_cons, List.forall₂_cons_left_iff, bind_eq_ok]
    constructor
    · rintro ⟨y, here, h⟩
      obtain ⟨ys, later, h⟩ := bind_eq_ok.1 h
      cases h
      exact ⟨y, ys, here, ih.1 later, rfl⟩
    · rintro ⟨y, ys, here, later, rfl⟩
      exact ⟨y, here, bind_eq_ok.2 ⟨ys, ih.2 later, rfl⟩⟩

theorem mapM_cons_eq_error {f : α → Except ε β} {x : α} {xs : List α} {e : ε} :
    (x :: xs).mapM f = .error e ↔ f x = .error e ∨ (∃ b, f x = .ok b) ∧ xs.mapM f = .error e := by
  rw [List.mapM_cons]
  cases f x with
  | error other => simp [bind, Except.bind]
  | ok b => cases xs.mapM f <;> simp [bind, Except.bind, pure, Except.pure]

/-- The first failure counts. -/
theorem mapM_eq_error_iff {f : α → Except ε β} {xs : List α} {e : ε} :
    xs.mapM f = .error e ↔ ∃ before x after, xs = before ++ x :: after ∧
      (∀ y ∈ before, ∃ b, f y = .ok b) ∧ f x = .error e := by
  induction xs with
  | nil => simp [pure, Except.pure]
  | cons x xs ih =>
    rw [mapM_cons_eq_error, ih]
    constructor
    · rintro (bad | ⟨good, before, y, after, rfl, earlier, bad⟩)
      · exact ⟨[], x, xs, rfl, by simp, bad⟩
      · exact ⟨x :: before, y, after, rfl, List.forall_mem_cons.2 ⟨good, earlier⟩, bad⟩
    · rintro ⟨before, y, after, split, earlier, bad⟩
      cases before with
      | nil =>
        cases split
        exact .inl bad
      | cons z before =>
        cases split
        obtain ⟨good, earlier⟩ := List.forall_mem_cons.1 earlier
        exact .inr ⟨good, before, y, after, rfl, earlier, bad⟩

theorem mapM_eq_ok_map {f : α → Except ε β} {g : α → β} {xs : List α}
    (h : ∀ x ∈ xs, f x = .ok (g x)) : xs.mapM f = .ok (xs.map g) := by
  rw [mapM_eq_ok_iff, List.forall₂_map_right_iff, List.forall₂_same]
  exact h

end ClassOrder
