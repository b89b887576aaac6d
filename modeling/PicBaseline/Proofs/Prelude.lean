import Mathlib.Data.List.Forall2

/-!
# Proofs — computations that can fail

A computation in `Except` returns a value when each of its steps does, and fails where a step
fails after steps that returned.  Item by item, a list of results stands to the list it was made of
in `List.Forall₂`, and a function that tells some items apart tells lists of them apart.
-/

namespace PicBaseline

variable {ε α β : Type} {x : Except ε α} {f : α → Except ε β}

/-- A sequence returns when both its steps do. -/
theorem bind_returns {b : β} : (x >>= f) = .ok b ↔ ∃ a, x = .ok a ∧ f a = .ok b := by
  constructor
  · intro h
    match x, h with
    | .ok a, h => exact ⟨a, rfl, h⟩
  · rintro ⟨a, rfl, h⟩
    exact h

/-- A sequence fails where the first step fails, or the second on what the first returned. -/
theorem bind_fails {e : ε} :
    (x >>= f) = .error e ↔ x = .error e ∨ ∃ a, x = .ok a ∧ f a = .error e := by
  constructor
  · intro h
    match x, h with
    | .error _, h => cases h; exact Or.inl rfl
    | .ok a, h => exact Or.inr ⟨a, rfl, h⟩
  · rintro (rfl | ⟨a, rfl, h⟩)
    · rfl
    · exact h

/-- A last step that always returns leaves the failures to the step in front of it. -/
theorem bind_fails_of_returns (hf : ∀ a, ∃ b, f a = .ok b) {e : ε} :
    (x >>= f) = .error e ↔ x = .error e := by
  rw [bind_fails, or_iff_left]
  rintro ⟨a, -, hfail⟩
  obtain ⟨b, hb⟩ := hf a
  rw [hb] at hfail
  cases hfail

theorem mapError_returns {ε' : Type} {g : ε → ε'} {a : α} :
    x.mapError g = .ok a ↔ x = .ok a := by
  cases x <;> simp [Except.mapError]

/-- The error of a computation that fails. -/
def failure? : Except ε α → Option ε
  | .error e => some e
  | .ok _    => none

theorem failure?_eq_some {e : ε} : failure? x = some e ↔ x = .error e := by
  cases x with
  | error e' => simp [failure?]
  | ok a => simp [failure?]

theorem failure?_eq_none : failure? x = none ↔ ∃ a, x = .ok a := by
  cases x with
  | error e => simp [failure?]
  | ok a => simp [failure?]

theorem returns_of_isSome (h : x.toOption.isSome) : ∃ a, x = .ok a := by
  match x, h with
  | .ok a, _ => exact ⟨a, rfl⟩

theorem returns_of_map_toOption {g : α → β} {b : β} (h : x.toOption.map g = some b) :
    ∃ a, x = .ok a ∧ g a = b := by
  match x, h with
  | .ok a, h => exact ⟨a, rfl, Option.some.inj h⟩

/-- A guard in front adds its condition. -/
theorem guard_bind_eq_some {p : Prop} [Decidable p] {o : Option β} {b : β} :
    (guard p >>= fun _ => o) = some b ↔ p ∧ o = some b := by
  by_cases hp : p
  · rw [guard, if_pos hp]
    exact (and_iff_right hp).symm
  · rw [guard, if_neg hp]
    exact iff_of_false (fun h => by cases h) fun h => hp h.1

/-- A list is made item by item, if all items are made. -/
theorem mapM_eq_some {g : α → Option β} {xs : List α} {ys : List β} :
    xs.mapM g = some ys ↔ List.Forall₂ (fun x y => g x = some y) xs ys := by
  induction xs generalizing ys with
  | nil => simp [eq_comm]
  | cons x xs ih =>
      rw [List.mapM_cons, List.forall₂_cons_left_iff]
      constructor
      · intro h
        obtain ⟨y, hy, h⟩ := Option.bind_eq_some_iff.mp h
        obtain ⟨later, hlater, h⟩ := Option.bind_eq_some_iff.mp h
        cases h
        exact ⟨y, later, hy, ih.mp hlater, rfl⟩
      · rintro ⟨y, later, hy, hlater, rfl⟩
        rw [hy, ih.mpr hlater]
        rfl

theorem exists_of_mem_forall₂ {R : α → β → Prop} {xs : List α} {ys : List β}
    (h : List.Forall₂ R xs ys) : ∀ x ∈ xs, ∃ y, R x y := by
  induction h with
  | nil => simp
  | cons hxy _ ih => exact List.forall_mem_cons.mpr ⟨⟨_, hxy⟩, ih⟩

theorem exists_forall₂ {R : α → β → Prop} {xs : List α} (h : ∀ x ∈ xs, ∃ y, R x y) :
    ∃ ys, List.Forall₂ R xs ys := by
  induction xs with
  | nil => exact ⟨[], .nil⟩
  | cons x xs ih =>
      obtain ⟨⟨y, hy⟩, hxs⟩ := List.forall_mem_cons.mp h
      obtain ⟨ys, hys⟩ := ih hxs
      exact ⟨y :: ys, .cons hy hys⟩

/-- A function that is injective on some values is injective on lists of them. -/
theorem map_inj_of_forall {P : α → Prop} {g : α → β}
    (hg : ∀ {a b}, P a → P b → g a = g b → a = b) {xs ys : List α} (hx : ∀ a ∈ xs, P a)
    (hy : ∀ b ∈ ys, P b) (h : xs.map g = ys.map g) : xs = ys := by
  induction xs generalizing ys with
  | nil => exact (List.map_eq_nil_iff.mp h.symm).symm
  | cons a xs ih =>
      cases ys with
      | nil => cases h
      | cons b ys =>
          rw [List.forall_mem_cons] at hx hy
          obtain ⟨hab, hrest⟩ := List.cons.inj h
          rw [hg hx.1 hy.1 hab, ih hx.2 hy.2 hrest]

end PicBaseline
