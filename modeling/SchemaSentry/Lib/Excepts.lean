import Mathlib.Data.List.Forall2
/-!
# Computations that may fail

What sequences and maps over a list return, and what they raise.
-/

namespace Lib

variable {ε α β : Type} {e : ε}

/-- A computation that ends well ends well in both its parts. -/
theorem except_bind_ok {x : Except ε α} {f : α → Except ε β} {b : β} :
    x >>= f = .ok b ↔ ∃ a, x = .ok a ∧ f a = .ok b := by
  rcases x with e | a
  · constructor
    · intro h
      cases h
    · rintro ⟨a, h, -⟩
      cases h
  · constructor
    · exact fun h => ⟨a, rfl, h⟩
    · rintro ⟨a', h, hf⟩
      cases h
      exact hf

/-- A computation that raises does so in its first part or after it. -/
theorem except_bind_error {x : Except ε α} {f : α → Except ε β} :
    x >>= f = .error e ↔ x = .error e ∨ ∃ a, x = .ok a ∧ f a = .error e := by
  rcases x with e' | a
  · constructor
    · intro h
      cases h
      exact Or.inl rfl
    · rintro (h | ⟨a, h, -⟩)
      · cases h
        rfl
      · cases h
  · constructor
    · exact fun h => Or.inr ⟨a, rfl, h⟩
    · rintro (h | ⟨a', h, hf⟩)
      · cases h
      · cases h
        exact hf

/-- A list's map returns what its entries return, one by one. -/
theorem mapM_ok_iff {f : α → Except ε β} {xs : List α} {bs : List β} :
    xs.mapM f = .ok bs ↔ List.Forall₂ (fun x b => f x = .ok b) xs bs := by
  induction xs generalizing bs with
  | nil =>
    rw [List.mapM_nil, List.forall₂_nil_left_iff]
    exact ⟨fun h => by cases h; rfl, fun h => by rw [h]; rfl⟩
  | cons x xs ih =>
    simp only [List.mapM_cons, except_bind_ok, ih, List.forall₂_cons_left_iff]
    constructor
    · rintro ⟨b, hb, bs', hbs', hcons⟩
      cases hcons
      exact ⟨b, bs', hb, hbs', rfl⟩
    · rintro ⟨b, bs', hb, hbs', rfl⟩
      exact ⟨b, hb, bs', hbs', rfl⟩

/-- A list's map raises what one of its entries raises. -/
theorem mapM_error {f : α → Except ε β} {xs : List α} (h : xs.mapM f = .error e) : ∃ x ∈ xs, f x = .error e := by
  induction xs with
  | nil => cases h
  | cons x xs ih =>
    rw [List.mapM_cons] at h
    simp only [except_bind_error] at h
    rcases h with h | ⟨_, -, h | ⟨_, -, h⟩⟩
    · exact ⟨x, List.mem_cons_self, h⟩
    · obtain ⟨y, hy, hfy⟩ := ih h
      exact ⟨y, List.mem_cons_of_mem _ hy, hfy⟩
    · cases h

/-- A list's map returns where each of its entries does. -/
theorem mapM_ok {f : α → Except ε β} {xs : List α} (h : ∀ x ∈ xs, ∃ b, f x = .ok b) :
    ∃ bs, xs.mapM f = .ok bs ∧ List.Forall₂ (fun x b => f x = .ok b) xs bs := by
  induction xs with
  | nil => exact ⟨[], rfl, .nil⟩
  | cons x xs ih =>
    obtain ⟨b, hb⟩ := h x List.mem_cons_self
    obtain ⟨bs, -, hall⟩ := ih fun y hy => h y (List.mem_cons_of_mem _ hy)
    exact ⟨b :: bs, mapM_ok_iff.2 (.cons hb hall), .cons hb hall⟩

end Lib
