import Mathlib.Logic.Relation
/-!
# Cycles through two kinds of vertices

A step from a vertex of one kind to a vertex of the other and back again is
a step among the vertices of either kind. A cycle among those of one kind
is a cycle among those of the other (`cycle_comp_iff`).
-/

namespace Lib

open Relation

variable {α β : Type*} {r : α → β → Prop} {s : β → α → Prop}

/-- A path of double steps, read from its first half step to its last. -/
theorem exists_of_transGen_comp {a a' : α} (h : TransGen (Comp r s) a a') :
    ∃ b b', r a b ∧ ReflTransGen (Comp s r) b b' ∧ s b' a' := by
  induction h with
  | single hstep =>
    obtain ⟨b, hr, hs⟩ := hstep
    exact ⟨b, b, hr, .refl, hs⟩
  | tail _ hstep ih =>
    obtain ⟨b, b', hr, hpath, hs⟩ := ih
    obtain ⟨c, hr', hs'⟩ := hstep
    exact ⟨b, c, hr, hpath.tail ⟨_, hs, hr'⟩, hs'⟩

theorem cycle_of_cycle {a : α} (h : TransGen (Comp r s) a a) :
    ∃ b, TransGen (Comp s r) b b := by
  obtain ⟨b, b', hr, hpath, hs⟩ := exists_of_transGen_comp h
  exact ⟨b, TransGen.tail' hpath ⟨a, hs, hr⟩⟩

/-- **There is a cycle among the vertices of one kind exactly where there
is one among those of the other.** -/
theorem cycle_comp_iff :
    (∃ a, TransGen (Comp r s) a a) ↔ ∃ b, TransGen (Comp s r) b b :=
  ⟨fun ⟨_, h⟩ => cycle_of_cycle h, fun ⟨_, h⟩ => cycle_of_cycle h⟩

end Lib
