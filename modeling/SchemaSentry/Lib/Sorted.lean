import Mathlib.Data.List.Sort
/-!
# Lists sorted by a key

What sorting by a key leaves when the key tells the members of the list
apart: a strictly increasing list, and the same one however the list was
ordered before.
-/

namespace Lib

variable {α κ : Type*} [LinearOrder κ] {key : α → κ} {xs ys : List α}

theorem pairwise_sort (xs : List α) :
    (xs.insertionSort fun a b => key a ≤ key b).Pairwise fun a b => key a ≤ key b := by
  have htotal : Std.Total fun a b : α => key a ≤ key b := ⟨fun a b => le_total (key a) (key b)⟩
  have htrans : IsTrans α fun a b => key a ≤ key b := ⟨fun _ _ _ hab hbc => hab.trans hbc⟩
  exact List.pairwise_insertionSort (fun a b : α => key a ≤ key b) xs

/-- Two strictly increasing lists of the same members are one list. -/
theorem eq_of_increasing (hx : xs.Pairwise fun a b => key a < key b)
    (hy : ys.Pairwise fun a b => key a < key b) (h : ∀ a, a ∈ xs ↔ a ∈ ys) : xs = ys := by
  have hirrefl : Std.Irrefl fun a b : α => key a < key b := ⟨fun a => lt_irrefl (key a)⟩
  have hanti : Std.Antisymm fun a b : α => key a < key b :=
    ⟨fun a b hab hba => absurd hab (lt_asymm hba)⟩
  exact List.Pairwise.eq_of_mem_iff hx hy h

/-- **A telling key sorts every order of a list alike.** -/
theorem sort_congr (h : xs.Perm ys) (hkey : ∀ a ∈ xs, ∀ b ∈ xs, key a = key b → a = b) :
    (xs.insertionSort fun a b => key a ≤ key b) =
      ys.insertionSort fun a b => key a ≤ key b := by
  have hperm : (xs.insertionSort fun a b => key a ≤ key b).Perm
      (ys.insertionSort fun a b => key a ≤ key b) :=
    ((List.perm_insertionSort _ xs).trans h).trans (List.perm_insertionSort _ ys).symm
  refine hperm.eq_of_pairwise ?_ (pairwise_sort xs) (pairwise_sort ys)
  intro a b ha hb hab hba
  rw [List.mem_insertionSort] at ha hb
  exact hkey a ha b (h.mem_iff.2 hb) (le_antisymm hab hba)

end Lib
