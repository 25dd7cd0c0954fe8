import Mathlib.Data.List.Nodup
import Mathlib.Data.List.Forall2
import Mathlib.Data.List.Sort
import Mathlib.Order.Lattice
/-!
# Rows

Lists of rows told apart by a key: a row is found by its key, rows added
with keys not used before keep the keys distinct, and two lists each of
whose entries has one partner in the other correspond entry by entry
(`exists_perm_forall₂`).
-/

namespace Lib

variable {α β : Type*}

/-- Rows with one key are one row. -/
theorem eq_of_nodup_map {f : α → β} {xs : List α} (h : (xs.map f).Nodup) {x y : α}
    (hx : x ∈ xs) (hy : y ∈ xs) (hxy : f x = f y) : x = y :=
  List.inj_on_of_nodup_map h hx hy hxy

/-- The row found by a distinct key is the row that has it. -/
theorem find?_eq_some_of_nodup [DecidableEq β] {f : α → β} {xs : List α}
    (h : (xs.map f).Nodup) {x : α} {k : β} :
    xs.find? (fun y => f y = k) = some x ↔ x ∈ xs ∧ f x = k := by
  constructor
  · intro hfind
    exact ⟨List.mem_of_find?_eq_some hfind, by simpa using List.find?_some hfind⟩
  · rintro ⟨hx, rfl⟩
    cases hfind : xs.find? (fun y => f y = f x) with
    | none =>
      rw [List.find?_eq_none] at hfind
      exact absurd (decide_eq_true rfl) (hfind x hx)
    | some y =>
      have hy : f y = f x := by simpa using List.find?_some hfind
      rw [eq_of_nodup_map h (List.mem_of_find?_eq_some hfind) hx hy]

/-- Of a distinct key there is the one row. -/
theorem filter_eq_singleton_of_nodup [DecidableEq β] {f : α → β} {xs : List α}
    (h : (xs.map f).Nodup) {x : α} (hx : x ∈ xs) : xs.filter (fun y => f y = f x) = [x] := by
  induction xs with
  | nil => cases hx
  | cons y rest ih =>
    rw [List.map_cons, List.nodup_cons] at h
    rcases List.mem_cons.1 hx with rfl | hmem
    · have hnone : rest.filter (fun y => decide (f y = f x)) = [] := by
        refine List.filter_eq_nil_iff.2 fun z hz heq => h.1 ?_
        have hmem : f z ∈ rest.map f := List.mem_map_of_mem hz
        rwa [of_decide_eq_true heq] at hmem
      rw [List.filter_cons_of_pos (by simp), hnone]
    · have hne : ¬ f y = f x := fun heq => h.1 (heq ▸ List.mem_map_of_mem hmem)
      rw [List.filter_cons_of_neg (by simpa using hne), ih h.2 hmem]

/-- Rows added with keys from some point on keep the keys distinct. -/
theorem nodup_map_append {f : α → ℕ} {xs ys : List α} {n : ℕ}
    (hx : (xs.map f).Nodup) (hy : (ys.map f).Nodup) (hlt : ∀ x ∈ xs, f x < n)
    (hle : ∀ y ∈ ys, n ≤ f y) : ((xs ++ ys).map f).Nodup := by
  rw [List.map_append]
  refine List.Nodup.append hx hy fun k hkx hky => ?_
  obtain ⟨x, hxm, rfl⟩ := List.mem_map.1 hkx
  obtain ⟨y, hym, heq⟩ := List.mem_map.1 hky
  exact absurd (hlt x hxm) (Nat.not_lt.2 (heq ▸ hle y hym))

/-- Rows rewritten but for their keys keep the keys distinct. -/
theorem nodup_map_map {f : α → β} {g : α → α} {xs : List α}
    (hg : ∀ x, f (g x) = f x) (h : (xs.map f).Nodup) : ((xs.map g).map f).Nodup := by
  rw [List.map_map, show f ∘ g = f from funext hg]
  exact h

/-- Entries rewritten under the key they have leave no new key among those
selected. -/
theorem filter_map_sublist {p : α → Bool} {g : α → α} {k : α → β} (hp : ∀ x, p (g x) → p x)
    (hk : ∀ x, k (g x) = k x) (xs : List α) :
    (((xs.map g).filter p).map k).Sublist ((xs.filter p).map k) := by
  induction xs with
  | nil => exact .slnil
  | cons x xs ih =>
    rw [List.map_cons]
    by_cases hg : p (g x) = true
    · rw [List.filter_cons_of_pos hg, List.filter_cons_of_pos (hp x hg), List.map_cons,
        List.map_cons, hk]
      exact ih.cons_cons _
    · rw [List.filter_cons_of_neg hg]
      refine ih.trans ?_
      by_cases hx : p x = true
      · rw [List.filter_cons_of_pos hx, List.map_cons]
        exact List.sublist_cons_self _ _
      · rw [List.filter_cons_of_neg hx]

section Selected

variable {κ : Type*} [DecidableEq κ] {k : α → κ} {i : κ} {xs ys : List α}

/-- Entries added under other keys are not selected. -/
theorem filter_append_of_ne (h : ∀ y ∈ ys, k y ≠ i) :
    (xs ++ ys).filter (fun x => k x = i) = xs.filter fun x => k x = i := by
  have hnone : ys.filter (fun x => decide (k x = i)) = [] :=
    List.filter_eq_nil_iff.2 fun y hy => by simpa using h y hy
  rw [List.filter_append, hnone, List.append_nil]

/-- Under a new key the entries added are selected. -/
theorem filter_append_of_new (hx : ∀ x ∈ xs, k x ≠ i) (hy : ∀ y ∈ ys, k y = i) :
    (xs ++ ys).filter (fun x => k x = i) = ys := by
  have hnone : xs.filter (fun x => decide (k x = i)) = [] :=
    List.filter_eq_nil_iff.2 fun x hx' => by simpa using hx x hx'
  have hall : ys.filter (fun x => decide (k x = i)) = ys :=
    List.filter_eq_self.2 fun y hy' => by simpa using hy y hy'
  rw [List.filter_append, hnone, hall, List.nil_append]

/-- Entries rewritten but for their keys are selected alike. -/
theorem map_filter_map {g : α → α} {a : α → β} (hk : ∀ x, k (g x) = k x)
    (ha : ∀ x, a (g x) = a x) :
    ((xs.map g).filter fun x => k x = i).map a = (xs.filter fun x => k x = i).map a := by
  induction xs with
  | nil => rfl
  | cons x rest ih =>
    rw [List.map_cons]
    by_cases hx : k x = i
    · rw [List.filter_cons_of_pos (by simpa [hk] using hx),
        List.filter_cons_of_pos (by simpa using hx), List.map_cons, List.map_cons, ha, ih]
    · rw [List.filter_cons_of_neg (by simpa [hk] using hx),
        List.filter_cons_of_neg (by simpa using hx), ih]

/-- Entries rewritten but for their keys, and others added, leave those
whose keys were not there before. -/
theorem filter_not_mem_append {g : α → α} (hk : ∀ x, k (g x) = k x)
    (hnew : ∀ y ∈ ys, ∀ x ∈ xs, k y ≠ k x) :
    (xs.map g ++ ys).filter (fun x => k x ∉ xs.map k) = ys := by
  have hnone : (xs.map g).filter (fun x => decide (k x ∉ xs.map k)) = [] := by
    refine List.filter_eq_nil_iff.2 fun y hy => ?_
    obtain ⟨x, hx, rfl⟩ := List.mem_map.1 hy
    have hmem : k (g x) ∈ xs.map k := by
      rw [hk]
      exact List.mem_map_of_mem hx
    simpa using hmem
  have hall : ys.filter (fun x => decide (k x ∉ xs.map k)) = ys := by
    refine List.filter_eq_self.2 fun y hy => ?_
    have hnot : k y ∉ xs.map k := by
      intro hmem
      obtain ⟨x, hx, heq⟩ := List.mem_map.1 hmem
      exact hnew y hy x hx heq.symm
    simpa using hnot
  rw [List.filter_append, hnone, hall, List.nil_append]

end Selected

/-- Of two lists that correspond each entry has its partner. -/
theorem exists_left_of_forall₂ {R : α → β → Prop} {xs : List α} {ys : List β}
    (h : List.Forall₂ R xs ys) {y : β} (hy : y ∈ ys) : ∃ x ∈ xs, R x y := by
  induction h with
  | nil => cases hy
  | cons hxy _ ih =>
    rcases List.mem_cons.1 hy with rfl | hmem
    · exact ⟨_, List.mem_cons_self, hxy⟩
    · obtain ⟨x, hx, hR⟩ := ih hmem
      exact ⟨x, List.mem_cons_of_mem _ hx, hR⟩

theorem exists_right_of_forall₂ {R : α → β → Prop} {xs : List α} {ys : List β}
    (h : List.Forall₂ R xs ys) {x : α} (hx : x ∈ xs) : ∃ y ∈ ys, R x y :=
  exists_left_of_forall₂ h.flip hx

/-- Lists with the same image go in step, where members with the same image
are related. -/
theorem forall₂_of_map_eq {γ : Type*} {R : α → β → Prop} {f : α → γ} {g : β → γ} {xs : List α}
    {ys : List β} (h : xs.map f = ys.map g)
    (hR : ∀ x ∈ xs, ∀ y ∈ ys, f x = g y → R x y) : List.Forall₂ R xs ys := by
  induction xs generalizing ys with
  | nil =>
    obtain rfl := List.map_eq_nil_iff.1 h.symm
    exact .nil
  | cons x rest ih =>
    rcases ys with _ | ⟨y, others⟩
    · cases h
    · obtain ⟨hhead, htail⟩ := List.cons_eq_cons.1 h
      refine .cons (hR x List.mem_cons_self y List.mem_cons_self hhead) (ih htail ?_)
      exact fun a ha b hb => hR a (List.mem_cons_of_mem _ ha) b (List.mem_cons_of_mem _ hb)

/-- A list in step with one of distinct keys has distinct keys, where these
tell those apart. -/
theorem nodup_map_of_forall₂ {γ δ : Type*} {R : α → β → Prop} {f : α → γ} {k : β → δ}
    {xs : List α} {ys : List β} (h : List.Forall₂ R xs ys) (hx : (xs.map f).Nodup)
    (hk : ∀ x y x' y', R x y → R x' y' → k y = k y' → f x = f x') : (ys.map k).Nodup := by
  induction h with
  | nil => exact List.nodup_nil
  | cons hxy hrest ih =>
    rw [List.map_cons, List.nodup_cons] at hx ⊢
    refine ⟨fun hmem => hx.1 ?_, ih hx.2⟩
    obtain ⟨y', hy', heq⟩ := List.mem_map.1 hmem
    obtain ⟨x', hx', hxy'⟩ := exists_left_of_forall₂ hrest hy'
    rw [hk _ _ _ _ hxy hxy' heq.symm]
    exact List.mem_map_of_mem hx'

/-- **A one-to-one relation pairs two lists off**, after one of them is put
in the order of the other. -/
theorem exists_perm_forall₂ {R : α → β → Prop} {xs : List α} {ys : List β} (hx : xs.Nodup)
    (hy : ys.Nodup) (hleft : ∀ x ∈ xs, ∃ y ∈ ys, R x y) (hright : ∀ y ∈ ys, ∃ x ∈ xs, R x y)
    (hone : ∀ x ∈ xs, ∀ y ∈ ys, ∀ y' ∈ ys, R x y → R x y' → y = y')
    (hone' : ∀ y ∈ ys, ∀ x ∈ xs, ∀ x' ∈ xs, R x y → R x' y → x = x') :
    ∃ zs, zs.Perm xs ∧ List.Forall₂ R zs ys := by
  have hpair : ∀ ys' : List β, ys'.Nodup → (∀ y ∈ ys', y ∈ ys) →
      ∃ zs : List α, zs.Nodup ∧ (∀ z ∈ zs, z ∈ xs) ∧ List.Forall₂ R zs ys' := by
    intro ys' hnd hsub
    induction ys' with
    | nil => exact ⟨[], List.nodup_nil, by simp, .nil⟩
    | cons y ys' ih =>
      obtain ⟨hnot, hnd⟩ := List.nodup_cons.1 hnd
      obtain ⟨zs, hzs, hmem, hall⟩ := ih hnd fun y hy => hsub y (List.mem_cons_of_mem _ hy)
      have hyin := hsub y List.mem_cons_self
      obtain ⟨x, hxm, hxy⟩ := hright y hyin
      refine ⟨x :: zs, List.nodup_cons.2 ⟨fun hxz => ?_, hzs⟩, ?_, .cons hxy hall⟩
      · -- a partner taken before would be a partner twice
        obtain ⟨y', hy', hxy'⟩ := exists_right_of_forall₂ hall hxz
        have hy'in := hsub y' (List.mem_cons_of_mem _ hy')
        exact hnot (hone x hxm y hyin y' hy'in hxy hxy' ▸ hy')
      · intro z hz
        rcases List.mem_cons.1 hz with rfl | hmemz
        · exact hxm
        · exact hmem z hmemz
  obtain ⟨zs, hzs, hmem, hall⟩ := hpair ys hy fun _ h => h
  refine ⟨zs, (List.perm_ext_iff_of_nodup hzs hx).2 fun x => ⟨hmem x, fun hxm => ?_⟩, hall⟩
  obtain ⟨y, hym, hxy⟩ := hleft x hxm
  obtain ⟨z, hz, hzy⟩ := exists_left_of_forall₂ hall hym
  rw [hone' y hym x hxm z (hmem z hz) hxy hzy]
  exact hz

/-- The row with the greatest key is the first of the rows by descending
key. -/
theorem head?_sort_of_greatest [LinearOrder β] {key : α → β} {xs : List α} {x : α} (hx : x ∈ xs)
    (hlt : ∀ y ∈ xs, y = x ∨ key y < key x) :
    (xs.insertionSort fun a b => key b ≤ key a).head? = some x := by
  have htotal : Std.Total fun a b : α => key b ≤ key a := ⟨fun a b => le_total (key b) (key a)⟩
  have htrans : IsTrans α fun a b => key b ≤ key a := ⟨fun _ _ _ hab hbc => hbc.trans hab⟩
  have hsorted := List.pairwise_insertionSort (fun a b : α => key b ≤ key a) xs
  have hmem : ∀ y, y ∈ xs.insertionSort (fun a b => key b ≤ key a) ↔ y ∈ xs :=
    fun y => List.mem_insertionSort _
  rcases hlist : xs.insertionSort fun a b => key b ≤ key a with _ | ⟨y, rest⟩
  · have hnone := (hmem x).2 hx
    rw [hlist] at hnone
    cases hnone
  · rw [hlist] at hsorted hmem
    obtain ⟨hfirst, -⟩ := List.pairwise_cons.1 hsorted
    rcases hlt y ((hmem y).1 List.mem_cons_self) with rfl | hless
    · rfl
    · rcases List.mem_cons.1 ((hmem x).2 hx) with rfl | hrest
      · rfl
      · exact absurd hless (not_lt.2 (hfirst x hrest))

end Lib
