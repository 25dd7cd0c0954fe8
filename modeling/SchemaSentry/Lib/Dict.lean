import Mathlib.Data.List.Nodup
/-!
# Dictionaries

A dictionary as the list of its items in insertion order: what a
comprehension builds from a list of items, and what a key is looked up
to. Items with distinct keys are their own dictionary (`ofItems_eq_self`),
so where a caller keeps keys distinct the comprehension disappears.
-/

namespace Lib

/-- A dictionary: its items, in the order their keys were first inserted. -/
abbrev Dict (κ ν : Type*) := List (κ × ν)

namespace Dict

variable {κ ν : Type*} [DecidableEq κ]

/-- `d[key] = value`: a key that is there keeps its place. -/
def insert (key : κ) (value : ν) : Dict κ ν → Dict κ ν
  | [] => [(key, value)]
  | (k, v) :: rest => if k = key then (k, value) :: rest else (k, v) :: insert key value rest

/-- `{key: value for ...}`: of two items with one key the later one stays. -/
def ofItems (items : List (κ × ν)) : Dict κ ν :=
  items.foldl (fun d item => insert item.1 item.2 d) []

/-- `d.get(key)`. -/
def get? (key : κ) : Dict κ ν → Option ν
  | [] => none
  | (k, v) :: rest => if k = key then some v else get? key rest

/-- `d.keys()`. -/
def keys (d : Dict κ ν) : List κ := d.map Prod.fst

/-- `d.values()`. -/
def values (d : Dict κ ν) : List ν := d.map Prod.snd

@[simp] theorem get?_nil (key : κ) : get? key ([] : Dict κ ν) = none := rfl

@[simp] theorem get?_cons_self (key : κ) (v : ν) (d : Dict κ ν) :
    get? key ((key, v) :: d) = some v := by
  simp [get?]

@[simp] theorem get?_cons_ne {key k : κ} (h : k ≠ key) (v : ν) (d : Dict κ ν) :
    get? key ((k, v) :: d) = get? key d := by
  simp [get?, h]

theorem get?_eq_none_iff {key : κ} {d : Dict κ ν} : get? key d = none ↔ key ∉ keys d := by
  induction d with
  | nil => simp [keys]
  | cons item d ih =>
    obtain ⟨k, v⟩ := item
    by_cases hk : k = key
    · simp [get?, hk, keys]
    · rw [get?_cons_ne hk, ih]
      simp [keys, Ne.symm hk]

theorem mem_of_get?_eq_some {key : κ} {v : ν} {d : Dict κ ν} (h : get? key d = some v) :
    (key, v) ∈ d := by
  induction d with
  | nil => cases h
  | cons item d ih =>
    obtain ⟨k, w⟩ := item
    by_cases hk : k = key
    · subst hk
      rw [get?_cons_self] at h
      rw [Option.some.inj h]
      exact List.mem_cons_self
    · rw [get?_cons_ne hk] at h
      exact List.mem_cons_of_mem _ (ih h)

/-- **Where keys are distinct, looking up is membership.** -/
theorem get?_eq_some_iff {key : κ} {v : ν} {d : Dict κ ν} (hd : (keys d).Nodup) :
    get? key d = some v ↔ (key, v) ∈ d := by
  refine ⟨mem_of_get?_eq_some, fun h => ?_⟩
  induction d with
  | nil => cases h
  | cons item d ih =>
    obtain ⟨k, w⟩ := item
    simp only [keys, List.map_cons, List.nodup_cons] at hd
    rcases List.mem_cons.1 h with heq | hmem
    · obtain ⟨rfl, rfl⟩ := Prod.mk.inj heq
      exact get?_cons_self _ _ _
    · have hk : k ≠ key := by
        rintro rfl
        exact hd.1 (List.mem_map.2 ⟨_, hmem, rfl⟩)
      rw [get?_cons_ne hk]
      exact ih hd.2 hmem

/-- Looking up does not see the order of distinct keys. -/
theorem get?_eq_of_perm {d e : Dict κ ν} (h : d.Perm e) (hd : (keys d).Nodup) (key : κ) :
    get? key d = get? key e := by
  have he : (keys e).Nodup := (h.map Prod.fst).nodup_iff.1 hd
  ext v
  rw [get?_eq_some_iff hd, get?_eq_some_iff he, h.mem_iff]

theorem insert_of_notMem {key : κ} {value : ν} {d : Dict κ ν} (h : key ∉ keys d) :
    insert key value d = d ++ [(key, value)] := by
  induction d with
  | nil => rfl
  | cons item d ih =>
    obtain ⟨k, v⟩ := item
    simp only [keys, List.map_cons, List.mem_cons, not_or] at h
    rw [insert, if_neg (Ne.symm h.1), ih h.2, List.cons_append]

/-- What a key is looked up to after `d[key] = value`. -/
theorem get?_insert (key k : κ) (v : ν) (d : Dict κ ν) :
    get? k (insert key v d) = if k = key then some v else get? k d := by
  induction d with
  | nil =>
    by_cases h : k = key
    · simp [insert, h]
    · simp [insert, get?, h, Ne.symm h]
  | cons item d ih =>
    obtain ⟨k', v'⟩ := item
    by_cases hk' : k' = key
    · subst hk'
      rw [insert, if_pos rfl]
      by_cases h : k = k'
      · simp [h]
      · simp [h, get?, Ne.symm h]
    · rw [insert, if_neg hk']
      by_cases h : k' = k
      · subst h
        simp [hk']
      · rw [get?_cons_ne h, get?_cons_ne h, ih]

/-- Looking up sees values one by one. -/
theorem get?_map_snd {ρ : Type*} (f : ν → ρ) (key : κ) (d : Dict κ ν) :
    get? key (d.map fun item => (item.1, f item.2)) = (get? key d).map f := by
  induction d with
  | nil => rfl
  | cons item d ih =>
    obtain ⟨k, v⟩ := item
    by_cases h : k = key
    · subst h
      simp
    · rw [List.map_cons, get?_cons_ne h, get?_cons_ne h, ih]

theorem mem_insert {key : κ} {value : ν} {item : κ × ν} {d : Dict κ ν}
    (h : item ∈ insert key value d) : item ∈ d ∨ item = (key, value) := by
  induction d with
  | nil => exact Or.inr (List.mem_singleton.1 h)
  | cons head d ih =>
    rw [insert] at h
    split at h
    · rename_i hkey
      rcases List.mem_cons.1 h with rfl | hmem
      · exact Or.inr (by rw [hkey])
      · exact Or.inl (List.mem_cons_of_mem _ hmem)
    · rcases List.mem_cons.1 h with rfl | hmem
      · exact Or.inl List.mem_cons_self
      · exact (ih hmem).imp_left (List.mem_cons_of_mem _)

theorem nodup_keys_insert {key : κ} {value : ν} {d : Dict κ ν} (h : (keys d).Nodup) :
    (keys (insert key value d)).Nodup := by
  induction d with
  | nil => simp [insert, keys]
  | cons head d ih =>
    simp only [keys, List.map_cons, List.nodup_cons] at h
    rw [insert]
    split
    · exact List.nodup_cons.2 h
    · rename_i hkey
      refine List.nodup_cons.2 ⟨fun hmem => ?_, ih h.2⟩
      obtain ⟨item, hitem, heq⟩ := List.mem_map.1 hmem
      rcases mem_insert hitem with hold | rfl
      · exact h.1 (List.mem_map.2 ⟨item, hold, heq⟩)
      · exact hkey heq.symm

/-- A dictionary holds nothing but items it was built from. -/
theorem mem_of_mem_ofItems {items : List (κ × ν)} {item : κ × ν} (h : item ∈ ofItems items) :
    item ∈ items := by
  have hfold : ∀ (items : List (κ × ν)) (d : Dict κ ν),
      item ∈ items.foldl (fun d item => insert item.1 item.2 d) d → item ∈ d ∨ item ∈ items := by
    intro items
    induction items with
    | nil => exact fun d h => Or.inl h
    | cons head items ih =>
      intro d hitem
      rcases ih _ hitem with hmem | hmem
      · refine (mem_insert hmem).imp_right fun heq => ?_
        rw [heq]
        exact List.mem_cons_self
      · exact Or.inr (List.mem_cons_of_mem _ hmem)
  exact (hfold items [] h).resolve_left (by simp)

/-- A key among the items is looked up. -/
theorem exists_get?_ofItems {items : List (κ × ν)} {item : κ × ν} (h : item ∈ items) :
    ∃ v, get? item.1 (ofItems items) = some v := by
  have hkeep : ∀ (items : List (κ × ν)) (d : Dict κ ν), (∃ v, get? item.1 d = some v) →
      ∃ v, get? item.1 (items.foldl (fun d item => insert item.1 item.2 d) d) = some v := by
    intro items
    induction items with
    | nil => exact fun d hd => hd
    | cons other items ih =>
      rintro d ⟨v, hv⟩
      refine ih _ ?_
      rw [get?_insert]
      split
      · exact ⟨_, rfl⟩
      · exact ⟨v, hv⟩
  have hfold : ∀ (items : List (κ × ν)) (d : Dict κ ν), item ∈ items →
      ∃ v, get? item.1 (items.foldl (fun d item => insert item.1 item.2 d) d) = some v := by
    intro items
    induction items with
    | nil => exact fun d hmem => nomatch hmem
    | cons other items ih =>
      intro d hmem
      rcases List.mem_cons.1 hmem with rfl | hmem
      · exact hkeep items _ ⟨item.2, by rw [get?_insert, if_pos rfl]⟩
      · exact ih _ hmem
  exact hfold items [] h

/-- A dictionary's keys are distinct. -/
theorem nodup_keys_ofItems (items : List (κ × ν)) : (keys (ofItems items)).Nodup := by
  have hfold : ∀ (items : List (κ × ν)) (d : Dict κ ν), (keys d).Nodup →
      (keys (items.foldl (fun d item => insert item.1 item.2 d) d)).Nodup := by
    intro items
    induction items with
    | nil => exact fun d h => h
    | cons head items ih => exact fun d h => ih _ (nodup_keys_insert h)
  exact hfold items [] (by simp [keys])

/-- **Items with distinct keys are their own dictionary.** -/
theorem ofItems_eq_self {items : List (κ × ν)} (h : (items.map Prod.fst).Nodup) :
    ofItems items = items := by
  have key : ∀ (items d : Dict κ ν), ((d ++ items).map Prod.fst).Nodup →
      items.foldl (fun d item => insert item.1 item.2 d) d = d ++ items := by
    intro items
    induction items with
    | nil => intro d _; simp
    | cons item items ih =>
      intro d hd
      have hnot : item.1 ∉ keys d := by
        intro hmem
        rw [List.map_append, List.nodup_append] at hd
        exact hd.2.2 _ hmem _ (by simp) rfl
      rw [List.foldl_cons, insert_of_notMem hnot, ih _ (by simpa using hd)]
      simp
  simpa [ofItems] using key items [] (by simpa using h)

/-- What a list of things with distinct keys looks a key up to. -/
theorem get?_ofItems_map {α : Type*} {f : α → κ} {xs : List α} (h : (xs.map f).Nodup) {k : κ}
    {x : α} : get? k (ofItems (xs.map fun x => (f x, x))) = some x ↔ x ∈ xs ∧ f x = k := by
  have hkeys : ((xs.map fun x => (f x, x)).map Prod.fst) = xs.map f := by simp
  rw [ofItems_eq_self (hkeys ▸ h), get?_eq_some_iff (by rw [keys, hkeys]; exact h)]
  simp only [List.mem_map, Prod.mk.injEq]
  constructor
  · rintro ⟨y, hy, rfl, rfl⟩
    exact ⟨hy, rfl⟩
  · rintro ⟨hx, rfl⟩
    exact ⟨x, hx, rfl, rfl⟩

end Dict

end Lib
