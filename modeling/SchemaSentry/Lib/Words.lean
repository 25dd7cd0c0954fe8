import Mathlib.Data.List.TakeWhile
/-!
# Words of a list

A list cut at its separators (`words`), joined again by one separator
(`words_intercalate`), and stripped of the separators at both ends
(`exists_strip`).
-/

namespace Lib

variable {α : Type*} {p q : α → Bool} {x : α} {a b w l : List α}

/-- The pieces between separators, without the empty ones. -/
def words (p : α → Bool) (l : List α) : List (List α) := (l.splitOnP p).filter fun w => w ≠ []

/-- Without the separators at both ends. -/
def strip (p : α → Bool) (l : List α) : List α := ((l.dropWhile p).reverse.dropWhile p).reverse

@[simp] theorem words_nil : words p [] = [] := by simp [words]

/-- The words depend on which of the members are separators. -/
theorem words_congr (h : ∀ c ∈ l, p c = q c) : words p l = words q l := by
  have hsplit : l.splitOnP p = l.splitOnP q := by
    induction l with
    | nil => rfl
    | cons c l ih =>
      obtain ⟨hc, hl⟩ := List.forall_mem_cons.1 h
      rw [List.splitOnP_cons_eq_if_modifyHead, List.splitOnP_cons_eq_if_modifyHead, hc, ih hl]
  rw [words, words, hsplit]

/-- A separator cuts. -/
theorem words_append_cons (hx : p x = true) : words p (a ++ x :: b) = words p a ++ words p b := by
  rw [words, List.splitOnP_append_cons _ _ hx, List.filter_append]
  rfl

/-- What holds no separator is one word. -/
theorem words_of_forall_not (h : ∀ c ∈ w, p c = false) (hne : w ≠ []) : words p w = [w] := by
  rw [words, List.splitOnP_eq_singleton h]
  simp [hne]

/-- Separators in front hold no word. -/
theorem words_seps_append (h : ∀ c ∈ w, p c = true) : words p (w ++ b) = words p b := by
  induction w with
  | nil => rfl
  | cons c w ih =>
    obtain ⟨hc, hw⟩ := List.forall_mem_cons.1 h
    have hcut := words_append_cons (a := []) (b := w ++ b) hc
    rw [List.nil_append, words_nil, List.nil_append] at hcut
    rw [List.cons_append, hcut, ih hw]

/-- **Separators between two lists part their words.** -/
theorem words_append (h : ∀ c ∈ w, p c = true) (hne : w ≠ []) :
    words p (a ++ (w ++ b)) = words p a ++ words p b := by
  obtain ⟨c, w, rfl⟩ := List.exists_cons_of_ne_nil hne
  obtain ⟨hc, hw⟩ := List.forall_mem_cons.1 h
  rw [List.cons_append, words_append_cons hc, words_seps_append hw]

/-- Separators at the end hold no word. -/
theorem words_append_seps (h : ∀ c ∈ w, p c = true) : words p (a ++ w) = words p a := by
  by_cases hw : w = []
  · rw [hw, List.append_nil]
  · have hcut := words_append (a := a) (b := []) h hw
    rwa [List.append_nil, words_nil, List.append_nil] at hcut

/-- A list that begins with no separator holds a word. -/
theorem words_cons_ne_nil (hx : p x = false) : words p (x :: l) ≠ [] := by
  have hwhole := List.takeWhile_append_dropWhile (p := fun c => !p c) (l := x :: l)
  have hword : words p ((x :: l).takeWhile fun c => !p c) ≠ [] := by
    rw [words_of_forall_not (fun c hc => by simpa using List.mem_takeWhile_imp hc)]
    · exact List.cons_ne_nil _ _
    · rw [List.takeWhile_cons_of_pos (by simpa using hx)]
      exact List.cons_ne_nil _ _
  cases hrest : (x :: l).dropWhile fun c => !p c with
  | nil =>
    rw [hrest, List.append_nil] at hwhole
    rwa [hwhole] at hword
  | cons y rest =>
    have hy : p y = true := by
      have hnot := List.head?_dropWhile_not (fun c => !p c) (x :: l)
      rw [hrest] at hnot
      simpa using hnot
    rw [hrest] at hwhole
    rw [← hwhole, words_append_cons hy]
    exact fun h => hword (List.append_eq_nil_iff.1 h).1

/-- A word is not empty and holds no separator. -/
theorem mem_words (h : w ∈ words p l) : w ≠ [] ∧ ∀ c ∈ w, p c = false ∧ c ∈ l := by
  -- in front of `l` stands the word read so far
  suffices hall : ∀ l front : List α, (∀ c ∈ front, p c = false) → w ∈ words p (front ++ l) →
      w ≠ [] ∧ ∀ c ∈ w, p c = false ∧ c ∈ front ++ l from
    hall l [] (fun c hc => nomatch hc) h
  intro l
  induction l with
  | nil =>
    intro front hfront hw
    rw [List.append_nil] at hw ⊢
    by_cases hnil : front = []
    · rw [hnil, words_nil] at hw
      cases hw
    · rw [words_of_forall_not hfront hnil, List.mem_singleton] at hw
      subst hw
      exact ⟨hnil, fun c hc => ⟨hfront c hc, hc⟩⟩
  | cons d l ih =>
    intro front hfront hw
    by_cases hd : p d = true
    · rw [words_append_cons hd, List.mem_append] at hw
      rcases hw with hw | hw
      · by_cases hnil : front = []
        · rw [hnil, words_nil] at hw
          cases hw
        · rw [words_of_forall_not hfront hnil, List.mem_singleton] at hw
          subst hw
          exact ⟨hnil, fun c hc => ⟨hfront c hc, List.mem_append_left _ hc⟩⟩
      · obtain ⟨hne, hall⟩ := ih [] (fun c hc => nomatch hc) hw
        refine ⟨hne, fun c hc => ⟨(hall c hc).1, ?_⟩⟩
        exact List.mem_append_right _ (List.mem_cons_of_mem _ (hall c hc).2)
    · have hshift : front ++ d :: l = (front ++ [d]) ++ l := by
        rw [List.append_assoc]
        rfl
      rw [hshift] at hw ⊢
      refine ih (front ++ [d]) (fun c hc => ?_) hw
      rcases List.mem_append.1 hc with hc | hc
      · exact hfront c hc
      · rw [List.mem_singleton.1 hc]
        exact eq_false_of_ne_true hd

/-- What is no separator is in a word. -/
theorem exists_mem_words {c : α} (h : c ∈ l) (hc : p c = false) : ∃ w ∈ words p l, c ∈ w := by
  -- in front of `l` stands the word read so far
  suffices hall : ∀ l front : List α, (∀ d ∈ front, p d = false) → c ∈ front ++ l →
      ∃ w ∈ words p (front ++ l), c ∈ w from hall l [] (fun d hd => nomatch hd) h
  intro l
  induction l with
  | nil =>
    intro front hfront hmem
    rw [List.append_nil] at hmem ⊢
    rw [words_of_forall_not hfront (List.ne_nil_of_mem hmem)]
    exact ⟨front, List.mem_singleton_self _, hmem⟩
  | cons d l ih =>
    intro front hfront hmem
    by_cases hd : p d = true
    · rw [words_append_cons hd]
      rcases List.mem_append.1 hmem with hmem | hmem
      · rw [words_of_forall_not hfront (List.ne_nil_of_mem hmem)]
        exact ⟨front, List.mem_append_left _ (List.mem_singleton_self _), hmem⟩
      · rcases List.mem_cons.1 hmem with rfl | hmem
        · rw [hc] at hd
          cases hd
        · obtain ⟨w, hw, hcw⟩ := ih [] (fun d hd => nomatch hd) hmem
          exact ⟨w, List.mem_append_right _ hw, hcw⟩
    · have hshift : front ++ d :: l = (front ++ [d]) ++ l := by
        rw [List.append_assoc]
        rfl
      rw [hshift] at hmem ⊢
      refine ih (front ++ [d]) (fun e he => ?_) hmem
      rcases List.mem_append.1 he with he | he
      · exact hfront e he
      · rw [List.mem_singleton.1 he]
        exact eq_false_of_ne_true hd

theorem intercalate_cons_cons {v : List α} {ws : List (List α)} :
    [x].intercalate (v :: w :: ws) = v ++ x :: [x].intercalate (w :: ws) := by
  simp [List.intercalate]

theorem mem_intercalate {c : α} {ws : List (List α)} (h : c ∈ [x].intercalate ws) :
    c = x ∨ ∃ w ∈ ws, c ∈ w := by
  induction ws with
  | nil => simp at h
  | cons w rest ih =>
    cases rest with
    | nil => exact Or.inr ⟨w, List.mem_cons_self, by simpa using h⟩
    | cons w' rest =>
      rw [intercalate_cons_cons, List.mem_append, List.mem_cons] at h
      rcases h with h | h | h
      · exact Or.inr ⟨w, List.mem_cons_self, h⟩
      · exact Or.inl h
      · rcases ih h with h | ⟨v, hv, hc⟩
        · exact Or.inl h
        · exact Or.inr ⟨v, List.mem_cons_of_mem _ hv, hc⟩

/-- Joined words are not empty. -/
theorem intercalate_ne_nil {ws : List (List α)} (hne : ws ≠ []) (h : ∀ w ∈ ws, w ≠ []) :
    [x].intercalate ws ≠ [] := by
  obtain ⟨w, rest, rfl⟩ := List.exists_cons_of_ne_nil hne
  obtain ⟨c, w, rfl⟩ := List.exists_cons_of_ne_nil (h w List.mem_cons_self)
  cases rest with
  | nil => simp
  | cons w' rest =>
    rw [intercalate_cons_cons]
    exact List.cons_ne_nil _ _

/-- Joined words begin with a word's first member. -/
theorem head?_intercalate {c : α} {ws : List (List α)} (h : ∀ w ∈ ws, w ≠ [])
    (hc : ([x].intercalate ws).head? = some c) : ∃ w ∈ ws, c ∈ w := by
  cases ws with
  | nil => simp at hc
  | cons w rest =>
    obtain ⟨d, w, rfl⟩ := List.exists_cons_of_ne_nil (h w List.mem_cons_self)
    refine ⟨d :: w, List.mem_cons_self, ?_⟩
    cases rest <;> simp_all [List.intercalate]

/-- Joined words end with a word's last member. -/
theorem getLast?_intercalate {c : α} {ws : List (List α)} (h : ∀ w ∈ ws, w ≠ [])
    (hc : ([x].intercalate ws).getLast? = some c) : ∃ w ∈ ws, c ∈ w := by
  induction ws with
  | nil => simp at hc
  | cons w rest ih =>
    cases rest with
    | nil =>
      refine ⟨w, List.mem_cons_self, List.mem_of_getLast? ?_⟩
      simpa using hc
    | cons w' rest =>
      have hw' : [x].intercalate (w' :: rest) ≠ [] :=
        intercalate_ne_nil (List.cons_ne_nil _ _) fun v hv => h v (List.mem_cons_of_mem _ hv)
      rw [intercalate_cons_cons, List.getLast?_append, List.getLast?_cons_of_ne_nil hw'] at hc
      have hlast : ([x].intercalate (w' :: rest)).getLast? = some c := by
        rw [List.getLast?_eq_some_getLast hw'] at hc ⊢
        exact hc
      obtain ⟨v, hv, hcv⟩ := ih (fun v hv => h v (List.mem_cons_of_mem _ hv)) hlast
      exact ⟨v, List.mem_cons_of_mem _ hv, hcv⟩

/-- **Words joined by a separator are cut again at it.** -/
theorem words_intercalate {ws : List (List α)} (hx : p x = true)
    (h : ∀ w ∈ ws, w ≠ [] ∧ ∀ c ∈ w, p c = false) : words p ([x].intercalate ws) = ws := by
  induction ws with
  | nil => simp
  | cons w rest ih =>
    obtain ⟨hw, hrest⟩ := List.forall_mem_cons.1 h
    have hone := words_of_forall_not hw.2 hw.1
    cases rest with
    | nil => simpa using hone
    | cons w' rest =>
      rw [intercalate_cons_cons, words_append_cons hx, hone, ih hrest]
      rfl

/-- Pieces joined by a separator are split again at it, the empty ones too. -/
theorem splitOnP_intercalate {ws : List (List α)} (hx : p x = true) (hne : ws ≠ [])
    (h : ∀ w ∈ ws, ∀ c ∈ w, p c = false) : ([x].intercalate ws).splitOnP p = ws := by
  induction ws with
  | nil => exact absurd rfl hne
  | cons w rest ih =>
    obtain ⟨hw, hrest⟩ := List.forall_mem_cons.1 h
    have hone := List.splitOnP_eq_singleton hw
    cases rest with
    | nil => simpa using hone
    | cons w' rest =>
      rw [intercalate_cons_cons, List.splitOnP_append_cons _ _ hx, hone,
        ih (List.cons_ne_nil _ _) hrest]
      rfl

/-- A list is its stripped one between separators. -/
theorem exists_strip (p : α → Bool) (l : List α) :
    ∃ s t, l = s ++ (strip p l ++ t) ∧ (∀ c ∈ s, p c = true) ∧ ∀ c ∈ t, p c = true := by
  refine ⟨l.takeWhile p, ((l.dropWhile p).reverse.takeWhile p).reverse, ?_,
    fun c hc => List.mem_takeWhile_imp hc, fun c hc => ?_⟩
  · rw [strip, ← List.reverse_append, List.takeWhile_append_dropWhile, List.reverse_reverse,
      List.takeWhile_append_dropWhile]
  · exact List.mem_takeWhile_imp (List.mem_reverse.1 hc)

theorem dropWhile_eq_self (h : ∀ c ∈ a.head?, p c = false) : a.dropWhile p = a := by
  cases a with
  | nil => rfl
  | cons c a => rw [List.dropWhile_cons, if_neg (by simp [h c rfl])]

theorem dropWhile_congr (h : ∀ c ∈ l, p c = q c) : l.dropWhile p = l.dropWhile q := by
  induction l with
  | nil => rfl
  | cons c l ih =>
    obtain ⟨hc, hl⟩ := List.forall_mem_cons.1 h
    rw [List.dropWhile_cons, List.dropWhile_cons, hc, ih hl]

theorem strip_congr (h : ∀ c ∈ l, p c = q c) : strip p l = strip q l := by
  have hfront : l.dropWhile p = l.dropWhile q := dropWhile_congr h
  have hback : ∀ c ∈ (l.dropWhile q).reverse, p c = q c := fun c hc =>
    h c ((List.dropWhile_suffix q).subset (List.mem_reverse.1 hc))
  rw [strip, strip, hfront, dropWhile_congr hback]

/-- Separators around a list are stripped, and no more than these. -/
theorem strip_append {s t : List α} (hs : ∀ c ∈ s, p c = true) (ht : ∀ c ∈ t, p c = true)
    (hhead : ∀ c ∈ a.head?, p c = false) (hlast : ∀ c ∈ a.getLast?, p c = false) :
    strip p (s ++ (a ++ t)) = a := by
  have hback : t.reverse.dropWhile p = [] :=
    List.dropWhile_eq_nil_iff.2 fun c hc => ht c (List.mem_reverse.1 hc)
  rw [strip, List.dropWhile_append_of_pos hs]
  by_cases hne : a = []
  · have hfront : t.dropWhile p = [] := List.dropWhile_eq_nil_iff.2 ht
    rw [hne, List.nil_append, hfront]
    rfl
  · have hfront : (a ++ t).dropWhile p = a ++ t := by
      obtain ⟨x, rest, rfl⟩ := List.exists_cons_of_ne_nil hne
      exact dropWhile_eq_self fun c hc => hhead c hc
    have hrest : a.reverse.dropWhile p = a.reverse :=
      dropWhile_eq_self fun c hc => hlast c (by rwa [List.head?_reverse] at hc)
    rw [hfront, List.reverse_append, List.dropWhile_append, hback, List.isEmpty_nil, if_pos rfl,
      hrest, List.reverse_reverse]

/-- A list that begins and ends with no separator is stripped already. -/
theorem strip_eq_self (hhead : ∀ c ∈ a.head?, p c = false)
    (hlast : ∀ c ∈ a.getLast?, p c = false) : strip p a = a := by
  have hnone : ∀ c ∈ ([] : List α), p c = true := fun c hc => nomatch hc
  have h := strip_append hnone hnone hhead hlast
  rwa [List.nil_append, List.append_nil] at h

/-- A stripped list begins with no separator. -/
theorem head?_strip {c : α} (h : (strip p l).head? = some c) : p c = false := by
  -- the list stripped in front continues the one stripped at both ends
  have hfront : l.dropWhile p =
      strip p l ++ ((l.dropWhile p).reverse.takeWhile p).reverse := by
    rw [strip, ← List.reverse_append, List.takeWhile_append_dropWhile, List.reverse_reverse]
  have hnot := List.head?_dropWhile_not p l
  rw [hfront, List.head?_append, h] at hnot
  exact hnot

end Lib
