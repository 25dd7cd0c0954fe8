import SchemaSentry.Lib.Regex
/-!
# Search and replacement

A search goes through a text from left to right and tries a pattern at
every place no match before has taken. What it does with a front of the
text is known where none of its matches reaches over the front's end
(`Scans`). Most of the patterns searched for are an opener and the longest
run of a class behind it (`HidesRun`): there the end of a front matters by
what it begins with (`HidesRun.move`).
-/

namespace Lib

variable {α : Type*} {p q : α → Bool} {x : α} {run run' rest rest' text : List α}

/-! ## Runs -/

/-- The longest run of a class in front of `rest`. -/
structure IsRun (q : α → Bool) (run rest : List α) : Prop where
  ne_nil : run ≠ []
  all : ∀ x ∈ run, q x = true
  ends : ∀ x ∈ rest.head?, q x = false

theorem ends_cons (hx : q x = false) : ∀ y ∈ (x :: rest).head?, q y = false := by
  intro y hy
  rwa [← Option.some.inj hy]

/-- What a class stops in front of. -/
theorem takeWhile_append_eq (hrun : ∀ x ∈ run, q x = true) (hrest : ∀ x ∈ rest.head?, q x = false) :
    (run ++ rest).takeWhile q = run := by
  rw [List.takeWhile_append_of_pos hrun]
  cases rest with
  | nil => rw [List.takeWhile_nil, List.append_nil]
  | cons x rest =>
    rw [List.takeWhile_cons_of_neg (by simp [hrest x rfl]), List.append_nil]

/-- A text falls apart in one way where a class stops. -/
theorem append_inj_of_class (hrun : ∀ x ∈ run, q x = true) (hrest : ∀ x ∈ rest.head?, q x = false)
    (hrun' : ∀ x ∈ run', q x = true) (hrest' : ∀ x ∈ rest'.head?, q x = false)
    (h : run ++ rest = run' ++ rest') : run = run' ∧ rest = rest' := by
  have heq : run = run' := by
    rw [← takeWhile_append_eq hrun hrest, h, takeWhile_append_eq hrun' hrest']
  exact ⟨heq, List.append_cancel_left (heq ▸ h)⟩

/-- A text that begins with the class begins with a run of it. -/
theorem exists_isRun (h : ∃ x ∈ text.head?, q x = true) :
    ∃ run rest, text = run ++ rest ∧ IsRun q run rest := by
  refine ⟨text.takeWhile q, text.dropWhile q, List.takeWhile_append_dropWhile.symm, ?_,
    fun x hx => List.mem_takeWhile_imp hx, fun x hx => ?_⟩
  · obtain ⟨x, hx, hq⟩ := h
    obtain ⟨rest, rfl⟩ : ∃ rest, text = x :: rest := List.head?_eq_some_iff.1 hx
    rw [List.takeWhile_cons_of_pos hq]
    exact List.cons_ne_nil _ _
  · have hnot := List.head?_dropWhile_not q text
    rw [Option.mem_def.1 hx] at hnot
    exact hnot

namespace Regex

variable {r s : Regex α} {before before' t tail : List α} {m k : Match α} {name name' : String}

/-! ## First matches -/

theorem matchAt_group : (group name r).matchAt before text =
    (r.matchAt before text).map fun m => { m with groups := (name, m.taken) :: m.groups } :=
  List.head?_map

/-- The first match of a run is the longest. -/
theorem matchAt_plus : (plus q).matchAt before text = some m ↔
    ∃ run rest, text = run ++ rest ∧ IsRun q run rest ∧ m = ⟨run, []⟩ := by
  have hfirst : ∀ x rest, q x = true → (plus q).matchAt before (x :: rest) =
      some ⟨(x :: rest).takeWhile q, []⟩ := by
    intro x rest hx
    obtain ⟨shorter, heq, -⟩ := exists_shorter_runs q rest
    rw [matchAt, plus, found_char_seq_cons hx, found, heq, List.takeWhile_cons_of_pos hx]
    rfl
  constructor
  · intro h
    cases text with
    | nil => cases h
    | cons x rest =>
      by_cases hx : q x = true
      · obtain ⟨run, rest', htext, hrun⟩ := exists_isRun ⟨x, List.head?_cons, hx⟩
        rw [hfirst x rest hx, htext, takeWhile_append_eq hrun.all hrun.ends] at h
        exact ⟨run, rest', htext, hrun, (Option.some.inj h).symm⟩
      · rw [matchAt, plus, found_seq_of_nil (found_char_of_not (by simpa using hx))] at h
        cases h
  · rintro ⟨run, rest, rfl, hrun, rfl⟩
    obtain ⟨x, tail, rfl⟩ := List.exists_cons_of_ne_nil hrun.ne_nil
    rw [List.cons_append, hfirst x (tail ++ rest) (hrun.all x List.mem_cons_self),
      ← List.cons_append, takeWhile_append_eq hrun.all hrun.ends]

/-- A run in a group with a closing character in another. -/
theorem matchAt_run_char (hp : ∀ x, p x = true → q x = false) :
    (seq (group name (plus p)) (group name' (char q))).matchAt before text = some m ↔
      ∃ run x rest, text = run ++ x :: rest ∧ run ≠ [] ∧ (∀ y ∈ run, p y = true) ∧ q x = true ∧
        m = ⟨run ++ [x], [(name, run), (name', [x])]⟩ := by
  have hends : ∀ x rest, q x = true → ∀ y ∈ (x :: rest).head?, p y = false := by
    intro x rest hx
    refine ends_cons ?_
    by_contra hy
    rw [hp x (by simpa using hy)] at hx
    cases hx
  -- in front of the class the run is read whole, and the closing character follows or not
  have hread : ∀ y rest, p y = true → (seq (group name (plus p)) (group name' (char q))).matchAt
      before (y :: rest) = (((group name' (char q)).found
        (((y :: rest).takeWhile p).reverse ++ before) ((y :: rest).dropWhile p)).map
          (Match.append ⟨(y :: rest).takeWhile p, [(name, (y :: rest).takeWhile p)]⟩)).head? := by
    intro y rest hy
    rw [matchAt, found_group_run_seq (readsRun_plus hy before rest) (refuses_char hp).group]
  constructor
  · intro h
    cases text with
    | nil => cases h
    | cons y text =>
      by_cases hy : p y = true
      · obtain ⟨run, rest, htext, hrun⟩ := exists_isRun ⟨y, List.head?_cons, hy⟩
        rw [hread y text hy, htext, takeWhile_append_eq hrun.all hrun.ends,
          List.dropWhile_append_of_pos hrun.all] at h
        cases rest with
        | nil => cases h
        | cons x rest =>
          rw [List.dropWhile_cons_of_neg (by simp [hrun.ends x rfl])] at h
          by_cases hx : q x = true
          · rw [found, found, if_pos hx] at h
            exact ⟨run, x, rest, htext, hrun.ne_nil, hrun.all, hx, (Option.some.inj h).symm⟩
          · rw [found, found, if_neg hx] at h
            cases h
      · have hnone : (group name (plus p)).found before (y :: text) = [] := by
          rw [found, plus, found_seq_of_nil (found_char_of_not (by simpa using hy)), List.map_nil]
        rw [matchAt, found_seq_of_nil hnone] at h
        cases h
  · rintro ⟨run, x, rest, rfl, hne, hall, hx, rfl⟩
    have hrest := hends x rest hx
    obtain ⟨y, tail, rfl⟩ := List.exists_cons_of_ne_nil hne
    rw [List.cons_append, hread y _ (hall y List.mem_cons_self), ← List.cons_append,
      takeWhile_append_eq hall hrest, List.dropWhile_append_of_pos hall,
      List.dropWhile_cons_of_neg (by simp [hrest x rfl]), found, found, if_pos hx]
    rfl

/-- A group comes first: what it takes, and what follows it. -/
theorem matchAt_group_seq_eq_some (hr : r.Plain)
    (h : (seq (group name r) s).matchAt before text = some m) :
    ∃ t tail k, text = t ++ tail ∧ r.Takes before t tail ∧
      s.matchAt (t.reverse ++ before) tail = some k ∧
        m = ⟨t ++ k.taken, (name, t) :: k.groups⟩ := by
  rw [matchAt, found_group_seq, List.head?_flatMap] at h
  obtain ⟨l, hl, hfirst⟩ := List.exists_of_findSome?_eq_some h
  rw [List.head?_map, Option.map_eq_some_iff] at hfirst
  obtain ⟨k, hk, rfl⟩ := hfirst
  obtain ⟨tail, rfl⟩ := taken_prefix hl
  rw [List.drop_left] at hk
  exact ⟨l.taken, tail, k, rfl, ⟨l, hl, rfl⟩, hk, by rw [groups_of_plain hr hl, List.nil_append]⟩

theorem isSome_matchAt_group_seq (hr : r.Takes before t tail)
    (hs : (s.matchAt (t.reverse ++ before) tail).isSome) :
    ((seq (group name r) s).matchAt before (t ++ tail)).isSome := by
  obtain ⟨l, hl, rfl⟩ := hr
  rw [matchAt, found_group_seq, List.head?_flatMap, List.findSome?_isSome_iff]
  refine ⟨l, hl, ?_⟩
  rwa [List.head?_map, Option.isSome_map, List.drop_left]

/-- A group comes first, and the text leaves it one reading. -/
theorem matchAt_group_seq_iff (hr : r.Plain)
    (hone : ∀ {t tail t' tail'}, t ++ tail = t' ++ tail' → r.Takes before t tail →
      r.Takes before t' tail' → (s.matchAt (t.reverse ++ before) tail).isSome →
        (s.matchAt (t'.reverse ++ before) tail').isSome → t = t') :
    (seq (group name r) s).matchAt before text = some m ↔
      ∃ t tail k, text = t ++ tail ∧ r.Takes before t tail ∧
        s.matchAt (t.reverse ++ before) tail = some k ∧
          m = ⟨t ++ k.taken, (name, t) :: k.groups⟩ := by
  refine ⟨matchAt_group_seq_eq_some hr, ?_⟩
  rintro ⟨t, tail, k, rfl, ht, hk, rfl⟩
  have hsome : ((seq (group name r) s).matchAt before (t ++ tail)).isSome :=
    isSome_matchAt_group_seq ht (by rw [hk]; rfl)
  obtain ⟨m, hm⟩ := Option.isSome_iff_exists.1 hsome
  obtain ⟨t', tail', k', htext, ht', hk', rfl⟩ := matchAt_group_seq_eq_some hr hm
  obtain rfl := hone htext ht ht' (by rw [hk]; rfl) (by rw [hk']; rfl)
  obtain rfl := List.append_cancel_left htext
  rw [hk] at hk'
  obtain rfl := Option.some.inj hk'
  exact hm

/-! ## Replacement -/

/-- The match of the first place a pattern has one at. -/
def search (r : Regex α) : List α → List α → Option (Match α)
  | before, [] => r.matchAt before []
  | before, x :: rest =>
    match r.matchAt before (x :: rest) with
    | some m => some m
    | none => r.search (x :: before) rest

/-- A text with a pattern's matches replaced from left to right, when the
next characters are already taken. Where a match is empty nothing is replaced. -/
def subFrom (r : Regex α) (f : Match α → List α) : Nat → List α → List α → List α
  | _, _, [] => []
  | taken + 1, before, x :: rest => r.subFrom f taken (x :: before) rest
  | 0, before, x :: rest =>
    match r.matchAt before (x :: rest) with
    | none | some ⟨[], _⟩ => x :: r.subFrom f 0 (x :: before) rest
    | some ⟨y :: taken, groups⟩ =>
      f ⟨y :: taken, groups⟩ ++ r.subFrom f taken.length (x :: before) rest

def sub (r : Regex α) (f : Match α → List α) (text : List α) : List α := r.subFrom f 0 [] text

variable {f : Match α → List α} {front back back' out : List α}

theorem subFrom_of_none (h : r.matchAt before (x :: rest) = none) :
    r.subFrom f 0 before (x :: rest) = x :: r.subFrom f 0 (x :: before) rest := by
  rw [subFrom, h]

theorem subFrom_length (f : Match α → List α) (t before rest : List α) :
    r.subFrom f t.length before (t ++ rest) = r.subFrom f 0 (t.reverse ++ before) rest := by
  induction t generalizing before with
  | nil => rfl
  | cons x t ih =>
    rw [List.length_cons, List.cons_append, subFrom, ih, List.reverse_cons, List.append_assoc]
    rfl

theorem subFrom_of_some (h : r.matchAt before (m.taken ++ rest) = some m) (hne : m.taken ≠ []) :
    r.subFrom f 0 before (m.taken ++ rest) =
      f m ++ r.subFrom f 0 (m.taken.reverse ++ before) rest := by
  obtain ⟨taken, groups⟩ := m
  obtain ⟨x, taken, rfl⟩ := List.exists_cons_of_ne_nil hne
  dsimp only at h ⊢
  rw [List.cons_append] at h
  rw [List.cons_append, subFrom, h]
  dsimp only
  rw [subFrom_length, List.reverse_cons, List.append_assoc]
  rfl

/-- What stands before counts as far as the pattern looks at it. -/
theorem subFrom_congr {R : List α → List α → Prop}
    (hmatch : ∀ b b', R b b' → ∀ text, (r.matchAt b text).map (fun m => (m.taken, f m)) =
      (r.matchAt b' text).map fun m => (m.taken, f m))
    (hcons : ∀ b b' x, R b b' → R (x :: b) (x :: b')) (h : R before before') (taken : ℕ)
    (text : List α) : r.subFrom f taken before text = r.subFrom f taken before' text := by
  induction text generalizing before before' taken with
  | nil => rw [subFrom.eq_def, subFrom.eq_def]
  | cons x text ih =>
    have hrest := fun taken => ih (hcons before before' x h) taken
    cases taken with
    | succ taken => rw [subFrom, subFrom, hrest]
    | zero =>
      have hm := hmatch before before' h (x :: text)
      rw [subFrom, subFrom]
      generalize r.matchAt before (x :: text) = m at hm ⊢
      generalize r.matchAt before' (x :: text) = m' at hm ⊢
      rcases m with _ | ⟨t, groups⟩
      · rcases m' with _ | ⟨t', groups'⟩
        · dsimp only
          rw [hrest]
        · cases hm
      · rcases m' with _ | ⟨t', groups'⟩
        · cases hm
        · obtain ⟨rfl, hput⟩ := Prod.mk.inj (Option.some.inj hm)
          cases t with
          | nil =>
            dsimp only
            rw [hrest]
          | cons y t =>
            dsimp only at hput ⊢
            rw [hput, hrest]

/-! ## Fronts -/

/-- The search goes through `front`, behind which `back` stands, with `out`
for it: none of its matches reaches over. -/
inductive Scans (r : Regex α) (f : Match α → List α) (back : List α) :
    List α → List α → List α → Prop
  | done (before : List α) : Scans r f back before [] []
  | pass {before front out : List α} {x : α} (h : r.matchAt before (x :: (front ++ back)) = none)
      (hfront : Scans r f back (x :: before) front out) :
      Scans r f back before (x :: front) (x :: out)
  | took {before front out : List α} {m : Match α}
      (h : r.matchAt before (m.taken ++ (front ++ back)) = some m) (hne : m.taken ≠ [])
      (hfront : Scans r f back (m.taken.reverse ++ before) front out) :
      Scans r f back before (m.taken ++ front) (f m ++ out)

/-- **A front is replaced on its own.** -/
theorem Scans.subFrom_eq (h : Scans r f back before front out) :
    r.subFrom f 0 before (front ++ back) =
      out ++ r.subFrom f 0 (front.reverse ++ before) back := by
  induction h with
  | done before => rfl
  | pass h _ ih =>
    rw [List.cons_append, subFrom_of_none h, ih, List.reverse_cons, List.append_assoc]
    rfl
  | took h hne _ ih =>
    rw [List.append_assoc, subFrom_of_some h hne, ih, List.reverse_append, List.append_assoc,
      List.append_assoc]

/-- No match begins in `front`, behind which `back` stands. -/
def Silent (r : Regex α) (front back : List α) : Prop :=
  ∀ l c before, front = l ++ c → c ≠ [] → r.matchAt before (c ++ back) = none

/-- A front no match begins in stays as it is. -/
theorem Silent.scans (h : r.Silent front back) (before : List α) :
    Scans r f back before front front := by
  induction front generalizing before with
  | nil => exact .done before
  | cons x front ih =>
    refine .pass (h [] (x :: front) before rfl (List.cons_ne_nil _ _)) (ih ?_ _)
    intro l c before hfront hc
    exact h (x :: l) c before (by rw [hfront]; rfl) hc

/-- None of the matches of a search through `front` reaches over into `back`. -/
def Clear (r : Regex α) (f : Match α → List α) (front back : List α) : Prop :=
  ∃ out, Scans r f back [] front out

/-! ## Openers -/

/-- A pattern replaces the run of a class behind an opener. -/
structure HidesRun (r : Regex α) (f : Match α → List α) (opens : List α → List α → Prop)
    (q : α → Bool) (put : List α) : Prop where
  reads : ∀ {before text m}, r.matchAt before text = some m →
    ∃ pre run rest, text = pre ++ (run ++ rest) ∧ opens before pre ∧ IsRun q run rest ∧
      m.taken = pre ++ run ∧ f m = pre ++ put
  meets : ∀ {before pre run rest}, opens before pre → IsRun q run rest →
    ∃ m, r.matchAt before (pre ++ (run ++ rest)) = some m ∧ m.taken = pre ++ run ∧ f m = pre ++ put

namespace HidesRun

variable {opens : List α → List α → Prop} {put pre : List α}

/-- An opener in a group, and a run behind it. -/
theorem of_group {g : List α → List (String × List α)} (hr : r.Plain)
    (hopens : ∀ {before t tail}, r.Takes before t tail ↔ opens before t)
    (hs : ∀ {before text k}, s.matchAt before text = some k ↔
      ∃ run rest, text = run ++ rest ∧ IsRun q run rest ∧ k = ⟨run, g run⟩)
    (hone : ∀ {before pre pre' tail tail'}, opens before pre → opens before pre' →
      pre ++ tail = pre' ++ tail' → (∀ x ∈ tail.head?, q x = true) →
        (∀ x ∈ tail'.head?, q x = true) → pre = pre')
    (hf : ∀ pre run, f ⟨pre ++ run, (name, pre) :: g run⟩ = pre ++ put) :
    HidesRun (seq (group name r) s) f opens q put := by
  -- where the second pattern matches, the class begins
  have hhead : ∀ {before text}, (s.matchAt before text).isSome → ∀ x ∈ text.head?, q x = true := by
    intro before text hsome x hx
    obtain ⟨k, hk⟩ := Option.isSome_iff_exists.1 hsome
    obtain ⟨run, rest, rfl, hrun, -⟩ := hs.1 hk
    obtain ⟨y, run, rfl⟩ := List.exists_cons_of_ne_nil hrun.ne_nil
    obtain rfl : y = x := Option.some.inj hx
    exact hrun.all y List.mem_cons_self
  have hiff : ∀ {before text m}, (seq (group name r) s).matchAt before text = some m ↔
      ∃ t tail k, text = t ++ tail ∧ r.Takes before t tail ∧
        s.matchAt (t.reverse ++ before) tail = some k ∧ m = ⟨t ++ k.taken, (name, t) :: k.groups⟩ :=
    matchAt_group_seq_iff hr fun heq h h' hk hk' =>
      hone (hopens.1 h) (hopens.1 h') heq (hhead hk) (hhead hk')
  constructor
  · intro before text m h
    obtain ⟨pre, tail, k, rfl, hpre, hk, rfl⟩ := hiff.1 h
    obtain ⟨run, rest, rfl, hrun, rfl⟩ := hs.1 hk
    exact ⟨pre, run, rest, rfl, hopens.1 hpre, hrun, rfl, hf pre run⟩
  · intro before pre run rest hpre hrun
    exact ⟨⟨pre ++ run, (name, pre) :: g run⟩, hiff.2 ⟨pre, run ++ rest, ⟨run, g run⟩, rfl,
      hopens.2 hpre, hs.2 ⟨run, rest, rfl, hrun, rfl⟩, rfl⟩, rfl, hf pre run⟩

theorem isSome (h : HidesRun r f opens q put) (hopens : opens before pre)
    (hrest : ∃ x ∈ rest.head?, q x = true) : r.matchAt before (pre ++ rest) ≠ none := by
  obtain ⟨run, rest, rfl, hrun⟩ := exists_isRun hrest
  obtain ⟨m, hm, -⟩ := h.meets hopens hrun
  rw [hm]
  exact Option.some_ne_none m

/-- **The run behind an opener is replaced.** -/
theorem subFrom_eq (h : HidesRun r f opens q put) (hopens : opens before pre)
    (hrun : IsRun q run rest) : r.subFrom f 0 before (pre ++ (run ++ rest)) =
      pre ++ (put ++ r.subFrom f 0 ((pre ++ run).reverse ++ before) rest) := by
  obtain ⟨m, hm, htaken, hput⟩ := h.meets hopens hrun
  have hne : m.taken ≠ [] := by
    rw [htaken]
    exact fun hnil => hrun.ne_nil (List.append_eq_nil_iff.1 hnil).2
  rw [← List.append_assoc, ← htaken] at hm ⊢
  rw [subFrom_of_some hm hne, hput, List.append_assoc]

/-- What stands before counts as far as the opener looks at it. -/
theorem subFrom_congr (h : HidesRun r f opens q put) {R : List α → List α → Prop}
    (hopens : ∀ b b' pre, R b b' → (opens b pre ↔ opens b' pre))
    (hcons : ∀ b b' x, R b b' → R (x :: b) (x :: b')) (hR : R before before') (text : List α) :
    r.subFrom f 0 before text = r.subFrom f 0 before' text := by
  refine Regex.subFrom_congr (fun b b' hb text => ?_) hcons hR 0 text
  rcases hm : r.matchAt b text with _ | m
  · rcases hm' : r.matchAt b' text with _ | m'
    · rfl
    · obtain ⟨pre, run, rest, rfl, hpre, hrun, -⟩ := h.reads hm'
      obtain ⟨m, hsome, -⟩ := h.meets ((hopens b b' pre hb).2 hpre) hrun
      rw [hm] at hsome
      cases hsome
  · obtain ⟨pre, run, rest, rfl, hpre, hrun, htaken, hput⟩ := h.reads hm
    obtain ⟨m', hm', htaken', hput'⟩ := h.meets ((hopens b b' pre hb).1 hpre) hrun
    rw [hm', Option.map_some, Option.map_some, htaken, htaken', hput, hput']

/-- Behind a match the class stops, so the front goes on there. -/
theorem front_ne_nil (h : HidesRun r f opens q put) (hback : ∃ x ∈ back.head?, q x = true)
    (hm : r.matchAt before (m.taken ++ (front ++ back)) = some m) : front ≠ [] := by
  rintro rfl
  obtain ⟨pre, run, rest, htext, -, hrun, htaken, -⟩ := h.reads hm
  rw [htaken, List.append_assoc] at htext
  have hrest := List.append_cancel_left (List.append_cancel_left htext)
  obtain ⟨x, hx, hq⟩ := hback
  rw [List.nil_append] at hrest
  rw [hrun.ends x (by rwa [← hrest])] at hq
  cases hq

/-- The end of a front stays, if the class would go on behind it. -/
theorem getLast?_scans (h : HidesRun r f opens q put) (hback : ∃ x ∈ back.head?, q x = true)
    (hscans : Scans r f back before front out) : out.getLast? = front.getLast? := by
  induction hscans with
  | done before => rfl
  | @pass before front out x _ _ ih =>
    rw [List.getLast?_cons, List.getLast?_cons, ih]
  | @took before front out m hm _ _ ih =>
    have hfront := h.front_ne_nil hback hm
    have hout : out ≠ [] := by
      rintro rfl
      exact hfront (List.getLast?_eq_none_iff.1 ih.symm)
    rw [List.getLast?_append_of_ne_nil _ hout, List.getLast?_append_of_ne_nil _ hfront, ih]

/-- **A front stays as it is replaced** when another text stands behind it,
if the class would go on and no opener goes over into the new one. -/
theorem move (h : HidesRun r f opens q put) (hback : ∃ x ∈ back.head?, q x = true)
    (hnew : ∀ before l t u, l ≠ [] → t ≠ [] → opens before (l ++ t) → t ++ u ≠ back')
    (hscans : Scans r f back before front out) : Scans r f back' before front out := by
  -- the class goes on behind what begins with it, or behind nothing
  have hgoes : ∀ l run rest : List α, run ≠ [] → (∀ x ∈ run, q x = true) → l ++ back' = run ++ rest →
      ∃ x ∈ (l ++ back).head?, q x = true := by
    intro l run rest hne hall heq
    obtain ⟨x, run, rfl⟩ := List.exists_cons_of_ne_nil hne
    rcases l with _ | ⟨y, l⟩
    · exact hback
    · rw [List.cons_append, List.cons_append] at heq
      obtain ⟨rfl, -⟩ := List.cons.inj heq
      exact ⟨y, rfl, hall y List.mem_cons_self⟩
  induction hscans with
  | done before => exact .done before
  | @pass before front out x hnone _ ih =>
    refine .pass ?_ ih
    by_contra hsome
    obtain ⟨m, hm⟩ := Option.ne_none_iff_exists'.1 hsome
    obtain ⟨pre, run, rest, htext, hopens, hrun, -⟩ := h.reads hm
    rw [← List.cons_append] at htext
    rcases List.append_eq_append_iff.1 htext with ⟨t, rfl, hback'⟩ | ⟨l, hfront, hrest⟩
    · -- the opener reaches the end of the front
      by_cases ht : t = []
      · subst ht
        rw [List.append_nil] at hopens
        have hx := hgoes [] run rest hrun.ne_nil hrun.all hback'
        exact h.isSome hopens hx (by rwa [List.cons_append])
      · exact hnew before (x :: front) t (run ++ rest) (List.cons_ne_nil _ _) ht hopens hback'.symm
    · have hx := hgoes l run rest hrun.ne_nil hrun.all hrest.symm
      refine h.isSome hopens hx ?_
      rwa [← List.append_assoc, ← hfront]
  | @took before front out m hsome hne _ ih =>
    obtain ⟨pre, run, rest, htext, hopens, hrun, htaken, hput⟩ := h.reads hsome
    rw [htaken, List.append_assoc] at htext
    have hrest := List.append_cancel_left (List.append_cancel_left htext)
    obtain ⟨y, front, rfl⟩ := List.exists_cons_of_ne_nil (h.front_ne_nil hback hsome)
    have hrun' : IsRun q run (y :: front ++ back') :=
      ⟨hrun.ne_nil, hrun.all, fun z hz => hrun.ends z (by rw [← hrest]; exact hz)⟩
    obtain ⟨m', hm', htaken', hput'⟩ := h.meets hopens hrun'
    rw [← List.append_assoc, ← htaken'] at hm'
    have hm : m.taken = m'.taken := htaken.trans htaken'.symm
    rw [hput, ← hput', hm]
    rw [hm] at ih
    exact .took hm' (by rwa [← hm]) ih

end HidesRun

end Regex

end Lib
