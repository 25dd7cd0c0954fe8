import Mathlib.Data.List.TakeWhile
import Mathlib.Data.List.Infix
import Mathlib.Data.List.Forall2
/-!
# Regular expressions

Regular expressions read from left to right with backtracking. A pattern
has its matches in order of preference (`Regex.found`), and the first one
counts. Where what follows a run refuses the run's own characters, the run
is read whole and nothing is tried again (`found_group_run_seq`).
-/

namespace Lib

variable {α : Type*}

/-- A pattern over characters. -/
inductive Regex (α : Type*) where
  | empty
  | char (p : α → Bool)
  | seq (r s : Regex α)
  | alt (r s : Regex α)
  | many (p : α → Bool)
  | lazy (p : α → Bool)
  | group (name : String) (r : Regex α)
  | boundary (p : α → Bool)
  | start
  | stop (p : α → Bool)

/-- What a pattern has taken, and what its groups hold. -/
structure Match (α : Type*) where
  taken : List α
  groups : List (String × List α) := []
  deriving DecidableEq

def Match.append (m k : Match α) : Match α := ⟨m.taken ++ k.taken, m.groups ++ k.groups⟩

/-- What a group holds. -/
def Match.group? (m : Match α) (name : String) : Option (List α) := m.groups.lookup name

@[simp] theorem append_nil_left (m : Match α) : Match.append ⟨[], []⟩ m = m := by
  simp [Match.append]

@[simp] theorem append_nil_right (m : Match α) : m.append ⟨[], []⟩ = m := by
  simp [Match.append]

theorem append_assoc (m k l : Match α) : (m.append k).append l = m.append (k.append l) := by
  simp [Match.append, List.append_assoc]

/-- The runs of a class in front, the longest first. -/
def runs (p : α → Bool) : List α → List (List α)
  | [] => [[]]
  | x :: rest => if p x then (runs p rest).map (x :: ·) ++ [[]] else [[]]

namespace Regex

/-- The matches of a pattern in front of a text, the preferred ones first.
What stands before, latest first, counts for boundaries and the start. -/
def found : Regex α → List α → List α → List (Match α)
  | empty, _, _ => [⟨[], []⟩]
  | char _, _, [] => []
  | char p, _, x :: _ => if p x then [⟨[x], []⟩] else []
  | seq r s, before, rest =>
    (r.found before rest).flatMap fun m =>
      (s.found (m.taken.reverse ++ before) (rest.drop m.taken.length)).map m.append
  | alt r s, before, rest => r.found before rest ++ s.found before rest
  | many p, _, rest => (runs p rest).map fun run => ⟨run, []⟩
  | lazy p, _, rest => (runs p rest).reverse.map fun run => ⟨run, []⟩
  | group name r, before, rest =>
    (r.found before rest).map fun m => { m with groups := (name, m.taken) :: m.groups }
  | boundary p, before, rest =>
    if before.head?.any p ≠ rest.head?.any p then [⟨[], []⟩] else []
  | start, before, _ => if before.isEmpty then [⟨[], []⟩] else []
  | stop p, _, rest => match rest with
    | [] => [⟨[], []⟩]
    | [x] => if p x then [⟨[], []⟩] else []
    | _ => []

def plus (p : α → Bool) : Regex α := seq (char p) (many p)

def lazyPlus (p : α → Bool) : Regex α := seq (char p) (lazy p)

def optional (r : Regex α) : Regex α := alt r empty

/-- One character of each class in turn. -/
def chars : List (α → Bool) → Regex α
  | [] => empty
  | p :: ps => seq (char p) (chars ps)

/-- Any of several patterns, the first ones preferred. -/
def anyOf (rs : List (Regex α)) : Regex α := rs.foldr alt (char fun _ => false)

/-- The match of a pattern in front of a text. -/
def matchAt (r : Regex α) (before rest : List α) : Option (Match α) :=
  (r.found before rest).head?

/-- The match of a pattern with a whole text. -/
def fullmatch (r : Regex α) (text : List α) : Option (Match α) :=
  (seq r (stop fun _ => false)).matchAt [] text

/-! ## Sequences -/

attribute [local simp] found

variable {r s : Regex α} {p q : α → Bool} {x : α} {before rest : List α} {m : Match α}

theorem found_seq (r s : Regex α) (before rest : List α) :
    (seq r s).found before rest = (r.found before rest).flatMap fun m =>
      (s.found (m.taken.reverse ++ before) (rest.drop m.taken.length)).map m.append := rfl

theorem found_seq_assoc (r s t : Regex α) (before rest : List α) :
    (seq (seq r s) t).found before rest = (seq r (seq s t)).found before rest := by
  simp only [found_seq, List.flatMap_assoc, List.flatMap_map, List.map_flatMap, List.map_map]
  refine List.flatMap_congr fun m _ => List.flatMap_congr fun k _ => ?_
  have hbefore : (m.append k).taken.reverse ++ before =
      k.taken.reverse ++ (m.taken.reverse ++ before) := by
    simp [Match.append]
  have hrest : rest.drop (m.append k).taken.length =
      (rest.drop m.taken.length).drop k.taken.length := by
    simp [Match.append, List.drop_drop]
  rw [hbefore, hrest]
  exact List.map_congr_left fun l _ => append_assoc m k l

theorem found_seq_of_nil (h : r.found before rest = []) :
    (seq r s).found before rest = [] := by
  rw [found_seq, h, List.flatMap_nil]

/-- What takes nothing goes on where it stands. -/
theorem found_seq_of_empty (h : r.found before rest = [⟨[], []⟩]) :
    (seq r s).found before rest = s.found before rest := by
  rw [found_seq, h, List.flatMap_singleton]
  have hid : (⟨[], []⟩ : Match α).append = id := funext append_nil_left
  simp [hid]

theorem found_alt_seq (r s t : Regex α) (before rest : List α) :
    (seq (alt r s) t).found before rest =
      (seq r t).found before rest ++ (seq s t).found before rest := by
  rw [found_seq, found_seq, found_seq, ← List.flatMap_append]
  rfl

theorem found_group_seq (name : String) (r s : Regex α) (before rest : List α) :
    (seq (group name r) s).found before rest = (r.found before rest).flatMap fun m =>
      (s.found (m.taken.reverse ++ before) (rest.drop m.taken.length)).map fun k =>
        ⟨m.taken ++ k.taken, (name, m.taken) :: (m.groups ++ k.groups)⟩ := by
  rw [found_seq, found, List.flatMap_map]
  rfl

theorem found_char_seq_cons (hx : p x = true) :
    (seq (char p) r).found before (x :: rest) =
      (r.found (x :: before) rest).map (Match.append ⟨[x], []⟩) := by
  rw [found_seq, found, if_pos hx, List.flatMap_singleton]
  rfl

theorem found_char_of_not (h : ∀ x ∈ rest.head?, p x = false) :
    (char p).found before rest = [] := by
  cases rest with
  | nil => rfl
  | cons x rest => rw [found, if_neg (by simp [h x rfl])]

/-! ## Runs -/

/-- No match begins with a character of the class. -/
def Refuses (p : α → Bool) (r : Regex α) : Prop :=
  ∀ before x rest, p x = true → r.found before (x :: rest) = []

theorem refuses_char (h : ∀ x, p x = true → q x = false) : Refuses p (char q) :=
  fun _ x _ hx => by rw [found, if_neg (by simp [h x hx])]

theorem Refuses.seq (h : Refuses p r) : Refuses p (r.seq s) :=
  fun before x rest hx => found_seq_of_nil (h before x rest hx)

theorem Refuses.group {name : String} (h : Refuses p r) : Refuses p (r.group name) :=
  fun before x rest hx => by rw [found, h before x rest hx, List.map_nil]

/-- In front of a shorter run's rest stands a character of the class. -/
theorem exists_shorter_runs (p : α → Bool) (rest : List α) :
    ∃ shorter, runs p rest = rest.takeWhile p :: shorter ∧
      ∀ run ∈ shorter, ∃ x tail, rest.drop run.length = x :: tail ∧ p x = true := by
  induction rest with
  | nil => exact ⟨[], rfl, fun run h => nomatch h⟩
  | cons x rest ih =>
    by_cases hx : p x = true
    · obtain ⟨shorter, heq, hall⟩ := ih
      refine ⟨shorter.map (x :: ·) ++ [[]], ?_, fun run hrun => ?_⟩
      · rw [runs, if_pos hx, heq, List.takeWhile_cons_of_pos hx]
        rfl
      · rcases List.mem_append.1 hrun with hrun | hrun
        · obtain ⟨run, hmem, rfl⟩ := List.mem_map.1 hrun
          exact hall run hmem
        · rw [List.mem_singleton.1 hrun]
          exact ⟨x, rest, rfl, hx⟩
    · refine ⟨[], ?_, fun run h => nomatch h⟩
      rw [runs, if_neg hx, List.takeWhile_cons_of_neg hx]

/-- What a run leaves. -/
theorem drop_takeWhile (p : α → Bool) (rest : List α) :
    rest.drop (rest.takeWhile p).length = rest.dropWhile p := by
  have h := @List.drop_left _ (rest.takeWhile p) (rest.dropWhile p)
  rwa [List.takeWhile_append_dropWhile] at h

/-- A pattern reads the class's run in front of a text, or a shorter one
and leaves a character of the class. -/
def ReadsRun (p : α → Bool) (r : Regex α) (before rest : List α) : Prop :=
  ∃ others others', r.found before rest = others ++ ⟨rest.takeWhile p, []⟩ :: others' ∧
    ∀ m ∈ others ++ others', ∃ x tail, rest.drop m.taken.length = x :: tail ∧ p x = true

theorem readsRun_many (p : α → Bool) (before rest : List α) : ReadsRun p (many p) before rest := by
  obtain ⟨shorter, heq, hall⟩ := exists_shorter_runs p rest
  refine ⟨[], shorter.map fun run => ⟨run, []⟩, by rw [found, heq]; rfl, fun m hm => ?_⟩
  obtain ⟨run, hrun, rfl⟩ := List.mem_map.1 hm
  exact hall run hrun

theorem readsRun_lazy (p : α → Bool) (before rest : List α) : ReadsRun p (lazy p) before rest := by
  obtain ⟨shorter, heq, hall⟩ := exists_shorter_runs p rest
  refine ⟨shorter.reverse.map fun run => ⟨run, []⟩, [], ?_, fun m hm => ?_⟩
  · rw [found, heq, List.reverse_cons, List.map_append, List.map_singleton]
  · rw [List.append_nil] at hm
    obtain ⟨run, hrun, rfl⟩ := List.mem_map.1 hm
    exact hall run (List.mem_reverse.1 hrun)

/-- One character and a run are a run. -/
theorem ReadsRun.cons (hx : p x = true) (h : ReadsRun p r (x :: before) rest) :
    ReadsRun p (seq (char p) r) before (x :: rest) := by
  obtain ⟨others, others', heq, hall⟩ := h
  refine ⟨others.map (Match.append ⟨[x], []⟩), others'.map (Match.append ⟨[x], []⟩), ?_,
    fun m hm => ?_⟩
  · rw [found_char_seq_cons hx, heq, List.takeWhile_cons_of_pos hx, List.map_append, List.map_cons]
    rfl
  · rw [← List.map_append] at hm
    obtain ⟨m, hmem, rfl⟩ := List.mem_map.1 hm
    exact hall m hmem

theorem readsRun_plus (hx : p x = true) (before rest : List α) :
    ReadsRun p (plus p) before (x :: rest) := (readsRun_many p _ rest).cons hx

theorem readsRun_lazyPlus (hx : p x = true) (before rest : List α) :
    ReadsRun p (lazyPlus p) before (x :: rest) := (readsRun_lazy p _ rest).cons hx

/-- One match of a first pattern counts where the second pattern refuses
what the others leave. -/
theorem found_seq_of_only {others others' : List (Match α)}
    (h : r.found before rest = others ++ m :: others')
    (hall : ∀ k ∈ others ++ others',
      s.found (k.taken.reverse ++ before) (rest.drop k.taken.length) = []) :
    (seq r s).found before rest =
      (s.found (m.taken.reverse ++ before) (rest.drop m.taken.length)).map m.append := by
  have hnone : ∀ l : List (Match α), (∀ k ∈ l, k ∈ others ++ others') → (l.flatMap fun k =>
      (s.found (k.taken.reverse ++ before) (rest.drop k.taken.length)).map k.append) = [] := by
    intro l hl
    refine List.flatMap_eq_nil_iff.2 fun k hk => ?_
    rw [hall k (hl k hk), List.map_nil]
  rw [found_seq, h, List.flatMap_append, List.flatMap_cons,
    hnone others fun k hk => List.mem_append_left _ hk,
    hnone others' fun k hk => List.mem_append_right _ hk, List.nil_append, List.append_nil]

/-- So is a run in a group, which holds it. -/
theorem found_group_run_seq {name : String} (h : ReadsRun p r before rest) (hs : Refuses p s) :
    (seq (group name r) s).found before rest =
      (s.found ((rest.takeWhile p).reverse ++ before) (rest.dropWhile p)).map
        (Match.append ⟨rest.takeWhile p, [(name, rest.takeWhile p)]⟩) := by
  obtain ⟨others, others', heq, hall⟩ := h
  have hgroup : (group name r).found before rest =
      others.map (fun m => { m with groups := (name, m.taken) :: m.groups }) ++
        ⟨rest.takeWhile p, [(name, rest.takeWhile p)]⟩ ::
          others'.map fun m => { m with groups := (name, m.taken) :: m.groups } := by
    rw [found, heq, List.map_append, List.map_cons]
  rw [found_seq_of_only hgroup, drop_takeWhile]
  intro k hk
  rw [← List.map_append] at hk
  obtain ⟨m, hm, rfl⟩ := List.mem_map.1 hk
  obtain ⟨x, tail, hdrop, hx⟩ := hall m hm
  rw [hdrop]
  exact hs _ x tail hx

/-! ## What a pattern takes -/

/-- Some match of a pattern takes `t` in front of `tail`. -/
def Takes (r : Regex α) (before t tail : List α) : Prop :=
  ∃ m ∈ r.found before (t ++ tail), m.taken = t

theorem mem_runs {run : List α} : run ∈ runs p rest ↔ run <+: rest ∧ ∀ x ∈ run, p x = true := by
  induction rest generalizing run with
  | nil =>
    rw [runs, List.mem_singleton, List.prefix_nil]
    exact ⟨fun h => ⟨h, by simp [h]⟩, fun h => h.1⟩
  | cons y rest ih =>
    have hnil : run = [] → run <+: y :: rest ∧ ∀ x ∈ run, p x = true := by
      rintro rfl
      exact ⟨List.nil_prefix, fun x hx => nomatch hx⟩
    rw [runs]
    split
    · next hy =>
      rw [List.mem_append, List.mem_map, List.mem_singleton]
      constructor
      · rintro (⟨run, hrun, rfl⟩ | h)
        · obtain ⟨hpre, hall⟩ := ih.1 hrun
          exact ⟨List.cons_prefix_cons.2 ⟨rfl, hpre⟩, List.forall_mem_cons.2 ⟨hy, hall⟩⟩
        · exact hnil h
      · rintro ⟨hpre, hall⟩
        rcases run with _ | ⟨x, run⟩
        · exact Or.inr rfl
        · obtain ⟨rfl, hrun⟩ := List.cons_prefix_cons.1 hpre
          exact Or.inl ⟨run, ih.2 ⟨hrun, fun x hx => hall x (List.mem_cons_of_mem _ hx)⟩, rfl⟩
    · next hy =>
      rw [List.mem_singleton]
      refine ⟨hnil, fun ⟨hpre, hall⟩ => ?_⟩
      rcases run with _ | ⟨x, run⟩
      · rfl
      · obtain ⟨rfl, -⟩ := List.cons_prefix_cons.1 hpre
        exact absurd (hall x List.mem_cons_self) hy

/-- A match takes what stands in front of it. -/
theorem taken_prefix (h : m ∈ r.found before rest) : m.taken <+: rest := by
  induction r generalizing before rest m with
  | empty => rw [List.mem_singleton.1 h]; exact List.nil_prefix
  | char p =>
    cases rest with
    | nil => cases h
    | cons x rest =>
      rw [found] at h
      split at h
      · rw [List.mem_singleton.1 h]
        exact ⟨rest, rfl⟩
      · cases h
  | seq r s ihr ihs =>
    obtain ⟨k, hk, hm⟩ := List.mem_flatMap.1 h
    obtain ⟨l, hl, rfl⟩ := List.mem_map.1 hm
    obtain ⟨tail, rfl⟩ := ihr hk
    have hpre := ihs hl
    rw [List.drop_left] at hpre
    exact (List.prefix_append_right_inj _).2 hpre
  | alt r s ihr ihs =>
    rcases List.mem_append.1 h with h | h
    · exact ihr h
    · exact ihs h
  | many p =>
    obtain ⟨run, hrun, rfl⟩ := List.mem_map.1 h
    exact (mem_runs.1 hrun).1
  | lazy p =>
    obtain ⟨run, hrun, rfl⟩ := List.mem_map.1 h
    exact (mem_runs.1 (List.mem_reverse.1 hrun)).1
  | group name r ih =>
    obtain ⟨k, hk, rfl⟩ := List.mem_map.1 h
    exact (ih hk : k.taken <+: rest)
  | boundary p =>
    rw [found] at h
    split at h
    · rw [List.mem_singleton.1 h]
      exact List.nil_prefix
    · cases h
  | start =>
    rw [found] at h
    split at h
    · rw [List.mem_singleton.1 h]
      exact List.nil_prefix
    · cases h
  | stop p =>
    rw [found.eq_def] at h
    rcases rest with _ | ⟨x, _ | ⟨y, rest⟩⟩
    · rw [List.mem_singleton.1 h]
    · dsimp only at h
      split at h
      · rw [List.mem_singleton.1 h]
        exact List.nil_prefix
      · cases h
    · cases h

variable {t tail : List α}

theorem takes_empty : (empty : Regex α).Takes before t tail ↔ t = [] := by
  constructor
  · rintro ⟨m, hm, rfl⟩
    rw [List.mem_singleton.1 hm]
  · rintro rfl
    exact ⟨⟨[], []⟩, List.mem_singleton_self _, rfl⟩

theorem takes_char : (char p).Takes before t tail ↔ ∃ x, t = [x] ∧ p x = true := by
  constructor
  · rintro ⟨m, hm, rfl⟩
    rcases hrest : m.taken ++ tail with _ | ⟨x, rest⟩
    · rw [hrest] at hm
      cases hm
    · rw [hrest, found] at hm
      split at hm
      · next hx => exact ⟨x, by rw [List.mem_singleton.1 hm], hx⟩
      · cases hm
  · rintro ⟨x, rfl, hx⟩
    exact ⟨⟨[x], []⟩, by simp [found, hx], rfl⟩

theorem takes_seq : (seq r s).Takes before t tail ↔
    ∃ u v, t = u ++ v ∧ r.Takes before u (v ++ tail) ∧ s.Takes (u.reverse ++ before) v tail := by
  constructor
  · rintro ⟨m, hm, rfl⟩
    obtain ⟨k, hk, hm⟩ := List.mem_flatMap.1 hm
    obtain ⟨l, hl, rfl⟩ := List.mem_map.1 hm
    have hrest : (k.append l).taken ++ tail = k.taken ++ (l.taken ++ tail) :=
      List.append_assoc k.taken l.taken tail
    rw [hrest] at hk hl
    rw [List.drop_left] at hl
    exact ⟨k.taken, l.taken, rfl, ⟨k, hk, rfl⟩, ⟨l, hl, rfl⟩⟩
  · rintro ⟨u, v, rfl, ⟨k, hk, rfl⟩, ⟨l, hl, rfl⟩⟩
    refine ⟨k.append l, List.mem_flatMap.2 ⟨k, ?_, List.mem_map.2 ⟨l, ?_, rfl⟩⟩, rfl⟩
    · rwa [List.append_assoc]
    · rwa [List.append_assoc, List.drop_left]

theorem takes_alt : (alt r s).Takes before t tail ↔
    r.Takes before t tail ∨ s.Takes before t tail := by
  constructor
  · rintro ⟨m, hm, rfl⟩
    exact (List.mem_append.1 hm).imp (fun h => ⟨m, h, rfl⟩) fun h => ⟨m, h, rfl⟩
  · rintro (⟨m, hm, rfl⟩ | ⟨m, hm, rfl⟩)
    · exact ⟨m, List.mem_append_left _ hm, rfl⟩
    · exact ⟨m, List.mem_append_right _ hm, rfl⟩

theorem takes_many : (many p).Takes before t tail ↔ ∀ x ∈ t, p x = true := by
  constructor
  · rintro ⟨m, hm, rfl⟩
    obtain ⟨run, hrun, rfl⟩ := List.mem_map.1 hm
    exact (mem_runs.1 hrun).2
  · intro h
    exact ⟨⟨t, []⟩, List.mem_map.2 ⟨t, mem_runs.2 ⟨List.prefix_append _ _, h⟩, rfl⟩, rfl⟩

theorem takes_plus : (plus p).Takes before t tail ↔ t ≠ [] ∧ ∀ x ∈ t, p x = true := by
  rw [plus, takes_seq]
  constructor
  · rintro ⟨u, v, rfl, hu, hv⟩
    obtain ⟨x, rfl, hx⟩ := takes_char.1 hu
    exact ⟨List.cons_ne_nil _ _, List.forall_mem_cons.2 ⟨hx, takes_many.1 hv⟩⟩
  · rintro ⟨hne, h⟩
    obtain ⟨x, t, rfl⟩ := List.exists_cons_of_ne_nil hne
    obtain ⟨hx, ht⟩ := List.forall_mem_cons.1 h
    exact ⟨[x], t, rfl, takes_char.2 ⟨x, rfl, hx⟩, takes_many.2 ht⟩

theorem takes_boundary : (boundary p).Takes before t tail ↔
    t = [] ∧ before.head?.any p ≠ tail.head?.any p := by
  constructor
  · rintro ⟨m, hm, rfl⟩
    rw [found] at hm
    split at hm
    · next h =>
      rw [List.mem_singleton.1 hm] at h ⊢
      exact ⟨rfl, h⟩
    · cases hm
  · rintro ⟨rfl, h⟩
    exact ⟨⟨[], []⟩, by rw [List.nil_append, found, if_pos h]; exact List.mem_singleton_self _, rfl⟩

theorem takes_chars {ps : List (α → Bool)} :
    (chars ps).Takes before t tail ↔ List.Forall₂ (fun p x => p x = true) ps t := by
  induction ps generalizing before t with
  | nil => rw [chars, takes_empty, List.forall₂_nil_left_iff]
  | cons p ps ih =>
    rw [chars, takes_seq, List.forall₂_cons_left_iff]
    constructor
    · rintro ⟨u, v, rfl, hu, hv⟩
      obtain ⟨x, rfl, hx⟩ := takes_char.1 hu
      exact ⟨x, v, hx, ih.1 hv, rfl⟩
    · rintro ⟨x, v, hx, hv, rfl⟩
      exact ⟨[x], v, rfl, takes_char.2 ⟨x, rfl, hx⟩, ih.2 hv⟩

theorem takes_anyOf {rs : List (Regex α)} :
    (anyOf rs).Takes before t tail ↔ ∃ r ∈ rs, r.Takes before t tail := by
  induction rs with
  | nil =>
    rw [anyOf, List.foldr_nil, takes_char]
    simp
  | cons r rs ih =>
    have hcons : anyOf (r :: rs) = alt r (anyOf rs) := rfl
    rw [hcons, takes_alt, ih, List.exists_mem_cons_iff]

/-- A pattern without groups. -/
def Plain : Regex α → Prop
  | group _ _ => False
  | seq r s | alt r s => r.Plain ∧ s.Plain
  | _ => True

theorem plain_chars (ps : List (α → Bool)) : (chars ps).Plain := by
  induction ps with
  | nil => trivial
  | cons p ps ih => exact ⟨trivial, ih⟩

theorem plain_anyOf {rs : List (Regex α)} (h : ∀ r ∈ rs, r.Plain) : (anyOf rs).Plain := by
  induction rs with
  | nil => trivial
  | cons r rs ih =>
    obtain ⟨hr, hrs⟩ := List.forall_mem_cons.1 h
    exact ⟨hr, ih hrs⟩

theorem groups_of_plain (hr : r.Plain) (h : m ∈ r.found before rest) : m.groups = [] := by
  induction r generalizing before rest m with
  | empty => rw [List.mem_singleton.1 h]
  | char p =>
    cases rest with
    | nil => cases h
    | cons x rest =>
      rw [found] at h
      split at h
      · rw [List.mem_singleton.1 h]
      · cases h
  | seq r s ihr ihs =>
    obtain ⟨k, hk, hm⟩ := List.mem_flatMap.1 h
    obtain ⟨l, hl, rfl⟩ := List.mem_map.1 hm
    rw [Match.append, ihr hr.1 hk, ihs hr.2 hl]
    rfl
  | alt r s ihr ihs =>
    rcases List.mem_append.1 h with h | h
    · exact ihr hr.1 h
    · exact ihs hr.2 h
  | many p | lazy p =>
    obtain ⟨run, -, rfl⟩ := List.mem_map.1 h
    rfl
  | group name r => exact hr.elim
  | boundary p | start =>
    rw [found] at h
    split at h
    · rw [List.mem_singleton.1 h]
    · cases h
  | stop p =>
    rw [found.eq_def] at h
    rcases rest with _ | ⟨x, _ | ⟨y, rest⟩⟩
    · rw [List.mem_singleton.1 h]
    · dsimp only at h
      split at h
      · rw [List.mem_singleton.1 h]
      · cases h
    · cases h

/-! ## The end of the text -/

/-- The whole text is taken at its end only. -/
theorem found_stop_whole (p : α → Bool) (before rest : List α) :
    (seq (stop p) (stop fun _ => false)).found before rest =
      if rest = [] then [⟨[], []⟩] else [] := by
  cases rest with
  | nil => rfl
  | cons x rest =>
    rw [if_neg (List.cons_ne_nil _ _)]
    cases rest with
    | nil =>
      rw [found_seq, found]
      split <;> simp [found]
    | cons y rest => rfl

end Regex

end Lib
