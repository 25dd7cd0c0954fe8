import SchemaSentry.Lib.Dict
import Mathlib.Tactic.TypeStar
/-!
# Breadth-first worklists

A queue of places, each with the trail of edges that led to it, and a
dictionary of what has been found. An edge is followed the first time its
mark is seen. Where edges of one mark have one target, the search finds
the mark of every edge at the end of a trail from a start and nothing
else (`mem_keys_search`), each at the end of a trail as short as any
(`nearest_search`), whatever cycles there are; `bound` says how many
rounds are enough for it.
-/

namespace Lib

/-- A graph to search: the edges out of a place, where an edge leads, the
mark it is seen by, and what is recorded of it and the trail that ends in
it. -/
structure Worklist (α ε μ β : Type*) where
  out : α → List ε
  target : ε → α
  mark : ε → μ
  record : ε → List ε → β

namespace Worklist

variable {α ε μ β : Type*} [DecidableEq μ]

structure State (α ε μ β : Type*) where
  queue : List (α × List ε)
  visited : List μ
  found : Dict μ β

/-- The state a search starts in. -/
def start (starts : List α) : State α ε μ β :=
  { queue := starts.map fun place => (place, []), visited := [], found := [] }

variable (W : Worklist α ε μ β)

/-- Follow an edge, unless its mark has been seen. -/
def visit (path : List ε) (st : State α ε μ β) (edge : ε) : State α ε μ β :=
  let key := W.mark edge
  if key ∈ st.visited then st
  else
    let nextPath := path ++ [edge]
    { queue := st.queue ++ [(W.target edge, nextPath)]
      visited := key :: st.visited
      found := Dict.insert key (W.record edge nextPath) st.found }

/-- At most so many rounds: each takes the first place of the queue and
follows its edges in turn. -/
def search : ℕ → State α ε μ β → State α ε μ β
  | 0, st => st
  | fuel + 1, st =>
    match st.queue with
    | [] => st
    | (place, path) :: rest =>
      search fuel ((W.out place).foldl (W.visit path) { st with queue := rest })

/-- The trails from a start: the edges followed and where they end. -/
inductive Trail (starts : List α) : List ε → α → Prop
  | nil {place : α} : place ∈ starts → Trail starts [] place
  | snoc {path : List ε} {place : α} {edge : ε} : Trail starts path place →
      edge ∈ W.out place → Trail starts (path ++ [edge]) (W.target edge)

/-! ## Following one edge -/

variable {W} {st : State α ε μ β} {path : List ε} {edge : ε}

theorem visit_of_mem (h : W.mark edge ∈ st.visited) : W.visit path st edge = st := by
  simp [visit, h]

theorem visit_of_notMem (h : W.mark edge ∉ st.visited) :
    W.visit path st edge =
      { queue := st.queue ++ [(W.target edge, path ++ [edge])]
        visited := W.mark edge :: st.visited
        found := Dict.insert (W.mark edge) (W.record edge (path ++ [edge])) st.found } := by
  simp [visit, h]

/-- What holds of a state and is kept by every edge of a list holds after
following them all. -/
theorem foldl_visit {P : State α ε μ β → Prop} {edges : List ε}
    (hstep : ∀ st, P st → ∀ edge ∈ edges, P (W.visit path st edge)) (h : P st) :
    P (edges.foldl (W.visit path) st) := by
  induction edges generalizing st with
  | nil => exact h
  | cons edge edges ih =>
    rw [List.foldl_cons]
    exact ih (fun st hst e he => hstep st hst e (List.mem_cons_of_mem _ he))
      (hstep st h edge List.mem_cons_self)

/-! ## Soundness -/

/-- What is queued and what is found is at the end of a trail. -/
structure Sound (W : Worklist α ε μ β) (starts : List α) (st : State α ε μ β) : Prop where
  queued : ∀ item ∈ st.queue, W.Trail starts item.2 item.1
  found : ∀ item ∈ st.found, ∃ path place edge, W.Trail starts path place ∧ edge ∈ W.out place ∧
    W.mark edge = item.1 ∧ W.record edge (path ++ [edge]) = item.2
  visited : ∀ key, key ∈ st.visited ↔ key ∈ Dict.keys st.found
  nodup : (Dict.keys st.found).Nodup

omit [DecidableEq μ] in
theorem sound_start (starts : List α) : Sound W starts (start starts) where
  queued := by
    intro item hitem
    obtain ⟨place, hplace, rfl⟩ := List.mem_map.1 hitem
    exact Trail.nil hplace
  found := by simp [start]
  visited := by simp [start, Dict.keys]
  nodup := by simp [start, Dict.keys]

theorem Sound.visit {starts : List α} {place : α} (h : Sound W starts st)
    (hpath : W.Trail starts path place) (hedge : edge ∈ W.out place) :
    Sound W starts (W.visit path st edge) := by
  by_cases hkey : W.mark edge ∈ st.visited
  · rw [visit_of_mem hkey]
    exact h
  have hnot : W.mark edge ∉ Dict.keys st.found := fun hmem => hkey ((h.visited _).2 hmem)
  rw [visit_of_notMem hkey, Dict.insert_of_notMem hnot]
  refine ⟨?_, ?_, ?_, ?_⟩
  · intro item hitem
    rcases List.mem_append.1 hitem with hold | hnew
    · exact h.queued item hold
    · rw [List.mem_singleton.1 hnew]
      exact Trail.snoc hpath hedge
  · intro item hitem
    rcases List.mem_append.1 hitem with hold | hnew
    · exact h.found item hold
    · rw [List.mem_singleton.1 hnew]
      exact ⟨path, place, edge, hpath, hedge, rfl, rfl⟩
  · intro key
    have hold := h.visited key
    simp only [Dict.keys, List.map_append, List.map_cons, List.map_nil, List.mem_append,
      List.mem_cons, List.not_mem_nil, or_false] at hold ⊢
    rw [hold, or_comm]
  · simp only [Dict.keys, List.map_append, List.map_cons, List.map_nil] at hnot ⊢
    exact List.nodup_append.2 ⟨h.nodup, List.nodup_singleton _, by
      intro a ha b hb hab
      rw [List.mem_singleton.1 hb] at hab
      exact hnot (hab ▸ ha)⟩

theorem Sound.search {starts : List α} (fuel : ℕ) (h : Sound W starts st) :
    Sound W starts (W.search fuel st) := by
  induction fuel generalizing st with
  | zero => exact h
  | succ fuel ih =>
    rw [Worklist.search]
    split
    · exact h
    · rename_i place path rest hqueue
      have hpath : W.Trail starts path place :=
        h.queued (place, path) (by rw [hqueue]; exact List.mem_cons_self)
      refine ih (foldl_visit (fun st hst e he => hst.visit hpath he) ⟨?_, h.found, h.visited, h.nodup⟩)
      intro item hitem
      exact h.queued item (by rw [hqueue]; exact List.mem_cons_of_mem _ hitem)

/-! ## Completeness -/

/-- A place that has been taken from the queue or is still in it. -/
def Known (done : List α) (st : State α ε μ β) (place : α) : Prop :=
  place ∈ done ∨ place ∈ st.queue.map Prod.fst

/-- Starts and targets are known, and the edges of a place that is done
have been seen. -/
structure Covered (W : Worklist α ε μ β) (starts done : List α) (st : State α ε μ β) : Prop where
  starts : ∀ place ∈ starts, Known done st place
  targets : ∀ edge, W.mark edge ∈ st.visited → Known done st (W.target edge)
  edges : ∀ place ∈ done, ∀ edge ∈ W.out place, W.mark edge ∈ st.visited

/-- `Covered` but for the edges of the place being done. -/
structure Covering (W : Worklist α ε μ β) (starts done : List α) (st : State α ε μ β) : Prop where
  starts : ∀ place ∈ starts, Known done st place
  targets : ∀ edge, W.mark edge ∈ st.visited → Known done st (W.target edge)

theorem mem_visited_visit {key : μ} :
    key ∈ (W.visit path st edge).visited ↔ key = W.mark edge ∨ key ∈ st.visited := by
  by_cases hkey : W.mark edge ∈ st.visited
  · rw [visit_of_mem hkey]
    refine ⟨Or.inr, ?_⟩
    rintro (rfl | h)
    exacts [hkey, h]
  · rw [visit_of_notMem hkey]
    simp

theorem mem_visited_foldl {key : μ} {edges : List ε} :
    key ∈ (edges.foldl (W.visit path) st).visited ↔
      key ∈ edges.map W.mark ∨ key ∈ st.visited := by
  induction edges generalizing st with
  | nil => simp
  | cons edge edges ih =>
    rw [List.foldl_cons, ih, mem_visited_visit]
    simp only [List.map_cons, List.mem_cons]
    tauto

section OneTarget

variable (htarget : ∀ e f : ε, W.mark e = W.mark f → W.target e = W.target f)

include htarget

theorem Covering.visit {starts done : List α} (h : Covering W starts done st) :
    Covering W starts done (W.visit path st edge) := by
  by_cases hkey : W.mark edge ∈ st.visited
  · rw [visit_of_mem hkey]
    exact h
  rw [visit_of_notMem hkey]
  have hmono : ∀ place, Known done st place →
      Known done { queue := st.queue ++ [(W.target edge, path ++ [edge])]
                   visited := W.mark edge :: st.visited
                   found := Dict.insert (W.mark edge) (W.record edge (path ++ [edge])) st.found }
        place := by
    intro place hplace
    refine hplace.imp_right fun hq => ?_
    simp only [List.map_append, List.mem_append]
    exact Or.inl hq
  refine ⟨fun place hp => hmono place (h.starts place hp), fun e he => ?_⟩
  rcases List.mem_cons.1 he with heq | hold
  · rw [htarget e edge heq]
    exact Or.inr (by simp)
  · exact hmono _ (h.targets e hold)

/-- One round keeps a state covered. -/
theorem Covered.round {starts done : List α} {place : α} {rest : List (α × List ε)}
    (h : Covered W starts done st) (hqueue : st.queue = (place, path) :: rest) :
    Covered W starts (place :: done)
      ((W.out place).foldl (W.visit path) { st with queue := rest }) := by
  -- the place leaves the queue and is done in the same round
  have hmove : ∀ p, Known done st p → Known (place :: done) { st with queue := rest } p := by
    rintro p (hd | hq)
    · exact Or.inl (List.mem_cons_of_mem _ hd)
    · rw [hqueue, List.map_cons] at hq
      rcases List.mem_cons.1 hq with heq | hr
      · exact Or.inl (heq ▸ List.mem_cons_self)
      · exact Or.inr hr
  have hcover : Covering W starts (place :: done)
      ((W.out place).foldl (W.visit path) { st with queue := rest }) :=
    foldl_visit (fun _ hst _ _ => hst.visit htarget)
      ⟨fun p hp => hmove p (h.starts p hp), fun e he => hmove _ (h.targets e he)⟩
  refine ⟨hcover.starts, hcover.targets, fun p hp e he => ?_⟩
  rw [mem_visited_foldl]
  rcases List.mem_cons.1 hp with rfl | hdone
  · exact Or.inl (List.mem_map_of_mem he)
  · exact Or.inr (h.edges p hdone e he)

theorem Covered.search {starts done : List α} (fuel : ℕ) (h : Covered W starts done st) :
    ∃ done, Covered W starts done (W.search fuel st) := by
  induction fuel generalizing st done with
  | zero => exact ⟨done, h⟩
  | succ fuel ih =>
    rw [Worklist.search]
    split
    · exact ⟨done, h⟩
    · exact ih (h.round htarget ‹_›)

end OneTarget

/-! ## Termination -/

variable {marks : List μ}

/-- Rounds left at most: a place queued, or a mark not yet seen. -/
def bound (marks : List μ) (st : State α ε μ β) : ℕ :=
  st.queue.length + (marks.filter fun key => key ∉ st.visited).length

theorem bound_visit (hmark : W.mark edge ∈ marks) :
    bound marks (W.visit path st edge) ≤ bound marks st := by
  by_cases hkey : W.mark edge ∈ st.visited
  · exact Nat.le_of_eq (by rw [visit_of_mem hkey])
  rw [visit_of_notMem hkey]
  have hfilter : (marks.filter fun key => key ∉ W.mark edge :: st.visited) =
      (marks.filter fun key => key ∉ st.visited).filter fun key => key ≠ W.mark edge := by
    rw [List.filter_filter]
    refine List.filter_congr fun key _ => ?_
    simp only [List.mem_cons, not_or, ne_eq, Bool.decide_and]
  have hlt : (marks.filter fun key => key ∉ W.mark edge :: st.visited).length <
      (marks.filter fun key => key ∉ st.visited).length := by
    rw [hfilter, List.length_filter_lt_length_iff_exists]
    exact ⟨W.mark edge, List.mem_filter.2 ⟨hmark, by simpa using hkey⟩, by simp⟩
  simp only [bound, List.length_append, List.length_cons, List.length_nil]
  omega

/-- **Enough rounds empty the queue.** -/
theorem queue_search (hmarks : ∀ place, ∀ edge ∈ W.out place, W.mark edge ∈ marks) {fuel : ℕ}
    (h : bound marks st ≤ fuel) : (W.search fuel st).queue = [] := by
  induction fuel generalizing st with
  | zero =>
    have : st.queue.length = 0 := by
      unfold bound at h
      omega
    exact List.length_eq_zero_iff.1 this
  | succ fuel ih =>
    rw [Worklist.search]
    split
    · assumption
    · rename_i place path rest hqueue
      refine ih (foldl_visit (P := fun st' => bound marks st' ≤ fuel) ?_ ?_)
      · intro st' hst' e he
        exact Nat.le_trans (bound_visit (hmarks place e he)) hst'
      · simp only [bound, hqueue, List.length_cons] at h ⊢
        omega

/-! ## What a search finds -/

/-- **A search finds the marks at the ends of trails**, each once. -/
theorem mem_keys_search {starts : List α}
    (htarget : ∀ e f : ε, W.mark e = W.mark f → W.target e = W.target f)
    (hmarks : ∀ place, ∀ edge ∈ W.out place, W.mark edge ∈ marks) {fuel : ℕ}
    (hfuel : starts.length + marks.length ≤ fuel) {key : μ} :
    key ∈ Dict.keys (W.search fuel (start starts)).found ↔
      ∃ path place edge, W.Trail starts path place ∧ edge ∈ W.out place ∧ W.mark edge = key := by
  have hsound : Sound W starts (W.search fuel (start starts)) := (sound_start starts).search fuel
  obtain ⟨done, hcovered⟩ : ∃ done, Covered W starts done (W.search fuel (start starts)) := by
    have hstart : Covered W starts [] (start starts) :=
      ⟨fun place hp => Or.inr (by simpa [start] using hp), by simp [start], by simp⟩
    exact hstart.search htarget fuel
  have hempty : (W.search fuel (start starts)).queue = [] :=
    queue_search hmarks (by simpa [bound, start] using hfuel)
  have hdone : ∀ place, Known done (W.search fuel (start starts)) place → place ∈ done := by
    rintro place (hd | hq)
    · exact hd
    · rw [hempty] at hq
      cases hq
  rw [← hsound.visited]
  constructor
  · intro hkey
    rw [hsound.visited] at hkey
    obtain ⟨item, hitem, rfl⟩ := List.mem_map.1 hkey
    obtain ⟨path, place, edge, htrail, hedge, hmark, -⟩ := hsound.found item hitem
    exact ⟨path, place, edge, htrail, hedge, hmark⟩
  · rintro ⟨path, place, edge, htrail, hedge, rfl⟩
    -- along the trail every place is done
    have hplace : place ∈ done := by
      clear hedge
      induction htrail with
      | nil hstart => exact hdone _ (hcovered.starts _ hstart)
      | snoc _ he ih => exact hdone _ (hcovered.targets _ (hcovered.edges _ ih _ he))
    exact hcovered.edges place hplace edge hedge

/-- Rounds beyond an empty queue do nothing. -/
theorem search_of_le {fuel more : ℕ} (hempty : (W.search fuel st).queue = [])
    (hle : fuel ≤ more) : W.search more st = W.search fuel st := by
  induction fuel generalizing st more with
  | zero =>
    rw [Worklist.search] at hempty ⊢
    cases more with
    | zero => rfl
    | succ more => rw [Worklist.search, hempty]
  | succ fuel ih =>
    obtain ⟨more, rfl⟩ : ∃ m, more = m + 1 := ⟨more - 1, by omega⟩
    cases hqueue : st.queue with
    | nil => simp only [Worklist.search, hqueue]
    | cons item rest =>
      simp only [Worklist.search, hqueue] at hempty ⊢
      exact ih hempty (by omega)

/-! ## Shortest trails -/

/-- What is found is at the end of a trail, and no trail to an edge of its
mark is shorter. -/
def Nearest (W : Worklist α ε μ β) (starts : List α) (item : μ × β) : Prop :=
  ∃ path place edge, W.Trail starts path place ∧ edge ∈ W.out place ∧ W.mark edge = item.1 ∧
    W.record edge (path ++ [edge]) = item.2 ∧
    ∀ path' place' edge', W.Trail starts path' place' → edge' ∈ W.out place' →
      W.mark edge' = item.1 → path.length ≤ path'.length

/-- The edges of a place have been seen. -/
def Seen (W : Worklist α ε μ β) (st : State α ε μ β) (place : α) : Prop :=
  ∀ edge ∈ W.out place, W.mark edge ∈ st.visited

/-- The search is at a level: the trails queued are of this length or one
more, shorter ones first, and the edges out of the places nearer than the
level have been seen. `doing` are the places whose edges are being
followed. -/
structure Levelled (W : Worklist α ε μ β) (starts doing : List α) (level : ℕ)
    (st : State α ε μ β) : Prop where
  low : ∀ item ∈ st.queue, level ≤ item.2.length
  high : ∀ item ∈ st.queue, item.2.length ≤ level + 1
  sorted : st.queue.Pairwise fun a b => a.2.length ≤ b.2.length
  near : ∀ path place, W.Trail starts path place → path.length ≤ level →
    Seen W st place ∨ place ∈ doing ∨ ∃ item ∈ st.queue, item.1 = place ∧ item.2.length ≤ level
  seen : ∀ path place, W.Trail starts path place → path.length < level → Seen W st place
  targets : ∀ edge, W.mark edge ∈ st.visited →
    Seen W st (W.target edge) ∨ W.target edge ∈ doing ∨ W.target edge ∈ st.queue.map Prod.fst
  found : ∀ item ∈ st.found, Nearest W starts item

omit [DecidableEq μ] in
theorem levelled_start (starts : List α) : Levelled W starts [] 0 (start starts) where
  low := by simp
  high := by
    intro item hitem
    obtain ⟨place, -, rfl⟩ := List.mem_map.1 hitem
    exact Nat.zero_le _
  sorted := List.pairwise_map.2 (List.pairwise_of_forall fun _ _ => Nat.le_refl 0)
  near := by
    intro path place htrail hlength
    cases htrail with
    | nil hplace =>
      exact Or.inr (Or.inr ⟨(place, []), List.mem_map_of_mem hplace, rfl, Nat.le_refl 0⟩)
    | snoc _ _ => simp at hlength
  seen := by
    intro path place _ hlength
    omega
  targets := by simp [start]
  found := by simp [start]

variable {starts doing : List α} {level : ℕ}

omit [DecidableEq μ] in
/-- **The next level**: once every trail queued is longer, all places of the
level have had their edges seen. -/
theorem Levelled.rise (h : Levelled W starts [] level st)
    (hlonger : ∀ item ∈ st.queue, level + 1 ≤ item.2.length) :
    Levelled W starts [] (level + 1) st := by
  have hseen : ∀ path place, W.Trail starts path place → path.length ≤ level →
      Seen W st place := by
    intro path place htrail hlength
    rcases h.near path place htrail hlength with hs | hd | ⟨item, hitem, -, hle⟩
    · exact hs
    · cases hd
    · have := hlonger item hitem
      omega
  refine ⟨hlonger, fun item hitem => ?_, h.sorted, ?_, fun path place htrail hlt =>
    hseen path place htrail (by omega), h.targets, h.found⟩
  · have := h.high item hitem
    omega
  · intro path place htrail hlength
    by_cases hle : path.length ≤ level
    · exact Or.inl (hseen path place htrail hle)
    -- a trail of the new length ends in the target of an edge already seen
    cases htrail with
    | nil _ => simp at hle
    | @snoc path place edge hinit hedge =>
      rw [List.length_append, List.length_singleton] at hlength
      rcases h.targets edge (hseen path place hinit (by omega) edge hedge) with hs | hd | hq
      · exact Or.inl hs
      · cases hd
      · obtain ⟨item, hitem, heq⟩ := List.mem_map.1 hq
        exact Or.inr (Or.inr ⟨item, hitem, heq, h.high item hitem⟩)

omit [DecidableEq μ] in
theorem Seen.mono {st' : State α ε μ β} {place : α} (h : Seen W st place)
    (hsub : ∀ key ∈ st.visited, key ∈ st'.visited) : Seen W st' place :=
  fun edge hedge => hsub _ (h edge hedge)

/-- Following an edge of a place of the level keeps the level. -/
theorem Levelled.visit (htarget : ∀ e f : ε, W.mark e = W.mark f → W.target e = W.target f)
    {place : α} (h : Levelled W starts doing level st) (htrail : W.Trail starts path place)
    (hlength : path.length = level) (hedge : edge ∈ W.out place)
    (hfresh : ∀ key, key ∈ st.visited ↔ key ∈ Dict.keys st.found) :
    Levelled W starts doing level (W.visit path st edge) := by
  by_cases hkey : W.mark edge ∈ st.visited
  · rw [visit_of_mem hkey]
    exact h
  rw [visit_of_notMem hkey, Dict.insert_of_notMem fun hmem => hkey ((hfresh _).2 hmem)]
  have hlast : (path ++ [edge]).length = level + 1 := by simp [hlength]
  have hmono : ∀ p, Seen W st p → Seen W
      { queue := st.queue ++ [(W.target edge, path ++ [edge])]
        visited := W.mark edge :: st.visited
        found := st.found ++ [(W.mark edge, W.record edge (path ++ [edge]))] } p :=
    fun p hp => hp.mono fun key hmem => List.mem_cons_of_mem _ hmem
  refine ⟨?_, ?_, ?_, ?_, fun p q hpq hlt => hmono q (h.seen p q hpq hlt), ?_, ?_⟩
  · intro item hitem
    rcases List.mem_append.1 hitem with hold | hnew
    · exact h.low item hold
    · rw [List.mem_singleton.1 hnew, hlast]
      omega
  · intro item hitem
    rcases List.mem_append.1 hitem with hold | hnew
    · exact h.high item hold
    · rw [List.mem_singleton.1 hnew]
      exact Nat.le_of_eq hlast
  · refine List.pairwise_append.2 ⟨h.sorted, List.pairwise_singleton _ _, ?_⟩
    intro item hitem new hnew
    rw [List.mem_singleton.1 hnew, hlast]
    exact h.high item hitem
  · intro p q hpq hle
    refine (h.near p q hpq hle).imp (hmono q) (Or.imp_right ?_)
    rintro ⟨item, hitem, heq, hitemLe⟩
    exact ⟨item, List.mem_append_left _ hitem, heq, hitemLe⟩
  · intro e he
    rcases List.mem_cons.1 he with heq | hold
    · refine Or.inr (Or.inr ?_)
      rw [htarget e edge heq]
      simp
    · refine (h.targets e hold).imp (hmono _) (Or.imp_right fun hq => ?_)
      rw [List.map_append]
      exact List.mem_append_left _ hq
  · intro item hitem
    rcases List.mem_append.1 hitem with hold | hnew
    · exact h.found item hold
    rw [List.mem_singleton.1 hnew]
    refine ⟨path, place, edge, htrail, hedge, rfl, rfl, ?_⟩
    -- a shorter trail would have had the mark seen on an earlier level
    intro path' place' edge' htrail' hedge' hmark
    by_contra hlt
    have hmem := h.seen path' place' htrail' (by omega) edge' hedge'
    rw [show W.mark edge' = W.mark edge from hmark] at hmem
    exact hkey hmem

/-- One round keeps the level, or is the first of the next. -/
theorem Levelled.round (htarget : ∀ e f : ε, W.mark e = W.mark f → W.target e = W.target f)
    {place : α} {rest : List (α × List ε)} (h : Levelled W starts [] level st)
    (hsound : Sound W starts st) (hqueue : st.queue = (place, path) :: rest) :
    ∃ level, Levelled W starts []
      level ((W.out place).foldl (W.visit path) { st with queue := rest }) := by
  have hfront : (place, path) ∈ st.queue := by
    rw [hqueue]
    exact List.mem_cons_self
  have htrail : W.Trail starts path place := hsound.queued _ hfront
  -- the level is the length of the trail at the front
  obtain ⟨level, h, hlength⟩ : ∃ level, Levelled W starts [] level st ∧ path.length = level := by
    by_cases hlength : path.length = level
    · exact ⟨level, h, hlength⟩
    have hlow : level ≤ path.length := h.low _ hfront
    have hhigh : path.length ≤ level + 1 := h.high _ hfront
    refine ⟨level + 1, h.rise fun item hitem => ?_, by omega⟩
    have hsorted := h.sorted
    rw [hqueue] at hitem hsorted
    rcases List.mem_cons.1 hitem with rfl | hrest
    · change level + 1 ≤ path.length
      omega
    · have : path.length ≤ item.2.length := (List.pairwise_cons.1 hsorted).1 item hrest
      omega
  have hrest : ∀ item ∈ rest, item ∈ st.queue := by
    intro item hitem
    rw [hqueue]
    exact List.mem_cons_of_mem _ hitem
  have hstart : Levelled W starts [place] level { st with queue := rest } := by
    refine ⟨fun item hitem => h.low item (hrest item hitem),
      fun item hitem => h.high item (hrest item hitem), ?_, ?_, h.seen, ?_, h.found⟩
    · have hsorted := h.sorted
      rw [hqueue] at hsorted
      exact (List.pairwise_cons.1 hsorted).2
    · intro p q hpq hle
      rcases h.near p q hpq hle with hs | hd | ⟨item, hitem, heq, hitemLe⟩
      · exact Or.inl hs
      · cases hd
      · rw [hqueue] at hitem
        rcases List.mem_cons.1 hitem with rfl | hold
        · exact Or.inr (Or.inl (by rw [← heq]; exact List.mem_singleton_self place))
        · exact Or.inr (Or.inr ⟨item, hold, heq, hitemLe⟩)
    · intro e he
      rcases h.targets e he with hs | hd | hq
      · exact Or.inl hs
      · cases hd
      · rw [hqueue, List.map_cons] at hq
        rcases List.mem_cons.1 hq with heq | hold
        · exact Or.inr (Or.inl (by rw [heq]; exact List.mem_singleton_self place))
        · exact Or.inr (Or.inr hold)
  have hafter : Levelled W starts [place] level
        ((W.out place).foldl (W.visit path) { st with queue := rest }) ∧
      Sound W starts ((W.out place).foldl (W.visit path) { st with queue := rest }) := by
    refine foldl_visit (P := fun st => Levelled W starts [place] level st ∧ Sound W starts st)
      (fun st hst e he => ⟨hst.1.visit htarget htrail hlength he hst.2.visited,
        hst.2.visit htrail he⟩) ⟨hstart, ?_, hsound.found, hsound.visited, hsound.nodup⟩
    exact fun item hitem => hsound.queued item (hrest item hitem)
  -- at the end of the round the place's own edges have been seen
  have hdone : Seen W ((W.out place).foldl (W.visit path) { st with queue := rest }) place :=
    fun e he => mem_visited_foldl.2 (Or.inl (List.mem_map_of_mem he))
  have hclose : ∀ {p : α} {Q : Prop}, (Seen W
      ((W.out place).foldl (W.visit path) { st with queue := rest }) p ∨ p ∈ [place] ∨ Q) →
      (Seen W ((W.out place).foldl (W.visit path) { st with queue := rest }) p ∨ p ∈ [] ∨ Q) := by
    rintro p Q (hs | hd | hq)
    · exact Or.inl hs
    · rw [List.mem_singleton.1 hd]
      exact Or.inl hdone
    · exact Or.inr (Or.inr hq)
  obtain ⟨hlevel, -⟩ := hafter
  exact ⟨level, hlevel.low, hlevel.high, hlevel.sorted,
    fun p q hpq hle => hclose (hlevel.near p q hpq hle), hlevel.seen,
    fun e he => hclose (hlevel.targets e he), hlevel.found⟩

theorem Levelled.search (htarget : ∀ e f : ε, W.mark e = W.mark f → W.target e = W.target f)
    (fuel : ℕ) (h : Levelled W starts [] level st) (hsound : Sound W starts st) :
    ∃ level, Levelled W starts [] level (W.search fuel st) := by
  induction fuel generalizing st level with
  | zero => exact ⟨level, h⟩
  | succ fuel ih =>
    have hstep : Sound W starts (W.search 1 st) := hsound.search 1
    rw [Worklist.search]
    split
    · exact ⟨level, h⟩
    · rename_i place path rest hqueue
      obtain ⟨level, hlevel⟩ := h.round htarget hsound hqueue
      simp only [Worklist.search, hqueue] at hstep
      exact ih hlevel hstep

/-- **What a search finds is nearest**: no trail from a start to an edge of
the same mark is shorter than the one recorded. -/
theorem nearest_search (htarget : ∀ e f : ε, W.mark e = W.mark f → W.target e = W.target f)
    (fuel : ℕ) : ∀ item ∈ (W.search fuel (start starts)).found, Nearest W starts item := by
  obtain ⟨level, h⟩ :=
    (levelled_start (W := W) starts).search htarget fuel (sound_start starts)
  exact h.found

end Worklist

end Lib
