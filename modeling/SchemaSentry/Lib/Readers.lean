import SchemaSentry.Lib.Transaction
/-!
# Readers among writers

A transaction whose statements only read, among others that write. Each
statement sees the state committed last, so a reader of several statements
sees several states. Where what commits leave alone is all the earlier
statements ask for, the reader answers as of one moment: what it would
answer alone in the state its last statement saw (`Run.answers`). It waits
for nobody (`Reading.exists_step`).
-/

namespace Lib

variable {ι σ ρ κ α : Type}

/-! ## What a transaction may end with -/

/-- Every end the transaction can come to, whatever its statements see, is
of a kind. -/
def Tx.Ends (P : α → Prop) : Tx σ ρ κ α → Prop
  | .ret a => P a
  | .read next => ∀ s, (next s).Ends P
  | .lock _ _ next => next.Ends P
  | .tryLock _ next => ∀ got, (next got).Ends P

theorem Tx.Ends.bind {β : Type} {P : α → Prop} {Q : β → Prop} {x : Tx σ ρ κ α}
    {f : α → Tx σ ρ κ β} (hx : x.Ends P) (hf : ∀ a, P a → (f a).Ends Q) : (x.bind f).Ends Q := by
  induction x with
  | ret a => exact hf a hx
  | read next ih => exact fun s => ih s (hx s)
  | lock row mode next ih => exact ih hx
  | tryLock key next ih => exact fun got => ih got (hx got)

theorem Tx.Ends.mono {P Q : α → Prop} {x : Tx σ ρ κ α} (hx : x.Ends P) (h : ∀ a, P a → Q a) :
    x.Ends Q := by
  induction x with
  | ret a => exact h a hx
  | read next ih => exact fun s => ih s (hx s)
  | lock row mode next ih => exact ih hx
  | tryLock key next ih => exact fun got => ih got (hx got)

/-- From a state on, and through the later states a statement may find, the
transaction reads until a statement that leaves the answer as of the state
it saw. -/
def Tx.Settles (later : σ → σ → Prop) (answer : σ → α) : σ → Tx σ ρ κ α → Prop
  | _, .ret _ => False
  | now, .read next => ∀ s, later now s →
      next s = .ret (answer s) ∨ (next s).Settles later answer s
  | _, .lock _ _ _ => False
  | _, .tryLock _ _ => False

theorem Tx.Settles.map {β : Type} {later : σ → σ → Prop} {answer : σ → α} {now : σ}
    {x : Tx σ ρ κ α} (h : x.Settles later answer now) (f : α → β) :
    (x.map f).Settles later (fun s => f (answer s)) now := by
  induction x generalizing now with
  | ret a => exact h
  | read next ih =>
    intro s hs
    rcases h s hs with hret | hreads
    · left
      show (next s).map f = _
      rw [hret]
      rfl
    · exact Or.inr (ih s hreads)
  | lock row mode next ih => exact h
  | tryLock key next ih => exact h

section Runs

variable [DecidableEq ι] [DecidableEq ρ] [DecidableEq κ]
variable {publish : α → σ → σ} {Meets : Config ι σ ρ κ α → Event ι → Prop}
variable {prog : ι → Tx σ ρ κ α} {first : σ} {cfg next : Config ι σ ρ κ α}
variable {later : σ → σ → Prop}

/-! ## What commits keep -/

/-- The transactions left to run can only end in results that lead to later
states, and what is committed is later than the first state. -/
structure Onward (publish : α → σ → σ) (later : σ → σ → Prop) (first : σ)
    (cfg : Config ι σ ρ κ α) : Prop where
  ends : ∀ i x, cfg.phase i = .running x → x.Ends fun a => ∀ s, later s (publish a s)
  shared : later first cfg.shared

omit [DecidableEq ρ] [DecidableEq κ] in
/-- A transaction that moves on keeps to what its program keeps to. -/
theorem Onward.goOn {shared : σ} {cfg' : Config ι σ ρ κ α} {i : ι} {x : Tx σ ρ κ α}
    (h : Onward publish later first cfg) (hshared : later first shared)
    (hphase : cfg'.phase = (cfg.goOn i x).phase) (heq : cfg'.shared = shared)
    (hx : x.Ends fun a => ∀ s, later s (publish a s)) : Onward publish later first cfg' := by
  refine ⟨fun j y hj => ?_, heq ▸ hshared⟩
  rw [hphase, Config.goOn] at hj
  by_cases hji : j = i
  · subst hji
    simp only [Function.update_self, Phase.running.injEq] at hj
    exact hj ▸ hx
  · simp only [Function.update_of_ne hji] at hj
    exact h.ends j y hj

omit [DecidableEq ρ] [DecidableEq κ] in
/-- A transaction that ends leaves the others as they were. -/
theorem Onward.finish {shared : σ} {cfg' : Config ι σ ρ κ α} {i : ι} {phase : Phase σ ρ κ α}
    (h : Onward publish later first cfg) (hphase : cfg'.phase = (cfg.finish i phase).phase)
    (hend : ∀ x, phase ≠ .running x) (hshared : later first shared) (heq : cfg'.shared = shared) :
    Onward publish later first cfg' := by
  refine ⟨fun j y hj => ?_, heq ▸ hshared⟩
  rw [hphase, Config.finish] at hj
  by_cases hji : j = i
  · subst hji
    simp only [Function.update_self] at hj
    exact absurd hj (hend y)
  · simp only [Function.update_of_ne hji] at hj
    exact h.ends j y hj

theorem Onward.step (htrans : ∀ s t u, later s t → later t u → later s u) {e : Event ι}
    (h : Onward publish later first cfg) (hstep : cfg.step publish e = some next) :
    Onward publish later first next := by
  cases e with
  | abort i =>
    simp only [Config.step] at hstep
    split at hstep
    · cases hstep
      exact h.finish rfl (by simp) h.shared rfl
    · cases hstep
  | advance i =>
    simp only [Config.step, Config.advance] at hstep
    split at hstep
    · rename_i a hphase
      cases hstep
      exact h.finish rfl (by simp) (htrans _ _ _ h.shared (h.ends i _ hphase cfg.shared)) rfl
    · rename_i rest hphase
      cases hstep
      exact h.goOn h.shared rfl rfl (h.ends i _ hphase cfg.shared)
    · rename_i row mode rest hphase
      split at hstep
      · cases hstep
        exact h.goOn h.shared rfl rfl (h.ends i (.lock row mode rest) hphase)
      · cases hstep
    · rename_i key rest hphase
      split at hstep
      · cases hstep
        exact h.goOn h.shared rfl rfl (h.ends i _ hphase true)
      · cases hstep
        exact h.goOn h.shared rfl rfl (h.ends i _ hphase false)
    · cases hstep
    · cases hstep

/-- **Whatever is interleaved, what is committed is later** than the state
the transactions began in. -/
theorem Run.onward (hrefl : ∀ s, later s s) (htrans : ∀ s t u, later s t → later t u → later s u)
    (hends : ∀ i, (prog i).Ends fun a => ∀ s, later s (publish a s))
    (hrun : Run publish Meets (Config.init prog first) cfg) : Onward publish later first cfg := by
  induction hrun with
  | refl =>
    refine ⟨fun i x hx => ?_, hrefl first⟩
    simp only [Config.init, Phase.running.injEq] at hx
    exact hx ▸ hends i
  | tail _ _ hstep ih => exact ih.step htrans hstep

/-! ## What a reader answers -/

/-- Where a reader stands: it goes on reading towards its answer, or its
answer is that of the state its last statement saw. -/
structure Reading (later : σ → σ → Prop) (answer : σ → α) (first : σ) (i : ι)
    (cfg : Config ι σ ρ κ α) : Prop where
  running : ∀ x, cfg.phase i = .running x →
    (∃ now, later now cfg.shared ∧ x.Settles later answer now) ∨
      ∃ s, cfg.lastRead i = some s ∧ later first s ∧ x = .ret (answer s)
  answered : ∀ a, (i, a) ∈ cfg.history → (∀ x, cfg.phase i ≠ .running x) ∧
    ∃ s, cfg.lastRead i = some s ∧ later first s ∧ a = answer s

omit [DecidableEq ι] [DecidableEq ρ] [DecidableEq κ] in
/-- A step of another transaction leaves the reader where it stands. -/
theorem Reading.other {answer : σ → α} {i : ι} (h : Reading later answer first i cfg)
    (htrans : ∀ s t u, later s t → later t u → later s u) (hphase : next.phase i = cfg.phase i)
    (hlast : next.lastRead i = cfg.lastRead i) (hshared : later cfg.shared next.shared)
    (hhistory : ∀ a, (i, a) ∈ next.history → (i, a) ∈ cfg.history) :
    Reading later answer first i next := by
  refine ⟨fun x hx => ?_, fun a ha => ?_⟩
  · rw [hphase] at hx
    rw [hlast]
    rcases h.running x hx with ⟨now, hnow, hx⟩ | hret
    · exact Or.inl ⟨now, htrans _ _ _ hnow hshared, hx⟩
    · exact Or.inr hret
  · rw [hphase, hlast]
    exact h.answered a (hhistory a ha)

theorem Reading.step {answer : σ → α} {i : ι} (hrefl : ∀ s, later s s)
    (htrans : ∀ s t u, later s t → later t u → later s u) (hfirst : Onward publish later first cfg)
    {e : Event ι} (h : Reading later answer first i cfg)
    (hstep : cfg.step publish e = some next) : Reading later answer first i next := by
  have hquit : ∀ phase : Phase σ ρ κ α, (∀ x, phase ≠ .running x) →
      (∀ a, (i, a) ∉ cfg.history) → Reading later answer first i (cfg.finish i phase) := by
    intro phase hphase hnone
    refine ⟨fun x hx => ?_, fun a ha => absurd ha (hnone a)⟩
    simp only [Config.finish, Function.update_self] at hx
    exact absurd hx (hphase x)
  -- a transaction with an answer does not run any more
  have hfresh : ∀ x, cfg.phase i = .running x → ∀ a, (i, a) ∉ cfg.history :=
    fun x hx a ha => (h.answered a ha).1 x hx
  cases e with
  | abort j =>
    simp only [Config.step] at hstep
    split at hstep
    · rename_i x hphase
      cases hstep
      by_cases hij : i = j
      · subst hij
        exact hquit .aborted (by simp) (hfresh x hphase)
      · exact h.other htrans (by simp [Config.finish, Function.update_of_ne hij]) rfl
          (hrefl _) fun _ => id
    · cases hstep
  | advance j =>
    simp only [Config.step, Config.advance] at hstep
    split at hstep
    · rename_i a hphase
      cases hstep
      have hshared : later cfg.shared (publish a cfg.shared) :=
        hfirst.ends j _ hphase cfg.shared
      by_cases hij : i = j
      · subst hij
        refine ⟨fun x hx => ?_, fun b hb => ⟨fun x hx => ?_, ?_⟩⟩
        · simp [Config.commit, Config.finish] at hx
        · simp [Config.commit, Config.finish] at hx
        · have hba : b = a := by
            rcases List.mem_append.1 hb with hold | hnew
            · exact absurd hold (hfresh _ hphase b)
            · exact (Prod.mk.inj (List.mem_singleton.1 hnew)).2
          rcases h.running _ hphase with ⟨now, -, hfalse⟩ | ⟨s, hs, hlater, heq⟩
          · exact absurd hfalse id
          · exact ⟨s, hs, hlater, hba.trans (Tx.ret.inj heq)⟩
      · refine h.other htrans (by simp [Config.commit, Config.finish,
          Function.update_of_ne hij]) rfl hshared fun b hb => ?_
        rcases List.mem_append.1 hb with hold | hnew
        · exact hold
        · exact absurd (Prod.mk.inj (List.mem_singleton.1 hnew)).1 hij
    · rename_i rest hphase
      cases hstep
      by_cases hij : i = j
      · subst hij
        refine ⟨fun x hx => ?_, fun b hb => absurd hb (hfresh _ hphase b)⟩
        simp only [Config.goOn, Function.update_self, Phase.running.injEq] at hx
        subst hx
        rcases h.running _ hphase with ⟨now, hnow, hreads⟩ | ⟨s, -, -, heq⟩
        · rcases hreads cfg.shared hnow with hret | hsettles
          · exact Or.inr ⟨cfg.shared, by simp, hfirst.shared, hret⟩
          · exact Or.inl ⟨cfg.shared, hrefl _, hsettles⟩
        · cases heq
      · exact h.other htrans (by simp [Config.goOn, Function.update_of_ne hij])
          (by simp [Function.update_of_ne hij]) (hrefl _) fun _ => id
    · rename_i row mode rest hphase
      split at hstep
      · cases hstep
        by_cases hij : i = j
        · subst hij
          rcases h.running _ hphase with ⟨now, -, hfalse⟩ | ⟨s, -, -, heq⟩
          · exact absurd hfalse id
          · cases heq
        · exact h.other htrans (by simp [Config.goOn, Function.update_of_ne hij]) rfl
            (hrefl _) fun _ => id
      · cases hstep
    · rename_i key rest hphase
      by_cases hij : i = j
      · subst hij
        rcases h.running _ hphase with ⟨now, -, hfalse⟩ | ⟨s, -, -, heq⟩
        · exact absurd hfalse id
        · cases heq
      · split at hstep
        · cases hstep
          exact h.other htrans (by simp [Config.goOn, Function.update_of_ne hij]) rfl
            (hrefl _) fun _ => id
        · cases hstep
          exact h.other htrans (by simp [Config.goOn, Function.update_of_ne hij]) rfl
            (hrefl _) fun _ => id
    · cases hstep
    · cases hstep

/-- **Whatever is interleaved, a reader reads towards its answer.** -/
theorem Run.reading {answer : σ → α} {i : ι} (hrefl : ∀ s, later s s)
    (htrans : ∀ s t u, later s t → later t u → later s u)
    (hends : ∀ i, (prog i).Ends fun a => ∀ s, later s (publish a s))
    (hreader : (prog i).Settles later answer first)
    (hrun : Run publish Meets (Config.init prog first) cfg) :
    Reading later answer first i cfg := by
  induction hrun with
  | refl =>
    refine ⟨fun x hx => ?_, fun a ha => by simp [Config.init] at ha⟩
    simp only [Config.init, Phase.running.injEq] at hx
    exact Or.inl ⟨first, hrefl first, hx ▸ hreader⟩
  | tail hrun _ hstep ih => exact ih.step hrefl htrans (hrun.onward hrefl htrans hends) hstep

omit [DecidableEq ι] [DecidableEq ρ] [DecidableEq κ] in
/-- A reader reads or is done. -/
theorem Reading.reads_or_done {answer : σ → α} {i : ι} (h : Reading later answer first i cfg)
    {x : Tx σ ρ κ α} (hphase : cfg.phase i = .running x) :
    (∃ rest, x = .read rest) ∨ ∃ a, x = .ret a := by
  rcases h.running x hphase with ⟨now, -, hreads⟩ | ⟨s, -, -, rfl⟩
  · cases x with
    | read rest => exact Or.inl ⟨rest, rfl⟩
    | ret a => exact Or.inr ⟨a, rfl⟩
    | lock row mode rest => exact hreads.elim
    | tryLock key rest => exact hreads.elim
  · exact Or.inr ⟨_, rfl⟩

/-- **A reader never waits**: whatever is interleaved, its next step can be
taken. -/
theorem Reading.exists_step {answer : σ → α} {i : ι} (h : Reading later answer first i cfg)
    {x : Tx σ ρ κ α} (hphase : cfg.phase i = .running x) :
    ∃ next, cfg.step publish (.advance i) = some next := by
  rw [Config.step, Config.advance, hphase]
  rcases h.reads_or_done hphase with ⟨rest, rfl⟩ | ⟨a, rfl⟩
  · exact ⟨_, rfl⟩
  · exact ⟨_, rfl⟩

/-! ## The moment of an answer -/

/-- In a run from one state to another a transaction makes its last
statement: what it finds then is all that is left to answer, and the run
goes on from there. -/
structure LastStatement (publish : α → σ → σ) (Meets : Config ι σ ρ κ α → Event ι → Prop)
    (start cfg : Config ι σ ρ κ α) (i : ι) (a : α) (mid : Config ι σ ρ κ α) : Prop where
  before : Run publish Meets start mid
  after : ∃ rest next, mid.phase i = .running (.read rest) ∧ rest mid.shared = .ret a ∧
    mid.step publish (.advance i) = some next ∧ Run publish Meets next cfg

theorem LastStatement.tail {start mid : Config ι σ ρ κ α} {i : ι} {a : α} {e : Event ι}
    (h : LastStatement publish Meets start cfg i a mid) (hmeets : Meets cfg e)
    (hstep : cfg.step publish e = some next) : LastStatement publish Meets start next i a mid := by
  obtain ⟨rest, made, hphase, hret, hmade, hrun⟩ := h.after
  exact ⟨h.before, rest, made, hphase, hret, hmade, hrun.tail hmeets hstep⟩

/-- A reader that is done has made its last statement, and nothing since but
to end. -/
theorem Run.lastStatement {answer : σ → α} {i : ι} (hrefl : ∀ s, later s s)
    (htrans : ∀ s t u, later s t → later t u → later s u)
    (hends : ∀ i, (prog i).Ends fun a => ∀ s, later s (publish a s))
    (hreader : (prog i).Settles later answer first)
    (hrun : Run publish Meets (Config.init prog first) cfg) {a : α}
    (ha : cfg.phase i = .running (.ret a) ∨ (i, a) ∈ cfg.history) :
    ∃ mid, LastStatement publish Meets (Config.init prog first) cfg i a mid := by
  induction hrun with
  | refl =>
    rcases ha with hphase | hmem
    · simp only [Config.init, Phase.running.injEq] at hphase
      rw [hphase] at hreader
      exact hreader.elim
    · cases hmem
  | @tail cfg next e hrun hmeets hstep ih =>
    have hgo : cfg.phase i = .running (.ret a) ∨ (i, a) ∈ cfg.history →
        ∃ mid, LastStatement publish Meets (Config.init prog first) next i a mid := by
      intro h
      obtain ⟨mid, hmid⟩ := ih h
      exact ⟨mid, hmid.tail hmeets hstep⟩
    have hreading := hrun.reading hrefl htrans hends hreader
    have hstep' := hstep
    cases e with
    | abort j =>
      simp only [Config.step] at hstep
      split at hstep
      · cases hstep
        refine hgo (ha.imp_left fun hphase => ?_)
        by_cases hij : i = j
        · subst hij
          simp [Config.finish] at hphase
        · simpa [Config.finish, Function.update_of_ne hij] using hphase
      · cases hstep
    | advance j =>
      simp only [Config.step, Config.advance] at hstep
      split at hstep
      · rename_i b hphase
        cases hstep
        rcases ha with hrunning | hmem
        · by_cases hij : i = j
          · subst hij
            simp [Config.commit, Config.finish] at hrunning
          · refine hgo (Or.inl ?_)
            simpa [Config.commit, Config.finish, Function.update_of_ne hij] using hrunning
        · rcases List.mem_append.1 hmem with hold | hnew
          · exact hgo (Or.inr hold)
          · obtain ⟨rfl, rfl⟩ := Prod.mk.inj (List.mem_singleton.1 hnew)
            exact hgo (Or.inl hphase)
      · rename_i rest hphase
        cases hstep
        rcases ha with hrunning | hmem
        · by_cases hij : i = j
          · -- the statement just made
            subst hij
            simp only [Config.goOn, Function.update_self, Phase.running.injEq] at hrunning
            exact ⟨cfg, hrun, rest, _, hphase, hrunning, hstep', .refl⟩
          · refine hgo (Or.inl ?_)
            simpa [Config.goOn, Function.update_of_ne hij] using hrunning
        · exact hgo (Or.inr hmem)
      · rename_i row mode rest hphase
        split at hstep
        · cases hstep
          refine hgo (ha.imp_left fun hrunning => ?_)
          by_cases hij : i = j
          · subst hij
            rcases hreading.reads_or_done hphase with ⟨_, h⟩ | ⟨_, h⟩
            · cases h
            · cases h
          · simpa [Config.goOn, Function.update_of_ne hij] using hrunning
        · cases hstep
      · rename_i key rest hphase
        have hother : i ≠ j := by
          rintro rfl
          rcases hreading.reads_or_done hphase with ⟨_, h⟩ | ⟨_, h⟩
          · cases h
          · cases h
        split at hstep
        · cases hstep
          refine hgo (ha.imp_left fun hrunning => ?_)
          simpa [Config.goOn, Function.update_of_ne hother] using hrunning
        · cases hstep
          refine hgo (ha.imp_left fun hrunning => ?_)
          simpa [Config.goOn, Function.update_of_ne hother] using hrunning
      · cases hstep
      · cases hstep

/-- **A reader answers as of one moment**: whatever commits between its
statements, its answer is that of the state its last statement saw. -/
theorem Run.answers {answer : σ → α} {i : ι} (hrefl : ∀ s, later s s)
    (htrans : ∀ s t u, later s t → later t u → later s u)
    (hends : ∀ i, (prog i).Ends fun a => ∀ s, later s (publish a s))
    (hreader : (prog i).Settles later answer first)
    (hrun : Run publish Meets (Config.init prog first) cfg) {a : α} (ha : (i, a) ∈ cfg.history) :
    ∃ mid, LastStatement publish Meets (Config.init prog first) cfg i a mid ∧
      a = answer mid.shared := by
  obtain ⟨mid, hmid⟩ := hrun.lastStatement hrefl htrans hends hreader (Or.inr ha)
  obtain ⟨rest, next, hphase, hret, -, -⟩ := hmid.after
  refine ⟨mid, hmid, ?_⟩
  rcases (hmid.before.reading hrefl htrans hends hreader).running _ hphase with
    ⟨now, hnow, hreads⟩ | ⟨s, -, -, heq⟩
  · rcases hreads mid.shared hnow with hanswer | hsettles
    · exact Tx.ret.inj (hret.symm.trans hanswer)
    · rw [hret] at hsettles
      exact hsettles.elim
  · cases heq

end Runs

end Lib
