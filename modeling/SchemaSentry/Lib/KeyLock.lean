import Mathlib.Data.List.Induction
import SchemaSentry.Lib.Transaction
/-!
# Transactions under one key

Transactions each of which tries for the same key before anything else and
ends at once where it does not get it. The key is held until the
transaction ends, so what one reads and writes under it none of the others
comes between: `exclusive_exec`, for every schedule.
-/

namespace Lib

namespace Tx

variable {σ ρ κ α β : Type}

/-- No key is tried for. -/
def Unkeyed : Tx σ ρ κ α → Prop
  | ret _ => True
  | read next => ∀ s, (next s).Unkeyed
  | lock _ _ next => next.Unkeyed
  | tryLock _ _ => False

theorem Plain.unkeyed {x : Tx σ ρ κ α} (h : x.Plain) : x.Unkeyed := by
  induction x with
  | ret a => trivial
  | read next ih => exact fun s => ih s (h s)
  | lock row mode next ih => exact h.elim
  | tryLock key next ih => exact h.elim

theorem Unkeyed.bind {x : Tx σ ρ κ α} {f : α → Tx σ ρ κ β} (hx : x.Unkeyed)
    (hf : ∀ a, (f a).Unkeyed) : (x.bind f).Unkeyed := by
  induction x with
  | ret a => exact hf a
  | read next ih => exact fun s => ih s (hx s)
  | lock row mode next ih => exact ih hx
  | tryLock key next ih => exact hx.elim

/-- The transaction tries for the key first, tries for none after it, and
ends as refused where it does not get it. -/
def UnderKey (key : κ) (refused : α) (x : Tx σ ρ κ α) : Prop :=
  ∃ next, x = .tryLock key next ∧ next false = .ret refused ∧ (next true).Unkeyed

end Tx

section Schedules

variable {ι σ ρ κ α : Type} [DecidableEq ι] [DecidableEq ρ] [DecidableEq κ]
variable {publish : α → σ → σ} {start cfg next : Config ι σ ρ κ α}

/-- In the course of a schedule the transaction has held a key. -/
def Acquired (publish : α → σ → σ) (start : Config ι σ ρ κ α) (es : List (Event ι)) (i : ι) :
    Prop :=
  ∃ before after mid, es = before ++ after ∧ Config.exec publish before start = some mid ∧
    ∃ key, (i, key) ∈ mid.keyLocks

theorem exec_append (es es' : List (Event ι)) (cfg : Config ι σ ρ κ α) :
    Config.exec publish (es ++ es') cfg =
      (Config.exec publish es cfg).bind (Config.exec publish es') := by
  induction es generalizing cfg with
  | nil => rfl
  | cons e rest ih =>
    simp only [List.cons_append, Config.exec]
    rcases cfg.step publish e with _ | mid
    · rfl
    · exact ih mid

/-- Holding a key after one event more. -/
theorem acquired_snoc {es : List (Event ι)} {e : Event ι} {i : ι}
    (h : Config.exec publish (es ++ [e]) start = some next) :
    Acquired publish start (es ++ [e]) i ↔
      Acquired publish start es i ∨ ∃ key, (i, key) ∈ next.keyLocks := by
  constructor
  · rintro ⟨before, after, mid, hsplit, hexec, hkey⟩
    rcases List.eq_nil_or_concat after with rfl | ⟨after', last, rfl⟩
    · rw [List.append_nil] at hsplit
      rw [← hsplit, h] at hexec
      exact Or.inr (Option.some.inj hexec ▸ hkey)
    · rw [List.concat_eq_append, ← List.append_assoc] at hsplit
      obtain ⟨hes, -⟩ := List.append_inj' hsplit rfl
      exact Or.inl ⟨before, after', mid, hes, hexec, hkey⟩
  · rintro (⟨before, after, mid, rfl, hexec, hkey⟩ | hkey)
    · exact ⟨before, after ++ [e], mid, List.append_assoc _ _ _, hexec, hkey⟩
    · exact ⟨es ++ [e], [], next, (List.append_nil _).symm, h, hkey⟩

end Schedules

/-! ## One at a time -/

section Exclusive

variable {ι σ ρ κ α : Type}
variable (prog : ι → Tx σ ρ κ α) (publish : α → σ → σ) (key : κ) (refused : α)

open Classical in
/-- What holds all along: one transaction at most has the key, and what is
left of it gives what the whole of it would give if it began now; one that
has not had it is at its start or refused; and what is committed is what
those that had the key committed, one after another. -/
structure Exclusive (first : σ) (acquired : ι → Prop) (cfg : Config ι σ ρ κ α) : Prop where
  serial : Serial prog publish first (cfg.history.filter fun h => acquired h.1) cfg.shared
  ended : ∀ h ∈ cfg.history, cfg.phase h.1 = .committed h.2
  keys : ∀ held ∈ cfg.keyLocks, held.2 = key
  oneKey : ∀ held ∈ cfg.keyLocks, ∀ other ∈ cfg.keyLocks, held.1 = other.1
  got : ∀ held ∈ cfg.keyLocks, acquired held.1
  holder : ∀ held ∈ cfg.keyLocks, ∃ p, cfg.phase held.1 = .running p ∧ p.Unkeyed ∧
    p.run cfg.shared = (prog held.1).run cfg.shared
  past : ∀ i p, cfg.phase i = .running p → acquired i → ∃ held ∈ cfg.keyLocks, held.1 = i
  others : ∀ i, ¬ acquired i → cfg.phase i = .running (prog i) ∨
    cfg.phase i = .running (.ret refused) ∨ cfg.phase i = .committed refused ∨
    cfg.phase i = .aborted

variable {prog publish key refused}
variable {first : σ} {acquired : ι → Prop} {cfg next : Config ι σ ρ κ α} {i : ι}

theorem exclusive_init (first : σ) :
    Exclusive prog publish key refused first (fun _ => False) (Config.init prog first) where
  serial := Serial.nil
  ended := fun _ hh => nomatch hh
  keys := fun _ hheld => nomatch hheld
  oneKey := fun _ hheld => nomatch hheld
  got := fun _ hheld => nomatch hheld
  holder := fun _ hheld => nomatch hheld
  past := fun _ _ _ hacq => hacq.elim
  others := fun _ _ => Or.inl rfl

section Steps

variable [DecidableEq ι] (h : Exclusive prog publish key refused first acquired cfg)

include h

/-- The transaction that has the key goes on. -/
theorem Exclusive.goOn {p : Tx σ ρ κ α} (hheld : ∃ held ∈ cfg.keyLocks, held.1 = i)
    (hp : p.Unkeyed) (hrun : p.run cfg.shared = (prog i).run cfg.shared)
    (rowLocks : List (ι × ρ × LockMode)) (lastRead : ι → Option σ) :
    Exclusive prog publish key refused first acquired
      { cfg.goOn i p with rowLocks := rowLocks, lastRead := lastRead } := by
  obtain ⟨mine, hmine, rfl⟩ := hheld
  obtain ⟨q, hq, -, -⟩ := h.holder mine hmine
  refine ⟨h.serial, fun e he => ?_, h.keys, h.oneKey, h.got, fun held hheld => ?_,
    fun j q' hj hacq => ?_, fun j hj => ?_⟩
  · have hne : e.1 ≠ mine.1 := by
      intro heq
      have hend := h.ended e he
      rw [heq, hq] at hend
      cases hend
    simpa [Config.goOn, hne] using h.ended e he
  · rw [h.oneKey held hheld mine hmine]
    exact ⟨p, by simp [Config.goOn], hp, hrun⟩
  · by_cases hji : j = mine.1
    · exact ⟨mine, hmine, hji.symm⟩
    · exact h.past j q' (by simpa [Config.goOn, hji] using hj) hacq
  · have hji : j ≠ mine.1 := fun heq => hj (heq ▸ h.got mine hmine)
    simpa [Config.goOn, hji] using h.others j hj

open Classical in
/-- A transaction gets the key, which no other has. -/
theorem Exclusive.given {p : Tx σ ρ κ α} {acquired' : ι → Prop}
    (hacq : ∀ j, acquired' j ↔ acquired j ∨ j = i) (hphase : cfg.phase i = .running (prog i))
    (hnone : ∀ held ∈ cfg.keyLocks, False) (hp : p.Unkeyed)
    (hrun : p.run cfg.shared = (prog i).run cfg.shared) :
    Exclusive prog publish key refused first acquired'
      { cfg.goOn i p with keyLocks := (i, key) :: cfg.keyLocks } := by
  have hempty : cfg.keyLocks = [] := List.eq_nil_iff_forall_not_mem.2 hnone
  have hended : ∀ e ∈ cfg.history, e.1 ≠ i := by
    intro e he heq
    have hend := h.ended e he
    rw [heq, hphase] at hend
    cases hend
  have hone : ∀ held ∈ (i, key) :: cfg.keyLocks, held = (i, key) := by
    intro held hheld
    rw [hempty] at hheld
    exact List.mem_singleton.1 hheld
  refine ⟨?_, fun e he => ?_, fun held hheld => ?_, fun held hheld other hother => ?_,
    fun held hheld => ?_, fun held hheld => ?_, fun j q hj hjacq => ?_, fun j hj => ?_⟩
  · have hsame : cfg.history.filter (fun e => decide (acquired' e.1)) =
        cfg.history.filter (fun e => decide (acquired e.1)) := by
      refine List.filter_congr fun e he => ?_
      rw [decide_eq_decide, hacq]
      exact or_iff_left (hended e he)
    exact hsame.symm ▸ h.serial
  · simpa [Config.goOn, hended e he] using h.ended e he
  · rw [hone held hheld]
  · rw [hone held hheld, hone other hother]
  · rw [hone held hheld]
    exact (hacq i).2 (Or.inr rfl)
  · rw [hone held hheld]
    exact ⟨p, by simp [Config.goOn], hp, hrun⟩
  · by_cases hji : j = i
    · exact ⟨(i, key), List.mem_cons_self, hji.symm⟩
    · have hold : acquired j := ((hacq j).1 hjacq).resolve_right hji
      obtain ⟨held, hheld, -⟩ := h.past j q (by simpa [Config.goOn, hji] using hj) hold
      exact (hnone held hheld).elim
  · have hji : j ≠ i := fun heq => hj ((hacq j).2 (Or.inr heq))
    simpa [Config.goOn, hji] using h.others j fun hold => hj ((hacq j).2 (Or.inl hold))

/-- A transaction is refused the key. -/
theorem Exclusive.refuse (hphase : cfg.phase i = .running (prog i)) (hi : ¬ acquired i) :
    Exclusive prog publish key refused first acquired (cfg.goOn i (.ret refused)) := by
  have hkept : ∀ held ∈ cfg.keyLocks, held.1 ≠ i :=
    fun held hheld heq => hi (heq ▸ h.got held hheld)
  refine ⟨h.serial, fun e he => ?_, h.keys, h.oneKey, h.got, fun held hheld => ?_,
    fun j q hj hacq => ?_, fun j hj => ?_⟩
  · have hne : e.1 ≠ i := by
      intro heq
      have hend := h.ended e he
      rw [heq, hphase] at hend
      cases hend
    simpa [Config.goOn, hne] using h.ended e he
  · obtain ⟨q, hq, hplain, hrun⟩ := h.holder held hheld
    exact ⟨q, by simpa [Config.goOn, hkept held hheld] using hq, hplain, hrun⟩
  · have hji : j ≠ i := fun heq => hi (heq ▸ hacq)
    exact h.past j q (by simpa [Config.goOn, hji] using hj) hacq
  · by_cases hji : j = i
    · subst hji
      exact Or.inr (Or.inl (by simp [Config.goOn]))
    · simpa [Config.goOn, hji] using h.others j hj

open Classical in
/-- A transaction ends, and with it its key: what it publishes it publishes
with the key in hand. -/
theorem Exclusive.ends {phase : Phase σ ρ κ α} {history : List (ι × α)} {shared : σ}
    {p : Tx σ ρ κ α} (hrunning : cfg.phase i = .running p) (hend : ∀ q, phase ≠ .running q)
    (hrefused : ¬ acquired i → phase = .committed refused ∨ phase = .aborted)
    (hhistory : ∀ e ∈ history, e ∈ cfg.history ∨ e.1 = i ∧ phase = .committed e.2)
    (hserial : Serial prog publish first (history.filter fun e => acquired e.1) shared)
    (hshared : shared = cfg.shared ∨ ∃ held ∈ cfg.keyLocks, held.1 = i) :
    Exclusive prog publish key refused first acquired
      { cfg.finish i phase with shared := shared, history := history } := by
  have hmem : ∀ held ∈ (cfg.finish i phase).keyLocks, held ∈ cfg.keyLocks ∧ held.1 ≠ i := by
    intro held hheld
    obtain ⟨hold, hne⟩ := List.mem_filter.1 hheld
    exact ⟨hold, by simpa using hne⟩
  refine ⟨hserial, fun e he => ?_, fun held hheld => h.keys held (hmem held hheld).1,
    fun held hheld other hother => h.oneKey held (hmem held hheld).1 other (hmem other hother).1,
    fun held hheld => h.got held (hmem held hheld).1, fun held hheld => ?_,
    fun j q hj hacq => ?_, fun j hj => ?_⟩
  · rcases hhistory e he with hold | ⟨heq, hphase⟩
    · have hne : e.1 ≠ i := by
        intro heq
        have hended := h.ended e hold
        rw [heq, hrunning] at hended
        cases hended
      simpa [Config.finish, hne] using h.ended e hold
    · simpa [Config.finish, heq] using hphase
  · obtain ⟨hold, hne⟩ := hmem held hheld
    obtain ⟨q, hq, hplain, hrun⟩ := h.holder held hold
    rcases hshared with rfl | ⟨mine, hmine, heq⟩
    · exact ⟨q, by simpa [Config.finish, hne] using hq, hplain, hrun⟩
    · exact absurd ((h.oneKey held hold mine hmine).trans heq) hne
  · have hji : j ≠ i := by
      rintro rfl
      exact hend q (by simpa [Config.finish] using hj)
    obtain ⟨held, hheld, heq⟩ := h.past j q (by simpa [Config.finish, hji] using hj) hacq
    exact ⟨held, List.mem_filter.2 ⟨hheld, by simpa [heq] using hji⟩, heq⟩
  · by_cases hji : j = i
    · subst hji
      rcases hrefused hj with hcommitted | haborted
      · exact Or.inr (Or.inr (Or.inl (by simpa [Config.finish] using hcommitted)))
      · exact Or.inr (Or.inr (Or.inr (by simpa [Config.finish] using haborted)))
    · simpa [Config.finish, hji] using h.others j hj

omit [DecidableEq ι] in
/-- A transaction that has not had the key is at its start or refused. -/
theorem Exclusive.running_of_not_acquired {p : Tx σ ρ κ α} (hphase : cfg.phase i = .running p)
    (hi : ¬ acquired i) : p = prog i ∨ p = .ret refused := by
  rcases h.others i hi with heq | heq | heq | heq
  · exact Or.inl (Phase.running.inj (hphase.symm.trans heq))
  · exact Or.inr (Phase.running.inj (hphase.symm.trans heq))
  · rw [hphase] at heq
    cases heq
  · rw [hphase] at heq
    cases heq

/-- **A commit under the key is the transaction run alone**, and one without
it publishes nothing. -/
theorem Exclusive.commit (hquiet : ∀ s, publish refused s = s) (hkey : ∀ a, prog i ≠ .ret a)
    {a : α} (hphase : cfg.phase i = .running (.ret a)) :
    Exclusive prog publish key refused first acquired (cfg.commit publish i a) := by
  classical
  by_cases hi : acquired i
  · obtain ⟨mine, hmine, rfl⟩ := h.past i _ hphase hi
    obtain ⟨p, hp, -, hrun⟩ := h.holder mine hmine
    obtain rfl : Tx.ret a = p := Phase.running.inj (hphase.symm.trans hp)
    refine h.ends hphase (fun _ => by simp) (fun hnot => absurd hi hnot) (fun e he => ?_) ?_
      (Or.inr ⟨mine, hmine, rfl⟩)
    · rcases List.mem_append.1 he with hold | hnew
      · exact Or.inl hold
      · rw [List.mem_singleton.1 hnew]
        exact Or.inr ⟨rfl, rfl⟩
    · have hone : Serial prog publish cfg.shared [(mine.1, a)] (publish a cfg.shared) := by
        have ha : a = (prog mine.1).run cfg.shared := hrun
        rw [ha]
        exact Serial.nil.snoc
      have hfilter : (cfg.history ++ [(mine.1, a)]).filter (fun e => decide (acquired e.1)) =
          cfg.history.filter (fun e => acquired e.1) ++ [(mine.1, a)] := by
        simp [hi]
      rw [hfilter]
      exact h.serial.trans hone
  · obtain rfl : a = refused := by
      rcases h.running_of_not_acquired hphase hi with heq | heq
      · exact absurd heq.symm (hkey a)
      · exact Tx.ret.inj heq
    refine h.ends hphase (fun _ => by simp) (fun _ => Or.inl rfl) (fun e he => ?_) ?_
      (Or.inl (hquiet cfg.shared))
    · rcases List.mem_append.1 he with hold | hnew
      · exact Or.inl hold
      · rw [List.mem_singleton.1 hnew]
        exact Or.inr ⟨rfl, rfl⟩
    · have hfilter : (cfg.history ++ [(i, a)]).filter (fun e => decide (acquired e.1)) =
          cfg.history.filter (fun e => acquired e.1) := by
        simp [hi]
      rw [hfilter, hquiet]
      exact h.serial

omit [DecidableEq ι] in
/-- A transaction at a statement of its body has the key. -/
theorem Exclusive.holds (hprog : (prog i).UnderKey key refused) {p : Tx σ ρ κ α}
    (hphase : cfg.phase i = .running p) (hret : ∀ a, p ≠ .ret a)
    (htry : ∀ k next, p ≠ .tryLock k next) :
    (∃ held ∈ cfg.keyLocks, held.1 = i) ∧ p.Unkeyed ∧
      p.run cfg.shared = (prog i).run cfg.shared := by
  have hi : acquired i := by
    by_contra hi
    rcases h.running_of_not_acquired hphase hi with heq | heq
    · obtain ⟨rest, hrest, -⟩ := hprog
      exact htry _ _ (heq.trans hrest)
    · exact hret _ heq
  obtain ⟨mine, hmine, rfl⟩ := h.past i p hphase hi
  obtain ⟨q, hq, hplain, hrun⟩ := h.holder mine hmine
  obtain rfl : p = q := Phase.running.inj (hphase.symm.trans hq)
  exact ⟨⟨mine, hmine, rfl⟩, hplain, hrun⟩

omit [DecidableEq ι] in
/-- A transaction that tries for the key is at its start. -/
theorem Exclusive.start_of_tryLock {k : κ} {rest : Bool → Tx σ ρ κ α}
    (hphase : cfg.phase i = .running (.tryLock k rest)) :
    ¬ acquired i ∧ prog i = .tryLock k rest := by
  have hi : ¬ acquired i := by
    intro hi
    obtain ⟨mine, hmine, rfl⟩ := h.past i _ hphase hi
    obtain ⟨q, hq, hplain, -⟩ := h.holder mine hmine
    obtain rfl : Tx.tryLock k rest = q := Phase.running.inj (hphase.symm.trans hq)
    exact hplain
  rcases h.running_of_not_acquired hphase hi with heq | heq
  · exact ⟨hi, heq.symm⟩
  · cases heq

/-- The key is tried for. -/
theorem Exclusive.tryLock (hprog : (prog i).UnderKey key refused) {k : κ}
    {rest : Bool → Tx σ ρ κ α} (hphase : cfg.phase i = .running (.tryLock k rest)) :
    (cfg.KeyFree i k → ∀ {acquired' : ι → Prop}, (∀ j, acquired' j ↔ acquired j ∨ j = i) →
      Exclusive prog publish key refused first acquired'
        { cfg.goOn i (rest true) with keyLocks := (i, k) :: cfg.keyLocks }) ∧
    Exclusive prog publish key refused first acquired (cfg.goOn i (rest false)) := by
  obtain ⟨hi, hstart⟩ := h.start_of_tryLock hphase
  obtain ⟨next, hnext, hfalse, htrue⟩ := hprog
  obtain ⟨rfl, rfl⟩ := Tx.tryLock.inj (hstart.symm.trans hnext)
  refine ⟨fun hfree acquired' hacq => ?_, ?_⟩
  · have hnone : ∀ held ∈ cfg.keyLocks, False := by
      intro held hheld
      by_cases heq : held.1 = i
      · exact hi (heq ▸ h.got held hheld)
      · exact hfree held hheld heq (h.keys held hheld)
    exact h.given hacq (hstart ▸ hphase) hnone htrue (by rw [hstart]; rfl)
  · rw [hfalse]
    exact h.refuse (hstart ▸ hphase) hi

variable [DecidableEq ρ] [DecidableEq κ]

/-- **One step keeps the transactions exclusive.** -/
theorem Exclusive.step (hprog : ∀ i, (prog i).UnderKey key refused)
    (hquiet : ∀ s, publish refused s = s) {e : Event ι} (hstep : cfg.step publish e = some next)
    {acquired' : ι → Prop} (hacq : ∀ j, acquired' j ↔ acquired j ∨ ∃ k, (j, k) ∈ next.keyLocks) :
    Exclusive prog publish key refused first acquired' next := by
  -- where no key is given those that have had it stay the same
  have hsame : (∀ held ∈ next.keyLocks, held ∈ cfg.keyLocks) → acquired' = acquired := by
    intro hsub
    funext j
    refine propext ((hacq j).trans (or_iff_left_of_imp ?_))
    rintro ⟨k, hk⟩
    exact h.got _ (hsub _ hk)
  rcases e with i | i
  · simp only [Config.step, Config.advance] at hstep
    rcases hphase : cfg.phase i with (a | rest | ⟨row, mode, p⟩ | ⟨k, rest⟩) | a | _ <;>
      rw [hphase] at hstep <;> simp only [reduceCtorEq, Option.some.injEq] at hstep
    · subst hstep
      rw [hsame fun held hheld => (List.mem_filter.1 hheld).1]
      obtain ⟨next, hnext, -⟩ := hprog i
      refine h.commit hquiet (fun a heq => ?_) hphase
      rw [hnext] at heq
      cases heq
    · subst hstep
      rw [hsame fun held hheld => hheld]
      obtain ⟨hheld, hplain, hrun⟩ := h.holds (hprog i) hphase (fun _ => by simp)
        fun _ _ => by simp
      exact h.goOn hheld (hplain cfg.shared) hrun _ _
    · split at hstep
      · cases hstep
        rw [hsame fun held hheld => hheld]
        obtain ⟨hheld, hplain, hrun⟩ := h.holds (hprog i) hphase (fun _ => by simp)
          fun _ _ => by simp
        exact h.goOn (p := p) hheld hplain hrun _ _
      · cases hstep
    · obtain ⟨hgiven, hrefused⟩ := h.tryLock (hprog i) hphase
      split at hstep
      · rename_i hfree
        cases hstep
        refine hgiven hfree fun j => (hacq j).trans ?_
        simp only [List.mem_cons, Prod.mk.injEq]
        constructor
        · rintro (hold | ⟨_, ⟨heq, -⟩ | hmem⟩)
          · exact Or.inl hold
          · exact Or.inr heq
          · exact Or.inl (h.got _ hmem)
        · rintro (hold | rfl)
          · exact Or.inl hold
          · exact Or.inr ⟨k, Or.inl ⟨rfl, rfl⟩⟩
      · cases hstep
        rw [hsame fun held hheld => hheld]
        exact hrefused
  · simp only [Config.step] at hstep
    split at hstep
    · rename_i p hphase
      cases hstep
      rw [hsame fun held hheld => (List.mem_filter.1 hheld).1]
      exact h.ends hphase (fun _ => by simp) (fun _ => Or.inr rfl) (fun e he => Or.inl he)
        h.serial (Or.inl rfl)
    · cases hstep

end Steps

/-- **Whatever the schedule, one transaction at a time has the key**, and
what is committed is what those that had it committed, one after another. -/
theorem exclusive_exec [DecidableEq ι] [DecidableEq ρ] [DecidableEq κ]
    (hprog : ∀ i, (prog i).UnderKey key refused) (hquiet : ∀ s, publish refused s = s)
    (es : List (Event ι)) (first : σ)
    (h : Config.exec publish es (Config.init prog first) = some cfg) :
    Exclusive prog publish key refused first
      (Acquired publish (Config.init prog first) es) cfg := by
  induction es using List.reverseRecOn generalizing cfg with
  | nil =>
    obtain rfl : Config.init prog first = cfg := Option.some.inj h
    have hnone : Acquired publish (Config.init prog first) [] = fun _ => False := by
      funext i
      refine propext ⟨?_, False.elim⟩
      rintro ⟨before, after, mid, hsplit, hexec, k, hk⟩
      obtain ⟨rfl, rfl⟩ := List.append_eq_nil_iff.1 hsplit.symm
      obtain rfl : Config.init prog first = mid := Option.some.inj hexec
      cases hk
    rw [hnone]
    exact exclusive_init first
  | append_singleton es e ih =>
    have hboth := h
    rw [exec_append] at hboth
    obtain ⟨mid, hmid, hlast⟩ := Option.bind_eq_some_iff.1 hboth
    simp only [Config.exec, Option.bind_fun_some] at hlast
    exact (ih hmid).step hprog hquiet hlast fun j => acquired_snoc h

end Exclusive

end Lib
