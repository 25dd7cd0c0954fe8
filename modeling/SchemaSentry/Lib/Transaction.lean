import Mathlib.Data.List.Basic
import Mathlib.Logic.Function.Basic
/-!
# Transactions that read what is committed

A transaction is a program of statements, each of which sees the state
committed last. It takes a lock on a row, which it waits for, or tries for
a lock on a key, and its locks are held until it ends. An interleaving
lets any transaction take its next step, or end without a trace.

`Orderly.run`: where every transaction reads once before it locks the row
all of them lock, writes only once it holds that lock, and goes on from
there, if it is to succeed, as it would if it began there, what is
committed is what the transactions that succeeded commit one after
another, in the order they committed.
-/

namespace Lib

/-- How a row is locked. -/
inductive LockMode where
  | keyShare
  | update
  deriving DecidableEq, Repr

/-- Two locks of one row exclude each other unless both are key shares. -/
def LockMode.Conflicts (m n : LockMode) : Prop := m = .update ∨ n = .update

instance (m n : LockMode) : Decidable (m.Conflicts n) := inferInstanceAs (Decidable (_ ∨ _))

/-- A transaction's program over the states `σ`, rows `ρ` and lock keys
`κ`: its next statement, given the state that statement sees. -/
inductive Tx (σ ρ κ α : Type) where
  | ret (a : α)
  | read (next : σ → Tx σ ρ κ α)
  | lock (row : ρ) (mode : LockMode) (next : Tx σ ρ κ α)
  | tryLock (key : κ) (next : Bool → Tx σ ρ κ α)

namespace Tx

variable {σ ρ κ α β : Type}

def bind : Tx σ ρ κ α → (α → Tx σ ρ κ β) → Tx σ ρ κ β
  | ret a, f => f a
  | read next, f => read fun s => (next s).bind f
  | lock row mode next, f => lock row mode (next.bind f)
  | tryLock key next, f => tryLock key fun got => (next got).bind f

/-- The result of a transaction that runs alone: every lock is free and the
state stays. -/
def run : Tx σ ρ κ α → σ → α
  | ret a, _ => a
  | read next, s => (next s).run s
  | lock _ _ next, s => next.run s
  | tryLock _ next, s => (next true).run s

/-- What is left of a transaction run alone up to its first row lock. -/
def ahead : Tx σ ρ κ α → σ → Tx σ ρ κ α
  | ret a, _ => ret a
  | read next, s => (next s).ahead s
  | lock row mode next, _ => lock row mode next
  | tryLock _ next, s => (next true).ahead s

/-- No locks are taken. -/
def Plain : Tx σ ρ κ α → Prop
  | ret _ => True
  | read next => ∀ s, (next s).Plain
  | lock _ _ _ => False
  | tryLock _ _ => False

@[simp] theorem run_ret (a : α) (s : σ) : (ret a : Tx σ ρ κ α).run s = a := rfl

@[simp] theorem run_read (next : σ → Tx σ ρ κ α) (s : σ) : (read next).run s = (next s).run s :=
  rfl

@[simp] theorem run_lock (row : ρ) (mode : LockMode) (next : Tx σ ρ κ α) (s : σ) :
    (lock row mode next).run s = next.run s := rfl

@[simp] theorem run_tryLock (key : κ) (next : Bool → Tx σ ρ κ α) (s : σ) :
    (tryLock key next).run s = (next true).run s := rfl

@[simp] theorem run_bind (x : Tx σ ρ κ α) (f : α → Tx σ ρ κ β) (s : σ) :
    (x.bind f).run s = (f (x.run s)).run s := by
  induction x with
  | ret a => rfl
  | read next ih => exact ih s
  | lock row mode next ih => exact ih
  | tryLock key next ih => exact ih true

theorem run_ahead (x : Tx σ ρ κ α) (s : σ) : (x.ahead s).run s = x.run s := by
  induction x with
  | ret a => rfl
  | read next ih => exact ih s
  | lock row mode next ih => rfl
  | tryLock key next ih => exact ih true

theorem Plain.bind {x : Tx σ ρ κ α} {f : α → Tx σ ρ κ β} (hx : x.Plain)
    (hf : ∀ a, (f a).Plain) : (x.bind f).Plain := by
  induction x with
  | ret a => exact hf a
  | read next ih => exact fun s => ih s (hx s)
  | lock row mode next ih => exact hx.elim
  | tryLock key next ih => exact hx.elim

/-- The transaction with another form of its result. -/
def map (f : α → β) (x : Tx σ ρ κ α) : Tx σ ρ κ β := x.bind fun a => ret (f a)

theorem run_map (f : α → β) (x : Tx σ ρ κ α) (s : σ) : (x.map f).run s = f (x.run s) :=
  run_bind x _ s

theorem ahead_map (f : α → β) (x : Tx σ ρ κ α) (s : σ) : (x.map f).ahead s = (x.ahead s).map f := by
  induction x with
  | ret a => rfl
  | read next ih => exact ih s
  | lock row mode next ih => rfl
  | tryLock key next ih => exact ih true

theorem Plain.map {x : Tx σ ρ κ α} (hx : x.Plain) (f : α → β) : (x.map f).Plain :=
  hx.bind fun _ => trivial

section Shape

variable (key : κ) (succeeds : α → Bool)

/-- What follows the one statement before the lock: the end, without
success, or the row's lock and then statements only. A key share is asked
for with the key in hand. -/
def Reads (keyed : Prop) : Tx σ ρ κ α → Prop
  | ret a => succeeds a = false
  | read _ => False
  | lock _ mode next => (mode = .keyShare → keyed) ∧ next.Plain
  | tryLock _ _ => False

/-- A transaction that tries for its key first, if at all, and then makes
one statement before it asks for the row. -/
def Shaped : Tx σ ρ κ α → Prop
  | ret a => succeeds a = false
  | read next => ∀ s, (next s).Reads succeeds False
  | lock _ _ _ => False
  | tryLock k next =>
    k = key ∧ (∃ rest, next true = read rest ∧ ∀ s, (rest s).Reads succeeds True) ∧
      ∃ a, next false = ret a ∧ succeeds a = false

end Shape

/-- After its one statement a transaction is at the lock or at its end. -/
theorem Reads.ahead_eq {succeeds : α → Bool} {keyed : Prop} {x : Tx σ ρ κ α}
    (h : x.Reads succeeds keyed) (s : σ) : x.ahead s = x := by
  cases x with
  | ret a => rfl
  | read next => exact h.elim
  | lock row mode next => rfl
  | tryLock key next => exact h.elim

end Tx

/-! ## Interleavings -/

/-- Where a transaction stands. -/
inductive Phase (σ ρ κ α : Type) where
  | running (rest : Tx σ ρ κ α)
  | committed (a : α)
  | aborted

/-- A state of an interleaving: the committed state, the transactions, the
locks, the state each transaction's last statement saw, and the commits so
far with their results. -/
structure Config (ι σ ρ κ α : Type) where
  shared : σ
  phase : ι → Phase σ ρ κ α
  rowLocks : List (ι × ρ × LockMode)
  keyLocks : List (ι × κ)
  lastRead : ι → Option σ
  history : List (ι × α)

/-- One transaction takes its next step, or ends without committing. -/
inductive Event (ι : Type) where
  | advance (i : ι)
  | abort (i : ι)

section Semantics

variable {ι σ ρ κ α : Type} [DecidableEq ι] [DecidableEq ρ] [DecidableEq κ]

namespace Config

/-- No other transaction holds a lock of the row that excludes this one. -/
def RowFree (cfg : Config ι σ ρ κ α) (i : ι) (row : ρ) (mode : LockMode) : Prop :=
  ∀ held ∈ cfg.rowLocks, held.1 ≠ i → held.2.1 = row → ¬ mode.Conflicts held.2.2

/-- No other transaction holds the key. -/
def KeyFree (cfg : Config ι σ ρ κ α) (i : ι) (key : κ) : Prop :=
  ∀ held ∈ cfg.keyLocks, held.1 ≠ i → held.2 ≠ key

instance (cfg : Config ι σ ρ κ α) (i : ι) (row : ρ) (mode : LockMode) :
    Decidable (cfg.RowFree i row mode) := inferInstanceAs (Decidable (∀ _ ∈ _, _ → _))

instance (cfg : Config ι σ ρ κ α) (i : ι) (key : κ) : Decidable (cfg.KeyFree i key) :=
  inferInstanceAs (Decidable (∀ _ ∈ _, _ → _))

/-- A transaction goes on. -/
def goOn (cfg : Config ι σ ρ κ α) (i : ι) (rest : Tx σ ρ κ α) : Config ι σ ρ κ α :=
  { cfg with phase := Function.update cfg.phase i (.running rest) }

/-- A transaction ends and with it its locks. -/
def finish (cfg : Config ι σ ρ κ α) (i : ι) (phase : Phase σ ρ κ α) : Config ι σ ρ κ α :=
  { cfg with
    phase := Function.update cfg.phase i phase
    rowLocks := cfg.rowLocks.filter fun held => held.1 ≠ i
    keyLocks := cfg.keyLocks.filter fun held => held.1 ≠ i }

variable (publish : α → σ → σ)

/-- A transaction ends with a result and publishes it. -/
def commit (cfg : Config ι σ ρ κ α) (i : ι) (a : α) : Config ι σ ρ κ α :=
  { cfg.finish i (.committed a) with
    shared := publish a cfg.shared
    history := cfg.history ++ [(i, a)] }

/-- The next step of a transaction, if it has one and need not wait. -/
def advance (cfg : Config ι σ ρ κ α) (i : ι) : Option (Config ι σ ρ κ α) :=
  match cfg.phase i with
  | .running (.ret a) => some (cfg.commit publish i a)
  | .running (.read rest) =>
    some { cfg.goOn i (rest cfg.shared) with
      lastRead := Function.update cfg.lastRead i (some cfg.shared) }
  | .running (.lock row mode rest) =>
    if cfg.RowFree i row mode then
      some { cfg.goOn i rest with rowLocks := (i, row, mode) :: cfg.rowLocks }
    else none
  | .running (.tryLock key rest) =>
    if cfg.KeyFree i key then
      some { cfg.goOn i (rest true) with keyLocks := (i, key) :: cfg.keyLocks }
    else some (cfg.goOn i (rest false))
  | .committed _ => none
  | .aborted => none

def step (cfg : Config ι σ ρ κ α) : Event ι → Option (Config ι σ ρ κ α)
  | .advance i => cfg.advance publish i
  | .abort i =>
    match cfg.phase i with
    | .running _ => some (cfg.finish i .aborted)
    | _ => none

/-- A schedule's run. -/
def exec : List (Event ι) → Config ι σ ρ κ α → Option (Config ι σ ρ κ α)
  | [], cfg => some cfg
  | e :: rest, cfg => (cfg.step publish e).bind (exec rest)

end Config

/-- Every transaction is at its start and nothing is locked. -/
def Config.init (prog : ι → Tx σ ρ κ α) (shared : σ) : Config ι σ ρ κ α :=
  { shared := shared, phase := fun i => .running (prog i), rowLocks := [], keyLocks := []
    lastRead := fun _ => none, history := [] }

/-- The runs all of whose steps meet a condition. -/
inductive Run (publish : α → σ → σ) (Meets : Config ι σ ρ κ α → Event ι → Prop)
    (start : Config ι σ ρ κ α) : Config ι σ ρ κ α → Prop
  | refl : Run publish Meets start start
  | tail {cfg next : Config ι σ ρ κ α} {e : Event ι} : Run publish Meets start cfg →
      Meets cfg e → cfg.step publish e = some next → Run publish Meets start next

variable {publish : α → σ → σ} {Meets : Config ι σ ρ κ α → Event ι → Prop}
variable {start cfg : Config ι σ ρ κ α}

/-- The steps of a schedule can be taken and pass a check one by one. -/
def Config.passes (publish : α → σ → σ) (check : Config ι σ ρ κ α → Event ι → Bool) :
    List (Event ι) → Config ι σ ρ κ α → Bool
  | [], _ => true
  | e :: rest, cfg =>
    check cfg e && match cfg.step publish e with
      | some next => passes publish check rest next
      | none => false

/-- **A schedule that passes a check is a run** whose steps meet what the
check is for. -/
theorem Run.of_passes {check : Config ι σ ρ κ α → Event ι → Bool}
    (hcheck : ∀ cfg e, check cfg e = true → Meets cfg e) (hrun : Run publish Meets start cfg)
    {es : List (Event ι)} (h : cfg.passes publish check es = true) :
    ∃ next, cfg.exec publish es = some next ∧ Run publish Meets start next := by
  induction es generalizing cfg with
  | nil => exact ⟨cfg, rfl, hrun⟩
  | cons e rest ih =>
    rw [Config.passes, Bool.and_eq_true] at h
    obtain ⟨hmeets, hrest⟩ := h
    rcases hstep : cfg.step publish e with _ | next
    · rw [hstep] at hrest
      cases hrest
    · rw [hstep] at hrest
      obtain ⟨last, hlast, hrunLast⟩ := ih (hrun.tail (hcheck cfg e hmeets) hstep) hrest
      refine ⟨last, ?_, hrunLast⟩
      rw [Config.exec, hstep]
      exact hlast

end Semantics

/-! ## Serial runs -/

section Serial

variable {ι σ ρ κ α : Type}

/-- One transaction after another, each with the result it has alone. -/
inductive Serial (prog : ι → Tx σ ρ κ α) (publish : α → σ → σ) (first : σ) :
    List (ι × α) → σ → Prop
  | nil : Serial prog publish first [] first
  | snoc {commits : List (ι × α)} {s : σ} {i : ι} : Serial prog publish first commits s →
      Serial prog publish first (commits ++ [(i, (prog i).run s)])
        (publish ((prog i).run s) s)

variable {prog : ι → Tx σ ρ κ α} {publish : α → σ → σ} {s t u : σ} {xs ys : List (ι × α)}

theorem Serial.trans (h : Serial prog publish s xs t) (h' : Serial prog publish t ys u) :
    Serial prog publish s (xs ++ ys) u := by
  induction h' with
  | nil => simpa using h
  | snoc _ ih =>
    rw [← List.append_assoc]
    exact ih.snoc

end Serial

/-! ## Runs are serial -/

section Orderly

variable {ι σ ρ κ α : Type}
variable (prog : ι → Tx σ ρ κ α) (publish : α → σ → σ) (succeeds : α → Bool) (key : κ) (row : ρ)

/-- Where a transaction that does not hold the row stands: at its start, at
its one statement with its key in hand, past that statement, or at an end
without success. -/
inductive Stage (cfg : Config ι σ ρ κ α) (i : ι) : Tx σ ρ κ α → Prop
  | start : (prog i).Shaped key succeeds → Stage cfg i (prog i)
  | keyed {rest : σ → Tx σ ρ κ α} : (i, key) ∈ cfg.keyLocks →
      (∀ s, (rest s).Reads succeeds True) →
      (∀ s, (Tx.read rest).ahead s = (prog i).ahead s) → Stage cfg i (.read rest)
  | past {p : Tx σ ρ κ α} {keyed : Prop} {s : σ} : cfg.lastRead i = some s →
      (keyed → (i, key) ∈ cfg.keyLocks) → p.Reads succeeds keyed → p = (prog i).ahead s →
      Stage cfg i p
  | quit {a : α} : succeeds a = false → Stage cfg i (.ret a)

/-- The transaction holds a row lock. -/
def Holds (cfg : Config ι σ ρ κ α) (i : ι) : Prop := ∃ held ∈ cfg.rowLocks, held.1 = i

/-- What holds all along a run: what is committed is serial, one
transaction at most holds the row, and what is left of it, if it is to
succeed, gives what the whole of it would give if it began now. -/
structure Orderly (first : σ) (cfg : Config ι σ ρ κ α) : Prop where
  serial : Serial prog publish first (cfg.history.filter fun h => succeeds h.2) cfg.shared
  seen : ∀ i s, cfg.lastRead i = some s → ∃ before after,
    Serial prog publish first before s ∧ Serial prog publish s after cfg.shared
  rows : ∀ held ∈ cfg.rowLocks, held.2.1 = row ∧
    (held.2.2 = .keyShare → (held.1, key) ∈ cfg.keyLocks)
  oneRow : ∀ held ∈ cfg.rowLocks, ∀ other ∈ cfg.rowLocks, held.1 = other.1
  keys : ∀ held ∈ cfg.keyLocks, held.2 = key
  oneKey : ∀ held ∈ cfg.keyLocks, ∀ other ∈ cfg.keyLocks, held.1 = other.1
  holder : ∀ i, Holds cfg i → ∃ p, cfg.phase i = .running p ∧ p.Plain ∧
    (succeeds (p.run cfg.shared) = true → p.run cfg.shared = (prog i).run cfg.shared)
  waiting : ∀ i p, cfg.phase i = .running p → ¬ Holds cfg i →
    Stage prog succeeds key cfg i p

/-- The lock a transaction takes is the row's, and what it goes on to do, if
it is to succeed, is what it would do if it began now. -/
def Fresh (cfg : Config ι σ ρ κ α) : Event ι → Prop
  | .advance i => ∀ r mode p, cfg.phase i = .running (.lock r mode p) →
      r = row ∧ (succeeds (p.run cfg.shared) = true → p.run cfg.shared = (prog i).run cfg.shared)
  | .abort _ => True

variable {prog publish succeeds key row}
variable {first : σ} {cfg next : Config ι σ ρ κ α} {i : ι}

theorem orderly_init (hshape : ∀ i, (prog i).Shaped key succeeds) (first : σ) :
    Orderly prog publish succeeds key row first (Config.init prog first) where
  serial := Serial.nil
  seen := by simp [Config.init]
  rows := by simp [Config.init]
  oneRow := by simp [Config.init]
  keys := by simp [Config.init]
  oneKey := by simp [Config.init]
  holder := by simp [Config.init, Holds]
  waiting := by
    intro i p hphase _
    simp only [Config.init, Phase.running.injEq] at hphase
    exact hphase ▸ Stage.start (hshape i)

/-- A stage depends on the transaction's own last statement and key. -/
theorem Stage.congr {p : Tx σ ρ κ α} (h : Stage prog succeeds key cfg i p)
    (hread : next.lastRead i = cfg.lastRead i)
    (hkey : (i, key) ∈ cfg.keyLocks → (i, key) ∈ next.keyLocks) :
    Stage prog succeeds key next i p := by
  rcases h with hshape | ⟨hmem, hreads, hahead⟩ | ⟨hlast, hk, hreads, hahead⟩ | hquit
  · exact .start hshape
  · exact .keyed (hkey hmem) hreads hahead
  · exact .past (hread.trans hlast) (fun h => hkey (hk h)) hreads hahead
  · exact .quit hquit

/-- Success comes only from holding the row. -/
theorem Stage.succeeds_eq_false {a : α} (h : Stage prog succeeds key cfg i (.ret a)) :
    succeeds a = false := by
  generalize hp : (Tx.ret a : Tx σ ρ κ α) = p at h
  rcases h with hshape | _ | ⟨_, _, hreads, _⟩ | hquit
  · rw [← hp] at hshape
    exact hshape
  · cases hp
  · rw [← hp] at hreads
    exact hreads
  · cases hp
    exact hquit

/-- A transaction that asks for the row has made its one statement. -/
theorem Stage.of_lock {r : ρ} {mode : LockMode} {p : Tx σ ρ κ α}
    (h : Stage prog succeeds key cfg i (.lock r mode p)) :
    (mode = .keyShare → (i, key) ∈ cfg.keyLocks) ∧ p.Plain ∧
      ∃ s, cfg.lastRead i = some s ∧ (prog i).ahead s = .lock r mode p := by
  generalize hq : Tx.lock r mode p = q at h
  rcases h with hshape | _ | ⟨hlast, hk, hreads, hahead⟩ | _
  · rw [← hq] at hshape
    exact hshape.elim
  · cases hq
  · subst hq
    exact ⟨fun hm => hk (hreads.1 hm), hreads.2, _, hlast, hahead.symm⟩
  · cases hq

/-- A transaction that tries for its key is at its start. -/
theorem Stage.of_tryLock {k : κ} {rest : Bool → Tx σ ρ κ α}
    (h : Stage prog succeeds key cfg i (.tryLock k rest)) :
    k = key ∧ (∃ rest', rest true = .read rest' ∧ (∀ s, (rest' s).Reads succeeds True) ∧
      ∀ s, (Tx.read rest').ahead s = (prog i).ahead s) ∧
      ∃ a, rest false = .ret a ∧ succeeds a = false := by
  generalize hq : Tx.tryLock k rest = q at h
  rcases h with hshape | _ | ⟨_, _, hreads, _⟩ | _
  · rw [← hq] at hshape ⊢
    obtain ⟨hk, ⟨rest', htrue, hreads⟩, hfalse⟩ := hshape
    refine ⟨hk, ⟨rest', htrue, hreads, fun s => ?_⟩, hfalse⟩
    rw [← htrue]
    rfl
  · cases hq
  · rw [← hq] at hreads
    exact hreads.elim
  · cases hq

/-- Past its one statement a transaction is where it would be had it run
alone. -/
theorem Stage.read {rest : σ → Tx σ ρ κ α} (h : Stage prog succeeds key cfg i (.read rest))
    {s : σ} (hlast : next.lastRead i = some s) (hkeys : next.keyLocks = cfg.keyLocks) :
    Stage prog succeeds key next i (rest s) := by
  generalize hq : Tx.read rest = q at h
  rcases h with hshape | ⟨hmem, hreads, hahead⟩ | ⟨_, _, hreads, _⟩ | _
  · rw [← hq] at hshape
    refine .past hlast False.elim (hshape s) ?_
    rw [← hq, Tx.ahead, (hshape s).ahead_eq]
  · cases hq
    refine .past hlast (fun _ => hkeys ▸ hmem) (hreads s) ?_
    rw [← hahead, Tx.ahead, (hreads s).ahead_eq]
  · rw [← hq] at hreads
    exact hreads.elim
  · cases hq

section Steps

variable (h : Orderly prog publish succeeds key row first cfg)

include h

/-- A transaction that asks for a lock does not hold the row: who holds it
makes statements only. -/
theorem Orderly.stage_of_not_plain {p : Tx σ ρ κ α} (hphase : cfg.phase i = .running p)
    (hp : ¬ p.Plain) : ¬ Holds cfg i ∧ Stage prog succeeds key cfg i p := by
  have hnot : ¬ Holds cfg i := by
    intro hi
    obtain ⟨q, hq, hplain, -⟩ := h.holder i hi
    rw [hphase] at hq
    rw [← Phase.running.inj hq] at hplain
    exact hp hplain
  exact ⟨hnot, h.waiting i _ hphase hnot⟩

theorem Orderly.stage_of_lock {r : ρ} {mode : LockMode} {p : Tx σ ρ κ α}
    (hphase : cfg.phase i = .running (.lock r mode p)) :
    ¬ Holds cfg i ∧ Stage prog succeeds key cfg i (.lock r mode p) :=
  h.stage_of_not_plain hphase id

theorem Orderly.stage_of_tryLock {k : κ} {rest : Bool → Tx σ ρ κ α}
    (hphase : cfg.phase i = .running (.tryLock k rest)) :
    ¬ Holds cfg i ∧ Stage prog succeeds key cfg i (.tryLock k rest) :=
  h.stage_of_not_plain hphase id

variable [DecidableEq ι]

/-- A statement is made. -/
theorem Orderly.read {rest : σ → Tx σ ρ κ α} (hphase : cfg.phase i = .running (.read rest)) :
    Orderly prog publish succeeds key row first
      { cfg.goOn i (rest cfg.shared) with
        lastRead := Function.update cfg.lastRead i (some cfg.shared) } := by
  refine ⟨h.serial, fun j s hread => ?_, h.rows, h.oneRow, h.keys, h.oneKey, fun j hj => ?_,
    fun j p hp hj => ?_⟩
  · by_cases hji : j = i
    · subst hji
      obtain rfl : cfg.shared = s := by simpa using hread
      exact ⟨_, [], h.serial, Serial.nil⟩
    · exact h.seen j s (by simpa [hji] using hread)
  · obtain ⟨p, hp, hplain, hrun⟩ := h.holder j hj
    by_cases hji : j = i
    · subst hji
      obtain rfl : Tx.read rest = p := Phase.running.inj (hphase.symm.trans hp)
      exact ⟨rest cfg.shared, by simp [Config.goOn], hplain _, hrun⟩
    · exact ⟨p, by simpa [Config.goOn, hji] using hp, hplain, hrun⟩
  · by_cases hji : j = i
    · subst hji
      obtain rfl : rest cfg.shared = p := by simpa [Config.goOn] using hp
      exact (h.waiting j _ hphase hj).read (by simp) rfl
    · have hp' : cfg.phase j = .running p := by simpa [Config.goOn, hji] using hp
      exact (h.waiting j p hp' hj).congr (by simp [hji]) id

/-- A row lock is granted: the one row's, to the one transaction that has
it then. -/
theorem Orderly.lock {r : ρ} {mode : LockMode} {p : Tx σ ρ κ α}
    (hphase : cfg.phase i = .running (.lock r mode p)) (hfree : cfg.RowFree i r mode)
    (hfresh : Fresh prog succeeds row cfg (.advance i)) :
    Orderly prog publish succeeds key row first
      { cfg.goOn i p with rowLocks := (i, r, mode) :: cfg.rowLocks } := by
  obtain ⟨rfl, hrun⟩ := hfresh r mode p hphase
  obtain ⟨hnot, hstage⟩ := h.stage_of_lock hphase
  obtain ⟨hkeyed, hplain, -⟩ := hstage.of_lock
  -- two key shares would both have the key
  have hnone : ∀ held ∈ cfg.rowLocks, False := by
    intro held hheld
    have hne : held.1 ≠ i := fun heq => hnot ⟨held, hheld, heq⟩
    have hconf := hfree held hheld hne (h.rows held hheld).1
    have hmode : mode = .keyShare := by
      rcases mode with _ | _
      · rfl
      · exact absurd (Or.inl rfl) hconf
    have hother : held.2.2 = .keyShare := by
      rcases hm : held.2.2 with _ | _
      · rfl
      · exact absurd (Or.inr hm) hconf
    exact hne (h.oneKey _ ((h.rows held hheld).2 hother) _ (hkeyed hmode))
  have hempty : cfg.rowLocks = [] := List.eq_nil_iff_forall_not_mem.2 hnone
  refine ⟨h.serial, h.seen, ?_, ?_, h.keys, h.oneKey, ?_, ?_⟩
  · intro held hheld
    obtain rfl : held = (i, r, mode) := by simpa [hempty] using hheld
    exact ⟨rfl, hkeyed⟩
  · intro held hheld other hother
    obtain rfl : held = (i, r, mode) := by simpa [hempty] using hheld
    obtain rfl : other = (i, r, mode) := by simpa [hempty] using hother
    rfl
  · rintro j ⟨held, hheld, rfl⟩
    obtain rfl : held = (i, r, mode) := by simpa [hempty] using hheld
    exact ⟨p, by simp [Config.goOn], hplain, hrun⟩
  · intro j q hq hj
    have hji : j ≠ i := by
      rintro rfl
      exact hj ⟨_, List.mem_cons_self, rfl⟩
    have hq' : cfg.phase j = .running q := by simpa [Config.goOn, hji] using hq
    exact (h.waiting j q hq' fun ⟨held, hheld, _⟩ => hnone held hheld).congr rfl id

/-- A key is tried for and given. -/
theorem Orderly.tryLock_true {k : κ} {rest : Bool → Tx σ ρ κ α}
    (hphase : cfg.phase i = .running (.tryLock k rest)) (hfree : cfg.KeyFree i k) :
    Orderly prog publish succeeds key row first
      { cfg.goOn i (rest true) with keyLocks := (i, k) :: cfg.keyLocks } := by
  obtain ⟨hnot, hstage⟩ := h.stage_of_tryLock hphase
  obtain ⟨rfl, ⟨rest', htrue, hreads, hahead⟩, -⟩ := hstage.of_tryLock
  have hmine : ∀ held ∈ cfg.keyLocks, held.1 = i := by
    intro held hheld
    by_contra hne
    exact hfree held hheld hne (h.keys held hheld)
  refine ⟨h.serial, h.seen, fun held hheld => ?_, h.oneRow, ?_, ?_, fun j hj => ?_,
    fun j p hp hj => ?_⟩
  · exact ⟨(h.rows held hheld).1, fun hm => List.mem_cons_of_mem _ ((h.rows held hheld).2 hm)⟩
  · intro held hheld
    rcases List.mem_cons.1 hheld with rfl | hold
    · rfl
    · exact h.keys held hold
  · have hall : ∀ held ∈ (i, k) :: cfg.keyLocks, held.1 = i := by
      intro held hheld
      rcases List.mem_cons.1 hheld with rfl | hold
      · rfl
      · exact hmine held hold
    intro held hheld other hother
    rw [hall held hheld, hall other hother]
  · have hji : j ≠ i := fun heq => hnot (heq ▸ hj)
    obtain ⟨p, hp, hplain, hrun⟩ := h.holder j hj
    exact ⟨p, by simpa [Config.goOn, hji] using hp, hplain, hrun⟩
  · by_cases hji : j = i
    · subst hji
      obtain rfl : rest true = p := by simpa [Config.goOn] using hp
      rw [htrue]
      exact .keyed List.mem_cons_self hreads hahead
    · have hp' : cfg.phase j = .running p := by simpa [Config.goOn, hji] using hp
      exact (h.waiting j p hp' hj).congr rfl (List.mem_cons_of_mem _)

/-- A key is tried for and not given. -/
theorem Orderly.tryLock_false {k : κ} {rest : Bool → Tx σ ρ κ α}
    (hphase : cfg.phase i = .running (.tryLock k rest)) :
    Orderly prog publish succeeds key row first (cfg.goOn i (rest false)) := by
  obtain ⟨hnot, hstage⟩ := h.stage_of_tryLock hphase
  obtain ⟨-, -, a, hfalse, ha⟩ := hstage.of_tryLock
  refine ⟨h.serial, h.seen, h.rows, h.oneRow, h.keys, h.oneKey, fun j hj => ?_,
    fun j p hp hj => ?_⟩
  · have hji : j ≠ i := fun heq => hnot (heq ▸ hj)
    obtain ⟨p, hp, hplain, hrun⟩ := h.holder j hj
    exact ⟨p, by simpa [Config.goOn, hji] using hp, hplain, hrun⟩
  · by_cases hji : j = i
    · subst hji
      obtain rfl : rest false = p := by simpa [Config.goOn] using hp
      rw [hfalse]
      exact .quit ha
    · have hp' : cfg.phase j = .running p := by simpa [Config.goOn, hji] using hp
      exact (h.waiting j p hp' hj).congr rfl id

/-- A transaction ends: the locks of the others stay. -/
theorem Orderly.finish {phase : Phase σ ρ κ α} (hend : ∀ p, phase ≠ .running p) :
    Orderly prog publish succeeds key row first (cfg.finish i phase) := by
  have hkeep : ∀ {j : ι}, j ≠ i → (j, key) ∈ cfg.keyLocks →
      (j, key) ∈ (cfg.finish i phase).keyLocks := by
    intro j hji hmem
    exact List.mem_filter.2 ⟨hmem, by simpa using hji⟩
  refine ⟨h.serial, h.seen, fun held hheld => ?_, fun held hheld other hother => ?_,
    fun held hheld => h.keys held (List.mem_of_mem_filter hheld),
    fun held hheld other hother => h.oneKey held (List.mem_of_mem_filter hheld) other
      (List.mem_of_mem_filter hother), fun j hj => ?_, fun j p hp hj => ?_⟩
  · obtain ⟨hmem, hne⟩ := List.mem_filter.1 hheld
    obtain ⟨hrow, hkey⟩ := h.rows held hmem
    exact ⟨hrow, fun hm => hkeep (by simpa using hne) (hkey hm)⟩
  · exact h.oneRow held (List.mem_of_mem_filter hheld) other (List.mem_of_mem_filter hother)
  · obtain ⟨held, hheld, rfl⟩ := hj
    obtain ⟨hmem, hne⟩ := List.mem_filter.1 hheld
    have hji : held.1 ≠ i := by simpa using hne
    obtain ⟨p, hp, hplain, hrun⟩ := h.holder held.1 ⟨held, hmem, rfl⟩
    exact ⟨p, by simpa [Config.finish, hji] using hp, hplain, hrun⟩
  · have hji : j ≠ i := by
      rintro rfl
      exact hend p (by simpa [Config.finish] using hp)
    have hp' : cfg.phase j = .running p := by simpa [Config.finish, hji] using hp
    refine (h.waiting j p hp' fun hheld => hj ?_).congr rfl (hkeep hji)
    obtain ⟨held, hmem, rfl⟩ := hheld
    exact ⟨held, List.mem_filter.2 ⟨hmem, by simpa using hji⟩, rfl⟩

/-- **A commit is the transaction run alone** where it succeeds, and
changes nothing where it does not. -/
theorem Orderly.commit (hquiet : ∀ a s, succeeds a = false → publish a s = s) {a : α}
    (hphase : cfg.phase i = .running (.ret a)) :
    Orderly prog publish succeeds key row first (cfg.commit publish i a) ∧
      ∃ commits, Serial prog publish cfg.shared commits (publish a cfg.shared) := by
  have hfin : Orderly prog publish succeeds key row first (cfg.finish i (.committed a)) :=
    h.finish (by simp)
  by_cases hsucc : succeeds a = true
  · -- success is the holder's, and the holder is alone
    have hi : Holds cfg i := by
      by_contra hnot
      rw [(h.waiting i _ hphase hnot).succeeds_eq_false] at hsucc
      cases hsucc
    have hrun : a = (prog i).run cfg.shared := by
      obtain ⟨p, hp, -, hrun⟩ := h.holder i hi
      obtain rfl : Tx.ret a = p := Phase.running.inj (hphase.symm.trans hp)
      exact hrun hsucc
    have hnone : ∀ j, ¬ Holds (cfg.finish i (.committed a)) j := by
      rintro j ⟨held, hheld, rfl⟩
      obtain ⟨hmem, hne⟩ := List.mem_filter.1 hheld
      obtain ⟨mine, hmine, rfl⟩ := hi
      exact absurd (h.oneRow held hmem mine hmine) (by simpa using hne)
    have hone : Serial prog publish cfg.shared [(i, a)] (publish a cfg.shared) := by
      rw [hrun]
      exact Serial.nil.snoc
    refine ⟨⟨?_, fun j s hread => ?_, hfin.rows, hfin.oneRow, hfin.keys, hfin.oneKey,
      fun j hj => absurd hj (hnone j), fun j p hp hj => ?_⟩, _, hone⟩
    · have hfilter : (cfg.commit publish i a).history.filter (fun h => succeeds h.2) =
          cfg.history.filter (fun h => succeeds h.2) ++ [(i, a)] := by
        simp [Config.commit, hsucc]
      rw [hfilter]
      exact h.serial.trans hone
    · obtain ⟨before, after, hbefore, hafter⟩ := h.seen j s hread
      exact ⟨before, _, hbefore, hafter.trans hone⟩
    · exact (hfin.waiting j p hp hj).congr rfl id
  · have hsucc' : succeeds a = false := by simpa using hsucc
    have hsame : publish a cfg.shared = cfg.shared := hquiet a cfg.shared hsucc'
    have hfilter : (cfg.commit publish i a).history.filter (fun h => succeeds h.2) =
        cfg.history.filter (fun h => succeeds h.2) := by
      simp [Config.commit, hsucc']
    have hshared : (cfg.commit publish i a).shared = cfg.shared := hsame
    refine ⟨⟨?_, ?_, hfin.rows, hfin.oneRow, hfin.keys, hfin.oneKey, ?_, fun j p hp hj => ?_⟩,
      [], by rw [hsame]; exact Serial.nil⟩
    · rw [hfilter, hshared]
      exact h.serial
    · rw [hshared]
      exact h.seen
    · rw [hshared]
      exact hfin.holder
    · exact (hfin.waiting j p hp hj).congr rfl id

variable [DecidableEq ρ] [DecidableEq κ]

/-- **One step keeps a run orderly**, where the lock it takes is fresh. -/
theorem Orderly.step (hquiet : ∀ a s, succeeds a = false → publish a s = s) {e : Event ι}
    (hfresh : Fresh prog succeeds row cfg e) (hstep : cfg.step publish e = some next) :
    Orderly prog publish succeeds key row first next ∧
      ∃ commits, Serial prog publish cfg.shared commits next.shared := by
  have hidle : ∃ commits, Serial prog publish cfg.shared commits cfg.shared := ⟨[], Serial.nil⟩
  rcases e with i | i
  · simp only [Config.step, Config.advance] at hstep
    rcases hphase : cfg.phase i with (a | rest | ⟨r, mode, p⟩ | ⟨k, rest⟩) | a | _ <;>
      rw [hphase] at hstep <;> simp only [reduceCtorEq, Option.some.injEq] at hstep
    · subst hstep
      exact h.commit hquiet hphase
    · subst hstep
      exact ⟨h.read hphase, hidle⟩
    · split at hstep
      · rename_i hfree
        cases hstep
        exact ⟨h.lock hphase hfree hfresh, hidle⟩
      · cases hstep
    · split at hstep
      · rename_i hfree
        cases hstep
        exact ⟨h.tryLock_true hphase hfree, hidle⟩
      · cases hstep
        exact ⟨h.tryLock_false hphase, hidle⟩
  · simp only [Config.step] at hstep
    split at hstep
    · cases hstep
      exact ⟨h.finish (by simp), hidle⟩
    · cases hstep

/-- **A run is orderly all along**, where each step's condition makes the
lock it takes fresh, and what it commits is serial. -/
theorem Orderly.run (hquiet : ∀ a s, succeeds a = false → publish a s = s)
    {Meets : Config ι σ ρ κ α → Event ι → Prop}
    (hmeets : ∀ cfg e, Orderly prog publish succeeds key row first cfg → Meets cfg e →
      Fresh prog succeeds row cfg e)
    (hrun : Run publish Meets cfg next) :
    Orderly prog publish succeeds key row first next ∧
      ∃ commits, Serial prog publish cfg.shared commits next.shared := by
  induction hrun with
  | refl => exact ⟨h, [], Serial.nil⟩
  | tail _ hm hstep ih =>
    obtain ⟨hord, commits, hserial⟩ := ih
    obtain ⟨hnext, more, hmore⟩ := hord.step hquiet (hmeets _ _ hord hm) hstep
    exact ⟨hnext, _, hserial.trans hmore⟩

end Steps

end Orderly

end Lib
