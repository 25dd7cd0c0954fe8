import SchemaSentry.Lib.Excepts
import SchemaSentry.Lib.Transaction
import SchemaSentry.Store.Tables
/-!
# Schema Sentry — the session

A database session as a monad: statements of a transaction, writes that
wait in the session until it commits, and exceptions. A statement first
flushes what is pending, which fails where the rows would break a
constraint, and goes on failing as long as they are pending. A source's
row is an identity-mapped object: loaded again, it keeps the attributes
first read.
-/

namespace SchemaSentry

open Lib

/-! ## Exceptions -/

/-- The exceptions of the program by their class, and any other by its
class's name. -/
inductive PyException where
  | scanAlreadyRunning (sourceKey : String)
  | sourceNotFound (sourceKey : String)
  | emptySchemaSnapshot (sourceKey : String)
  | changeNotFound (changeId : Uuid)
  | baselineVersionConflict (expected actual : ℤ)
  | catalogValidationError (message : String)
  | httpException (statusCode : ℕ)
  | lookupError (message : String)
  | keyError (key : String)
  | valueError (message : String)
  | typeError (message : String)
  | osError (className : String)
  | psycopgError (className : String)
  | sqlAlchemyError
  | other (className : String)
  deriving DecidableEq, Repr

/-- `type(exc).__name__`. -/
def PyException.typeName : PyException → String
  | .scanAlreadyRunning _ => "ScanAlreadyRunning"
  | .sourceNotFound _ => "SourceNotFound"
  | .emptySchemaSnapshot _ => "EmptySchemaSnapshot"
  | .changeNotFound _ => "ChangeNotFound"
  | .baselineVersionConflict _ _ => "BaselineVersionConflict"
  | .catalogValidationError _ => "CatalogValidationError"
  | .httpException _ => "HTTPException"
  | .lookupError _ => "LookupError"
  | .keyError _ => "KeyError"
  | .valueError _ => "ValueError"
  | .typeError _ => "TypeError"
  | .osError className => className
  | .psycopgError className => className
  | .sqlAlchemyError => "SQLAlchemyError"
  | .other className => className

/-! ## The monad -/

/-- What a session holds: the writes not committed, and the source objects
as they were first read. -/
structure Session where
  pending : DB → DB
  sources : List DataSourceModel

/-- A session just opened. -/
def Session.new : Session := { pending := id, sources := [] }

/-- A program over a session: a transaction that ends in a result or an
exception and in the session as it is then. -/
def DbM (α : Type) : Type := Session → Tx DB Uuid String (Except PyException α × Session)

namespace DbM

variable {α β : Type}

protected def pure (a : α) : DbM α := fun s => .ret (.ok a, s)

protected def bind (x : DbM α) (f : α → DbM β) : DbM β := fun s =>
  (x s).bind fun r =>
    match r.1 with
    | .ok a => f a r.2
    | .error e => .ret (.error e, r.2)

instance : Monad DbM where
  pure := DbM.pure
  bind := DbM.bind

/-- `raise`. -/
def raise (e : PyException) : DbM α := fun s => .ret (.error e, s)

/-- `try ... except Exception as exc: handler`: the session is as the
exception left it. -/
def tryExcept (x : DbM α) (handler : PyException → DbM α) : DbM α := fun s =>
  (x s).bind fun r =>
    match r.1 with
    | .ok a => .ret (.ok a, r.2)
    | .error e => handler e r.2

/-- A query, after a flush. -/
def select (query : DB → α) : DbM α := fun s =>
  .read fun db =>
    if (s.pending db).Constraints then .ret (.ok (query (s.pending db)), s)
    else .ret (.error .sqlAlchemyError, s)

def flush : DbM Unit := select fun _ => ()

/-- A write that waits in the session. -/
def write (f : DB → DB) : DbM Unit := fun s =>
  .ret (.ok (), { s with pending := fun db => f (s.pending db) })

/-- A lock on a `data_sources` row. -/
def lockSource (sourceId : Uuid) (mode : LockMode) : DbM Unit := fun s =>
  .lock sourceId mode (.ret (.ok (), s))

/-- `pg_try_advisory_xact_lock`. -/
def tryKey (sourceKey : String) : DbM Bool := fun s =>
  .tryLock sourceKey fun acquired => .ret (.ok acquired, s)

/-- The session's object for a source row that has been read. -/
def identify (row : DataSourceModel) : DbM DataSourceModel := fun s =>
  match s.sources.find? fun seen => seen.id = row.id with
  | some seen => .ret (.ok seen, s)
  | none => .ret (.ok row, { s with sources := row :: s.sources })

/-- A result computed without the database. -/
def ofExcept : Except PyException α → DbM α
  | .ok a => pure a
  | .error e => raise e

/-- The result of a session program run alone. -/
def exec (x : DbM α) (db : DB) (s : Session) : Except PyException α × Session := (x s).run db

/-! ## Running alone -/

variable {db : DB} {s t : Session} {a : α} {b : β} {e : PyException}

theorem exec_pure : exec (Pure.pure a : DbM α) db s = (.ok a, s) := rfl

theorem exec_bind (x : DbM α) (f : α → DbM β) :
    exec (x >>= f) db s =
      match exec x db s with
      | (.ok a, t) => exec (f a) db t
      | (.error e, t) => (.error e, t) := by
  show (DbM.bind x f s).run db = _
  rw [DbM.bind, Tx.run_bind, exec]
  rcases (x s).run db with ⟨a | e, t⟩ <;> rfl

theorem exec_raise : exec (raise e : DbM α) db s = (.error e, s) := rfl

theorem exec_tryExcept (x : DbM α) (handler : PyException → DbM α) :
    exec (tryExcept x handler) db s =
      match exec x db s with
      | (.ok a, t) => (.ok a, t)
      | (.error e, t) => exec (handler e) db t := by
  show (DbM.tryExcept x handler s).run db = _
  rw [DbM.tryExcept, Tx.run_bind, exec]
  rcases (x s).run db with ⟨a | e, t⟩ <;> rfl

theorem exec_select (query : DB → α) :
    exec (select query) db s =
      if (s.pending db).Constraints then (.ok (query (s.pending db)), s)
      else (.error .sqlAlchemyError, s) := by
  rw [exec, select, Tx.run_read]
  split <;> rfl

theorem exec_write (f : DB → DB) :
    exec (write f) db s = (.ok (), { s with pending := fun db => f (s.pending db) }) := rfl

theorem exec_lockSource (sourceId : Uuid) (mode : LockMode) :
    exec (lockSource sourceId mode) db s = (.ok (), s) := rfl

theorem exec_tryKey (sourceKey : String) : exec (tryKey sourceKey) db s = (.ok true, s) := rfl

theorem exec_ofExcept_ok : exec (ofExcept (.ok a : Except PyException α)) db s = (.ok a, s) := rfl

theorem exec_ofExcept_error :
    exec (ofExcept (.error e : Except PyException α)) db s = (.error e, s) := rfl

/-! ## Returning -/

/-- The program returns a value and leaves the session so. -/
def Returns (x : DbM α) (db : DB) (s : Session) (a : α) (t : Session) : Prop :=
  exec x db s = (.ok a, t)

theorem returns_pure {c : α} : Returns (Pure.pure c : DbM α) db s a t ↔ a = c ∧ t = s := by
  simp [Returns, exec_pure, eq_comm]

/-- **What a sequence returns its parts return.** -/
theorem returns_bind {x : DbM α} {f : α → DbM β} :
    Returns (x >>= f) db s b t ↔ ∃ a u, Returns x db s a u ∧ Returns (f a) db u b t := by
  simp only [Returns, exec_bind]
  rcases hx : exec x db s with ⟨a | e, u⟩
  · simp
  · simp

theorem not_returns_raise : ¬ Returns (raise e : DbM α) db s a t := by
  simp [Returns, exec_raise]

theorem returns_select {query : DB → α} :
    Returns (select query) db s a t ↔
      (s.pending db).Constraints ∧ a = query (s.pending db) ∧ t = s := by
  rw [Returns, exec_select]
  split
  · rename_i h
    simp [h, eq_comm]
  · rename_i h
    simp [h]

theorem returns_flush {u : Unit} :
    Returns flush db s u t ↔ (s.pending db).Constraints ∧ t = s := by
  simp [flush, returns_select]

theorem returns_write {f : DB → DB} {u : Unit} :
    Returns (write f) db s u t ↔ t = { s with pending := fun db => f (s.pending db) } := by
  simp [Returns, exec_write, eq_comm]

theorem returns_lockSource {sourceId : Uuid} {mode : LockMode} {u : Unit} :
    Returns (lockSource sourceId mode) db s u t ↔ t = s := by
  simp [Returns, exec_lockSource, eq_comm]

theorem returns_ofExcept {x : Except PyException α} :
    Returns (ofExcept x) db s a t ↔ x = .ok a ∧ t = s := by
  rcases x with e | c
  · simp [Returns, exec_ofExcept_error]
  · simp [Returns, exec_ofExcept_ok, eq_comm]

/-- A sequence returns where its first part does and the rest does from
there. -/
theorem exists_returns_bind {x : DbM α} {f : α → DbM β} {a : α} {b : β} {u : Session}
    (hx : Returns x db s a u) (hrest : ∃ t, Returns (f a) db u b t) :
    ∃ t, Returns (x >>= f) db s b t := by
  obtain ⟨t, ht⟩ := hrest
  exact ⟨t, returns_bind.2 ⟨a, u, hx, ht⟩⟩

theorem returns_wrote {f : DB → DB} :
    Returns (write f) db s () { s with pending := fun db => f (s.pending db) } :=
  returns_write.2 rfl

theorem returns_flushed (hc : (s.pending db).Constraints) : Returns flush db s () s :=
  returns_flush.2 ⟨hc, rfl⟩

/-! ## Raising -/

/-- The program raises and leaves the session so. -/
def Raises (x : DbM α) (db : DB) (s : Session) (e : PyException) (t : Session) : Prop :=
  exec x db s = (.error e, t)

theorem not_raises_pure {c : α} : ¬ Raises (Pure.pure c : DbM α) db s e t := by
  simp [Raises, exec_pure]

/-- **A sequence raises in its first part or after it.** -/
theorem raises_bind {x : DbM α} {f : α → DbM β} :
    Raises (x >>= f) db s e t ↔
      Raises x db s e t ∨ ∃ a u, Returns x db s a u ∧ Raises (f a) db u e t := by
  simp only [Raises, Returns, exec_bind]
  rcases hx : exec x db s with ⟨a | e', u⟩
  · simp
  · simp

theorem raises_raise {e' : PyException} :
    Raises (raise e' : DbM α) db s e t ↔ e = e' ∧ t = s := by
  simp [Raises, exec_raise, eq_comm]

theorem raises_select {query : DB → α} :
    Raises (select query) db s e t ↔
      ¬ (s.pending db).Constraints ∧ e = .sqlAlchemyError ∧ t = s := by
  rw [Raises, exec_select]
  split
  · rename_i h
    simp [h]
  · rename_i h
    simp [h, eq_comm]

theorem raises_flush :
    Raises flush db s e t ↔ ¬ (s.pending db).Constraints ∧ e = .sqlAlchemyError ∧ t = s :=
  raises_select

theorem not_raises_write {f : DB → DB} : ¬ Raises (write f) db s e t := by
  simp [Raises, exec_write]

theorem not_raises_lockSource {sourceId : Uuid} {mode : LockMode} :
    ¬ Raises (lockSource sourceId mode) db s e t := by
  simp [Raises, exec_lockSource]

theorem raises_ofExcept {x : Except PyException α} :
    Raises (ofExcept x) db s e t ↔ x = .error e ∧ t = s := by
  rcases x with e' | c
  · simp [Raises, exec_ofExcept_error, eq_comm]
  · simp [Raises, exec_ofExcept_ok]

/-- A program returns or raises. -/
theorem returns_or_raises (x : DbM α) (db : DB) (s : Session) :
    (∃ a t, Returns x db s a t) ∨ ∃ e t, Raises x db s e t := by
  rcases hx : exec x db s with ⟨e | a, t⟩
  · exact Or.inr ⟨e, t, hx⟩
  · exact Or.inl ⟨a, t, hx⟩

/-! ## Statements only -/

/-- The program takes no locks, whatever session it starts from. -/
def Plain (x : DbM α) : Prop := ∀ s, (x s).Plain

theorem plain_pure : Plain (Pure.pure a : DbM α) := fun _ => trivial

theorem plain_raise : Plain (raise e : DbM α) := fun _ => trivial

theorem Plain.bind {x : DbM α} {f : α → DbM β} (hx : Plain x) (hf : ∀ a, Plain (f a)) :
    Plain (x >>= f) := by
  intro s
  refine Tx.Plain.bind (hx s) ?_
  rintro ⟨a | e, t⟩
  · trivial
  · exact hf _ t

theorem Plain.tryExcept {x : DbM α} {handler : PyException → DbM α} (hx : Plain x)
    (hh : ∀ e, Plain (handler e)) : Plain (DbM.tryExcept x handler) := by
  intro s
  refine Tx.Plain.bind (hx s) ?_
  rintro ⟨a | e, t⟩
  · exact hh _ t
  · trivial

theorem plain_select (query : DB → α) : Plain (select query) := by
  intro s db
  show (ite _ _ _ : Tx DB Uuid String (Except PyException α × Session)).Plain
  split <;> trivial

theorem plain_write (f : DB → DB) : Plain (write f) := fun _ => trivial

theorem plain_identify (row : DataSourceModel) : Plain (identify row) := by
  intro s
  unfold identify
  split <;> trivial

theorem plain_ofExcept (x : Except PyException α) : Plain (ofExcept x) := by
  rcases x with e | a
  · exact plain_raise
  · exact plain_pure

end DbM

end SchemaSentry
