import SchemaSentry.Lib.Readers
import SchemaSentry.Store.Session
/-!
# Schema Sentry — what a session's writes keep

A relation between tables that every write of a program keeps to is kept
to by what its session has pending at the end, however it ends and
whatever its statements saw on the way.
-/

namespace SchemaSentry

open Lib

namespace DbM

variable {α β : Type} {later : DB → DB → Prop}

/-- What a program leaves pending leads to later tables, if what it found
pending does. -/
def Leads (later : DB → DB → Prop) (x : DbM α) : Prop :=
  ∀ s, (∀ db, later db (s.pending db)) → (x s).Ends fun r => ∀ db, later db (r.2.pending db)

theorem leads_pure (a : α) : Leads later (Pure.pure a : DbM α) := fun _ hs => hs

theorem leads_raise (e : PyException) : Leads later (raise e : DbM α) := fun _ hs => hs

theorem Leads.bind {x : DbM α} {f : α → DbM β} (hx : Leads later x)
    (hf : ∀ a, Leads later (f a)) : Leads later (x >>= f) := by
  intro s hs
  refine Tx.Ends.bind (hx s hs) ?_
  rintro ⟨e | a, t⟩ ht
  · exact ht
  · exact hf a t ht

theorem Leads.tryExcept {x : DbM α} {handler : PyException → DbM α} (hx : Leads later x)
    (hh : ∀ e, Leads later (handler e)) : Leads later (DbM.tryExcept x handler) := by
  intro s hs
  refine Tx.Ends.bind (hx s hs) ?_
  rintro ⟨e | a, t⟩ ht
  · exact hh e t ht
  · exact ht

theorem leads_select (query : DB → α) : Leads later (select query) := by
  intro s hs db
  show (ite _ _ _ : Tx DB Uuid String (Except PyException α × Session)).Ends _
  split <;> exact hs

theorem leads_flush : Leads later flush := leads_select _

theorem leads_write (htrans : ∀ s t u, later s t → later t u → later s u) {f : DB → DB}
    (hf : ∀ db, later db (f db)) : Leads later (write f) :=
  fun s hs db => htrans _ _ _ (hs db) (hf (s.pending db))

theorem leads_lockSource (sourceId : Uuid) (mode : LockMode) :
    Leads later (lockSource sourceId mode) := fun _ hs => hs

theorem leads_tryKey (sourceKey : String) : Leads later (tryKey sourceKey) := fun _ hs _ => hs

theorem leads_identify (row : DataSourceModel) : Leads later (identify row) := by
  intro s hs
  unfold identify
  split <;> exact hs

theorem leads_ofExcept (x : Except PyException α) : Leads later (ofExcept x) := by
  rcases x with e | a
  · exact leads_raise e
  · exact leads_pure a

/-- What a program leaves pending when it starts with nothing pending. -/
theorem Leads.of_new {x : DbM α} (hx : Leads later x) (hrefl : ∀ db, later db db) :
    (x Session.new).Ends fun r => ∀ db, later db (r.2.pending db) := hx Session.new hrefl

end DbM

end SchemaSentry
