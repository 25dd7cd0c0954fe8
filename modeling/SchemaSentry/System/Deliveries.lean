import SchemaSentry.System.Dispatch
/-!
# Schema Sentry — calls of the notification service

Dispatches and retries side by side. A call lists its deliveries, takes
them one by one, each once no other call has its row locked, and ends by
committing or rolling back; what it hands to a notifier is handed at that
moment. `Consistent` holds in every state of a run, as each step keeps it
(`World.Consistent.apply`).
-/

namespace SchemaSentry

open Lib DbM

/-! ## Calls -/

/-- The ways into the service. -/
inductive Entry where
  | dispatch (scanId : Uuid)
  | retry (deliveryId : Uuid)
  deriving DecidableEq, Repr

/-- The deliveries a call is to attempt, listed before any is locked. -/
def Entry.listed (db : DB) : Entry → List Uuid
  | .dispatch scanId => db.dispatchable scanId
  | .retry deliveryId => [deliveryId]

/-- A call under way: the deliveries to come, its session, and what it has
raised. -/
structure Call where
  entry : Entry
  env : Notifications
  now : Timestamp
  todo : List Uuid
  session : AlertSession
  raised : Option AlertException

/-- What a call commits at its end. -/
def Call.publish (c : Call) (db : DB) : DB :=
  match c.entry, c.raised with
  | _, none => c.session.session.pending db
  | .dispatch _, some _ => db
  | .retry _, some e => if e.retryCommits then c.session.session.pending db else db

/-- What is committed, the calls under way, the rows they have locked, and
the messages handed out so far. -/
structure World where
  db : DB
  calls : ℕ → Option Call
  locks : List (ℕ × Uuid)
  log : List Handed

/-- No call is under way. -/
def World.init (db : DB) : World := { db := db, calls := fun _ => none, locks := [], log := [] }

/-- A call begins, takes its next delivery, or ends. -/
inductive CallStep where
  | enter (n : ℕ) (entry : Entry) (env : Notifications) (now : Timestamp)
  | turn (n : ℕ)
  | leave (n : ℕ)

namespace World

/-- No other call has the row locked. -/
def Free (w : World) (n : ℕ) (id : Uuid) : Prop := ∀ held ∈ w.locks, held.2 = id → held.1 = n

instance (w : World) (n : ℕ) (id : Uuid) : Decidable (w.Free n id) :=
  inferInstanceAs (Decidable (∀ _ ∈ _, _ → _))

def setCall (w : World) (n : ℕ) (c : Option Call) : World :=
  { w with calls := Function.update w.calls n c }

/-- A call's attempt on a delivery it has just locked. -/
def attempted (w : World) (n : ℕ) (c : Call) (id : Uuid) (rest : List Uuid) : World :=
  let outcome := AlertM.exec (attempt c.env id c.now) w.db c.session
  { db := w.db
    calls := Function.update w.calls n (some { c with
      todo := match outcome.1 with | .ok _ => rest | .error _ => []
      session := outcome.2
      raised := match outcome.1 with | .ok _ => none | .error e => some e })
    locks := if (w.db.delivery? id).isSome then (n, id) :: w.locks else w.locks
    log := w.log ++ outcome.2.handed.drop c.session.handed.length }

/-- A call's end: it commits or rolls back, and its locks are free. -/
def left (w : World) (n : ℕ) (c : Call) : World :=
  { db := c.publish w.db
    calls := Function.update w.calls n none
    locks := w.locks.filter fun held => held.1 ≠ n
    log := w.log }

/-- A step; one that is not possible changes nothing. -/
def apply : CallStep → World → World
  | .enter n entry env now, w =>
    if (w.calls n).isSome then w
    else w.setCall n (some
      { entry := entry, env := env, now := now, todo := entry.listed w.db
        session := AlertSession.new, raised := none })
  | .turn n, w =>
    match w.calls n with
    | none => w
    | some c =>
      match c.todo with
      | [] => w
      | id :: rest => if w.Free n id then w.attempted n c id rest else w
  | .leave n, w =>
    match w.calls n with
    | none => w
    | some c =>
      if c.todo = [] then w.left n c else w

/-- The call whose turn has come, and the delivery it would take. -/
def next? (w : World) (n : ℕ) : Option (Call × Uuid) :=
  match w.calls n with
  | none => none
  | some c =>
    match c.todo with
    | [] => none
    | id :: _ => if w.Free n id then some (c, id) else none

theorem forall_next? {w : World} {n : ℕ} {P : Call → Uuid → Prop} :
    (∀ x ∈ w.next? n, P x.1 x.2) ↔
      ∀ c id rest, w.calls n = some c → c.todo = id :: rest → w.Free n id → P c id := by
  unfold next?
  constructor
  · intro h c id rest hcall htodo hfree
    simp only [hcall, htodo, if_pos hfree] at h
    exact h (c, id) rfl
  · intro h x hx
    split at hx
    · cases hx
    · rename_i c hcall
      split at hx
      · cases hx
      · rename_i id rest htodo
        split at hx
        · rename_i hfree
          obtain rfl := Option.some.inj hx
          exact h c id rest hcall htodo hfree
        · cases hx

end World

/-! ## Consistency -/

variable {w : World} {n : ℕ} {c : Call} {id : Uuid}

/-- What holds all along a run: a call's session holds the outcomes of the
messages it has handed out, no delivery comes twice in it, and it has the
rows of those messages locked, which no other call has. -/
structure World.Consistent (w : World) : Prop where
  constraints : w.db.Constraints
  keys : (w.db.alertDeliveries.map AlertDeliveryModel.id).Nodup
  session : ∀ n c, w.calls n = some c → c.session = AlertSession.new.afterAll c.session.handed
  once : ∀ n c, w.calls n = some c → (c.session.handed.map Handed.deliveryId ++ c.todo).Nodup
  locked : ∀ n c, w.calls n = some c → ∀ h ∈ c.session.handed, (n, h.deliveryId) ∈ w.locks
  oneHolder : ∀ held ∈ w.locks, ∀ other ∈ w.locks, held.2 = other.2 → held.1 = other.1

theorem consistent_init {db : DB} (hc : db.Constraints)
    (hkeys : (db.alertDeliveries.map AlertDeliveryModel.id).Nodup) :
    (World.init db).Consistent where
  constraints := hc
  keys := hkeys
  session := fun _ _ h => nomatch h
  once := fun _ _ h => nomatch h
  locked := fun _ _ h => nomatch h
  oneHolder := fun _ h => nomatch h

/-- Sessions that hold messages' outcomes keep the tables' constraints. -/
theorem constraints_afterAll {db : DB} {s : AlertSession} (hs : List Handed)
    (hc : (s.session.pending db).Constraints) :
    ((s.afterAll hs).session.pending db).Constraints := by
  induction hs generalizing s with
  | nil => exact hc
  | cons h rest ih =>
    show (((s.after h).afterAll rest).session.pending db).Constraints
    exact ih (constraints_updateDelivery hc h.keepsIdentity_written)

theorem ids_updateDelivery {db : DB} {f : AlertDeliveryModel → AlertDeliveryModel}
    (hf : KeepsIdentity f) : (db.updateDelivery id f).alertDeliveries.map AlertDeliveryModel.id =
      db.alertDeliveries.map AlertDeliveryModel.id := by
  simp only [DB.updateDelivery, List.map_map]
  exact List.map_congr_left fun d _ => (hf.only id).id d

theorem ids_afterAll {db : DB} {s : AlertSession} (hs : List Handed) :
    ((s.afterAll hs).session.pending db).alertDeliveries.map AlertDeliveryModel.id =
      (s.session.pending db).alertDeliveries.map AlertDeliveryModel.id := by
  induction hs generalizing s with
  | nil => rfl
  | cons h rest ih =>
    show (((s.after h).afterAll rest).session.pending db).alertDeliveries.map _ = _
    rw [ih]
    exact ids_updateDelivery h.keepsIdentity_written

/-- What is handed out of a delivery none of the messages is of. -/
theorem hand?_afterAll_of_not_mem {db : DB} {s : AlertSession} {hs : List Handed}
    {env : Notifications} {now : Timestamp} (hid : id ∉ hs.map Handed.deliveryId) :
    ((s.afterAll hs).session.pending db).hand? env now id =
      (s.session.pending db).hand? env now id := by
  induction hs generalizing s with
  | nil => rfl
  | cons h rest ih =>
    rw [List.map_cons, List.mem_cons, not_or] at hid
    show (((s.after h).afterAll rest).session.pending db).hand? env now id = _
    rw [ih hid.2]
    exact hand?_updateDelivery_of_ne h.keepsIdentity_written hid.1

/-- A call after one of them was set. -/
theorem calls_update {calls : ℕ → Option Call} {v : Option Call} {m : ℕ} {d : Call}
    (h : Function.update calls n v m = some d) :
    (m = n ∧ v = some d) ∨ (m ≠ n ∧ calls m = some d) := by
  by_cases hmn : m = n
  · subst hmn
    exact Or.inl ⟨rfl, by simpa using h⟩
  · exact Or.inr ⟨hmn, by simpa [hmn] using h⟩

/-! ## What a turn does -/

/-- What a call's turn makes of it. -/
inductive Turned (w : World) (c : Call) (id : Uuid) (rest : List Uuid) : Call → List Handed → Prop
  | passed {h : Handed} : w.db.hand? c.env c.now id = some h → h.outcome.Writable →
      Turned w c id rest { c with todo := rest, session := c.session.after h, raised := none } [h]
  | stopped {h : Handed} {e : AlertException} : w.db.hand? c.env c.now id = some h →
      ¬ h.outcome.Writable →
      Turned w c id rest { c with todo := [], session := c.session.after h, raised := some e } [h]
  | refused {e : AlertException} : w.db.hand? c.env c.now id = none →
      Turned w c id rest { c with todo := [], raised := some e } []

/-- **A turn hands out one message at most**, and the call goes on or has
raised. -/
theorem attempted_cases (hw : w.Consistent) (hcall : w.calls n = some c) {rest : List Uuid}
    (htodo : c.todo = id :: rest) :
    ∃ c' handed, Turned w c id rest c' handed ∧ w.attempted n c id rest =
      { db := w.db, calls := Function.update w.calls n (some c')
        locks := if (w.db.delivery? id).isSome then (n, id) :: w.locks else w.locks
        log := w.log ++ handed } := by
  have hsession := hw.session n c hcall
  have hc : (c.session.session.pending w.db).Constraints := by
    rw [hsession]
    exact constraints_afterAll _ hw.constraints
  have hid : id ∉ c.session.handed.map Handed.deliveryId := by
    have honce := hw.once n c hcall
    rw [htodo] at honce
    exact fun hmem => (List.nodup_append.1 honce).2.2 id hmem id List.mem_cons_self rfl
  have hhand : (c.session.session.pending w.db).hand? c.env c.now id =
      w.db.hand? c.env c.now id := by
    rw [hsession]
    exact hand?_afterAll_of_not_mem hid
  unfold World.attempted
  rcases exec_attempt c.env c.now id hc with ⟨h, hh, hexec⟩ |
    ⟨hh, e, hexec⟩
  · have hlog : (c.session.after h).handed.drop c.session.handed.length = [h] :=
      List.drop_left
    rw [hhand] at hh
    rcases hr : h.result with e | r
    · have hw' : ¬ h.outcome.Writable := by
        intro hok
        obtain ⟨r, hr'⟩ := Handed.exists_result_ok_iff.2 hok
        rw [hr] at hr'
        cases hr'
      refine ⟨_, _, .stopped (e := e) hh hw', ?_⟩
      simp only [hexec, hr, hlog]
    · refine ⟨_, _, .passed hh (Handed.exists_result_ok_iff.1 ⟨r, hr⟩), ?_⟩
      simp only [hexec, hr, hlog]
  · rw [hhand] at hh
    refine ⟨_, _, .refused (e := e) hh, ?_⟩
    simp only [hexec, List.drop_length]

section Turns

variable {c' : Call} {rest : List Uuid} {handed : List Handed}

theorem Turned.handed_eq (h : Turned w c id rest c' handed) :
    c'.session.handed = c.session.handed ++ handed := by
  rcases h with ⟨-, -⟩ | ⟨-, -⟩ | -
  · rfl
  · rfl
  · exact (List.append_nil _).symm

/-- A message of a turn is the delivery's, whose row is there. -/
theorem Turned.of_mem (h : Turned w c id rest c' handed) {message : Handed}
    (hmem : message ∈ handed) : w.db.hand? c.env c.now id = some message ∧
      message.deliveryId = id ∧ (w.db.delivery? id).isSome := by
  have hone : ∀ {message' : Handed}, w.db.hand? c.env c.now id = some message' →
      message ∈ [message'] → w.db.hand? c.env c.now id = some message ∧
        message.deliveryId = id ∧ (w.db.delivery? id).isSome := by
    intro message' hhand hmem
    obtain rfl := List.mem_singleton.1 hmem
    obtain ⟨row, _, _, hready, -⟩ := exists_ready_of_hand? hhand
    refine ⟨hhand, deliveryId_of_hand? hhand, ?_⟩
    rw [hready.found]
    rfl
  rcases h with ⟨hhand, -⟩ | ⟨hhand, -⟩ | -
  · exact hone hhand hmem
  · exact hone hhand hmem
  · cases hmem

theorem Turned.eq_singleton (h : Turned w c id rest c' handed) {message : Handed}
    (hmem : message ∈ handed) : handed = [message] := by
  rcases h with ⟨-, -⟩ | ⟨-, -⟩ | -
  · rw [List.mem_singleton.1 hmem]
  · rw [List.mem_singleton.1 hmem]
  · cases hmem

theorem afterAll_append (s : AlertSession) (hs : List Handed) (h : Handed) :
    s.afterAll (hs ++ [h]) = (s.afterAll hs).after h := by
  unfold AlertSession.afterAll
  rw [List.foldl_append]
  rfl

theorem Turned.session_eq (h : Turned w c id rest c' handed)
    (hs : c.session = AlertSession.new.afterAll c.session.handed) :
    c'.session = AlertSession.new.afterAll c'.session.handed := by
  have hafter : ∀ message, c.session.after message =
      AlertSession.new.afterAll (c.session.after message).handed := by
    intro message
    show _ = AlertSession.new.afterAll (c.session.handed ++ [message])
    rw [afterAll_append, ← hs]
  rcases h with ⟨-, -⟩ | ⟨-, -⟩ | -
  · exact hafter _
  · exact hafter _
  · exact hs

theorem Turned.once (h : Turned w c id rest c' handed)
    (honce : (c.session.handed.map Handed.deliveryId ++ id :: rest).Nodup) :
    (c'.session.handed.map Handed.deliveryId ++ c'.todo).Nodup := by
  have hafter : ∀ message : Handed, message.deliveryId = id →
      ((c.session.after message).handed.map Handed.deliveryId ++ rest).Nodup := by
    intro message hid
    show ((c.session.handed ++ [message]).map Handed.deliveryId ++ rest).Nodup
    rw [List.map_append, List.append_assoc, List.map_singleton, hid]
    exact honce
  rcases h with ⟨hhand, -⟩ | ⟨hhand, -⟩ | -
  · exact hafter _ (deliveryId_of_hand? hhand)
  · have hnodup := hafter _ (deliveryId_of_hand? hhand)
    simp only [List.append_nil]
    exact (List.nodup_append.1 hnodup).1
  · simp only [List.append_nil]
    exact (List.nodup_append.1 honce).1

end Turns

/-- A turn changes the turning call, its lock and the log only. -/
theorem World.Consistent.attempted (hw : w.Consistent) (hcall : w.calls n = some c) {rest : List Uuid}
    (htodo : c.todo = id :: rest) (hfree : w.Free n id) :
    (w.attempted n c id rest).Consistent := by
  obtain ⟨c', handed, hturned, heq⟩ := attempted_cases hw hcall htodo
  rw [heq]
  have hlocks : ∀ {held : ℕ × Uuid}, held ∈ w.locks →
      held ∈ if (w.db.delivery? id).isSome then (n, id) :: w.locks else w.locks := by
    intro held hheld
    split
    · exact List.mem_cons_of_mem _ hheld
    · exact hheld
  have hnew : ∀ held ∈ (if (w.db.delivery? id).isSome then (n, id) :: w.locks else w.locks),
      held = (n, id) ∨ held ∈ w.locks := by
    intro held hheld
    split at hheld
    · exact List.mem_cons.1 hheld
    · exact Or.inr hheld
  refine ⟨hw.constraints, hw.keys, fun m d hd => ?_, fun m d hd => ?_, fun m d hd h hh => ?_,
    fun held hheld other hother hsame => ?_⟩
  · rcases calls_update hd with ⟨rfl, hd'⟩ | ⟨-, hd'⟩
    · obtain rfl := Option.some.inj hd'
      exact hturned.session_eq (hw.session m c hcall)
    · exact hw.session m d hd'
  · rcases calls_update hd with ⟨rfl, hd'⟩ | ⟨-, hd'⟩
    · obtain rfl := Option.some.inj hd'
      exact hturned.once (htodo ▸ hw.once m c hcall)
    · exact hw.once m d hd'
  · rcases calls_update hd with ⟨rfl, hd'⟩ | ⟨-, hd'⟩
    · obtain rfl := Option.some.inj hd'
      rw [hturned.handed_eq] at hh
      rcases List.mem_append.1 hh with hold | hmem
      · exact hlocks (hw.locked m c hcall h hold)
      · obtain ⟨-, hid, hsome⟩ := hturned.of_mem hmem
        rw [hid, if_pos hsome]
        exact List.mem_cons_self
    · exact hlocks (hw.locked m d hd' h hh)
  · rcases hnew held hheld with rfl | hheld' <;> rcases hnew other hother with rfl | hother'
    · rfl
    · exact (hfree other hother' hsame.symm).symm
    · exact hfree held hheld' hsame
    · exact hw.oneHolder held hheld' other hother' hsame

/-- What a call commits: the outcomes of its messages, or nothing where it
has raised. -/
theorem publish_cases (hw : w.Consistent) (hcall : w.calls n = some c) :
    c.publish w.db = ((AlertSession.new.afterAll c.session.handed).session.pending w.db) ∨
      c.publish w.db = w.db ∧ ∃ e, c.raised = some e := by
  have hsession := hw.session n c hcall
  have hpending : c.session.session.pending w.db =
      (AlertSession.new.afterAll c.session.handed).session.pending w.db := by rw [← hsession]
  unfold Call.publish
  split
  · exact Or.inl hpending
  · rename_i e _ hraised
    exact Or.inr ⟨rfl, e, hraised⟩
  · rename_i e _ hraised
    split
    · exact Or.inl hpending
    · exact Or.inr ⟨rfl, e, hraised⟩

/-- **Every step keeps the calls consistent.** -/
theorem World.Consistent.apply (hw : w.Consistent) (e : CallStep) :
    (World.apply e w).Consistent := by
  rcases e with ⟨n, entry, env, now⟩ | n | n
  · simp only [World.apply]
    split
    · exact hw
    · refine ⟨hw.constraints, hw.keys, fun m d hd => ?_, fun m d hd => ?_, fun m d hd h hh => ?_,
        hw.oneHolder⟩
      · rcases calls_update hd with ⟨rfl, hd'⟩ | ⟨-, hd'⟩
        · obtain rfl := Option.some.inj hd'
          rfl
        · exact hw.session m d hd'
      · rcases calls_update hd with ⟨rfl, hd'⟩ | ⟨-, hd'⟩
        · obtain rfl := Option.some.inj hd'
          rcases entry with scanId | deliveryId
          · exact nodup_dispatchable hw.keys
          · exact List.nodup_singleton _
        · exact hw.once m d hd'
      · rcases calls_update hd with ⟨rfl, hd'⟩ | ⟨-, hd'⟩
        · obtain rfl := Option.some.inj hd'
          cases hh
        · exact hw.locked m d hd' h hh
  · simp only [World.apply]
    split
    · exact hw
    · rename_i c hcall
      split
      · exact hw
      · rename_i id rest htodo
        split
        · rename_i hfree
          exact hw.attempted hcall htodo hfree
        · exact hw
  · simp only [World.apply]
    split
    · exact hw
    · rename_i c hcall
      split
      · have hdb : (c.publish w.db).Constraints ∧
            ((c.publish w.db).alertDeliveries.map AlertDeliveryModel.id).Nodup := by
          rcases publish_cases hw hcall with heq | ⟨heq, -⟩
          · rw [heq, ids_afterAll]
            exact ⟨constraints_afterAll _ hw.constraints, hw.keys⟩
          · rw [heq]
            exact ⟨hw.constraints, hw.keys⟩
        have hother : ∀ {m d}, Function.update w.calls n none m = some d →
            m ≠ n ∧ w.calls m = some d := by
          intro m d hd
          rcases calls_update hd with ⟨-, hd'⟩ | hd'
          · cases hd'
          · exact hd'
        refine ⟨hdb.1, hdb.2, fun m d hd => hw.session m d (hother hd).2,
          fun m d hd => hw.once m d (hother hd).2, fun m d hd h hh => ?_,
          fun held hheld other hother => hw.oneHolder held (List.mem_of_mem_filter hheld) other
            (List.mem_of_mem_filter hother)⟩
        obtain ⟨hmn, hd'⟩ := hother hd
        exact List.mem_filter.2 ⟨hw.locked m d hd' h hh, by simpa using hmn⟩
      · exact hw

/-! ## One delivery's track -/

/-- A message of a call that has not ended. -/
def World.InFlight (w : World) (n : ℕ) (h : Handed) : Prop :=
  ∃ c, w.calls n = some c ∧ h ∈ c.session.handed

/-- A delivery has one message in flight at most. -/
theorem World.Consistent.inFlight_unique (hw : w.Consistent) {m : ℕ} {h h' : Handed}
    (hn : w.InFlight n h) (hm : w.InFlight m h') (hsame : h.deliveryId = h'.deliveryId) :
    n = m ∧ h = h' := by
  obtain ⟨c, hc, hmem⟩ := hn
  obtain ⟨d, hd, hmem'⟩ := hm
  have hnm : n = m :=
    hw.oneHolder _ (hw.locked n c hc h hmem) _ (hw.locked m d hd h' hmem') hsame
  subst hnm
  obtain rfl : c = d := Option.some.inj (hc.symm.trans hd)
  have hnodup := (List.nodup_append.1 (hw.once n c hc)).1
  exact ⟨rfl, eq_of_nodup_map hnodup hmem hmem' hsame⟩

/-- A delivery by itself: its row, its message in flight, and the messages
handed out of it. -/
structure Track where
  row : AlertDeliveryModel
  inFlight : Option Handed
  log : List Handed

/-- The messages handed out of a delivery. -/
def World.logOf (w : World) (id : Uuid) : List Handed := w.log.filter fun h => h.deliveryId = id

/-- The track of a delivery in a state. -/
structure World.Tracks (w : World) (id : Uuid) (τ : Track) : Prop where
  row : w.db.delivery? id = some τ.row
  inFlight : ∀ h, h.deliveryId = id → ((∃ n, w.InFlight n h) ↔ τ.inFlight = some h)
  own : ∀ h ∈ τ.inFlight, h.deliveryId = id
  log : w.logOf id = τ.log

theorem tracks_init {db : DB} {row : AlertDeliveryModel} (hrow : db.delivery? id = some row) :
    (World.init db).Tracks id ⟨row, none, []⟩ := by
  refine ⟨hrow, fun h _ => ⟨?_, fun h => (nomatch h)⟩, fun h hh => (nomatch hh), rfl⟩
  rintro ⟨n, c, hc, -⟩
  cases hc

/-- What a step makes of a delivery's track: nothing; a message handed out;
the message's outcome committed; or the outcome lost. -/
inductive TrackStep (w : World) (e : CallStep) (id : Uuid) (τ : Track) : Track → Prop
  | idle : TrackStep w e id τ τ
  | handed {n : ℕ} {c : Call} {rest : List Uuid} {h : Handed} : e = .turn n →
      w.calls n = some c → c.todo = id :: rest → w.Free n id → τ.inFlight = none →
      w.db.hand? c.env c.now id = some h →
      TrackStep w e id τ ⟨τ.row, some h, τ.log ++ [h]⟩
  | settled {h : Handed} : τ.inFlight = some h → TrackStep w e id τ ⟨h.written τ.row, none, τ.log⟩
  | lost {n : ℕ} {c : Call} {x : AlertException} {h : Handed} : w.calls n = some c →
      c.raised = some x → h ∈ c.session.handed → τ.inFlight = some h →
      TrackStep w e id τ ⟨τ.row, none, τ.log⟩

/-- The messages in flight after a call was set. -/
theorem inFlight_update {w' : World} {c' : Call} {m : ℕ} {h : Handed}
    (hcalls : w'.calls = Function.update w.calls n (some c')) :
    w'.InFlight m h ↔ m = n ∧ h ∈ c'.session.handed ∨ m ≠ n ∧ w.InFlight m h := by
  unfold World.InFlight
  rw [hcalls]
  constructor
  · rintro ⟨d, hd, hmem⟩
    rcases calls_update hd with ⟨rfl, hd'⟩ | ⟨hmn, hd'⟩
    · obtain rfl := Option.some.inj hd'
      exact Or.inl ⟨rfl, hmem⟩
    · exact Or.inr ⟨hmn, d, hd', hmem⟩
  · rintro (⟨rfl, hmem⟩ | ⟨hmn, d, hd, hmem⟩)
    · exact ⟨c', Function.update_self _ _ _, hmem⟩
    · exact ⟨d, by rw [Function.update_of_ne hmn, hd], hmem⟩

section Steps

variable {τ : Track}

/-- A call that begins touches no delivery. -/
theorem tracks_enter (hτ : w.Tracks id τ) {entry : Entry} {env : Notifications} {now : Timestamp} :
    (World.apply (.enter n entry env now) w).Tracks id τ := by
  simp only [World.apply]
  split
  · exact hτ
  · rename_i hnone
    refine ⟨hτ.row, fun h hid => ?_, hτ.own, hτ.log⟩
    rw [← hτ.inFlight h hid]
    constructor
    · rintro ⟨m, hm⟩
      rcases (inFlight_update rfl).1 hm with ⟨-, hmem⟩ | ⟨-, hm'⟩
      · cases hmem
      · exact ⟨m, hm'⟩
    · rintro ⟨m, c, hc, hmem⟩
      have hmn : m ≠ n := by
        rintro rfl
        rw [hc] at hnone
        exact hnone rfl
      exact ⟨m, (inFlight_update rfl).2 (Or.inr ⟨hmn, c, hc, hmem⟩)⟩

/-- A delivery that is free for a call is not in flight. -/
theorem inFlight_eq_none (hw : w.Consistent) (hτ : w.Tracks id τ) (hcall : w.calls n = some c)
    {rest : List Uuid} (htodo : c.todo = id :: rest) (hfree : w.Free n id) :
    τ.inFlight = none := by
  rcases hsome : τ.inFlight with _ | h
  · rfl
  · have hid : h.deliveryId = id := hτ.own h hsome
    obtain ⟨m, d, hd, hmem⟩ := (hτ.inFlight h hid).2 hsome
    have hmn : m = n := hfree _ (hw.locked m d hd h hmem) hid
    subst hmn
    obtain rfl : d = c := Option.some.inj (hd.symm.trans hcall)
    -- a call has each delivery once
    have honce := hw.once m d hd
    rw [htodo] at honce
    exact absurd rfl ((List.nodup_append.1 honce).2.2 id
      (List.mem_map.2 ⟨h, hmem, hid⟩) id List.mem_cons_self)

theorem trackStep_turn (hw : w.Consistent) (hτ : w.Tracks id τ) :
    ∃ τ', (World.apply (.turn n) w).Tracks id τ' ∧ TrackStep w (.turn n) id τ τ' := by
  simp only [World.apply]
  split
  · exact ⟨τ, hτ, .idle⟩
  rename_i c hcall
  split
  · exact ⟨τ, hτ, .idle⟩
  rename_i x rest htodo
  split
  swap
  · exact ⟨τ, hτ, .idle⟩
  rename_i hfree
  obtain ⟨c', handed, hturned, heq⟩ := attempted_cases hw hcall htodo
  have hcalls : (w.attempted n c x rest).calls = Function.update w.calls n (some c') := by rw [heq]
  have hflight : ∀ h, (∃ m, (w.attempted n c x rest).InFlight m h) ↔
      (∃ m, w.InFlight m h) ∨ h ∈ handed := by
    intro h
    constructor
    · rintro ⟨m, hm⟩
      rcases (inFlight_update hcalls).1 hm with ⟨rfl, hmem⟩ | ⟨-, hm'⟩
      · rw [hturned.handed_eq] at hmem
        rcases List.mem_append.1 hmem with hold | hnew
        · exact Or.inl ⟨m, c, hcall, hold⟩
        · exact Or.inr hnew
      · exact Or.inl ⟨m, hm'⟩
    · rintro (⟨m, hm⟩ | hnew)
      · by_cases hmn : m = n
        · obtain ⟨d, hd, hmem⟩ := hm
          subst hmn
          obtain rfl : d = c := Option.some.inj (hd.symm.trans hcall)
          exact ⟨m, (inFlight_update hcalls).2
            (Or.inl ⟨rfl, hturned.handed_eq ▸ List.mem_append_left _ hmem⟩)⟩
        · exact ⟨m, (inFlight_update hcalls).2 (Or.inr ⟨hmn, hm⟩)⟩
      · exact ⟨n, (inFlight_update hcalls).2
          (Or.inl ⟨rfl, hturned.handed_eq ▸ List.mem_append_right _ hnew⟩)⟩
  have hdb : (w.attempted n c x rest).db = w.db := by rw [heq]
  have hlog : (w.attempted n c x rest).logOf id =
      w.logOf id ++ handed.filter fun h => h.deliveryId = id := by
    unfold World.logOf
    rw [heq]
    exact List.filter_append _ _
  by_cases hmine : ∃ h ∈ handed, h.deliveryId = id
  · obtain ⟨h, hmem, hid⟩ := hmine
    obtain ⟨hhand, hx, -⟩ := hturned.of_mem hmem
    obtain rfl : x = id := hx.symm.trans hid
    have hone : handed = [h] := hturned.eq_singleton hmem
    have hnone := inFlight_eq_none hw hτ hcall htodo hfree
    refine ⟨_, ⟨?_, fun g hg => ?_, ?_, ?_⟩,
      .handed rfl hcall htodo hfree hnone hhand⟩
    · rw [hdb]
      exact hτ.row
    · rw [hflight, hτ.inFlight g hg, hnone, hone, List.mem_singleton]
      simp [eq_comm]
    · intro g hg
      obtain rfl := Option.some.inj hg
      exact hid
    · rw [hlog, hτ.log, hone]
      simp [hid]
  · have hnone : (handed.filter fun h => decide (h.deliveryId = id)) = [] :=
      List.filter_eq_nil_iff.2 fun h hmem hid => hmine ⟨h, hmem, of_decide_eq_true hid⟩
    refine ⟨τ, ⟨hdb ▸ hτ.row, fun h hid => ?_, hτ.own, ?_⟩, .idle⟩
    · rw [hflight, hτ.inFlight h hid]
      exact or_iff_left fun hmem => hmine ⟨h, hmem, hid⟩
    · rw [hlog, hnone, List.append_nil, hτ.log]

theorem trackStep_leave (hw : w.Consistent) (hτ : w.Tracks id τ) :
    ∃ τ', (World.apply (.leave n) w).Tracks id τ' ∧ TrackStep w (.leave n) id τ τ' := by
  simp only [World.apply]
  split
  · exact ⟨τ, hτ, .idle⟩
  rename_i c hcall
  split
  swap
  · exact ⟨τ, hτ, .idle⟩
  have hflight : ∀ h, h.deliveryId = id → ((∃ m, (w.left n c).InFlight m h) ↔
      τ.inFlight = some h ∧ h ∉ c.session.handed) := by
    intro h hid
    rw [← hτ.inFlight h hid]
    constructor
    · rintro ⟨m, d, hd, hmem⟩
      rcases calls_update hd with ⟨-, hd'⟩ | ⟨hmn, hd'⟩
      · cases hd'
      · refine ⟨⟨m, d, hd', hmem⟩, fun hmem' => hmn ?_⟩
        exact (hw.inFlight_unique ⟨d, hd', hmem⟩ ⟨c, hcall, hmem'⟩ rfl).1
    · rintro ⟨⟨m, d, hd, hmem⟩, hnot⟩
      have hmn : m ≠ n := by
        rintro rfl
        obtain rfl : d = c := Option.some.inj (hd.symm.trans hcall)
        exact hnot hmem
      exact ⟨m, d, (Function.update_of_ne hmn _ _).trans hd, hmem⟩
  by_cases hmine : ∃ h ∈ c.session.handed, h.deliveryId = id
  · -- the delivery's message was the call's
    obtain ⟨h, hmem, hid⟩ := hmine
    have hsome : τ.inFlight = some h := (hτ.inFlight h hid).1 ⟨n, c, hcall, hmem⟩
    have hgone : ∀ g, g.deliveryId = id → ((τ.inFlight = some g ∧ g ∉ c.session.handed) ↔
        (none : Option Handed) = some g) := by
      intro g hg
      rw [hsome]
      constructor
      · rintro ⟨hgh, hnot⟩
        obtain rfl := Option.some.inj hgh
        exact absurd hmem hnot
      · exact fun h => (nomatch h)
    rcases publish_cases hw hcall with heq | ⟨heq, e, hraised⟩
    · refine ⟨⟨h.written τ.row, none, τ.log⟩, ⟨?_, fun g hg => (hflight g hg).trans (hgone g hg),
        fun g hg => (nomatch hg), hτ.log⟩, .settled hsome⟩
      show (c.publish w.db).delivery? id = _
      have hnodup := (List.nodup_append.1 (hw.once n c hcall)).1
      have hrow : ((AlertSession.new.afterAll c.session.handed).session.pending w.db).delivery?
          h.deliveryId = (w.db.delivery? h.deliveryId).map h.written := delivery?_afterAll hnodup hmem
      rw [hid] at hrow
      rw [heq, hrow]
      rw [hτ.row]
      rfl
    · refine ⟨⟨τ.row, none, τ.log⟩, ⟨?_, fun g hg => (hflight g hg).trans (hgone g hg),
        fun g hg => (nomatch hg), hτ.log⟩, .lost hcall hraised hmem hsome⟩
      show (c.publish w.db).delivery? id = _
      rw [heq]
      exact hτ.row
  · refine ⟨τ, ⟨?_, fun g hg => (hflight g hg).trans ?_, hτ.own, hτ.log⟩, .idle⟩
    · show (c.publish w.db).delivery? id = _
      rcases publish_cases hw hcall with heq | ⟨heq, -⟩
      · have hnot : id ∉ c.session.handed.map Handed.deliveryId := by
          intro hmem
          obtain ⟨h, hh, hid⟩ := List.mem_map.1 hmem
          exact hmine ⟨h, hh, hid⟩
        rw [heq, delivery?_afterAll_of_not_mem hnot]
        exact hτ.row
      · rw [heq]
        exact hτ.row
    · exact and_iff_left fun hmem => hmine ⟨g, hmem, hg⟩

/-- **A step's effect on a delivery** is one of four. -/
theorem exists_trackStep (hw : w.Consistent) (hτ : w.Tracks id τ) (e : CallStep) :
    ∃ τ', (World.apply e w).Tracks id τ' ∧ TrackStep w e id τ τ' := by
  rcases e with ⟨n, entry, env, now⟩ | n | n
  · exact ⟨τ, tracks_enter hτ, .idle⟩
  · exact trackStep_turn hw hτ
  · exact trackStep_leave hw hτ

end Steps

/-! ## A call alone -/

/-- A call with nothing to come takes no turn. -/
theorem apply_turn_done (hcall : w.calls n = some c) (htodo : c.todo = []) :
    World.apply (.turn n) w = w := by
  simp only [World.apply, hcall, htodo]

theorem turns_done (hcall : w.calls n = some c) (htodo : c.todo = []) (k : ℕ) :
    (List.replicate k (CallStep.turn n)).foldl (fun w e => World.apply e w) w = w := by
  induction k with
  | zero => rfl
  | succ k ih =>
    rw [List.replicate_succ, List.foldl_cons, apply_turn_done hcall htodo]
    exact ih

/-- The turns of a call that no other keeps waiting are its program's. -/
theorem turns_alone {ids : List Uuid} (hw : w.Consistent) (hcall : w.calls n = some c)
    (htodo : c.todo = ids) (hraised : c.raised = none)
    (hlocks : ∀ held ∈ w.locks, held.1 = n) :
    ∃ c' new, (AlertM.exec (attemptAll c.env c.now ids) w.db c.session).2 = c'.session ∧
      c'.session.handed = c.session.handed ++ new ∧ c'.entry = c.entry ∧ c'.todo = [] ∧
      (match (AlertM.exec (attemptAll c.env c.now ids) w.db c.session).1 with
        | .ok _ => c'.raised = none
        | .error e => c'.raised = some e) ∧
      ∃ locks, (∀ held ∈ locks, held.1 = n) ∧
        (List.replicate ids.length (CallStep.turn n)).foldl (fun w e => World.apply e w) w =
          { db := w.db, calls := Function.update w.calls n (some c'), locks := locks
            log := w.log ++ new } := by
  induction ids generalizing w c with
  | nil =>
    refine ⟨c, [], rfl, (List.append_nil _).symm, rfl, htodo, hraised, w.locks, hlocks, ?_⟩
    rw [← hcall, Function.update_eq_self, List.append_nil]
    rfl
  | cons id rest ih =>
    have hfree : w.Free n id := fun held hheld _ => hlocks held hheld
    have hstep : World.apply (.turn n) w = w.attempted n c id rest := by
      simp only [World.apply, hcall, htodo]
      rw [if_pos hfree]
    have hcons : (w.attempted n c id rest).Consistent := hw.attempted hcall htodo hfree
    have hlocks' : ∀ held ∈ (w.attempted n c id rest).locks, held.1 = n := by
      intro held hheld
      unfold World.attempted at hheld
      simp only at hheld
      split at hheld
      · rcases List.mem_cons.1 hheld with rfl | hold
        · rfl
        · exact hlocks held hold
      · exact hlocks held hheld
    obtain ⟨c₁, handed, hturned, heq⟩ := attempted_cases hw hcall htodo
    have hcalls : (w.attempted n c id rest).calls n = some
        { c with
          todo := match (AlertM.exec (attempt c.env id c.now) w.db c.session).1 with
            | .ok _ => rest
            | .error _ => []
          session := (AlertM.exec (attempt c.env id c.now) w.db c.session).2
          raised := match (AlertM.exec (attempt c.env id c.now) w.db c.session).1 with
            | .ok _ => none
            | .error e => some e } := Function.update_self _ _ _
    have hone : (w.attempted n c id rest).calls n = some c₁ := by
      rw [heq]
      exact Function.update_self _ _ _
    have hc₁ := Option.some.inj (hcalls.symm.trans hone)
    have hhanded := hturned.handed_eq
    rw [List.length_cons, List.replicate_succ, List.foldl_cons, hstep, attemptAll,
      AlertM.exec_bind]
    rcases hexec : AlertM.exec (attempt c.env id c.now) w.db c.session with ⟨e | r, t⟩
    · -- the attempt raises, and the turns still to come change nothing
      rw [hexec] at hc₁
      subst hc₁
      refine ⟨_, handed, rfl, hhanded, rfl, rfl, rfl, _, hlocks', ?_⟩
      rw [turns_done hone rfl, heq]
    · rw [hexec] at hc₁
      subst hc₁
      obtain ⟨c', new, hsession, hnew, hentry, hdone, hmatch, locks, hheld, hfold⟩ :=
        ih hcons hone rfl rfl hlocks'
      have hrest : (AlertM.exec (attemptAll c.env c.now rest) w.db t).2 = c'.session := hsession
      have hend : match (AlertM.exec (attemptAll c.env c.now rest) w.db t).1 with
        | .ok _ => c'.raised = none
        | .error e => c'.raised = some e := hmatch
      refine ⟨c', handed ++ new, ?_, ?_, hentry, hdone, ?_, locks, hheld, ?_⟩
      · simp only [AlertM.exec_bind]
        rcases hout : AlertM.exec (attemptAll c.env c.now rest) w.db t with ⟨e | results, u⟩ <;>
          rw [hout] at hrest <;> exact hrest
      · rw [hnew, hhanded, List.append_assoc]
      · simp only [AlertM.exec_bind]
        rcases hout : AlertM.exec (attemptAll c.env c.now rest) w.db t with ⟨e | results, u⟩ <;>
          rw [hout] at hend <;> exact hend
      · rw [hfold, heq]
        simp only [Function.update_idem, List.append_assoc]

/-- **A dispatch that no other call interrupts is the program run alone**, in
whatever state it begins. -/
theorem dispatch_alone (hw : w.Consistent) (hcall : w.calls n = none) (hlocks : w.locks = [])
    (env : Notifications) (scanId : Uuid) (now : Timestamp) :
    (.enter n (.dispatch scanId) env now ::
        (List.replicate (w.db.dispatchable scanId).length (CallStep.turn n) ++
          [.leave n])).foldl (fun w e => World.apply e w) w =
      { db := postDispatchScan env scanId now w.db, calls := w.calls, locks := []
        log := w.log ++ handedByDispatch env scanId now w.db } := by
  let c : Call := { entry := .dispatch scanId, env := env, now := now
                    todo := w.db.dispatchable scanId, session := AlertSession.new, raised := none }
  have hentered : World.apply (.enter n (.dispatch scanId) env now) w = w.setCall n (some c) := by
    simp only [World.apply, hcall]
    rfl
  have hw' : (w.setCall n (some c)).Consistent := by
    rw [← hentered]
    exact hw.apply _
  obtain ⟨c', new, hsession, hnew, hentry, hdone, hmatch, locks, hheld, hfold⟩ :=
    turns_alone hw' (Function.update_self _ _ _) rfl rfl fun held hheld => by
      rw [show (w.setCall n (some c)).locks = w.locks from rfl, hlocks] at hheld
      cases hheld
  have hsession' : (AlertM.exec (attemptAll env now (w.db.dispatchable scanId)) w.db
      AlertSession.new).2 = c'.session := hsession
  have hend : match (AlertM.exec (attemptAll env now (w.db.dispatchable scanId)) w.db
      AlertSession.new).1 with
    | .ok _ => c'.raised = none
    | .error e => c'.raised = some e := hmatch
  have hpost : c'.publish w.db = postDispatchScan env scanId now w.db := by
    unfold postDispatchScan scopePublish
    rw [exec_dispatchScan env scanId now hw.constraints]
    have hentry' : c'.entry = .dispatch scanId := hentry
    unfold Call.publish
    rw [hentry', hsession']
    rcases hout : (AlertM.exec (attemptAll env now (w.db.dispatchable scanId)) w.db
      AlertSession.new).1 with e | results
    · rw [hout] at hend
      rw [hend]
    · rw [hout] at hend
      rw [hend]
  have hmessages : new = handedByDispatch env scanId now w.db := by
    unfold handedByDispatch
    rw [exec_dispatchScan env scanId now hw.constraints]
    show new = (AlertM.exec (attemptAll env now (w.db.dispatchable scanId)) w.db
      AlertSession.new).2.handed
    rw [hsession', hnew]
    rfl
  -- the call's locks are the only ones, and its end frees them
  have hfreed : locks.filter (fun held => held.1 ≠ n) = [] :=
    List.filter_eq_nil_iff.2 fun held hmem => by simpa using hheld held hmem
  rw [List.foldl_cons, List.foldl_append, hentered, hfold]
  show World.apply (.leave n) _ = _
  simp only [World.apply, Function.update_self, hdone, if_pos, World.left, World.setCall,
    Function.update_idem, hpost, hmessages, hfreed]
  rw [← hcall, Function.update_eq_self]

/-- A dispatch whose webhook fails, a retry that comes too early, and one
that comes in time, side by side with a dispatch that finds nothing to attempt. -/
def sampleRetried : List CallStep :=
  [.enter 0 (.dispatch 1) sampleHookDown 0, .turn 0, .turn 0, .leave 0,
    .enter 1 (.retry 2) sampleBothAccept 1, .turn 1, .leave 1,
    .enter 2 (.retry 2) sampleBothAccept 60000000, .enter 3 (.dispatch 1) sampleBothAccept 60000000,
    .turn 2, .leave 3, .leave 2]

end SchemaSentry
