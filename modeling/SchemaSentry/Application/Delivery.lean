import SchemaSentry.Application.NotificationService
/-!
# Schema Sentry — what an attempt does

One attempt on a delivery, run in a session on what is committed
(`attemptOutcome`): it is refused before anything is handed out, or hands
the message to the channel's notifier and writes the outcome into the
delivery's row, or raises after it has handed the message out.
-/

namespace SchemaSentry

open Lib DbM

/-! ## The context -/

/-- A change of the context, as the tables have it. -/
def DB.alertChange? (db : DB) (row : SchemaChangeModel × DatasetModel) :
    Except PyException AlertChangeContext := do
  let beforeType ← renderType row.1.beforeJson
  let afterType ← renderType row.1.afterJson
  return { qualifiedColumn :=
             row.2.schemaName ++ "." ++ row.2.tableName ++ "." ++ row.1.columnName
           beforeType := beforeType
           afterType := afterType
           severity := row.1.severity
           affectedDags := db.affectedDags row.1 }

/-- A scan's context, as the tables have it. -/
def DB.scanContext? (db : DB) (scanId : Uuid) : Except PyException (Option ScanAlertContext) :=
  match db.scanWithSource? scanId with
  | none => .ok none
  | some (scan, source) => do
    let changes ← (db.alertRows scanId).mapM db.alertChange?
    return some
      { scanId := scan.id
        sourceKey := source.key
        errorCode := if scan.status = .failed then scan.errorCode else none
        changes := changes }

variable {db : DB} {t : Session}

theorem exec_select_ok {α : Type} (hc : (t.pending db).Constraints) (query : DB → α) :
    exec (select query) db t = (.ok (query (t.pending db)), t) := by
  rw [exec_select, if_pos hc]

theorem exec_flush_ok (hc : (t.pending db).Constraints) : exec flush db t = (.ok (), t) :=
  exec_select_ok hc _

theorem exec_alertChange (hc : (t.pending db).Constraints)
    (row : SchemaChangeModel × DatasetModel) :
    exec (alertChange row) db t = ((t.pending db).alertChange? row, t) := by
  unfold alertChange DB.alertChange?
  rcases hb : renderType row.1.beforeJson with e | before
  · rw [exec_bind, exec_ofExcept_error]
    rfl
  · rcases ha : renderType row.1.afterJson with e | after
    · simp only [exec_bind, exec_ofExcept_ok, exec_ofExcept_error]
      rfl
    · simp only [exec_bind, exec_ofExcept_ok, exec_select_ok hc]
      rfl

theorem exec_alertChanges (hc : (t.pending db).Constraints)
    (rows : List (SchemaChangeModel × DatasetModel)) :
    exec (alertChanges rows) db t = (rows.mapM (t.pending db).alertChange?, t) := by
  induction rows with
  | nil => rfl
  | cons row rest ih =>
    rw [alertChanges, exec_bind, exec_alertChange hc, List.mapM_cons]
    rcases (t.pending db).alertChange? row with e | change
    · rfl
    · simp only [exec_bind, ih]
      rcases rest.mapM (t.pending db).alertChange? with e | changes
      · rfl
      · rfl

/-- **A scan's context is read off the tables.** -/
theorem exec_getScanContext (hc : (t.pending db).Constraints) (scanId : Uuid) :
    exec (getScanContext scanId) db t = ((t.pending db).scanContext? scanId, t) := by
  unfold getScanContext DB.scanContext?
  rw [exec_bind, exec_select_ok hc]
  rcases (t.pending db).scanWithSource? scanId with _ | ⟨scan, source⟩
  · rfl
  · simp only [exec_bind, exec_select_ok hc, exec_alertChanges hc]
    rcases ((t.pending db).alertRows scanId).mapM (t.pending db).alertChange? with e | changes
    · rfl
    · rfl

/-! ## Rewritten deliveries -/

/-- A rewriting that leaves a delivery what it is of. -/
structure KeepsIdentity (f : AlertDeliveryModel → AlertDeliveryModel) : Prop where
  id : ∀ d, (f d).id = d.id
  scanId : ∀ d, (f d).scanId = d.scanId
  channel : ∀ d, (f d).channel = d.channel

theorem keepsIdentity_startAttempt : KeepsIdentity AlertDeliveryModel.startAttempt :=
  ⟨fun _ => rfl, fun _ => rfl, fun _ => rfl⟩

theorem keepsIdentity_sent (receipt : Option String) (sentAt : Timestamp) :
    KeepsIdentity (AlertDeliveryModel.sent receipt sentAt) :=
  ⟨fun _ => rfl, fun _ => rfl, fun _ => rfl⟩

theorem keepsIdentity_unsent (error : String) (nextRetryAt : Option Timestamp) :
    KeepsIdentity (AlertDeliveryModel.unsent error nextRetryAt) :=
  ⟨fun _ => rfl, fun _ => rfl, fun _ => rfl⟩

theorem KeepsIdentity.comp {f g : AlertDeliveryModel → AlertDeliveryModel}
    (hf : KeepsIdentity f) (hg : KeepsIdentity g) : KeepsIdentity fun d => f (g d) :=
  ⟨fun d => (hf.id _).trans (hg.id d), fun d => (hf.scanId _).trans (hg.scanId d),
    fun d => (hf.channel _).trans (hg.channel d)⟩

/-- One delivery's rewriting, as a rewriting of all. -/
theorem KeepsIdentity.only {f : AlertDeliveryModel → AlertDeliveryModel} (hf : KeepsIdentity f)
    (id : Uuid) : KeepsIdentity fun d => if d.id = id then f d else d := by
  have hone : ∀ d : AlertDeliveryModel, (if d.id = id then f d else d).id = d.id ∧
      (if d.id = id then f d else d).scanId = d.scanId ∧
      (if d.id = id then f d else d).channel = d.channel := by
    intro d
    by_cases h : d.id = id
    · rw [if_pos h]
      exact ⟨hf.id d, hf.scanId d, hf.channel d⟩
    · rw [if_neg h]
      exact ⟨rfl, rfl, rfl⟩
  exact ⟨fun d => (hone d).1, fun d => (hone d).2.1, fun d => (hone d).2.2⟩

variable {id : Uuid} {f g : AlertDeliveryModel → AlertDeliveryModel}

/-- Rewritten deliveries meet the constraints the deliveries met. -/
theorem constraints_mapDeliveries (hc : db.Constraints) (hf : KeepsIdentity f) :
    ({ db with alertDeliveries := db.alertDeliveries.map f } : DB).Constraints :=
  { hc with
    alertDeliveryIdentity := by
      have heq : (db.alertDeliveries.map f).map (fun d => (d.scanId, d.channel)) =
          db.alertDeliveries.map fun d => (d.scanId, d.channel) := by
        rw [List.map_map]
        refine List.map_congr_left fun d _ => ?_
        simp only [Function.comp, hf.scanId, hf.channel]
      exact heq ▸ hc.alertDeliveryIdentity }

theorem constraints_updateDelivery (hc : db.Constraints) (hf : KeepsIdentity f) :
    (db.updateDelivery id f).Constraints :=
  constraints_mapDeliveries hc (hf.only id)

theorem updateDelivery_comp (hf : KeepsIdentity f) :
    (db.updateDelivery id f).updateDelivery id g = db.updateDelivery id fun d => g (f d) := by
  simp only [DB.updateDelivery, List.map_map]
  congr 1
  refine List.map_congr_left fun d _ => ?_
  simp only [Function.comp]
  by_cases h : d.id = id
  · rw [if_pos h, if_pos h, if_pos ((hf.id d).trans h)]
  · rw [if_neg h, if_neg h, if_neg h]

theorem delivery?_updateDelivery (hf : KeepsIdentity f) :
    (db.updateDelivery id f).delivery? id = (db.delivery? id).map f := by
  unfold DB.updateDelivery DB.delivery?
  simp only
  induction db.alertDeliveries with
  | nil => rfl
  | cons d rest ih =>
    rw [List.map_cons]
    by_cases h : d.id = id
    · rw [if_pos h, List.find?_cons_of_pos (by simpa using (hf.id d).trans h),
        List.find?_cons_of_pos (by simpa using h)]
      rfl
    · rw [if_neg h, List.find?_cons_of_neg (by simpa using h),
        List.find?_cons_of_neg (by simpa using h), ih]

theorem delivery?_updateDelivery_of_ne (hf : KeepsIdentity f) {x : Uuid} (hne : x ≠ id) :
    (db.updateDelivery id f).delivery? x = db.delivery? x := by
  unfold DB.updateDelivery DB.delivery?
  simp only
  induction db.alertDeliveries with
  | nil => rfl
  | cons d rest ih =>
    rw [List.map_cons]
    by_cases h : d.id = id
    · -- the rewritten delivery is another one
      have hd : ¬ (f d).id = x := fun heq => hne (heq.symm.trans ((hf.id d).trans h))
      have hd' : ¬ d.id = x := fun heq => hne (heq.symm.trans h)
      rw [if_pos h, List.find?_cons_of_neg (by simpa using hd),
        List.find?_cons_of_neg (by simpa using hd'), ih]
    · rw [if_neg h]
      by_cases hx : d.id = x
      · rw [List.find?_cons_of_pos (by simpa using hx), List.find?_cons_of_pos (by simpa using hx)]
      · rw [List.find?_cons_of_neg (by simpa using hx), List.find?_cons_of_neg (by simpa using hx),
          ih]

/-! ## The repository's writes -/

variable {row : AlertDeliveryModel}

/-- A session with one more delivery rewritten. -/
def Session.rewrite (t : Session) (id : Uuid) (f : AlertDeliveryModel → AlertDeliveryModel) :
    Session :=
  { t with pending := fun db => (t.pending db).updateDelivery id f }

theorem exec_getDelivery (hc : (t.pending db).Constraints)
    (hrow : (t.pending db).delivery? id = some row) :
    exec (getDelivery id) db t = (.ok row, t) := by
  unfold getDelivery
  rw [exec_bind, exec_select_ok hc]
  simp only [hrow]
  rfl

theorem exec_lockDelivery (hc : (t.pending db).Constraints) :
    exec (lockDelivery id) db t =
      (.ok (((t.pending db).delivery? id).map AlertDeliveryModel.toRecord), t) := by
  unfold lockDelivery
  rw [exec_bind]
  show (match exec (do
      let delivery ← select fun db => db.delivery? id
      pure (delivery.map AlertDeliveryModel.toRecord)) db t with
    | r => r) = _
  rw [exec_bind, exec_select_ok hc]
  rfl

theorem exec_markAttemptStarted (hc : (t.pending db).Constraints)
    (hrow : (t.pending db).delivery? id = some row) :
    exec (markAttemptStarted id) db t =
      (.ok row.startAttempt.toRecord, t.rewrite id AlertDeliveryModel.startAttempt) := by
  have hc' : ((t.rewrite id AlertDeliveryModel.startAttempt).pending db).Constraints :=
    constraints_updateDelivery hc keepsIdentity_startAttempt
  unfold markAttemptStarted
  rw [exec_bind, exec_getDelivery hc hrow]
  simp only [exec_bind, exec_write]
  have hflush : exec flush db
      { t with pending := (fun db => DB.updateDelivery id AlertDeliveryModel.startAttempt
          (t.pending db)) } = (.ok (), t.rewrite id AlertDeliveryModel.startAttempt) :=
    exec_flush_ok hc'
  rw [hflush]
  rfl

theorem exec_markSent (hc : (t.pending db).Constraints)
    (hrow : (t.pending db).delivery? id = some row) {receipt : Option String}
    {sentAt : Timestamp} :
    exec (markSent id receipt sentAt) db t =
      (if ∀ r ∈ receipt, fits 250 r then .ok () else .error .sqlAlchemyError,
        t.rewrite id (AlertDeliveryModel.sent receipt sentAt)) := by
  have hc' : ((t.rewrite id (AlertDeliveryModel.sent receipt sentAt)).pending db).Constraints :=
    constraints_updateDelivery hc (keepsIdentity_sent receipt sentAt)
  unfold markSent
  rw [exec_bind, exec_getDelivery hc hrow]
  simp only [exec_bind, exec_write]
  by_cases hfits : ∀ r ∈ receipt, fits 250 r
  · rw [if_pos hfits, if_pos hfits]
    exact exec_flush_ok hc'
  · rw [if_neg hfits, if_neg hfits]
    rfl

theorem exec_markFailed (hc : (t.pending db).Constraints)
    (hrow : (t.pending db).delivery? id = some row) {error : String}
    {nextRetryAt : Option Timestamp} :
    exec (markFailed id error nextRetryAt) db t =
      (.ok (), t.rewrite id (AlertDeliveryModel.unsent error nextRetryAt)) := by
  have hc' : ((t.rewrite id (AlertDeliveryModel.unsent error nextRetryAt)).pending
      db).Constraints := constraints_updateDelivery hc (keepsIdentity_unsent error nextRetryAt)
  unfold markFailed
  rw [exec_bind, exec_getDelivery hc hrow]
  simp only [exec_bind, exec_write]
  exact exec_flush_ok hc'

/-! ## The attempt -/

/-- An attempt may be made: the delivery is there with attempts left and its
time has come, its scan's context is read, and its channel has a notifier. -/
structure Ready (env : Notifications) (now : Timestamp) (db : DB) (id : Uuid)
    (row : AlertDeliveryModel) (context : ScanAlertContext) (notifier : Notifier) : Prop where
  found : db.delivery? id = some row
  left : row.attemptCount < maxAttempts
  due : ∀ t ∈ row.nextRetryAt, t ≤ now
  read : db.scanContext? row.scanId = .ok (some context)
  configured : env.notifiers row.channel = some notifier

/-- When an attempt that fails as the `n`th may be made again. -/
def retryAt (now : Timestamp) (n : ℕ) : Option Timestamp :=
  if n < maxAttempts then (retryDelays[n - 1]?).map fun delay => now + delay else none

/-- What the attempt leaves in the delivery's row. -/
def Handed.written (h : Handed) (d : AlertDeliveryModel) : AlertDeliveryModel :=
  match h.outcome with
  | .accepted receipt => d.startAttempt.sent receipt h.handedAt
  | .deliveryFailure error => d.startAttempt.unsent error (retryAt h.handedAt h.attempt)
  | .raised _ => d.startAttempt

/-- What an attempt hands to the notifier. -/
def AlertDeliveryModel.hand (now : Timestamp) (env : Notifications) (context : ScanAlertContext)
    (notifier : Notifier) (d : AlertDeliveryModel) : Handed :=
  let message := buildAlertMessage context env.dashboardBaseUrl
  { deliveryId := d.id, channel := d.channel, attempt := d.attemptCount + 1, handedAt := now
    message := message, outcome := notifier message }

/-- A notifier's outcome that can be written down: no exception but the
`DeliveryFailure`, and a receipt that fits its column. -/
def SendOutcome.Writable : SendOutcome → Prop
  | .accepted receipt => ∀ r ∈ receipt, fits 250 r
  | .deliveryFailure _ => True
  | .raised _ => False

instance (outcome : SendOutcome) : Decidable outcome.Writable := by
  unfold SendOutcome.Writable
  split <;> infer_instance

theorem Handed.keepsIdentity_written (h : Handed) : KeepsIdentity h.written := by
  have hone : ∀ d, (h.written d).id = d.id ∧ (h.written d).scanId = d.scanId ∧
      (h.written d).channel = d.channel := by
    intro d
    unfold Handed.written
    rcases h.outcome with receipt | error | className
    · exact ⟨rfl, rfl, rfl⟩
    · exact ⟨rfl, rfl, rfl⟩
    · exact ⟨rfl, rfl, rfl⟩
  exact ⟨fun d => (hone d).1, fun d => (hone d).2.1, fun d => (hone d).2.2⟩

/-- The session after a message was handed out and its outcome written. -/
def AlertSession.after (s : AlertSession) (handed : Handed) : AlertSession :=
  { session := s.session.rewrite handed.deliveryId handed.written
    handed := s.handed ++ [handed] }

/-- Two rewritings of a delivery in a session are one. -/
theorem Session.rewrite_rewrite (t : Session) (hf : KeepsIdentity f) :
    (t.rewrite id f).rewrite id g = t.rewrite id fun d => g (f d) := by
  unfold Session.rewrite
  simp only [updateDelivery_comp hf]

/-- How an attempt ends that handed out a message. -/
def Handed.result (h : Handed) : Except AlertException DeliveryResult :=
  match h.outcome with
  | .accepted receipt =>
    if ∀ r ∈ receipt, fits 250 r then
      .ok { deliveryId := h.deliveryId, channel := h.channel, success := true
            attemptCount := h.attempt, nextRetryAt := none }
    else .error (.raised .sqlAlchemyError)
  | .deliveryFailure _ =>
    .ok { deliveryId := h.deliveryId, channel := h.channel, success := false
          attemptCount := h.attempt, nextRetryAt := retryAt h.handedAt h.attempt }
  | .raised className => .error (.raised (.other className))

theorem Handed.exists_result_ok_iff {h : Handed} :
    (∃ r, h.result = .ok r) ↔ h.outcome.Writable := by
  unfold Handed.result SendOutcome.Writable
  rcases h.outcome with receipt | error | className
  · by_cases hfits : ∀ r ∈ receipt, fits 250 r
    · simp only [if_pos hfits]
      exact ⟨fun _ => hfits, fun _ => ⟨_, rfl⟩⟩
    · simp only [if_neg hfits]
      exact ⟨fun ⟨_, h⟩ => (nomatch h), fun h => absurd h hfits⟩
  · exact ⟨fun _ => trivial, fun _ => ⟨_, rfl⟩⟩
  · exact ⟨fun ⟨_, h⟩ => (nomatch h), fun h => h.elim⟩

theorem delivery?_id {d : AlertDeliveryModel} (h : db.delivery? id = some d) : d.id = id := by
  have hfound := List.find?_some h
  exact of_decide_eq_true hfound

section Attempts

variable {env : Notifications} {now : Timestamp} {s : AlertSession}
variable {context : ScanAlertContext} {notifier : Notifier}

/-- The index into the delays is in range wherever it is taken. -/
theorem retryDelays_inRange {n : ℕ} (hpos : 0 < n) (hlt : n < maxAttempts) :
    n - 1 < retryDelays.length := by
  show n - 1 < 2
  have hmax : n < 3 := hlt
  omega

theorem exec_nextRetry {n : ℕ} (hpos : 0 < n) :
    AlertM.exec (nextRetry now n) db s = (.ok (retryAt now n), s) := by
  unfold nextRetry retryAt
  by_cases hlt : n < maxAttempts
  · have hget := List.getElem?_eq_getElem (retryDelays_inRange hpos hlt)
    rw [if_pos hlt, if_pos hlt, AlertM.exec_bind, retryDelay, hget]
    rfl
  · rw [if_neg hlt, if_neg hlt]
    rfl

/-- With a notifier at hand the message is handed out and its outcome
written. -/
theorem exec_deliver (hc : (s.session.pending db).Constraints)
    (hrow : (s.session.pending db).delivery? id = some row) :
    AlertM.exec (deliver env row.toRecord context notifier now) db s =
      ((row.hand now env context notifier).result,
        s.after (row.hand now env context notifier)) := by
  have hid : row.id = id := delivery?_id hrow
  subst hid
  let started := s.session.rewrite row.id AlertDeliveryModel.startAttempt
  have hc' : (started.pending db).Constraints :=
    constraints_updateDelivery hc keepsIdentity_startAttempt
  have hrow' : (started.pending db).delivery? row.id = some row.startAttempt := by
    show ((s.session.pending db).updateDelivery row.id _).delivery? row.id = _
    rw [delivery?_updateDelivery keepsIdentity_startAttempt, hrow]
    rfl
  unfold deliver
  simp only [AlertM.exec_bind, AlertM.exec_ofDb, AlertDeliveryModel.toRecord]
  rw [exec_markAttemptStarted hc hrow]
  simp only [AlertM.exec_send]
  have hattempt : row.startAttempt.toRecord.attemptCount = row.attemptCount + 1 := rfl
  have htwice : ∀ g, (s.session.rewrite row.id AlertDeliveryModel.startAttempt).rewrite row.id g =
      s.session.rewrite row.id fun d => g d.startAttempt :=
    fun g => s.session.rewrite_rewrite keepsIdentity_startAttempt
  simp only [AlertDeliveryModel.hand, Handed.result, AlertSession.after]
  rcases notifier (buildAlertMessage context env.dashboardBaseUrl) with receipt | error | className
  · simp only [AlertM.exec_bind, AlertM.exec_ofDb]
    rw [exec_markSent hc' hrow', htwice]
    by_cases hfits : ∀ r ∈ receipt, fits 250 r
    · simp only [if_pos hfits]
      rfl
    · simp only [if_neg hfits]
      rfl
  · simp only [AlertM.exec_bind]
    rw [hattempt, exec_nextRetry (Nat.succ_pos _)]
    simp only [AlertM.exec_ofDb]
    rw [exec_markFailed hc' hrow', htwice]
    rfl
  · rfl

/-- **An attempt that may be made hands the message to the channel's
notifier and writes the outcome**, where it can be written. -/
theorem exec_attempt_ready (hc : (s.session.pending db).Constraints)
    (h : Ready env now (s.session.pending db) id row context notifier) :
    AlertM.exec (attempt env id now) db s =
      ((row.hand now env context notifier).result,
        s.after (row.hand now env context notifier)) := by
  have hnot : ¬ maxAttempts ≤ row.toRecord.attemptCount := Nat.not_le.2 h.left
  have hdue : (row.toRecord.nextRetryAt.filter fun t => now < t) = none := by
    rw [Option.filter_eq_none_iff]
    intro t ht hlt
    exact absurd (h.due t ht) (by simpa using hlt)
  unfold attempt
  simp only [AlertM.exec_bind, AlertM.exec_ofDb]
  rw [exec_lockDelivery hc, h.found]
  simp only [Option.map_some, if_neg hnot, hdue, AlertM.exec_bind, AlertM.exec_ofDb]
  rw [exec_getScanContext hc]
  have hread : (s.session.pending db).scanContext? row.toRecord.scanId = .ok (some context) :=
    h.read
  have hconf : env.notifiers row.toRecord.channel = some notifier := h.configured
  simp only [hread, hconf]
  exact exec_deliver hc h.found

/-- **An attempt that may not be made is refused** and leaves the session
as it was. -/
theorem exec_attempt_refused (hc : (s.session.pending db).Constraints)
    (h : ¬ ∃ row context notifier, Ready env now (s.session.pending db) id row context notifier) :
    ∃ e, AlertM.exec (attempt env id now) db s = (.error e, s) := by
  unfold attempt
  simp only [AlertM.exec_bind, AlertM.exec_ofDb]
  rw [exec_lockDelivery hc]
  rcases hrow : (s.session.pending db).delivery? id with _ | row
  · exact ⟨_, rfl⟩
  · simp only [Option.map_some]
    by_cases hleft : maxAttempts ≤ row.toRecord.attemptCount
    · rw [if_pos hleft]
      exact ⟨_, rfl⟩
    · rw [if_neg hleft]
      rcases hdue : row.toRecord.nextRetryAt.filter fun t => now < t with _ | t
      · simp only [AlertM.exec_bind, AlertM.exec_ofDb]
        rw [exec_getScanContext hc]
        rcases hread : (s.session.pending db).scanContext? row.toRecord.scanId with e | context
        · exact ⟨_, rfl⟩
        · rcases context with _ | context
          · exact ⟨_, rfl⟩
          · rcases hconf : env.notifiers row.toRecord.channel with _ | notifier
            · exact ⟨_, rfl⟩
            · refine absurd ⟨row, context, notifier, hrow, Nat.not_le.1 hleft, fun t ht => ?_,
                hread, hconf⟩ h
              rw [Option.filter_eq_none_iff] at hdue
              simpa using hdue t ht
      · exact ⟨_, rfl⟩

/-- What an attempt on a delivery hands out, if it may be made. -/
def DB.hand? (env : Notifications) (now : Timestamp) (db : DB) (id : Uuid) : Option Handed :=
  (db.delivery? id).bind fun row =>
    if row.attemptCount < maxAttempts ∧ ∀ t ∈ row.nextRetryAt, t ≤ now then
      match db.scanContext? row.scanId with
      | .ok (some context) =>
        (env.notifiers row.channel).map fun notifier => row.hand now env context notifier
      | _ => none
    else none

theorem hand?_eq_some_iff {h : Handed} : db.hand? env now id = some h ↔
    ∃ row context notifier, Ready env now db id row context notifier ∧
      h = row.hand now env context notifier := by
  unfold DB.hand?
  constructor
  · intro hsome
    obtain ⟨row, hrow, hsome⟩ := Option.bind_eq_some_iff.1 hsome
    by_cases hdue : row.attemptCount < maxAttempts ∧ ∀ t ∈ row.nextRetryAt, t ≤ now
    · rw [if_pos hdue] at hsome
      split at hsome
      · rename_i context hread
        obtain ⟨notifier, hconf, rfl⟩ := Option.map_eq_some_iff.1 hsome
        exact ⟨row, context, notifier, ⟨hrow, hdue.1, hdue.2, hread, hconf⟩, rfl⟩
      · cases hsome
    · rw [if_neg hdue] at hsome
      cases hsome
  · rintro ⟨row, context, notifier, hready, rfl⟩
    rw [hready.found]
    simp only [Option.bind_some, if_pos (And.intro hready.left hready.due), hready.read,
      hready.configured, Option.map_some]

theorem exists_ready_of_hand? {h : Handed} (hhand : db.hand? env now id = some h) :
    ∃ row context notifier, Ready env now db id row context notifier ∧
      h = row.hand now env context notifier := hand?_eq_some_iff.1 hhand

/-- What is handed out of a delivery does not hang on another's row. -/
theorem hand?_updateDelivery_of_ne (hf : KeepsIdentity f) {x : Uuid} (hne : x ≠ id) :
    (db.updateDelivery id f).hand? env now x = db.hand? env now x := by
  unfold DB.hand?
  rw [delivery?_updateDelivery_of_ne hf hne]
  rfl

theorem deliveryId_of_hand? {h : Handed} (hhand : db.hand? env now id = some h) :
    h.deliveryId = id := by
  obtain ⟨row, context, notifier, hready, rfl⟩ := exists_ready_of_hand? hhand
  exact delivery?_id hready.found

/-- **What an attempt does**: it hands a message out and writes down what
came of it, or is refused. -/
theorem exec_attempt (env : Notifications) (now : Timestamp) (id : Uuid)
    (hc : (s.session.pending db).Constraints) :
    (∃ h, (s.session.pending db).hand? env now id = some h ∧
      AlertM.exec (attempt env id now) db s = (h.result, s.after h)) ∨
    (s.session.pending db).hand? env now id = none ∧
      ∃ e, AlertM.exec (attempt env id now) db s = (.error e, s) := by
  rcases hhand : (s.session.pending db).hand? env now id with _ | h
  · refine Or.inr ⟨rfl, exec_attempt_refused hc ?_⟩
    rintro ⟨row, context, notifier, hready⟩
    rw [hand?_eq_some_iff.2 ⟨row, context, notifier, hready, rfl⟩] at hhand
    cases hhand
  · obtain ⟨row, context, notifier, hready, rfl⟩ := exists_ready_of_hand? hhand
    exact Or.inl ⟨_, rfl, exec_attempt_ready hc hready⟩

end Attempts

end SchemaSentry
