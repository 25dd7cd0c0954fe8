import SchemaSentry.Store.Alerts
/-!
# Schema Sentry — the notification service

`NotificationService` with the transactions that call it: the background
dispatch of a scan's deliveries, the dispatch after a source failure and
the retry of one delivery. What is handed to a notifier stays handed,
whatever becomes of the transaction.
-/

namespace SchemaSentry

open Lib

/-! ## Messages -/

structure AlertMessage where
  subject : String
  text : String
  html : String
  dashboardUrl : String
  deriving DecidableEq, Repr

/-- `html.escape`. -/
def escapeHtml (s : String) : String :=
  String.join (s.toList.map fun c =>
    if c = '&' then "&amp;"
    else if c = '<' then "&lt;"
    else if c = '>' then "&gt;"
    else if c = '"' then "&quot;"
    else if c = '\'' then "&#x27;"
    else String.singleton c)

/-- `s.rstrip("/")`. -/
def stripSlashes (s : String) : String :=
  String.ofList ((s.toList.reverse.dropWhile fun c => c = '/').reverse)

/-- `text or other`. -/
def orElse (text : Option String) (other : String) : String :=
  match text with
  | some s => if s = "" then other else s
  | none => other

/-- The line of one change. -/
def AlertChangeContext.line (c : AlertChangeContext) : String :=
  let transition := orElse c.beforeType "∅" ++ " → " ++ orElse c.afterType "∅"
  let dags := orElse (some (String.intercalate ", " c.affectedDags)) "no registered DAG"
  "[" ++ c.severity.value ++ "] " ++ c.qualifiedColumn ++ ": " ++ transition ++ "; affected: " ++
    dags

def buildAlertMessage (context : ScanAlertContext) (dashboardBaseUrl : String) : AlertMessage :=
  let dashboardUrl := stripSlashes dashboardBaseUrl ++ "/"
  let failure := context.errorCode.filter fun code => code ≠ ""
  let subject :=
    if failure.isSome then "Schema Sentry source failure: " ++ context.sourceKey
    else "Schema Sentry drift detected: " ++ context.sourceKey
  let lines := [subject, "scan #" ++ toString context.scanId] ++
    (match failure with
    | some code => ["error: " ++ code]
    | none => context.changes.map AlertChangeContext.line) ++
    ["dashboard: " ++ dashboardUrl]
  { subject := subject
    text := String.intercalate "\n" lines
    html := String.intercalate "<br>" (lines.map escapeHtml)
    dashboardUrl := dashboardUrl }

/-! ## Notifiers -/

/-- What a notifier makes of a message: a receipt, a `DeliveryFailure` or
another exception. -/
inductive SendOutcome where
  | accepted (providerMessageId : Option String)
  | deliveryFailure (message : String)
  | raised (className : String)
  deriving DecidableEq, Repr

abbrev Notifier := AlertMessage → SendOutcome

/-- The notifiers configured, by channel, and the dashboard's address. -/
structure Notifications where
  notifiers : AlertChannel → Option Notifier
  dashboardBaseUrl : String

/-- A message handed to a notifier. -/
structure Handed where
  deliveryId : Uuid
  channel : AlertChannel
  attempt : ℕ
  handedAt : Timestamp
  message : AlertMessage
  outcome : SendOutcome
  deriving DecidableEq, Repr

/-- The notifier accepted the message. -/
def Handed.Accepted (h : Handed) : Prop := ∃ receipt, h.outcome = .accepted receipt

instance (h : Handed) : Decidable h.Accepted :=
  match hout : h.outcome with
  | .accepted receipt => .isTrue ⟨receipt, hout⟩
  | .deliveryFailure _ => .isFalse fun ⟨_, hacc⟩ => nomatch hout.symm.trans hacc
  | .raised _ => .isFalse fun ⟨_, hacc⟩ => nomatch hout.symm.trans hacc

/-! ## The monad -/

/-- What an attempt raises: an exception of the service's, or another. -/
inductive AlertException where
  | deliveryNotFound (deliveryId : Uuid)
  | maxAttemptsExceeded (deliveryId : Uuid)
  | retryNotDue (nextRetryAt : Timestamp)
  | deliveryFailure (message : String)
  | raised (e : PyException)
  deriving DecidableEq, Repr

/-- A session and what has been handed out under it. -/
structure AlertSession where
  session : Session
  handed : List Handed

/-- A session just opened. -/
def AlertSession.new : AlertSession := { session := Session.new, handed := [] }

/-- A program over a session that may hand messages to notifiers. -/
def AlertM (α : Type) : Type :=
  AlertSession → Tx DB Uuid String (Except AlertException α × AlertSession)

namespace AlertM

variable {α β : Type}

protected def pure (a : α) : AlertM α := fun s => .ret (.ok a, s)

protected def bind (x : AlertM α) (f : α → AlertM β) : AlertM β := fun s =>
  (x s).bind fun r =>
    match r.1 with
    | .ok a => f a r.2
    | .error e => .ret (.error e, r.2)

instance : Monad AlertM where
  pure := AlertM.pure
  bind := AlertM.bind

/-- `raise`. -/
def raise (e : AlertException) : AlertM α := fun s => .ret (.error e, s)

/-- A repository's method. -/
def ofDb (x : DbM α) : AlertM α := fun s =>
  (x s.session).bind fun r =>
    match r.1 with
    | .ok a => .ret (.ok a, { s with session := r.2 })
    | .error e => .ret (.error (.raised e), { s with session := r.2 })

/-- `notifier.send(message)`, of which the message stays handed. -/
def send (handed : Handed) : AlertM Unit := fun s =>
  .ret (.ok (), { s with handed := s.handed ++ [handed] })

/-- The result of a program run alone. -/
def exec (x : AlertM α) (db : DB) (s : AlertSession) : Except AlertException α × AlertSession :=
  (x s).run db

variable {db : DB} {s : AlertSession}

theorem exec_pure (a : α) : exec (Pure.pure a : AlertM α) db s = (.ok a, s) := rfl

theorem exec_bind (x : AlertM α) (f : α → AlertM β) :
    exec (x >>= f) db s =
      match exec x db s with
      | (.ok a, t) => exec (f a) db t
      | (.error e, t) => (.error e, t) := by
  show (AlertM.bind x f s).run db = _
  rw [AlertM.bind, Tx.run_bind, exec]
  rcases (x s).run db with ⟨a | e, t⟩ <;> rfl

theorem exec_raise (e : AlertException) : exec (raise e : AlertM α) db s = (.error e, s) := rfl

theorem exec_ofDb (x : DbM α) :
    exec (ofDb x) db s =
      match DbM.exec x db s.session with
      | (.ok a, t) => (.ok a, { s with session := t })
      | (.error e, t) => (.error (.raised e), { s with session := t }) := by
  rw [exec, ofDb, Tx.run_bind, DbM.exec]
  rcases (x s.session).run db with ⟨a | e, t⟩ <;> rfl

theorem exec_send (handed : Handed) :
    exec (send handed) db s = (.ok (), { s with handed := s.handed ++ [handed] }) := rfl

end AlertM

/-! ## The service -/

structure DeliveryResult where
  deliveryId : Uuid
  channel : AlertChannel
  success : Bool
  attemptCount : ℕ
  nextRetryAt : Option Timestamp
  deriving DecidableEq, Repr

/-- `MAX_ATTEMPTS`. -/
def maxAttempts : ℕ := 3

/-- `RETRY_DELAYS`: one minute, then five. -/
def retryDelays : List ℤ := [60000000, 300000000]

/-- `RETRY_DELAYS[attempt_count - 1]`. -/
def retryDelay (attemptCount : ℕ) : AlertM ℤ :=
  match retryDelays[attemptCount - 1]? with
  | some delay => pure delay
  | none => AlertM.raise (.raised (.other "IndexError"))

/-- When a delivery whose attempt has failed may be tried again. -/
def nextRetry (now : Timestamp) (attemptCount : ℕ) : AlertM (Option Timestamp) :=
  if attemptCount < maxAttempts then do
    let delay ← retryDelay attemptCount
    pure (some (now + delay))
  else pure none

/-- The attempt itself, with a notifier and the message's context at hand. -/
def deliver (env : Notifications) (delivery : DeliveryRecord) (context : ScanAlertContext)
    (notifier : Notifier) (now : Timestamp) : AlertM DeliveryResult := do
  let attempted ← AlertM.ofDb (markAttemptStarted delivery.id)
  let message := buildAlertMessage context env.dashboardBaseUrl
  AlertM.send
    { deliveryId := delivery.id, channel := delivery.channel, attempt := attempted.attemptCount
      handedAt := now, message := message, outcome := notifier message }
  match notifier message with
  | .accepted providerMessageId =>
    AlertM.ofDb (markSent delivery.id providerMessageId now)
    pure { deliveryId := delivery.id, channel := delivery.channel, success := true
           attemptCount := attempted.attemptCount, nextRetryAt := none }
  | .deliveryFailure error =>
    let nextRetryAt ← nextRetry now attempted.attemptCount
    AlertM.ofDb (markFailed delivery.id error nextRetryAt)
    pure { deliveryId := delivery.id, channel := delivery.channel, success := false
           attemptCount := attempted.attemptCount, nextRetryAt := nextRetryAt }
  | .raised className => AlertM.raise (.raised (.other className))

/-- `_attempt`. -/
def attempt (env : Notifications) (deliveryId : Uuid) (now : Timestamp) :
    AlertM DeliveryResult := do
  let locked ← AlertM.ofDb (lockDelivery deliveryId)
  match locked with
  | none => AlertM.raise (.deliveryNotFound deliveryId)
  | some delivery =>
    if maxAttempts ≤ delivery.attemptCount then
      AlertM.raise (.maxAttemptsExceeded deliveryId)
    else
      match delivery.nextRetryAt.filter fun t => now < t with
      | some nextRetryAt => AlertM.raise (.retryNotDue nextRetryAt)
      | none =>
        let context ← AlertM.ofDb (getScanContext delivery.scanId)
        match context with
        | none => AlertM.raise (.deliveryNotFound deliveryId)
        | some context =>
          match env.notifiers delivery.channel with
          | none => AlertM.raise (.deliveryFailure "notification_channel_not_configured")
          | some notifier => deliver env delivery context notifier now

/-- One delivery after another. -/
def attemptAll (env : Notifications) (now : Timestamp) : List Uuid → AlertM (List DeliveryResult)
  | [] => pure []
  | deliveryId :: rest => do
    let result ← attempt env deliveryId now
    let results ← attemptAll env now rest
    pure (result :: results)

def dispatchScan (env : Notifications) (scanId : Uuid) (now : Timestamp) :
    AlertM (List DeliveryResult) := do
  let deliveryIds ← AlertM.ofDb (listDispatchableForScan scanId)
  attemptAll env now deliveryIds

def retry (env : Notifications) (deliveryId : Uuid) (now : Timestamp) : AlertM DeliveryResult :=
  attempt env deliveryId now

/-! ## The transactions -/

/-- `session_scope`: committed at the end, or rolled back on any
exception. -/
def scopePublish {α : Type} (outcome : Except AlertException α × AlertSession) (db : DB) : DB :=
  match outcome.1 with
  | .ok _ => outcome.2.session.pending db
  | .error _ => db

/-- The exceptions `POST /api/v1/alerts/{delivery_id}/retry` turns into a
response, after which its session commits. -/
def AlertException.retryCommits : AlertException → Bool
  | .deliveryNotFound _ => true
  | .maxAttemptsExceeded _ => true
  | .retryNotDue _ => true
  | .deliveryFailure _ => false
  | .raised _ => false

/-- The retry's session at its end. -/
def retryPublish {α : Type} (outcome : Except AlertException α × AlertSession) (db : DB) : DB :=
  match outcome.1 with
  | .ok _ => outcome.2.session.pending db
  | .error e => if e.retryCommits then outcome.2.session.pending db else db

/-- `NotificationDispatcher.dispatch_system_error`: the scan is looked up by
its source. -/
def dispatchSystemError (env : Notifications) (sourceKey : String) (now : Timestamp) :
    AlertM (List DeliveryResult) := do
  let scanId ← AlertM.ofDb (latestFailedScanId sourceKey)
  match scanId with
  | none => pure []
  | some scanId => dispatchScan env scanId now

/-- `NotificationDispatcher.dispatch_scan`, run alone: what is committed
after it. -/
def postDispatchScan (env : Notifications) (scanId : Uuid) (now : Timestamp) (db : DB) : DB :=
  scopePublish (AlertM.exec (dispatchScan env scanId now) db AlertSession.new) db

/-- What `dispatch_scan`, run alone, hands to the notifiers. -/
def handedByDispatch (env : Notifications) (scanId : Uuid) (now : Timestamp) (db : DB) :
    List Handed :=
  (AlertM.exec (dispatchScan env scanId now) db AlertSession.new).2.handed

end SchemaSentry
