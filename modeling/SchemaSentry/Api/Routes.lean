import SchemaSentry.Api.Responses
import SchemaSentry.Api.Security
import SchemaSentry.System.Outbox
/-!
# Schema Sentry — the routes

Each route of the API and of the dashboard as what it does to the tables
when it runs alone: the reply, what is committed, and the scans whose
deliveries are dispatched in the background. The operator is asked for
first, the body checked next, and the origin of a dashboard's action last.
-/

namespace SchemaSentry

open Lib DbM

/-! ## Requests and replies -/

inductive HttpRequest where
  | runScan (sourceKey : String)
  | latestScan
  | getScan (scanId : Uuid)
  | acceptChange (changeId : Uuid) (baselineVersion : ℤ)
  | validatePipeline (pipelineKey : String)
  | retryDelivery (deliveryId : Uuid)
  | dashboard
  | scanAction (sourceKey : Option String)
  | acceptAction (changeId : Uuid) (baselineVersion : ℤ)
  deriving DecidableEq, Repr

/-- What a request meets: what the collector returns or raises, the moments
the clock gives and the network. -/
structure Moment where
  collected : Except PyException (List ColumnDefinition)
  startedAt : Timestamp := 0
  finishedAt : Timestamp := 0
  failedAt : Timestamp := 0
  acceptedAt : Timestamp := 0
  now : Timestamp := 0
  transport : Transport

inductive Body where
  | detail (text : String)
  | versions (expected actual : ℤ)
  | nextRetryAt (moment : Timestamp)
  | scan (response : ScanResponse)
  | scanDetail (response : ScanDetailResponse)
  | acceptance (result : AcceptanceResult)
  | validation (response : PipelineValidationResponse)
  | delivery (result : DeliveryResult)
  | page (panel : Panel) (recent : List PersistedScan)
  | changeList (panel : Panel)
  | none
  deriving DecidableEq

structure Reply where
  status : ℕ
  body : Body
  deriving DecidableEq

/-- A request's reply, the tables after it and the scans to dispatch. -/
structure Answer where
  reply : Reply
  db : DB
  queued : List Uuid := []

/-- A reply that leaves the tables as they are. -/
def Answer.only (status : ℕ) (body : Body) (db : DB) : Answer := { reply := ⟨status, body⟩, db := db }

/-- `str(exc)` of the exceptions a route puts into its reply. -/
def PyException.text : PyException → String
  | .scanAlreadyRunning sourceKey => "scan already running for source: " ++ sourceKey
  | .sourceNotFound sourceKey => "data source not found: " ++ sourceKey
  | .emptySchemaSnapshot sourceKey => "schema snapshot is empty for source: " ++ sourceKey
  | .changeNotFound changeId => "schema change not found: " ++ toString changeId
  | .lookupError message => message
  | .keyError key => "'" ++ key ++ "'"
  | e => e.typeName

/-- The exceptions that are `LookupError`s. -/
def PyException.isLookupError : PyException → Bool
  | .sourceNotFound _ => true
  | .changeNotFound _ => true
  | .lookupError _ => true
  | .keyError _ => true
  | .other className => className = "IndexError"
  | _ => false

/-- An exception no route has a reply for. -/
def Answer.raised (e : PyException) (db : DB) : Answer :=
  match e with
  | .httpException code => .only code .none db
  | _ => .only 500 .none db

section Routes

variable (s : ServerSettings) (m : Moment)

/-- The scan a request asks for. -/
def Moment.scanRequest (sourceKey : String) : ScanRequest :=
  { sourceKey := sourceKey, trigger := .manual, settings := s.alerts, collected := m.collected
    startedAt := m.startedAt, finishedAt := m.finishedAt, failedAt := m.failedAt }

/-- What is committed once a failed scan is recorded and its alerts are
dispatched. -/
def afterFailure [Hashlib] (sourceKey : String) (db : DB) : DB :=
  postSystemError (s.notifications m.transport) sourceKey m.now
    (postScans (m.scanRequest s sourceKey) db)

/-! ## The API -/

/-- `POST /api/v1/scans`. -/
def runScanRoute [Hashlib] (sourceKey : String) (db : DB) : Answer :=
  let after := postScans (m.scanRequest s sourceKey) db
  match scanResult (m.scanRequest s sourceKey) db with
  | .ok report =>
    { reply := ⟨201, .scan (ScanResponse.fromReport report)⟩, db := after, queued := [report.scanId] }
  | .error e =>
    match e with
    | .scanAlreadyRunning _ => .only 409 (.detail e.text) after
    | .sourceNotFound _ => .only 404 (.detail e.text) after
    | .psycopgError _ | .osError _ | .emptySchemaSnapshot _ =>
      .only 503 (.detail "source database unavailable") (afterFailure s m sourceKey db)
    | e => .raised e after

/-- A scan's details, if it is there. -/
def detailReply (shown : Except PyException (Option PersistedScan)) (db : DB) : Answer :=
  match shown with
  | .ok (some scan) => .only 200 (.scanDetail (ScanDetailResponse.fromPersisted scan)) db
  | .ok none => .only 404 (.detail "scan not found") db
  | .error e => .raised e db

/-- `POST /api/v1/changes/{change_id}/accept`. -/
def acceptChangeRoute (changeId : Uuid) (baselineVersion : ℤ) (db : DB) : Answer :=
  let req : AcceptRequest := ⟨changeId, baselineVersion, m.acceptedAt⟩
  let after := postAccept req db
  match acceptResult req db with
  | .ok result => .only 200 (.acceptance result) after
  | .error (.baselineVersionConflict expected actual) => .only 409 (.versions expected actual) after
  | .error (.changeNotFound id) => .only 404 (.detail (PyException.changeNotFound id).text) after
  | .error e => .raised e after

/-- `POST /api/v1/pipelines/{pipeline_key}/validate`. -/
def validatePipelineRoute (pipelineKey : String) (db : DB) : Answer :=
  match validateResult pipelineKey db with
  | .ok result =>
    .only (if result.safe then 200 else 409)
      (.validation (PipelineValidationResponse.fromDomain result)) db
  | .error e => if e.isLookupError then .only 404 (.detail e.text) db else .raised e db

/-- What a retry, run alone, returns or raises. -/
def retryResult (env : Notifications) (deliveryId : Uuid) (now : Timestamp) (db : DB) :
    Except AlertException DeliveryResult :=
  (AlertM.exec (retry env deliveryId now) db AlertSession.new).1

/-- `POST /api/v1/alerts/{delivery_id}/retry`. -/
def retryDeliveryRoute (deliveryId : Uuid) (db : DB) : Answer :=
  let env := s.notifications m.transport
  let after := postRetry env deliveryId m.now db
  match retryResult env deliveryId m.now db with
  | .ok result => .only 200 (.delivery result) after
  | .error (.deliveryNotFound id) =>
    .only 404 (.detail ("alert delivery not found: " ++ toString id)) after
  | .error (.maxAttemptsExceeded id) =>
    .only 409 (.detail ("maximum delivery attempts exceeded: " ++ toString id)) after
  | .error (.retryNotDue moment) => .only 409 (.nextRetryAt moment) after
  | .error (.deliveryFailure _) => .only 500 .none after
  | .error (.raised e) => .raised e after

/-! ## The dashboard -/

/-- `_render_change_list` over the tables as the session has them; where it
raises the session goes back to the tables committed. -/
def renderChangeList (status : ℕ) (message kind : String) (session committed : DB)
    (queued : List Uuid) : Answer :=
  match latestResult session with
  | .ok scan =>
    { reply := ⟨status, .changeList (panel scan (some message) kind)⟩, db := session
      queued := queued }
  | .error e => .raised e committed

/-- `GET /`. -/
def dashboardRoute (db : DB) : Answer :=
  match latestResult db, recentResult 5 db with
  | .ok scan, .ok recent => .only 200 (.page (panel scan none "success") recent) db
  | .error e, _ => .raised e db
  | _, .error e => .raised e db

/-- `POST /actions/scans`. -/
def scanAction [Hashlib] (sourceKey : String) (db : DB) : Answer :=
  let after := postScans (m.scanRequest s sourceKey) db
  match scanResult (m.scanRequest s sourceKey) db with
  | .ok report =>
    renderChangeList 200 ("Scan " ++ toString report.scanId ++ " completed.") "success" after after
      [report.scanId]
  | .error e =>
    match e with
    | .scanAlreadyRunning _ =>
      renderChangeList 409 "A scan is already running. Try again shortly." "warning" after db []
    | .sourceNotFound _ =>
      renderChangeList 404 ("Source '" ++ sourceKey ++ "' is not registered.") "error" after db []
    | .psycopgError _ | .osError _ | .emptySchemaSnapshot _ =>
      renderChangeList 503 "Source database is unavailable. The failure was recorded." "error"
        (afterFailure s m sourceKey db) (afterFailure s m sourceKey db) []
    | e => .raised e after

/-- `POST /actions/changes/{change_id}/accept`. -/
def acceptAction (changeId : Uuid) (baselineVersion : ℤ) (db : DB) : Answer :=
  let req : AcceptRequest := ⟨changeId, baselineVersion, m.acceptedAt⟩
  let after := postAccept req db
  match acceptResult req db with
  | .ok result =>
    renderChangeList 200
      ("Accepted as baseline version " ++ toString result.baselineVersion ++ ".") "success" after db
      []
  | .error (.baselineVersionConflict _ actual) =>
    renderChangeList 409 ("Baseline changed to version " ++ toString actual ++
      ". Refresh the page before accepting.") "warning" after db []
  | .error (.changeNotFound _) =>
    renderChangeList 404 "This schema change no longer exists. Refresh the page." "error" after db
      []
  | .error e => .raised e after

/-! ## The server -/

/-- The routes that depend on `require_operator`. -/
def HttpRequest.needsOperator : HttpRequest → Bool
  | .latestScan => false
  | .getScan _ => false
  | .dashboard => false
  | _ => true

/-- The routes a browser posts the dashboard's forms to. -/
def HttpRequest.isAction : HttpRequest → Bool
  | .scanAction _ => true
  | .acceptAction _ _ => true
  | _ => false

/-- The bounds of the request's fields. -/
def HttpRequest.Valid : HttpRequest → Prop
  | .runScan sourceKey => 1 ≤ sourceKey.length ∧ sourceKey.length ≤ 100
  | .acceptChange _ baselineVersion => 0 ≤ baselineVersion
  | .scanAction (some sourceKey) => 1 ≤ sourceKey.length ∧ sourceKey.length ≤ 100
  | .acceptAction _ baselineVersion => 0 ≤ baselineVersion
  | _ => True

instance (req : HttpRequest) : Decidable req.Valid := by
  unfold HttpRequest.Valid
  split <;> infer_instance

/-- What a request that is let through does. -/
def serve [Hashlib] (req : HttpRequest) (db : DB) : Answer :=
  match req with
  | .runScan sourceKey => runScanRoute s m sourceKey db
  | .latestScan => detailReply (latestResult db) db
  | .getScan scanId => detailReply (getResult scanId db) db
  | .acceptChange changeId baselineVersion => acceptChangeRoute m changeId baselineVersion db
  | .validatePipeline pipelineKey => validatePipelineRoute pipelineKey db
  | .retryDelivery deliveryId => retryDeliveryRoute s m deliveryId db
  | .dashboard => dashboardRoute db
  | .scanAction sourceKey => scanAction s m (sourceKey.getD "game") db
  | .acceptAction changeId baselineVersion => acceptAction m changeId baselineVersion db

/-- What stops a request before its route does anything: the exception
`require_operator` raises, a body out of bounds, another origin. -/
def stopped? (headers : Headers) (req : HttpRequest) : Option PyException :=
  if req.needsOperator then
    match requireOperator s headers with
    | .error e => some e
    | .ok identity =>
      if ¬ req.Valid then some (.httpException 422)
      else if req.isAction then
        match requireSameOrigin s headers identity with
        | .error e => some e
        | .ok () => none
      else none
  else none

/-- A request as the server answers it. -/
def handle [Hashlib] (headers : Headers) (req : HttpRequest) (db : DB) : Answer :=
  match stopped? s headers req with
  | some e => .raised e db
  | none => serve s m req db

end Routes

end SchemaSentry
