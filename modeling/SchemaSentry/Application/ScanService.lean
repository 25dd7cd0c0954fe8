import SchemaSentry.Store.Scans
/-!
# Schema Sentry — the scan service

`ScanService.run_scan` and the request that calls it: what the request
commits and what it rolls back.
-/

namespace SchemaSentry

open Lib DbM

/-- The settings that switch the alert channels on. -/
structure Settings where
  slackWebhookUrl : Option String := none
  emailTo : List String := []
  deriving DecidableEq, Repr

/-- `_enabled_channels`. -/
def enabledChannels (settings : Settings) : List AlertChannel :=
  (if settings.slackWebhookUrl.any (· ≠ "") then [.slack] else []) ++
    (if settings.emailTo ≠ [] then [.email] else [])

theorem nodup_enabledChannels (settings : Settings) : (enabledChannels settings).Nodup := by
  unfold enabledChannels
  split <;> split <;> decide

structure ScanReport where
  scanId : Uuid
  sourceKey : String
  trigger : ScanTrigger
  baselineCreated : Bool
  observedCount : ℕ
  changes : List SchemaChange
  deriving DecidableEq, Repr

/-- A scan asked for, and what it meets: what the collector returns or
raises, the moments the clock gives and the settings. -/
structure ScanRequest where
  sourceKey : String
  trigger : ScanTrigger := .manual
  settings : Settings := {}
  collected : Except PyException (List ColumnDefinition)
  startedAt : Timestamp := 0
  finishedAt : Timestamp := 0
  failedAt : Timestamp := 0
  faults : Faults := noFaults

variable [Hashlib]

/-- The `try` block of `run_scan`. -/
def scanBody (req : ScanRequest) (scanId : Uuid) : DbM ScanReport := do
  checkpoint req.faults .collect
  let observed ← ofExcept req.collected
  if observed = [] then
    raise (.emptySchemaSnapshot req.sourceKey)
  else
    checkpoint req.faults .loadExpected
    let expected ← loadExpectedColumns req.sourceKey
    if expected = [] then
      completeInitialBaseline req.faults scanId req.sourceKey observed req.finishedAt
      pure { scanId := scanId, sourceKey := req.sourceKey, trigger := req.trigger
             baselineCreated := true, observedCount := observed.length, changes := [] }
    else
      checkpoint req.faults .loadDependencies
      let dependencies ← loadDependencyColumns req.sourceKey
      checkpoint req.faults .compare
      let changes := diffColumns expected observed dependencies
      completeDriftScan req.faults (enabledChannels req.settings) scanId req.sourceKey observed
        changes req.finishedAt
      pure { scanId := scanId, sourceKey := req.sourceKey, trigger := req.trigger
             baselineCreated := false, observedCount := observed.length, changes := changes }

/-- The `except` branch of `run_scan`. -/
def scanFailed (req : ScanRequest) (scanId : Uuid) (e : PyException) : DbM ScanReport := do
  failScan (enabledChannels req.settings) scanId e.typeName "schema collection failed" req.failedAt
  raise e

def runScan (req : ScanRequest) : DbM ScanReport := do
  let acquired ← tryKey req.sourceKey
  if acquired then
    let scanId ← createRunningScan req.sourceKey req.trigger req.startedAt
    tryExcept (scanBody req scanId) (scanFailed req scanId)
  else
    raise (.scanAlreadyRunning req.sourceKey)

/-! ## The request -/

/-- The exceptions after which `POST /api/v1/scans` still commits: those the
route turns into a response, and a response raised as such. -/
def PyException.scanCommits : PyException → Bool
  | .scanAlreadyRunning _ => true
  | .sourceNotFound _ => true
  | .emptySchemaSnapshot _ => true
  | .httpException _ => true
  | .osError _ => true
  | .psycopgError _ => true
  | _ => false

/-- The request's session at its end: committed or rolled back. -/
def scanPublish (outcome : Except PyException ScanReport × Session) (db : DB) : DB :=
  match outcome.1 with
  | .ok _ => outcome.2.pending db
  | .error e => if e.scanCommits then outcome.2.pending db else db

/-- `POST /api/v1/scans`, run alone: what is committed after it. -/
def postScans (req : ScanRequest) (db : DB) : DB :=
  scanPublish (exec (runScan req) db Session.new) db

/-- What `run_scan` returns or raises, run alone. -/
def scanResult (req : ScanRequest) (db : DB) : Except PyException ScanReport :=
  (exec (runScan req) db Session.new).1

end SchemaSentry
