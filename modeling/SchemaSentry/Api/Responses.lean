import SchemaSentry.Application.ChangeService
import SchemaSentry.Application.NotificationService
import SchemaSentry.Application.QueryService
import SchemaSentry.Application.ScanService
/-!
# Schema Sentry — what a response says

The response schemas of the versioned API and the cards of the dashboard's
change list, each made from what a service returned.
-/

namespace SchemaSentry

open Lib

/-! ## Schemas -/

structure ScanChangeResponse where
  id : Option Uuid := none
  dataset : String
  columnName : String
  changeType : ChangeType
  severity : Severity
  state : Option ChangeState := none
  before : Option JsonObject
  after : Option JsonObject
  affectedDags : List String := []
  deriving DecidableEq

/-- `ScanChangeResponse.from_persisted`. -/
def ScanChangeResponse.fromPersisted (c : PersistedChange) : ScanChangeResponse :=
  { id := some c.id, dataset := c.dataset.qualifiedName, columnName := c.columnName
    changeType := c.changeType, severity := c.severity, state := some c.state
    before := c.before, after := c.after, affectedDags := c.affectedDags }

structure ScanResponse where
  scanId : Uuid
  sourceKey : String
  trigger : ScanTrigger
  baselineCreated : Bool
  observedCount : ℕ
  changes : List ScanChangeResponse
  deriving DecidableEq

def ScanResponse.fromReport (report : ScanReport) : ScanResponse :=
  { scanId := report.scanId, sourceKey := report.sourceKey, trigger := report.trigger
    baselineCreated := report.baselineCreated, observedCount := report.observedCount
    changes := report.changes.map fun change =>
      { dataset := change.dataset.qualifiedName, columnName := change.columnName
        changeType := change.changeType, severity := change.severity
        before := change.before.map ColumnDefinition.toCanonicalDict
        after := change.after.map ColumnDefinition.toCanonicalDict } }

structure ScanDetailResponse where
  scanId : Uuid
  sourceKey : String
  currentBaselineVersion : ℤ
  trigger : ScanTrigger
  status : ScanStatus
  startedAt : Timestamp
  finishedAt : Option Timestamp
  durationMs : Option ℤ
  errorCode : Option String
  errorMessage : Option String
  changes : List ScanChangeResponse
  deliveries : List PersistedDelivery
  deriving DecidableEq

def ScanDetailResponse.fromPersisted (scan : PersistedScan) : ScanDetailResponse :=
  { scanId := scan.id, sourceKey := scan.sourceKey
    currentBaselineVersion := scan.currentBaselineVersion, trigger := scan.trigger
    status := scan.status, startedAt := scan.startedAt, finishedAt := scan.finishedAt
    durationMs := scan.durationMs, errorCode := scan.errorCode, errorMessage := scan.errorMessage
    changes := scan.changes.map ScanChangeResponse.fromPersisted, deliveries := scan.deliveries }

structure BlockingChangeResponse where
  id : Uuid
  dataset : String
  columnName : String
  changeType : ChangeType
  severity : Severity
  deriving DecidableEq, Repr

structure PipelineValidationResponse where
  pipelineKey : String
  safe : Bool
  blockingChanges : List BlockingChangeResponse
  deriving DecidableEq, Repr

def PipelineValidationResponse.fromDomain (v : PipelineValidation) : PipelineValidationResponse :=
  { pipelineKey := v.pipelineKey, safe := v.safe
    blockingChanges := v.blockingChanges.map fun change =>
      { id := change.id, dataset := change.dataset.qualifiedName, columnName := change.columnName
        changeType := change.changeType, severity := change.severity } }

/-! ## Cards -/

/-- `str` of a JSON value that is no object. -/
def pyStr : Json → String
  | .null => "None"
  | .bool b => if b then "True" else "False"
  | .int n => toString n
  | .str s => s
  | .obj _ => "{...}"

/-- A field that is there and not null. -/
def presentField (key : String) (fields : JsonObject) : Option Json :=
  (Dict.get? key fields).filter fun value => value ≠ .null

/-- `_column_type`. -/
def columnType (snapshot : Option JsonObject) : String :=
  match snapshot with
  | none | some [] => "Not present"
  | some fields =>
    let dataType := match Dict.get? "data_type" fields with
      | some (.obj dataType) => dataType
      | _ => []
    let name := pyStr ((Dict.get? "name" dataType).getD (.str "unknown"))
    match presentField "length" dataType, presentField "precision" dataType,
        presentField "scale" dataType with
    | some length, _, _ => name ++ "(" ++ pyStr length ++ ")"
    | none, some precision, some scale =>
      name ++ "(" ++ pyStr precision ++ "," ++ pyStr scale ++ ")"
    | none, some precision, none => name ++ "(" ++ pyStr precision ++ ")"
    | none, none, _ => name

/-- A change as the change list shows it, with the version its form sends
where it has one. -/
structure ChangeCard where
  id : Uuid
  column : String
  changeType : ChangeType
  severity : Severity
  before : String
  after : String
  affectedDags : List String
  acceptVersion : Option ℤ
  deriving DecidableEq, Repr

/-- The change list under a message. -/
structure Panel where
  message : Option String
  kind : String
  cards : List ChangeCard
  deliveries : List (AlertChannel × AlertStatus)
  deriving DecidableEq, Repr

/-- One card of `change_list.html`. -/
def changeCard (version : ℤ) (c : PersistedChange) : ChangeCard :=
  { id := c.id, column := c.dataset.qualifiedName ++ "." ++ c.columnName
    changeType := c.changeType, severity := c.severity
    before := columnType c.before, after := columnType c.after, affectedDags := c.affectedDags
    acceptVersion := if c.state = .open then some version else none }

/-- `change_list.html`. -/
def panel (scan : Option PersistedScan) (message : Option String) (kind : String) : Panel :=
  match scan with
  | none => { message := message, kind := kind, cards := [], deliveries := [] }
  | some scan =>
    { message := message, kind := kind
      cards := scan.changes.map (changeCard scan.currentBaselineVersion)
      deliveries := scan.deliveries.map fun d => (d.channel, d.status) }

end SchemaSentry
