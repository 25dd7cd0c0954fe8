import SchemaSentry.Store.Scans
/-!
# Schema Sentry — the alert repository

`AlertRepository`: the deliveries a dispatch may attempt, the context an
alert is written from, and what an attempt leaves in its delivery's row.
-/

namespace SchemaSentry

open Lib DbM

/-! ## What an alert says -/

structure AlertChangeContext where
  qualifiedColumn : String
  beforeType : Option String
  afterType : Option String
  severity : Severity
  affectedDags : List String
  deriving DecidableEq, Repr

structure ScanAlertContext where
  scanId : Uuid
  sourceKey : String
  errorCode : Option String
  changes : List AlertChangeContext
  deriving DecidableEq, Repr

structure DeliveryRecord where
  id : Uuid
  scanId : Uuid
  channel : AlertChannel
  status : AlertStatus
  attemptCount : ℕ
  nextRetryAt : Option Timestamp
  deriving DecidableEq, Repr

/-- `_record`. -/
def AlertDeliveryModel.toRecord (d : AlertDeliveryModel) : DeliveryRecord :=
  { id := d.id, scanId := d.scanId, channel := d.channel, status := d.status
    attemptCount := d.attemptCount, nextRetryAt := d.nextRetryAt }

/-- `_affected_dags`: the pipelines joined with the edges out of the
change's column, a pipeline for each of its edges. -/
def DB.affectedDags (db : DB) (change : SchemaChangeModel) : List String :=
  (db.pipelines.flatMap fun pipeline =>
    (db.lineageEdges.filter fun edge => edge.pipelineId = pipeline.id ∧
      edge.upstreamDatasetId = change.datasetId ∧ edge.upstreamColumn = change.columnName).map
        fun _ => pipeline.airflowDagId).insertionSort fun a b => a ≤ b

/-- `_render_type`. -/
def renderType (payload : Option JsonObject) : Except PyException (Option String) :=
  match payload.bind (Dict.get? "data_type") with
  | some (.obj kwargs) => do
    let type ← CanonicalType.ofKwargs kwargs
    return some type.render
  | _ => .ok none

/-- A scan's row with its source's. -/
def DB.scanWithSource? (db : DB) (scanId : Uuid) : Option (ScanRunModel × DataSourceModel) :=
  (db.scanRuns.find? fun scan => scan.id = scanId).bind fun scan =>
    (db.sources.find? fun source => source.id = scan.sourceId).map fun source => (scan, source)

/-- The order of an alert's changes. -/
def alertSortKey (row : SchemaChangeModel × DatasetModel) : String ×ₗ (String ×ₗ String) :=
  toLex (row.2.schemaName, toLex (row.2.tableName, row.1.columnName))

/-- A scan's change rows that are not rated INFO, joined with `datasets`. -/
def DB.alertRows (db : DB) (scanId : Uuid) : List (SchemaChangeModel × DatasetModel) :=
  (db.schemaChanges.flatMap fun change =>
    (db.datasets.filter fun dataset => dataset.id = change.datasetId ∧
      change.scanId = scanId ∧ change.severity ≠ .info).map fun dataset =>
        (change, dataset)).insertionSort fun a b => alertSortKey a ≤ alertSortKey b

/-- One change of the context. -/
def alertChange (row : SchemaChangeModel × DatasetModel) : DbM AlertChangeContext := do
  let beforeType ← ofExcept (renderType row.1.beforeJson)
  let afterType ← ofExcept (renderType row.1.afterJson)
  let affectedDags ← select fun db => db.affectedDags row.1
  pure { qualifiedColumn :=
           row.2.schemaName ++ "." ++ row.2.tableName ++ "." ++ row.1.columnName
         beforeType := beforeType
         afterType := afterType
         severity := row.1.severity
         affectedDags := affectedDags }

/-- The changes of the context, row by row. -/
def alertChanges : List (SchemaChangeModel × DatasetModel) → DbM (List AlertChangeContext)
  | [] => pure []
  | row :: rest => do
    let change ← alertChange row
    let changes ← alertChanges rest
    pure (change :: changes)

def getScanContext (scanId : Uuid) : DbM (Option ScanAlertContext) := do
  let row ← select fun db => db.scanWithSource? scanId
  match row with
  | none => pure none
  | some (scan, source) =>
    let changeRows ← select fun db => db.alertRows scanId
    let changes ← alertChanges changeRows
    pure (some
      { scanId := scan.id
        sourceKey := source.key
        errorCode := if scan.status = .failed then scan.errorCode else none
        changes := changes })

/-! ## Which deliveries -/

/-- The PENDING deliveries of a scan, by `created_at` and `id`: one scan's
are created at one moment. -/
def DB.dispatchable (db : DB) (scanId : Uuid) : List Uuid :=
  ((db.alertDeliveries.filter fun d => d.scanId = scanId ∧ d.status = .pending).map
    AlertDeliveryModel.id).insertionSort fun a b => a ≤ b

def listDispatchableForScan (scanId : Uuid) : DbM (List Uuid) :=
  select fun db => db.dispatchable scanId

/-- The FAILED scans of a source, the one started last first. -/
def DB.latestFailedScanId (db : DB) (sourceKey : String) : Option Uuid :=
  (((db.scanRuns.filter fun scan => scan.status = .failed ∧
    ∃ source ∈ db.sources, source.id = scan.sourceId ∧ source.key = sourceKey).insertionSort
      fun a b => b.startedAt ≤ a.startedAt).map ScanRunModel.id).head?

def latestFailedScanId (sourceKey : String) : DbM (Option Uuid) :=
  select fun db => db.latestFailedScanId sourceKey

/-! ## An attempt's traces -/

def DB.delivery? (db : DB) (deliveryId : Uuid) : Option AlertDeliveryModel :=
  db.alertDeliveries.find? fun d => d.id = deliveryId

/-- The row of the id given is rewritten. -/
def DB.updateDelivery (deliveryId : Uuid) (f : AlertDeliveryModel → AlertDeliveryModel)
    (db : DB) : DB :=
  { db with alertDeliveries := db.alertDeliveries.map fun d => if d.id = deliveryId then f d else d }

/-- `with_for_update()` on a delivery's row. -/
def lockDeliveryRow (deliveryId : Uuid) : DbM Unit := fun s =>
  .lock deliveryId .update (.ret (.ok (), s))

/-- `lock_delivery`: the row is locked before it is read. -/
def lockDelivery (deliveryId : Uuid) : DbM (Option DeliveryRecord) := do
  lockDeliveryRow deliveryId
  let delivery ← select fun db => db.delivery? deliveryId
  pure (delivery.map AlertDeliveryModel.toRecord)

/-- `_delivery`. -/
def getDelivery (deliveryId : Uuid) : DbM AlertDeliveryModel := do
  let row ← select fun db => db.delivery? deliveryId
  match row with
  | none => raise (.lookupError s!"alert delivery not found: {deliveryId}")
  | some delivery => pure delivery

/-- One attempt more, PENDING until its outcome is known. -/
def AlertDeliveryModel.startAttempt (d : AlertDeliveryModel) : AlertDeliveryModel :=
  { d with attemptCount := d.attemptCount + 1, status := .pending, nextRetryAt := none }

/-- SENT at a moment. -/
def AlertDeliveryModel.sent (providerMessageId : Option String) (sentAt : Timestamp)
    (d : AlertDeliveryModel) : AlertDeliveryModel :=
  { d with
    status := .sent
    providerMessageId := providerMessageId
    lastError := none
    nextRetryAt := none
    sentAt := some sentAt }

/-- FAILED, to be tried again from a moment on or not at all. -/
def AlertDeliveryModel.unsent (error : String) (nextRetryAt : Option Timestamp)
    (d : AlertDeliveryModel) : AlertDeliveryModel :=
  { d with status := .failed, lastError := some error, nextRetryAt := nextRetryAt }

def markAttemptStarted (deliveryId : Uuid) : DbM DeliveryRecord := do
  let delivery ← getDelivery deliveryId
  write (DB.updateDelivery deliveryId AlertDeliveryModel.startAttempt)
  flush
  pure delivery.startAttempt.toRecord

/-- `mark_sent`: a receipt longer than its column is refused. -/
def markSent (deliveryId : Uuid) (providerMessageId : Option String) (sentAt : Timestamp) :
    DbM Unit := do
  let _ ← getDelivery deliveryId
  write (DB.updateDelivery deliveryId (AlertDeliveryModel.sent providerMessageId sentAt))
  if ∀ id ∈ providerMessageId, fits 250 id then flush else raise .sqlAlchemyError

def markFailed (deliveryId : Uuid) (error : String) (nextRetryAt : Option Timestamp) :
    DbM Unit := do
  let _ ← getDelivery deliveryId
  write (DB.updateDelivery deliveryId (AlertDeliveryModel.unsent error nextRetryAt))
  flush

end SchemaSentry
