import SchemaSentry.Store.Session
import SchemaSentry.Domain.Diff
import SchemaSentry.Domain.Fingerprint
/-!
# Schema Sentry — the scan repository

`SqlAlchemyScanRepository`: the rows a scan reads and the rows it writes.
-/

namespace SchemaSentry

open Lib DbM

/-! ## Rows as values -/

/-- What `CanonicalType.__init__` raises of keyword arguments it does not
take. -/
def kwargsError : PyException := .typeError "CanonicalType.__init__()"

/-- An `int | None` keyword argument, `None` where it is not given. -/
def optionalKwarg (key : String) (kwargs : JsonObject) : Except PyException (Option ℤ) :=
  match Dict.get? key kwargs with
  | none => .ok none
  | some .null => .ok none
  | some (.int n) => .ok (some n)
  | some _ => .error kwargsError

/-- `CanonicalType(**data_type_json)`. A value of a type the field is not
declared with is refused as well, which the dataclass would let pass. -/
def CanonicalType.ofKwargs (kwargs : JsonObject) : Except PyException CanonicalType :=
  if ∀ key ∈ Dict.keys kwargs, key ∈ ["name", "length", "precision", "scale"] then
    match Dict.get? "name" kwargs with
    | some (.str name) => do
      let length ← optionalKwarg "length" kwargs
      let precision ← optionalKwarg "precision" kwargs
      let scale ← optionalKwarg "scale" kwargs
      return { name := name, length := length, precision := precision, scale := scale }
    | _ => .error kwargsError
  else .error kwargsError

/-- An `expected_columns` row and its dataset's row as a column. -/
def ExpectedColumnModel.toColumn (row : ExpectedColumnModel) (dataset : DatasetModel) :
    Except PyException ColumnDefinition := do
  let dataType ← CanonicalType.ofKwargs row.dataTypeJson
  return { dataset := dataset.ref, name := row.name, dataType := dataType
           nullable := row.nullable, default := row.defaultExpression, ordinal := row.ordinal }

/-- The `expected_columns` row of a column. -/
def expectedRow (datasetId : Uuid) (column : ColumnDefinition) : ExpectedColumnModel :=
  { datasetId := datasetId
    name := column.name
    dataTypeJson := column.dataType.toCanonicalDict
    nullable := column.nullable
    defaultExpression := column.default
    ordinal := column.ordinal }

/-- The `observed_columns` row of a column. -/
def observedRow (scanId : Uuid) (column : ColumnDefinition) : ObservedColumnModel :=
  { scanId := scanId
    schemaName := column.dataset.schema
    tableName := column.dataset.table
    name := column.name
    dataTypeJson := column.dataType.toCanonicalDict
    nullable := column.nullable
    defaultExpression := column.default
    ordinal := column.ordinal }

/-- The `schema_changes` row of a change, but for its key. -/
def changeRow (scanId : Uuid) (source : DataSourceModel) (datasetId : Uuid) (fingerprint : String)
    (change : SchemaChange) : SchemaChangeModel :=
  { id := 0
    scanId := scanId
    sourceId := source.id
    datasetId := datasetId
    columnName := change.columnName
    changeType := change.changeType
    severity := change.severity
    fingerprint := fingerprint
    beforeJson := change.before.map ColumnDefinition.toCanonicalDict
    afterJson := change.after.map ColumnDefinition.toCanonicalDict
    baselineVersion := source.baselineVersion }

/-! ## Queries -/

/-- `expected_columns` joined with `datasets`. -/
def DB.expectedJoin (db : DB) : List (ExpectedColumnModel × DatasetModel) :=
  db.expectedColumns.flatMap fun column =>
    (db.datasets.filter fun dataset => dataset.id = column.datasetId).map fun dataset =>
      (column, dataset)

/-- The order of the baseline's columns. -/
def expectedSortKey (row : ExpectedColumnModel × DatasetModel) : String ×ₗ (String ×ₗ ℤ) :=
  toLex (row.2.schemaName, toLex (row.2.tableName, row.1.ordinal))

def DB.expectedRows (db : DB) (sourceId : Uuid) : List (ExpectedColumnModel × DatasetModel) :=
  (db.expectedJoin.filter fun row => row.2.sourceId = sourceId).insertionSort fun a b =>
    expectedSortKey a ≤ expectedSortKey b

/-- `lineage_edges` joined with `datasets` by upstream. -/
def DB.upstreamJoin (db : DB) : List (LineageEdgeModel × DatasetModel) :=
  db.lineageEdges.flatMap fun edge =>
    (db.datasets.filter fun dataset => dataset.id = edge.upstreamDatasetId).map fun dataset =>
      (edge, dataset)

/-- The order of the dependencies. -/
def upstreamSortKey (row : LineageEdgeModel × DatasetModel) : String ×ₗ (String ×ₗ String) :=
  toLex (row.2.schemaName, toLex (row.2.tableName, row.1.upstreamColumn))

def DB.dependencies (db : DB) (sourceId : Uuid) : List ColumnRef :=
  ((db.upstreamJoin.filter fun row => row.2.sourceId = sourceId).insertionSort fun a b =>
    upstreamSortKey a ≤ upstreamSortKey b).map fun row => ⟨row.2.ref, row.1.upstreamColumn⟩

def DB.datasetsByRef (db : DB) (sourceId : Uuid) : Dict DatasetRef DatasetModel :=
  Dict.ofItems ((db.datasets.filter fun dataset => dataset.sourceId = sourceId).map fun dataset =>
    (dataset.ref, dataset))

/-- A source's OPEN change rows. -/
def DB.openRows (db : DB) (sourceId : Uuid) : List SchemaChangeModel :=
  db.schemaChanges.filter fun change => change.sourceId = sourceId ∧ change.state = .open

/-- `{change.fingerprint: change for change in ...}`. -/
def DB.openChanges (db : DB) (sourceId : Uuid) : Dict String SchemaChangeModel :=
  Dict.ofItems ((db.openRows sourceId).map fun change => (change.fingerprint, change))

/-! ## Loading -/

/-- `_source`. -/
def getSource (sourceKey : String) : DbM DataSourceModel := do
  let row ← select fun db => db.sources.find? fun source => source.key = sourceKey
  match row with
  | none => raise (.sourceNotFound sourceKey)
  | some source => identify source

/-- `_scan`. -/
def getScan (scanId : Uuid) : DbM ScanRunModel := do
  let row ← select fun db => db.scanRuns.find? fun scan => scan.id = scanId
  match row with
  | none => raise (.lookupError s!"scan not found: {scanId}")
  | some scan => pure scan

def createRunningScan (sourceKey : String) (trigger : ScanTrigger) (startedAt : Timestamp) :
    DbM Uuid := do
  let source ← getSource sourceKey
  -- the row inserted refers to the source's row, whose key it locks
  lockSource source.id .keyShare
  let scanId ← select fun db => db.nextId
  write (DB.addScanRun source.id trigger startedAt)
  flush
  pure scanId

def loadExpectedColumns (sourceKey : String) : DbM (List ColumnDefinition) := do
  let source ← getSource sourceKey
  let rows ← select fun db => db.expectedRows source.id
  ofExcept (rows.mapM fun row => row.1.toColumn row.2)

def loadDependencyColumns (sourceKey : String) : DbM (List ColumnRef) := do
  let source ← getSource sourceKey
  select fun db => db.dependencies source.id

/-! ## Completing -/

/-- The steps of a scan after `create_running_scan`. -/
inductive ScanPoint where
  | collect
  | loadExpected
  | loadDependencies
  | compare
  /-- The completing method, before its first row. -/
  | completion
  /-- A turn of the completing method's loop, counted from 0. -/
  | turn (n : ℕ)
  /-- The completing method, after its loop. -/
  | ending
  deriving DecidableEq, Repr

/-- The exceptions a scan's steps raise on no statement's account: a Python
error the source does not name. -/
abbrev Faults := ScanPoint → Option PyException

def noFaults : Faults := fun _ => none

/-- A step that may raise on its own account. -/
def checkpoint (faults : Faults) (point : ScanPoint) : DbM Unit :=
  match faults point with
  | none => pure ()
  | some e => raise e

/-- `_duration_ms`: whole milliseconds, never negative. Division is exact here,
where the source truncates a product of floats. -/
def durationMs (startedAt finishedAt : Timestamp) : ℤ := max 0 ((finishedAt - startedAt) / 1000)

/-- `_persist_observations`. -/
def persistObservations (scanId : Uuid) (observed : List ColumnDefinition) : DbM Unit :=
  write (DB.addObservedColumns (observed.map (observedRow scanId)))

/-- `_complete_scan`. -/
def completeScan (scan : ScanRunModel) (finishedAt : Timestamp) : DbM Unit :=
  write (DB.updateScan scan.id fun s =>
    { s with
      status := .completed
      finishedAt := some finishedAt
      durationMs := some (durationMs scan.startedAt finishedAt) })

/-- A PENDING delivery for each channel. -/
def DB.addDeliveries (scanId : Uuid) (channels : List AlertChannel) (db : DB) : DB :=
  channels.foldl (fun db channel => db.addDelivery scanId channel) db

/-- `_create_pending_deliveries`. -/
def createPendingDeliveries (alertChannels : List AlertChannel) (scanId : Uuid) : DbM Unit :=
  write (DB.addDeliveries scanId alertChannels)

/-- The loop of `complete_initial_baseline`: a dataset not there yet is
added before its first column. -/
def recordBaseline (faults : Faults) (source : DataSourceModel) :
    ℕ → Dict DatasetRef DatasetModel → List ColumnDefinition → DbM Unit
  | _, _, [] => pure ()
  | n, datasets, column :: rest => do
    checkpoint faults (.turn n)
    match Dict.get? column.dataset datasets with
    | some dataset =>
      write (DB.addExpectedColumn (expectedRow dataset.id column))
      recordBaseline faults source (n + 1) datasets rest
    | none =>
      let datasetId ← select fun db => db.nextId
      write (DB.addDataset source.id column.dataset)
      flush
      let dataset : DatasetModel :=
        ⟨datasetId, source.id, column.dataset.schema, column.dataset.table⟩
      write (DB.addExpectedColumn (expectedRow dataset.id column))
      recordBaseline faults source (n + 1) (Dict.insert column.dataset dataset datasets) rest

def completeInitialBaseline (faults : Faults) (scanId : Uuid) (sourceKey : String)
    (observed : List ColumnDefinition) (finishedAt : Timestamp) : DbM Unit := do
  let source ← getSource sourceKey
  let scan ← getScan scanId
  let datasets ← select fun db => db.datasetsByRef source.id
  checkpoint faults .completion
  recordBaseline faults source 0 datasets observed
  checkpoint faults .ending
  persistObservations scan.id observed
  completeScan scan finishedAt
  flush

/-- What the loop of `complete_drift_scan` carries. -/
structure DriftProgress where
  activeFingerprints : List String
  hasNewAlertableChange : Bool
  deriving DecidableEq, Repr

/-- `severity in {Severity.WARNING, Severity.BREAKING}`. -/
def Severity.alertable (severity : Severity) : Bool :=
  severity = .warning || severity = .breaking

/-- The loop of `complete_drift_scan`: a change that is OPEN already is left
alone, any other gets a row in its dataset. -/
def recordChanges [Hashlib] (faults : Faults) (scan : ScanRunModel) (source : DataSourceModel)
    (sourceKey : String) (datasets : Dict DatasetRef DatasetModel)
    (openChanges : Dict String SchemaChangeModel) :
    ℕ → DriftProgress → List SchemaChange → DbM DriftProgress
  | _, progress, [] => pure progress
  | n, progress, change :: rest => do
    checkpoint faults (.turn n)
    let fingerprint := changeFingerprint sourceKey change
    let active := fingerprint :: progress.activeFingerprints
    if fingerprint ∈ Dict.keys openChanges then
      recordChanges faults scan source sourceKey datasets openChanges (n + 1)
        { progress with activeFingerprints := active } rest
    else
      match Dict.get? change.dataset datasets with
      | none =>
        raise (.lookupError ("baseline dataset not found: " ++ change.dataset.qualifiedName))
      | some dataset =>
        write (DB.addSchemaChange (changeRow scan.id source dataset.id fingerprint change))
        recordChanges faults scan source sourceKey datasets openChanges (n + 1)
          { activeFingerprints := active
            hasNewAlertableChange :=
              progress.hasNewAlertableChange || change.severity.alertable } rest

/-- RESOLVED at a moment. -/
def SchemaChangeModel.resolve (resolvedAt : Timestamp) (c : SchemaChangeModel) :
    SchemaChangeModel :=
  { c with state := .resolved, resolvedAt := some resolvedAt }

/-- The last loop of `complete_drift_scan`: the OPEN rows whose fingerprint
is not active any more are resolved. -/
def DB.resolveAbsent (openChanges : Dict String SchemaChangeModel) (active : List String)
    (finishedAt : Timestamp) (db : DB) : DB :=
  openChanges.foldl (fun db item =>
    if item.1 ∉ active then db.updateChange item.2.id (SchemaChangeModel.resolve finishedAt)
    else db) db

def completeDriftScan [Hashlib] (faults : Faults) (alertChannels : List AlertChannel)
    (scanId : Uuid) (sourceKey : String) (observed : List ColumnDefinition)
    (changes : List SchemaChange) (finishedAt : Timestamp) : DbM Unit := do
  let source ← getSource sourceKey
  let scan ← getScan scanId
  let datasets ← select fun db => db.datasetsByRef source.id
  checkpoint faults .completion
  persistObservations scan.id observed
  let openChanges ← select fun db => db.openChanges source.id
  let progress ← recordChanges faults scan source sourceKey datasets openChanges 0 ⟨[], false⟩
    changes
  checkpoint faults .ending
  write (DB.resolveAbsent openChanges progress.activeFingerprints finishedAt)
  if progress.hasNewAlertableChange then
    createPendingDeliveries alertChannels scan.id
  completeScan scan finishedAt
  flush

def failScan (alertChannels : List AlertChannel) (scanId : Uuid) (errorCode errorMessage : String)
    (finishedAt : Timestamp) : DbM Unit := do
  let scan ← getScan scanId
  write (DB.updateScan scan.id fun s =>
    { s with
      status := .failed
      finishedAt := some finishedAt
      durationMs := some (durationMs scan.startedAt finishedAt)
      errorCode := some errorCode
      errorMessage := some errorMessage })
  createPendingDeliveries alertChannels scan.id
  flush

end SchemaSentry
