import SchemaSentry.Domain.Lineage
/-!
# Schema Sentry — the metadata tables

The rows of the metadata repository, their constraints and the single-row
writes the repositories make. A primary key is the next number never
used, which is all `uuid4` is relied on for; rows no other row refers to
go without one.
-/

namespace SchemaSentry

open Lib

/-- A primary key. -/
abbrev Uuid := ℕ

/-- A moment, in microseconds. -/
abbrev Timestamp := ℤ

/-! ## Rows -/

structure DataSourceModel where
  id : Uuid
  key : String
  baselineVersion : ℤ := 1
  deriving DecidableEq, Repr

structure DatasetModel where
  id : Uuid
  sourceId : Uuid
  schemaName : String
  tableName : String
  deriving DecidableEq, Repr

/-- `DatasetRef(dataset.schema_name, dataset.table_name)`. -/
def DatasetModel.ref (d : DatasetModel) : DatasetRef := ⟨d.schemaName, d.tableName⟩

structure ExpectedColumnModel where
  datasetId : Uuid
  name : String
  dataTypeJson : JsonObject
  nullable : Bool
  defaultExpression : Option String
  ordinal : ℤ
  deriving DecidableEq

structure ScanRunModel where
  id : Uuid
  sourceId : Uuid
  trigger : ScanTrigger
  status : ScanStatus
  startedAt : Timestamp
  finishedAt : Option Timestamp := none
  durationMs : Option ℤ := none
  errorCode : Option String := none
  errorMessage : Option String := none
  deriving DecidableEq, Repr

structure ObservedColumnModel where
  scanId : Uuid
  schemaName : String
  tableName : String
  name : String
  dataTypeJson : JsonObject
  nullable : Bool
  defaultExpression : Option String
  ordinal : ℤ
  deriving DecidableEq

structure SchemaChangeModel where
  id : Uuid
  scanId : Uuid
  sourceId : Uuid
  datasetId : Uuid
  columnName : String
  changeType : ChangeType
  severity : Severity
  state : ChangeState := .open
  fingerprint : String
  beforeJson : Option JsonObject
  afterJson : Option JsonObject
  baselineVersion : ℤ
  acceptedAt : Option Timestamp := none
  resolvedAt : Option Timestamp := none
  deriving DecidableEq

structure PipelineModel where
  id : Uuid
  key : String
  airflowDagId : String
  owner : String
  criticality : PipelineCriticality
  deriving DecidableEq, Repr

structure LineageEdgeModel where
  pipelineId : Uuid
  upstreamDatasetId : Uuid
  upstreamColumn : String
  downstreamDatasetId : Uuid
  downstreamColumn : String
  deriving DecidableEq, Repr

structure AlertDeliveryModel where
  id : Uuid
  scanId : Uuid
  channel : AlertChannel
  status : AlertStatus := .pending
  attemptCount : ℕ := 0
  providerMessageId : Option String := none
  lastError : Option String := none
  nextRetryAt : Option Timestamp := none
  sentAt : Option Timestamp := none
  deriving DecidableEq, Repr

structure DB where
  sources : List DataSourceModel := []
  datasets : List DatasetModel := []
  expectedColumns : List ExpectedColumnModel := []
  scanRuns : List ScanRunModel := []
  observedColumns : List ObservedColumnModel := []
  schemaChanges : List SchemaChangeModel := []
  pipelines : List PipelineModel := []
  lineageEdges : List LineageEdgeModel := []
  alertDeliveries : List AlertDeliveryModel := []
  nextId : Uuid := 0
  deriving DecidableEq

/-! ## Constraints -/

/-- The identity of a lineage edge: all of it. -/
def LineageEdgeModel.identity (e : LineageEdgeModel) : Uuid × Uuid × String × Uuid × String :=
  (e.pipelineId, e.upstreamDatasetId, e.upstreamColumn, e.downstreamDatasetId, e.downstreamColumn)

/-- The OPEN rows' source and fingerprint, which the partial unique index
keeps apart. -/
def DB.openFingerprints (db : DB) : List (Uuid × String) :=
  (db.schemaChanges.filter fun c => c.state = .open).map fun c => (c.sourceId, c.fingerprint)

/-- A `String(n)` column holds the text. -/
def fits (n : ℕ) (s : String) : Prop := s.length ≤ n

instance (n : ℕ) (s : String) : Decidable (fits n s) := inferInstanceAs (Decidable (_ ≤ _))

/-- The unique constraints and the lengths of the texts. -/
structure DB.Constraints (db : DB) : Prop where
  sourceKey : (db.sources.map DataSourceModel.key).Nodup
  datasetIdentity :
    (db.datasets.map fun d => (d.sourceId, d.schemaName, d.tableName)).Nodup
  expectedColumnIdentity : (db.expectedColumns.map fun c => (c.datasetId, c.name)).Nodup
  openFingerprint : db.openFingerprints.Nodup
  alertDeliveryIdentity : (db.alertDeliveries.map fun d => (d.scanId, d.channel)).Nodup
  pipelineKey : (db.pipelines.map PipelineModel.key).Nodup
  pipelineDag : (db.pipelines.map PipelineModel.airflowDagId).Nodup
  lineageEdgeIdentity : (db.lineageEdges.map LineageEdgeModel.identity).Nodup
  datasetLengths : ∀ d ∈ db.datasets, fits 63 d.schemaName ∧ fits 63 d.tableName
  expectedLengths : ∀ c ∈ db.expectedColumns,
    fits 63 c.name ∧ ∀ e ∈ c.defaultExpression, fits 1000 e
  observedLengths : ∀ c ∈ db.observedColumns, (fits 63 c.schemaName ∧ fits 63 c.tableName) ∧
    fits 63 c.name ∧ ∀ e ∈ c.defaultExpression, fits 1000 e
  changeLengths : ∀ c ∈ db.schemaChanges, fits 63 c.columnName
  pipelineLengths : ∀ p ∈ db.pipelines,
    fits 100 p.key ∧ fits 250 p.airflowDagId ∧ fits 200 p.owner
  lineageLengths : ∀ e ∈ db.lineageEdges, fits 63 e.upstreamColumn ∧ fits 63 e.downstreamColumn

theorem DB.constraints_iff (db : DB) : db.Constraints ↔
    (db.sources.map DataSourceModel.key).Nodup ∧
    (db.datasets.map fun d => (d.sourceId, d.schemaName, d.tableName)).Nodup ∧
    (db.expectedColumns.map fun c => (c.datasetId, c.name)).Nodup ∧
    db.openFingerprints.Nodup ∧
    (db.alertDeliveries.map fun d => (d.scanId, d.channel)).Nodup ∧
    (db.pipelines.map PipelineModel.key).Nodup ∧
    (db.pipelines.map PipelineModel.airflowDagId).Nodup ∧
    (db.lineageEdges.map LineageEdgeModel.identity).Nodup ∧
    (∀ d ∈ db.datasets, fits 63 d.schemaName ∧ fits 63 d.tableName) ∧
    (∀ c ∈ db.expectedColumns, fits 63 c.name ∧ ∀ e ∈ c.defaultExpression, fits 1000 e) ∧
    (∀ c ∈ db.observedColumns, (fits 63 c.schemaName ∧ fits 63 c.tableName) ∧
      fits 63 c.name ∧ ∀ e ∈ c.defaultExpression, fits 1000 e) ∧
    (∀ c ∈ db.schemaChanges, fits 63 c.columnName) ∧
    (∀ p ∈ db.pipelines, fits 100 p.key ∧ fits 250 p.airflowDagId ∧ fits 200 p.owner) ∧
    (∀ e ∈ db.lineageEdges, fits 63 e.upstreamColumn ∧ fits 63 e.downstreamColumn) := by
  constructor
  · rintro ⟨h₁, h₂, h₃, h₄, h₅, h₆, h₇, h₈, h₉, h₁₀, h₁₁, h₁₂, h₁₃, h₁₄⟩
    exact ⟨h₁, h₂, h₃, h₄, h₅, h₆, h₇, h₈, h₉, h₁₀, h₁₁, h₁₂, h₁₃, h₁₄⟩
  · rintro ⟨h₁, h₂, h₃, h₄, h₅, h₆, h₇, h₈, h₉, h₁₀, h₁₁, h₁₂, h₁₃, h₁₄⟩
    exact ⟨h₁, h₂, h₃, h₄, h₅, h₆, h₇, h₈, h₉, h₁₀, h₁₁, h₁₂, h₁₃, h₁₄⟩

instance (db : DB) : Decidable db.Constraints := decidable_of_iff' _ db.constraints_iff

/-! ## Writes -/

def DB.addDataset (sourceId : Uuid) (ref : DatasetRef) (db : DB) : DB :=
  { db with
    datasets := db.datasets ++ [⟨db.nextId, sourceId, ref.schema, ref.table⟩]
    nextId := db.nextId + 1 }

def DB.addExpectedColumn (row : ExpectedColumnModel) (db : DB) : DB :=
  { db with expectedColumns := db.expectedColumns ++ [row] }

/-- The row of the identity given is rewritten. -/
def DB.updateExpectedColumn (datasetId : Uuid) (name : String)
    (f : ExpectedColumnModel → ExpectedColumnModel) (db : DB) : DB :=
  { db with expectedColumns := db.expectedColumns.map fun c =>
      if c.datasetId = datasetId ∧ c.name = name then f c else c }

def DB.deleteExpectedColumn (datasetId : Uuid) (name : String) (db : DB) : DB :=
  { db with expectedColumns :=
      db.expectedColumns.filter fun c => ¬ (c.datasetId = datasetId ∧ c.name = name) }

/-- A new RUNNING scan. -/
def DB.addScanRun (sourceId : Uuid) (trigger : ScanTrigger) (startedAt : Timestamp) (db : DB) :
    DB :=
  { db with
    scanRuns := db.scanRuns ++
      [{ id := db.nextId, sourceId := sourceId, trigger := trigger, status := .running
         startedAt := startedAt }]
    nextId := db.nextId + 1 }

def DB.updateScan (scanId : Uuid) (f : ScanRunModel → ScanRunModel) (db : DB) : DB :=
  { db with scanRuns := db.scanRuns.map fun s => if s.id = scanId then f s else s }

def DB.addObservedColumns (rows : List ObservedColumnModel) (db : DB) : DB :=
  { db with observedColumns := db.observedColumns ++ rows }

/-- A new change row, but for its key. -/
def DB.addSchemaChange (row : SchemaChangeModel) (db : DB) : DB :=
  { db with
    schemaChanges := db.schemaChanges ++ [{ row with id := db.nextId }]
    nextId := db.nextId + 1 }

def DB.updateChange (changeId : Uuid) (f : SchemaChangeModel → SchemaChangeModel) (db : DB) : DB :=
  { db with schemaChanges := db.schemaChanges.map fun c => if c.id = changeId then f c else c }

/-- A new PENDING delivery. -/
def DB.addDelivery (scanId : Uuid) (channel : AlertChannel) (db : DB) : DB :=
  { db with
    alertDeliveries := db.alertDeliveries ++
      [{ id := db.nextId, scanId := scanId, channel := channel }]
    nextId := db.nextId + 1 }

def DB.setBaselineVersion (sourceId : Uuid) (version : ℤ) (db : DB) : DB :=
  { db with sources := db.sources.map fun s =>
      if s.id = sourceId then { s with baselineVersion := version } else s }

end SchemaSentry
