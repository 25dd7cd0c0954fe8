import SchemaSentry.Store.Changes
/-!
# Schema Sentry — the scan query repository

`ScanQueryRepository`: a scan's changes as the API and the dashboard show
them, each with the DAGs it affects.
-/

namespace SchemaSentry

open Lib

structure PersistedChange where
  id : Uuid
  dataset : DatasetRef
  columnName : String
  changeType : ChangeType
  severity : Severity
  state : ChangeState
  before : Option JsonObject
  after : Option JsonObject
  affectedDags : List String
  deriving DecidableEq

/-- `sorted({...})` of the DAGs a column's impacts run. -/
def LineageGraph.affectedDags (graph : LineageGraph) (column : ColumnRef) : List String :=
  ((graph.impactsForColumns [column]).map fun impact =>
    impact.pipeline.airflowDagId).dedup.insertionSort fun a b => a ≤ b

/-- One change of `_to_persisted`. -/
def persistedChange (graph : LineageGraph) (row : SchemaChangeModel × DatasetModel) :
    PersistedChange :=
  { id := row.1.id
    dataset := row.2.ref
    columnName := row.1.columnName
    changeType := row.1.changeType
    severity := row.1.severity
    state := row.1.state
    before := row.1.beforeJson
    after := row.1.afterJson
    affectedDags := graph.affectedDags ⟨row.2.ref, row.1.columnName⟩ }

/-- The order of a scan's changes. -/
def persistedSortKey (row : SchemaChangeModel × DatasetModel) :
    String ×ₗ (String ×ₗ (String ×ₗ String)) :=
  toLex (row.2.schemaName, toLex (row.2.tableName,
    toLex (row.1.columnName, row.1.changeType.value)))

/-- The change rows of `_to_persisted`: the source's OPEN ones, or those of
the scan. -/
def DB.persistedRows (db : DB) (scan : ScanRunModel) (currentOpenChanges : Bool) :
    List (SchemaChangeModel × DatasetModel) :=
  (db.schemaChanges.flatMap fun change =>
    (db.datasets.filter fun dataset => dataset.id = change.datasetId ∧
      if currentOpenChanges then change.sourceId = scan.sourceId ∧ change.state = .open
      else change.scanId = scan.id).map fun dataset => (change, dataset)).insertionSort
    fun a b => persistedSortKey a ≤ persistedSortKey b

/-- The changes of `_to_persisted`. -/
def DB.persistedChanges (db : DB) (scan : ScanRunModel) (currentOpenChanges : Bool) :
    List PersistedChange :=
  (db.persistedRows scan currentOpenChanges).map
    (persistedChange (LineageGraph.ofEdges db.lineage))

end SchemaSentry
