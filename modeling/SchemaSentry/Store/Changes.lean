import SchemaSentry.Store.Session
/-!
# Schema Sentry — the change repository

`ChangeRepository`: the transaction an acceptance runs in, what applying
it writes, and the changes that block a pipeline.
-/

namespace SchemaSentry

open Lib DbM

/-! ## Applying an acceptance -/

/-- `payload[key]`. -/
def getItem (key : String) (payload : JsonObject) : Except PyException Json :=
  match Dict.get? key payload with
  | some value => .ok value
  | none => .error (.keyError key)

/-- `bool(value)`. -/
def pyBool : Json → Bool
  | .null => false
  | .bool b => b
  | .int n => n ≠ 0
  | .str s => s ≠ ""
  | .obj fields => ¬ fields.isEmpty

/-- `int(value)`. -/
def pyInt : Json → Except PyException ℤ
  | .int n => .ok n
  | .bool b => .ok (if b then 1 else 0)
  | .str s =>
    match s.toInt? with
    | some n => .ok n
    | none => .error (.valueError "invalid literal for int()")
  | _ => .error (.typeError "int() argument must be a string or a number")

/-- `_data_type`. -/
def dataTypeOf (payload : JsonObject) : Except PyException JsonObject :=
  match Dict.get? "data_type" payload with
  | some (.obj dataType) => .ok dataType
  | _ => .error (.valueError "column metadata is missing data_type")

/-- `_optional_string(payload.get(key))`. -/
def optionalString (key : String) (payload : JsonObject) : Option String :=
  match Dict.get? key payload with
  | some (.str s) => some s
  | _ => none

/-- The baseline row an accepted addition inserts. -/
def addedColumn (change : SchemaChangeModel) (after : JsonObject) :
    Except PyException ExpectedColumnModel := do
  let dataType ← dataTypeOf after
  let nullable ← getItem "nullable" after
  let ordinal ← pyInt ((Dict.get? "ordinal" after).getD (.int 0))
  return { datasetId := change.datasetId
           name := change.columnName
           dataTypeJson := dataType
           nullable := pyBool nullable
           defaultExpression := optionalString "default" after
           ordinal := ordinal }

/-- What any other accepted change writes to the baseline row: its type,
its nullability and its default, whichever of them changed. -/
def changedColumn (after : JsonObject) :
    Except PyException (ExpectedColumnModel → ExpectedColumnModel) := do
  let dataType ← dataTypeOf after
  let nullable ← getItem "nullable" after
  return fun row =>
    { row with
      dataTypeJson := dataType
      nullable := pyBool nullable
      defaultExpression := optionalString "default" after }

/-- ACCEPTED at a moment. -/
def SchemaChangeModel.accept (acceptedAt : Timestamp) (c : SchemaChangeModel) :
    SchemaChangeModel :=
  { c with state := .accepted, acceptedAt := some acceptedAt }

/-- The baseline row of a change's column. -/
def DB.expectedColumn? (db : DB) (change : SchemaChangeModel) : Option ExpectedColumnModel :=
  db.expectedColumns.find? fun c => c.datasetId = change.datasetId ∧ c.name = change.columnName

/-- The first part of `apply`: the change of the baseline. -/
def applyToBaseline (change : SchemaChangeModel) : DbM Unit := do
  let expected ← select fun db => db.expectedColumn? change
  match change.changeType with
  | .addColumn =>
    match change.afterJson with
    | none => raise (.valueError "added column change is missing after metadata")
    | some after =>
      match expected with
      | none =>
        let row ← ofExcept (addedColumn change after)
        write (DB.addExpectedColumn row)
      | some _ => pure ()
  | .dropColumn =>
    match expected with
    | none => raise (.valueError "dropped baseline column does not exist")
    | some _ => write (DB.deleteExpectedColumn change.datasetId change.columnName)
  | _ =>
    match expected, change.afterJson with
    | some _, some after =>
      let update ← ofExcept (changedColumn after)
      write (DB.updateExpectedColumn change.datasetId change.columnName update)
    | _, _ => raise (.valueError "changed baseline column metadata is incomplete")

/-- `SqlAlchemyLockedAcceptance.apply`. -/
def applyAcceptance (source : DataSourceModel) (change : SchemaChangeModel)
    (acceptedAt : Timestamp) : DbM ℤ := do
  applyToBaseline change
  write (DB.setBaselineVersion source.id (source.baselineVersion + 1))
  write (DB.updateChange change.id (SchemaChangeModel.accept acceptedAt))
  flush
  pure (source.baselineVersion + 1)

/-- The OPEN row of an id. -/
def DB.openChange? (db : DB) (changeId : Uuid) : Option SchemaChangeModel :=
  db.schemaChanges.find? fun c => c.id = changeId ∧ c.state = .open

/-- `acceptance_transaction`: the change is read, and only then its source
is locked. -/
def acceptanceTransaction (changeId : Uuid) :
    DbM (Option (DataSourceModel × SchemaChangeModel)) := do
  let change ← select fun db => db.openChange? changeId
  match change with
  | none => pure none
  | some change =>
    lockSource change.sourceId .update
    let source ← select fun db => db.sources.find? fun s => s.id = change.sourceId
    match source with
    | none => pure none
    | some row =>
      let source ← identify row
      pure (some (source, change))

/-! ## What blocks a pipeline -/

structure BlockingChange where
  id : Uuid
  dataset : DatasetRef
  columnName : String
  changeType : ChangeType
  severity : Severity
  deriving DecidableEq, Repr

def PipelineModel.definition (p : PipelineModel) : PipelineDefinition :=
  { key := p.key, airflowDagId := p.airflowDagId, owner := p.owner, criticality := p.criticality }

/-- `lineage_edges` joined with `pipelines` and, twice, with `datasets`. -/
def DB.lineage (db : DB) : List LineageEdge :=
  db.lineageEdges.flatMap fun edge =>
    (db.pipelines.filter fun pipeline => pipeline.id = edge.pipelineId).flatMap fun pipeline =>
      (db.datasets.filter fun up => up.id = edge.upstreamDatasetId).flatMap fun up =>
        (db.datasets.filter fun down => down.id = edge.downstreamDatasetId).map fun down =>
          { pipeline := pipeline.definition
            upstream := ⟨up.ref, edge.upstreamColumn⟩
            downstream := ⟨down.ref, edge.downstreamColumn⟩ }

/-- An edge of the graph is a row with its pipeline and its two datasets. -/
theorem mem_lineage {db : DB} {e : LineageEdge} :
    e ∈ db.lineage ↔ ∃ edge ∈ db.lineageEdges, ∃ p ∈ db.pipelines, ∃ up ∈ db.datasets,
      ∃ down ∈ db.datasets, p.id = edge.pipelineId ∧ up.id = edge.upstreamDatasetId ∧
        down.id = edge.downstreamDatasetId ∧ e.pipeline = p.definition ∧
        e.upstream = ⟨up.ref, edge.upstreamColumn⟩ ∧
        e.downstream = ⟨down.ref, edge.downstreamColumn⟩ := by
  simp only [DB.lineage, List.mem_flatMap, List.mem_map, List.mem_filter, decide_eq_true_eq]
  constructor
  · rintro ⟨edge, hedge, p, ⟨hp, hpid⟩, up, ⟨hup, hupid⟩, down, ⟨hdown, hdownid⟩, rfl⟩
    exact ⟨edge, hedge, p, hp, up, hup, down, hdown, hpid, hupid, hdownid, rfl, rfl, rfl⟩
  · rintro ⟨edge, hedge, p, hp, up, hup, down, hdown, hpid, hupid, hdownid, hpipe, hu, hd⟩
    refine ⟨edge, hedge, p, ⟨hp, hpid⟩, up, ⟨hup, hupid⟩, down, ⟨hdown, hdownid⟩, ?_⟩
    rw [← hpipe, ← hu, ← hd]

/-- The OPEN and BREAKING rows joined with `datasets`. -/
def DB.openBreakingRows (db : DB) : List (SchemaChangeModel × DatasetModel) :=
  db.schemaChanges.flatMap fun change =>
    (db.datasets.filter fun dataset => dataset.id = change.datasetId ∧
      change.state = .open ∧ change.severity = .breaking).map fun dataset => (change, dataset)

/-- The change of a row, without its snapshots. -/
def domainChange (row : SchemaChangeModel × DatasetModel) : SchemaChange :=
  { dataset := row.2.ref
    columnName := row.1.columnName
    changeType := row.1.changeType
    severity := row.1.severity
    before := none
    after := none }

def blockingChange (row : SchemaChangeModel × DatasetModel) : BlockingChange :=
  { id := row.1.id
    dataset := row.2.ref
    columnName := row.1.columnName
    changeType := row.1.changeType
    severity := row.1.severity }

def blockingSortKey (c : BlockingChange) : String ×ₗ (String ×ₗ (String ×ₗ String)) :=
  toLex (c.dataset.schema, toLex (c.dataset.table, toLex (c.columnName, toString c.id)))

def listOpenBreakingChangesForPipeline (pipelineKey : String) : DbM (List BlockingChange) := do
  let pipelineExists ← select fun db => db.pipelines.find? fun p => p.key = pipelineKey
  match pipelineExists with
  | none => raise (.lookupError ("pipeline not found: " ++ pipelineKey))
  | some _ =>
    let edges ← select DB.lineage
    let graph := LineageGraph.ofEdges edges
    let rows ← select DB.openBreakingRows
    let blocking := (rows.filter fun row =>
      (graph.impacts [domainChange row]).any fun impact => impact.pipeline.key = pipelineKey).map
        blockingChange
    pure (blocking.insertionSort fun a b => blockingSortKey a ≤ blockingSortKey b)

end SchemaSentry
