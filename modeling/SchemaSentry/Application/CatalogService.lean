import SchemaSentry.Store.Catalog
import Mathlib.Data.List.Dedup
/-!
# Schema Sentry — the catalog service

`CatalogService.sync`: a catalog document is checked, its edges are the
pairs of each pipeline's inputs and outputs, and it replaces what is
stored.
-/

namespace SchemaSentry

open Lib DbM

/-! ## The document -/

structure ColumnSetConfig where
  dataset : String
  columns : List String
  deriving DecidableEq, Repr

structure PipelineConfig where
  key : String
  airflowDagId : String
  owner : String
  criticality : PipelineCriticality
  inputs : List ColumnSetConfig
  outputs : List ColumnSetConfig
  deriving DecidableEq, Repr

structure CatalogConfig where
  pipelines : List PipelineConfig
  deriving DecidableEq, Repr

/-- `schema, table = dataset.split(".")`, where there are two parts. -/
def datasetParts (dataset : String) : Option DatasetRef :=
  match dataset.toList.splitOn '.' with
  | [schema, table] => some ⟨String.ofList schema, String.ofList table⟩
  | _ => none

/-- The fields of a column set pass their checks: some columns, none twice,
in a dataset named `schema.table`. -/
def ColumnSetConfig.Valid (c : ColumnSetConfig) : Prop :=
  (∃ ref ∈ datasetParts c.dataset, ref.schema ≠ "" ∧ ref.table ≠ "") ∧ c.columns ≠ [] ∧
    c.columns.Nodup

instance (c : ColumnSetConfig) : Decidable c.Valid := by
  unfold ColumnSetConfig.Valid
  exact inferInstanceAs (Decidable (_ ∧ _))

/-- The fields of a pipeline pass their checks. -/
def PipelineConfig.Valid (p : PipelineConfig) : Prop :=
  p.key ≠ "" ∧ p.airflowDagId ≠ "" ∧ p.owner ≠ "" ∧ p.inputs ≠ [] ∧ p.outputs ≠ [] ∧
    (∀ c ∈ p.inputs, c.Valid) ∧ ∀ c ∈ p.outputs, c.Valid

instance (p : PipelineConfig) : Decidable p.Valid := inferInstanceAs (Decidable (_ ∧ _))

/-- The document passes its checks: some pipelines, no key and no DAG id
twice. -/
def CatalogConfig.Valid (c : CatalogConfig) : Prop :=
  c.pipelines ≠ [] ∧ (∀ p ∈ c.pipelines, p.Valid) ∧
    (c.pipelines.map PipelineConfig.key).Nodup ∧
    (c.pipelines.map PipelineConfig.airflowDagId).Nodup

instance (c : CatalogConfig) : Decidable c.Valid := inferInstanceAs (Decidable (_ ∧ _))

/-- `_load`, of a document that could be read as one or not at all. -/
def loadCatalog (document : Option CatalogConfig) : Except PyException CatalogConfig :=
  match document with
  | some config =>
    if config.Valid then .ok config else .error (.catalogValidationError "invalid catalog")
  | none => .error (.catalogValidationError "invalid catalog")

/-! ## Syncing -/

/-- The columns of one column set, each of them known. -/
def columnRefsOf (known : List ColumnRef) (dataset : DatasetRef) :
    List String → Except PyException (List ColumnRef)
  | [] => .ok []
  | name :: rest => do
    let ref : ColumnRef := ⟨dataset, name⟩
    if ref ∈ known then
      let refs ← columnRefsOf known dataset rest
      return ref :: refs
    else .error (.catalogValidationError ("unknown column: " ++ ref.qualifiedName))

/-- `_column_refs`. -/
def columnRefs (known : List ColumnRef) :
    List ColumnSetConfig → Except PyException (List ColumnRef)
  | [] => .ok []
  | configured :: rest => do
    let dataset ←
      match datasetParts configured.dataset with
      | some ref => .ok ref
      | none => .error (.valueError "too many values to unpack")
    let refs ← columnRefsOf known dataset configured.columns
    let others ← columnRefs known rest
    return refs ++ others

def PipelineConfig.definition (p : PipelineConfig) : PipelineDefinition :=
  { key := p.key, airflowDagId := p.airflowDagId, owner := p.owner, criticality := p.criticality }

/-- The edges of one pipeline: each input with each output, none of them
with itself. -/
def pipelineEdges (known : List ColumnRef) (p : PipelineConfig) :
    Except PyException (List LineageEdge) := do
  let inputs ← columnRefs known p.inputs
  let outputs ← columnRefs known p.outputs
  match inputs.find? fun upstream => upstream ∈ outputs with
  | some upstream =>
    .error (.catalogValidationError
      ("self-loop lineage is not allowed: " ++ upstream.qualifiedName))
  | none =>
    return inputs.flatMap fun upstream => outputs.map fun downstream =>
      { pipeline := p.definition, upstream := upstream, downstream := downstream }

def catalogSortKey (e : LineageEdge) : String ×ₗ (String ×ₗ String) :=
  toLex (e.pipeline.key, toLex (e.upstream.qualifiedName, e.downstream.qualifiedName))

structure CatalogSyncResult where
  pipelineCount : ℕ
  edgeCount : ℕ
  deriving DecidableEq, Repr

def sync (document : Option CatalogConfig) : DbM CatalogSyncResult := do
  let config ← ofExcept (loadCatalog document)
  let knownColumns ← select DB.knownColumns
  let edges ← ofExcept (config.pipelines.mapM (pipelineEdges knownColumns))
  let orderedPipelines :=
    (config.pipelines.map PipelineConfig.definition).insertionSort fun a b => a.key ≤ b.key
  let orderedEdges :=
    edges.flatten.dedup.insertionSort fun a b => catalogSortKey a ≤ catalogSortKey b
  replaceCatalog orderedPipelines orderedEdges
  pure ⟨orderedPipelines.length, orderedEdges.length⟩

/-- `schema-sentry catalog sync`, run alone: committed as a whole or not at
all. -/
def syncCatalog (document : Option CatalogConfig) (db : DB) : DB :=
  match exec (sync document) db Session.new with
  | (.ok _, s) => s.pending db
  | (.error _, _) => db

end SchemaSentry
