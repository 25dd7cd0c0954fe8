import SchemaSentry.Store.Session
import SchemaSentry.Domain.Fingerprint
/-!
# Schema Sentry — the catalog repository

`CatalogRepository`: the columns a catalog may name and the replacement of
the pipelines and their lineage.
-/

namespace SchemaSentry

open Lib DbM

/-- `known_columns`: every source's baseline columns. -/
def DB.knownColumns (db : DB) : List ColumnRef :=
  db.expectedColumns.flatMap fun column =>
    (db.datasets.filter fun dataset => dataset.id = column.datasetId).map fun dataset =>
      ⟨dataset.ref, column.name⟩

/-- `{DatasetRef(...): dataset for dataset in datasets}`, over all sources. -/
def DB.allDatasetsByRef (db : DB) : Dict DatasetRef DatasetModel :=
  Dict.ofItems (db.datasets.map fun dataset => (dataset.ref, dataset))

/-- `delete(LineageEdgeModel)`, `delete(PipelineModel)`. -/
def DB.clearCatalog (db : DB) : DB := { db with lineageEdges := [], pipelines := [] }

def DB.addPipeline (pipeline : PipelineDefinition) (db : DB) : DB :=
  { db with
    pipelines := db.pipelines ++
      [⟨db.nextId, pipeline.key, pipeline.airflowDagId, pipeline.owner, pipeline.criticality⟩]
    nextId := db.nextId + 1 }

def DB.addLineageEdge (row : LineageEdgeModel) (db : DB) : DB :=
  { db with lineageEdges := db.lineageEdges ++ [row] }

/-- `mapping[key]`. -/
def lookupKey {κ ν : Type} [DecidableEq κ] (key : κ) (what : String) (mapping : Dict κ ν) :
    Except PyException ν :=
  match Dict.get? key mapping with
  | some value => .ok value
  | none => .error (.keyError what)

/-- The row of an edge: its pipeline and its datasets must be there. -/
def edgeRow (pipelineModels : Dict String PipelineModel)
    (datasetsByRef : Dict DatasetRef DatasetModel) (edge : LineageEdge) :
    Except PyException LineageEdgeModel := do
  let pipeline ← lookupKey edge.pipeline.key edge.pipeline.key pipelineModels
  let upstream ← lookupKey edge.upstream.dataset edge.upstream.dataset.qualifiedName datasetsByRef
  let downstream ←
    lookupKey edge.downstream.dataset edge.downstream.dataset.qualifiedName datasetsByRef
  return { pipelineId := pipeline.id
           upstreamDatasetId := upstream.id
           upstreamColumn := edge.upstream.name
           downstreamDatasetId := downstream.id
           downstreamColumn := edge.downstream.name }

def replaceCatalog (pipelines : List PipelineDefinition) (edges : List LineageEdge) :
    DbM Unit := do
  let datasetsByRef ← select DB.allDatasetsByRef
  write DB.clearCatalog
  flush
  write fun db => pipelines.foldl (fun db pipeline => db.addPipeline pipeline) db
  let models ← select DB.pipelines
  let pipelineModels := Dict.ofItems (models.map fun model => (model.key, model))
  let rows ← ofExcept (edges.mapM (edgeRow pipelineModels datasetsByRef))
  write fun db => rows.foldl (fun db row => db.addLineageEdge row) db
  flush

/-! ## The digest -/

/-- The member's string value. -/
def PipelineCriticality.value : PipelineCriticality → String
  | .low => "LOW"
  | .medium => "MEDIUM"
  | .high => "HIGH"
  | .critical => "CRITICAL"

/-- A pipeline of the digest's payload. -/
def PipelineModel.digestEntry (p : PipelineModel) : Json :=
  .obj [("key", .str p.key), ("airflow_dag_id", .str p.airflowDagId), ("owner", .str p.owner),
    ("criticality", .str p.criticality.value)]

/-- What the digest says of an edge. -/
structure DigestEdge where
  pipeline : String
  upstreamDatasetId : Uuid
  upstreamColumn : String
  downstreamDatasetId : Uuid
  downstreamColumn : String
  deriving DecidableEq, Repr

/-- An edge of the digest's payload. -/
def DigestEdge.entry (e : DigestEdge) : Json :=
  .obj [("pipeline", .str e.pipeline),
    ("upstream_dataset_id", .str (toString e.upstreamDatasetId)),
    ("upstream_column", .str e.upstreamColumn),
    ("downstream_dataset_id", .str (toString e.downstreamDatasetId)),
    ("downstream_column", .str e.downstreamColumn)]

/-- The order of the digest's edges. -/
def DigestEdge.sortKey (e : DigestEdge) : String ×ₗ (Uuid ×ₗ (String ×ₗ (Uuid ×ₗ String))) :=
  toLex (e.pipeline, toLex (e.upstreamDatasetId, toLex (e.upstreamColumn,
    toLex (e.downstreamDatasetId, e.downstreamColumn))))

/-- `lineage_edges` joined with `pipelines`. -/
def DB.digestEdges (db : DB) : List DigestEdge :=
  db.lineageEdges.flatMap fun edge =>
    (db.pipelines.filter fun pipeline => pipeline.id = edge.pipelineId).map fun pipeline =>
      ⟨pipeline.key, edge.upstreamDatasetId, edge.upstreamColumn, edge.downstreamDatasetId,
        edge.downstreamColumn⟩

/-- `json.dumps` of a list. -/
def dumpsList (values : List Json) : String :=
  "[" ++ String.intercalate "," (values.map Json.dumps) ++ "]"

/-- The text the digest digests, its two keys in order. -/
def DB.catalogPayload (db : DB) : String :=
  let pipelines := db.pipelines.insertionSort fun a b => a.key ≤ b.key
  let edges := db.digestEdges.insertionSort fun a b => a.sortKey ≤ b.sortKey
  "\x7b\"edges\":" ++ dumpsList (edges.map DigestEdge.entry) ++
    ",\"pipelines\":" ++ dumpsList (pipelines.map PipelineModel.digestEntry) ++ "\x7d"

/-- `catalog_digest`. -/
def DB.catalogDigest [Hashlib] (db : DB) : String := Hashlib.sha256 db.catalogPayload

end SchemaSentry
