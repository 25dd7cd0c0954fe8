import SchemaSentry.Application.CatalogService
import SchemaSentry.System.WellFormed
/-!
# Schema Sentry — the tables after a catalog sync

A sync leaves the tables alone or replaces the pipelines and the lineage
by rows that refer to rows, and touches nothing else
(`syncCatalog_cases`).
-/

namespace SchemaSentry

open Lib DbM

variable {db : DB}

/-- The tables with another catalog. -/
def DB.withCatalog (pipelines : List PipelineModel) (edges : List LineageEdgeModel) (next : Uuid)
    (db : DB) : DB :=
  { db with pipelines := pipelines, lineageEdges := edges, nextId := next }

/-- The row of a pipeline. -/
def pipelineRow (id : Uuid) (p : PipelineDefinition) : PipelineModel :=
  ⟨id, p.key, p.airflowDagId, p.owner, p.criticality⟩

/-- The rows of pipelines, with the keys from some point on. -/
def pipelineRows (next : Uuid) (pipelines : List PipelineDefinition) : List PipelineModel :=
  pipelines.mapIdx fun i p => pipelineRow (next + i) p

theorem pipelineRows_cons (next : Uuid) (p : PipelineDefinition)
    (rest : List PipelineDefinition) :
    pipelineRows next (p :: rest) = pipelineRow next p :: pipelineRows (next + 1) rest := by
  simp [pipelineRows, List.mapIdx_cons, Nat.add_assoc, Nat.add_comm 1]

/-- The rows of pipelines get distinct keys. -/
theorem nodup_pipelineRows (next : Uuid) (pipelines : List PipelineDefinition) :
    ((pipelineRows next pipelines).map PipelineModel.id).Nodup := by
  have hids : (pipelineRows next pipelines).map PipelineModel.id =
      List.range' next pipelines.length := by
    induction pipelines generalizing next with
    | nil => rfl
    | cons p rest ih =>
      rw [pipelineRows_cons, List.map_cons, ih, List.length_cons, List.range'_succ]
      rfl
  rw [hids]
  exact List.nodup_range'

theorem addPipelines_eq (pipelines : List PipelineDefinition) :
    pipelines.foldl (fun db pipeline => db.addPipeline pipeline) db =
      { db with
        pipelines := db.pipelines ++ pipelineRows db.nextId pipelines
        nextId := db.nextId + pipelines.length } := by
  induction pipelines generalizing db with
  | nil => simp [pipelineRows]
  | cons p rest ih =>
    rw [List.foldl_cons, ih, pipelineRows_cons]
    simp [DB.addPipeline, pipelineRow, Nat.add_assoc, Nat.add_comm 1]

theorem addLineageEdges_eq (rows : List LineageEdgeModel) :
    rows.foldl (fun db row => db.addLineageEdge row) db =
      { db with lineageEdges := db.lineageEdges ++ rows } := by
  induction rows generalizing db with
  | nil => simp
  | cons row rest ih =>
    rw [List.foldl_cons, ih]
    simp [DB.addLineageEdge]

/-- `mapping[key]` is a value the mapping was built from. -/
theorem mem_of_lookupKey {κ ν : Type} [DecidableEq κ] {key : κ} {what : String}
    {items : List (κ × ν)} {value : ν}
    (h : lookupKey key what (Dict.ofItems items) = .ok value) : (key, value) ∈ items := by
  unfold lookupKey at h
  split at h
  · rename_i hget
    cases h
    exact Dict.mem_of_mem_ofItems (Dict.mem_of_get?_eq_some hget)
  · cases h

/-- **The row of an edge** refers to its pipeline's row and to datasets of
the names it gives. -/
structure EdgeRow (models : List PipelineModel) (db : DB) (edge : LineageEdge)
    (row : LineageEdgeModel) : Prop where
  pipeline : ∃ m ∈ models, m.key = edge.pipeline.key ∧ m.id = row.pipelineId
  upstream : ∃ d ∈ db.datasets, d.ref = edge.upstream.dataset ∧ d.id = row.upstreamDatasetId
  downstream : ∃ d ∈ db.datasets,
    d.ref = edge.downstream.dataset ∧ d.id = row.downstreamDatasetId
  upstreamColumn : row.upstreamColumn = edge.upstream.name
  downstreamColumn : row.downstreamColumn = edge.downstream.name

theorem edgeRow_ok {models : List PipelineModel} {edge : LineageEdge} {row : LineageEdgeModel}
    (h : edgeRow (Dict.ofItems (models.map fun m => (m.key, m))) db.allDatasetsByRef edge =
      .ok row) : EdgeRow models db edge row := by
  simp only [edgeRow, except_bind_ok] at h
  obtain ⟨p, hp, up, hup, down, hdown, hrow⟩ := h
  cases hrow
  obtain ⟨m, hm, hmp⟩ := List.mem_map.1 (mem_of_lookupKey hp)
  obtain ⟨hkey, rfl⟩ := Prod.mk.inj hmp
  obtain ⟨u, hu, hup⟩ := List.mem_map.1 (mem_of_lookupKey hup)
  obtain ⟨huref, rfl⟩ := Prod.mk.inj hup
  obtain ⟨d, hd, hdown⟩ := List.mem_map.1 (mem_of_lookupKey hdown)
  obtain ⟨hdref, rfl⟩ := Prod.mk.inj hdown
  exact ⟨⟨m, hm, hkey, rfl⟩, ⟨u, hu, huref, rfl⟩, ⟨d, hd, hdref, rfl⟩, rfl, rfl⟩

/-- `mapping[key]` is found where the key is among the items. -/
theorem exists_lookupKey {κ ν : Type} [DecidableEq κ] {items : List (κ × ν)} {item : κ × ν}
    (h : item ∈ items) (what : String) :
    ∃ value, lookupKey item.1 what (Dict.ofItems items) = .ok value := by
  obtain ⟨value, hget⟩ := Dict.exists_get?_ofItems h
  exact ⟨value, by rw [lookupKey, hget]⟩

theorem exists_edgeRow {models : List PipelineModel} {edge : LineageEdge}
    (hm : ∃ m ∈ models, m.key = edge.pipeline.key)
    (hup : ∃ d ∈ db.datasets, d.ref = edge.upstream.dataset)
    (hdown : ∃ d ∈ db.datasets, d.ref = edge.downstream.dataset) :
    ∃ row, edgeRow (Dict.ofItems (models.map fun m => (m.key, m))) db.allDatasetsByRef edge =
      .ok row := by
  obtain ⟨m, hm, hkey⟩ := hm
  obtain ⟨u, hu, huref⟩ := hup
  obtain ⟨d, hd, hdref⟩ := hdown
  obtain ⟨p, hp⟩ := exists_lookupKey (List.mem_map_of_mem (f := fun m => (m.key, m)) hm)
    edge.pipeline.key
  obtain ⟨up, hup⟩ := exists_lookupKey (List.mem_map_of_mem (f := fun d => (d.ref, d)) hu)
    edge.upstream.dataset.qualifiedName
  obtain ⟨down, hdown⟩ := exists_lookupKey (List.mem_map_of_mem (f := fun d => (d.ref, d)) hd)
    edge.downstream.dataset.qualifiedName
  simp only [hkey, huref, hdref] at hp hup hdown
  refine ⟨⟨p.id, up.id, edge.upstream.name, down.id, edge.downstream.name⟩, ?_⟩
  simp only [edgeRow, except_bind_ok]
  exact ⟨p, hp, up, hup, down, hdown, rfl⟩

/-! ## The sync -/

/-- A document is loaded where there is one and it passes its checks. -/
theorem loadCatalog_ok {document : Option CatalogConfig} {config : CatalogConfig} :
    loadCatalog document = .ok config ↔ document = some config ∧ config.Valid := by
  cases document with
  | none => simp [loadCatalog]
  | some c =>
    simp only [loadCatalog, Option.some.injEq]
    split
    · rename_i h
      constructor
      · intro heq
        cases heq
        exact ⟨rfl, h⟩
      · rintro ⟨rfl, -⟩
        rfl
    · rename_i h
      constructor
      · intro heq
        cases heq
      · rintro ⟨rfl, hvalid⟩
        exact absurd hvalid h

/-- The document's pipelines in the order they are stored. -/
def CatalogConfig.orderedPipelines (config : CatalogConfig) : List PipelineDefinition :=
  (config.pipelines.map PipelineConfig.definition).insertionSort fun a b => a.key ≤ b.key

/-- The edges of the pipelines, each once, in the order they are stored. -/
def orderedEdges (edges : List (List LineageEdge)) : List LineageEdge :=
  edges.flatten.dedup.insertionSort fun a b => catalogSortKey a ≤ catalogSortKey b

/-- The pipelines' rows a sync stores. -/
def CatalogConfig.rows (config : CatalogConfig) (db : DB) : List PipelineModel :=
  pipelineRows db.nextId config.orderedPipelines

/-- The tables with the document's catalog and the rows of its edges. -/
def DB.replaced (config : CatalogConfig) (rows : List LineageEdgeModel) (db : DB) : DB :=
  db.withCatalog (config.rows db) rows (db.nextId + config.orderedPipelines.length)

/-- What a sync computes on its way: the edges of each pipeline and the rows
of them all. -/
structure Computes (db : DB) (config : CatalogConfig) (edges : List (List LineageEdge))
    (rows : List LineageEdgeModel) : Prop where
  valid : config.Valid
  edgesOf : config.pipelines.mapM (pipelineEdges db.knownColumns) = .ok edges
  rowsOf : (orderedEdges edges).mapM
    (edgeRow (Dict.ofItems ((config.rows db).map fun m => (m.key, m))) db.allDatasetsByRef) =
      .ok rows

/-- The rows computed refer to rows there are. -/
theorem Computes.linked {config : CatalogConfig} {edges : List (List LineageEdge)}
    {rows : List LineageEdgeModel} (h : Computes db config edges rows) :
    (db.replaced config rows).LineageLinked := by
  have hedge : ∀ e ∈ rows, ∃ edge, EdgeRow (config.rows db) db edge e := by
    intro e he
    obtain ⟨edge, -, hok⟩ := exists_left_of_forall₂ (mapM_ok_iff.1 h.rowsOf) he
    exact ⟨edge, edgeRow_ok hok⟩
  refine ⟨nodup_pipelineRows _ _, fun e he => ?_, fun e he => ?_, fun e he => ?_⟩
  · obtain ⟨edge, hrow⟩ := hedge e he
    obtain ⟨m, hm, -, hid⟩ := hrow.pipeline
    exact ⟨m, hm, hid⟩
  · obtain ⟨edge, hrow⟩ := hedge e he
    obtain ⟨d, hd, -, hid⟩ := hrow.upstream
    exact ⟨d, hd, hid⟩
  · obtain ⟨edge, hrow⟩ := hedge e he
    obtain ⟨d, hd, -, hid⟩ := hrow.downstream
    exact ⟨d, hd, hid⟩

/-- **What a sync that succeeds has computed**, and the tables it leaves. -/
theorem returns_sync {document : Option CatalogConfig} {r : CatalogSyncResult} {t : Session}
    (h : Returns (sync document) db Session.new r t) :
    ∃ config edges rows, document = some config ∧ Computes db config edges rows ∧
      t.pending db = db.replaced config rows ∧ (db.replaced config rows).Constraints := by
  simp only [sync, replaceCatalog, returns_bind, returns_ofExcept, returns_select, returns_write,
    returns_flush, returns_pure] at h
  obtain ⟨config, _, ⟨hload, rfl⟩, known, _, ⟨-, rfl, rfl⟩, edges, _, ⟨hedges, rfl⟩, -, _,
    ⟨byRef, _, ⟨-, rfl, rfl⟩, -, _, rfl, -, _, ⟨-, rfl⟩, -, _, rfl, models, _, ⟨-, rfl, rfl⟩,
      rows, _, ⟨hrows, rfl⟩, -, _, rfl, hc, rfl⟩, -, rfl⟩ := h
  simp only [Session.new, id, addPipelines_eq, addLineageEdges_eq, DB.clearCatalog,
    List.nil_append] at hrows hc hedges
  obtain ⟨rfl, hvalid⟩ := loadCatalog_ok.1 hload
  refine ⟨config, edges, rows, rfl, ⟨hvalid, hedges, hrows⟩, ?_, hc⟩
  simp only [Session.new, id, addPipelines_eq, addLineageEdges_eq, DB.clearCatalog,
    List.nil_append]
  rfl

/-- A sync succeeds where it computes its rows and the tables allow them. -/
theorem Computes.exists_returns {config : CatalogConfig} {edges : List (List LineageEdge)}
    {rows : List LineageEdgeModel} (h : Computes db config edges rows) (hdb : db.Constraints)
    (hclear : db.clearCatalog.Constraints) (hpipelines : (db.replaced config []).Constraints)
    (hc : (db.replaced config rows).Constraints) :
    ∃ r t, Returns (sync (some config)) db Session.new r t := by
  have hload : loadCatalog (some config) = .ok config := loadCatalog_ok.2 ⟨rfl, h.valid⟩
  have hadded : config.orderedPipelines.foldl (fun db pipeline => db.addPipeline pipeline)
      db.clearCatalog = db.replaced config [] := by
    rw [addPipelines_eq]
    simp [DB.clearCatalog, DB.replaced, DB.withCatalog, CatalogConfig.rows]
  have hrows : rows.foldl (fun db row => db.addLineageEdge row) (db.replaced config []) =
      db.replaced config rows := by
    rw [addLineageEdges_eq]
    simp [DB.replaced, DB.withCatalog]
  have hmodels : (config.orderedPipelines.foldl (fun db pipeline => db.addPipeline pipeline)
      db.clearCatalog).pipelines = config.rows db := by
    rw [hadded]
    rfl
  rw [← hrows, ← hadded] at hc
  rw [← hadded] at hpipelines
  obtain ⟨u, hu⟩ : ∃ u, Returns (replaceCatalog config.orderedPipelines (orderedEdges edges)) db
      Session.new () u := by
    refine exists_returns_bind (returns_select.2 ⟨hdb, rfl, rfl⟩) ?_
    refine exists_returns_bind returns_wrote ?_
    refine exists_returns_bind (returns_flushed hclear) ?_
    refine exists_returns_bind returns_wrote ?_
    refine exists_returns_bind (returns_select.2 ⟨hpipelines, rfl, rfl⟩) ?_
    refine exists_returns_bind (returns_ofExcept.2 ⟨hmodels ▸ h.rowsOf, rfl⟩) ?_
    refine exists_returns_bind returns_wrote ?_
    exact ⟨_, returns_flushed hc⟩
  refine ⟨⟨config.orderedPipelines.length, (orderedEdges edges).length⟩, ?_⟩
  refine exists_returns_bind (returns_ofExcept.2 ⟨hload, rfl⟩) ?_
  refine exists_returns_bind (returns_select.2 ⟨hdb, rfl, rfl⟩) ?_
  refine exists_returns_bind (returns_ofExcept.2 ⟨h.edgesOf, rfl⟩) ?_
  exact exists_returns_bind hu ⟨_, returns_pure.2 ⟨rfl, rfl⟩⟩

/-- **A sync replaces the catalog or does nothing.** -/
theorem syncCatalog_cases (document : Option CatalogConfig) (db : DB) :
    syncCatalog document db = db ∨ ∃ pipelines edges next, db.nextId ≤ next ∧
      syncCatalog document db = db.withCatalog pipelines edges next ∧
      (db.withCatalog pipelines edges next).Constraints ∧
      (db.withCatalog pipelines edges next).LineageLinked := by
  rcases returns_or_raises (sync document) db Session.new with ⟨r, t, h⟩ | ⟨e, t, h⟩
  · obtain ⟨config, edges, rows, -, hcomputes, hpending, hc⟩ := returns_sync h
    have hsync : syncCatalog document db = db.replaced config rows := by
      rw [syncCatalog, h]
      exact hpending
    exact Or.inr ⟨_, _, _, Nat.le_add_right _ _, hsync, hc, hcomputes.linked⟩
  · refine Or.inl ?_
    rw [syncCatalog, h]

end SchemaSentry
