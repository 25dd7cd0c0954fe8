import SchemaSentry.System.CatalogSync
import SchemaSentry.System.Runs
/-!
# Schema Sentry — the catalog sync is an exact replacement

With one source a sync of a document that is accepted stores its pipelines
and, for each, the rows of its inputs crossed with its outputs, whatever
was stored before; a second sync gives rows that differ in their keys
alone, which the digest leaves out (`sync_exact`).
-/

namespace SchemaSentry

open Lib DbM

/-- A row of the document: it leads from an input of a pipeline to one of
its outputs. -/
def CatalogConfig.StoresEdge (config : CatalogConfig) (after : DB) (e : LineageEdgeModel) : Prop :=
  ∃ p ∈ config.pipelines, ∃ m ∈ after.pipelines, m.key = p.key ∧ e.pipelineId = m.id ∧
    ∃ up ∈ after.datasets, ∃ down ∈ after.datasets,
      e.upstreamDatasetId = up.id ∧ e.downstreamDatasetId = down.id ∧
      NamesColumn p.inputs ⟨up.ref, e.upstreamColumn⟩ ∧
      NamesColumn p.outputs ⟨down.ref, e.downstreamColumn⟩

variable {db : DB} {config : CatalogConfig} {source : DataSourceModel}
variable {edges : List (List LineageEdge)} {rows : List LineageEdgeModel}

/-! ## One source -/

/-- The datasets of the one source there is have distinct names. -/
theorem eq_of_ref_eq (hc : db.Constraints) (hl : db.Linked) (hone : db.sources = [source])
    {d d' : DatasetModel} (hd : d ∈ db.datasets) (hd' : d' ∈ db.datasets) (h : d.ref = d'.ref) :
    d = d' := by
  have howner : ∀ x ∈ db.datasets, x.sourceId = source.id := by
    intro x hx
    obtain ⟨s, hs, hsid⟩ := hl.datasetSource x hx
    rw [hone] at hs
    rw [← hsid, List.mem_singleton.1 hs]
  refine eq_of_nodup_map (nodup_refs hc source.id) ?_ ?_ h
  · exact List.mem_filter.2 ⟨hd, decide_eq_true (howner d hd)⟩
  · exact List.mem_filter.2 ⟨hd', decide_eq_true (howner d' hd')⟩

section OneSource

variable (h : Computes db config edges rows) (hc : db.Constraints) (hl : db.Linked)
variable (hone : db.sources = [source])

include h hc hl hone

/-- **The rows stored are the crossed ones.** -/
theorem Computes.mem_rows {e : LineageEdgeModel} :
    e ∈ rows ↔ config.StoresEdge (db.replaced config rows) e := by
  have hkeys : (config.pipelines.map PipelineConfig.key).Nodup := (valid_iff.1 h.valid).2.1
  constructor
  · intro he
    obtain ⟨edge, -, ⟨p, hp, hpipe, hup, hdown⟩, hrow⟩ := exists_left_of_forall₂ h.edgeRows he
    obtain ⟨m, hm, hkey, hmid⟩ := hrow.pipeline
    obtain ⟨u, hu, huref, huid⟩ := hrow.upstream
    obtain ⟨d, hd, hdref, hdid⟩ := hrow.downstream
    refine ⟨p, hp, m, hm, hkey.trans (congrArg PipelineDefinition.key hpipe), hmid.symm, u, hu, d,
      hd, huid.symm, hdid.symm, ?_, ?_⟩
    · rw [huref, hrow.upstreamColumn]
      exact hup
    · rw [hdref, hrow.downstreamColumn]
      exact hdown
  · rintro ⟨p, hp, m, hm, hkey, hmid, u, hu, d, hd, huid, hdid, hup, hdown⟩
    have hdeclared : config.Declares
        ⟨p.definition, ⟨u.ref, e.upstreamColumn⟩, ⟨d.ref, e.downstreamColumn⟩⟩ :=
      ⟨p, hp, rfl, hup, hdown⟩
    obtain ⟨row, hrow, -, hedge⟩ :=
      exists_right_of_forall₂ h.edgeRows ((mem_orderedEdges h.edgesOf).2 hdeclared)
    obtain ⟨m', hm', hkey', hmid'⟩ := hedge.pipeline
    obtain ⟨u', hu', huref', huid'⟩ := hedge.upstream
    obtain ⟨d', hd', hdref', hdid'⟩ := hedge.downstream
    have hrowKeys : ((config.rows db).map PipelineModel.key).Nodup :=
      nodup_rows (f := PipelineDefinition.key) hkeys
    obtain rfl : m' = m := eq_of_nodup_map hrowKeys hm' hm (hkey'.trans hkey.symm)
    obtain rfl : u' = u := eq_of_ref_eq hc hl hone hu' hu huref'
    obtain rfl : d' = d := eq_of_ref_eq hc hl hone hd' hd hdref'
    have heq : e = row := by
      obtain ⟨_, _, _, _, _⟩ := e
      obtain ⟨_, _, _, _, _⟩ := row
      simp only at hmid huid hdid hmid' huid' hdid'
      rw [LineageEdgeModel.mk.injEq]
      exact ⟨hmid.trans hmid', huid.trans huid', hedge.upstreamColumn.symm,
        hdid.trans hdid', hedge.downstreamColumn.symm⟩
    exact heq ▸ hrow

end OneSource

/-! ## A second sync -/

/-- What the digest says of an edge's row: its pipeline's key for the
pipeline's row. -/
theorem EdgeRow.digest {edge : LineageEdge} {row : LineageEdgeModel}
    (h : EdgeRow (config.rows db) db edge row) :
    (((config.rows db).filter fun p => p.id = row.pipelineId).map fun p =>
      (⟨p.key, row.upstreamDatasetId, row.upstreamColumn, row.downstreamDatasetId,
        row.downstreamColumn⟩ : DigestEdge)) =
      [⟨edge.pipeline.key, row.upstreamDatasetId, edge.upstream.name, row.downstreamDatasetId,
        edge.downstream.name⟩] := by
  obtain ⟨m, hm, hkey, hmid⟩ := h.pipeline
  have hone : ((config.rows db).filter fun p => p.id = row.pipelineId) = [m] := by
    have hnodup : ((config.rows db).map PipelineModel.id).Nodup := nodup_pipelineRows _ _
    refine List.perm_singleton.1 ((List.perm_ext_iff_of_nodup
      ((List.Nodup.of_map _ hnodup).filter _) (List.nodup_singleton m)).2 fun p => ?_)
    simp only [List.mem_filter, decide_eq_true_eq, List.mem_singleton]
    constructor
    · rintro ⟨hp, hpid⟩
      exact eq_of_nodup_map hnodup hp hm (hpid.trans hmid.symm)
    · rintro rfl
      exact ⟨hm, hmid⟩
  rw [hone, List.map_singleton, hkey, h.upstreamColumn, h.downstreamColumn]

/-- **Two syncs of one document have one digest**: their rows say the same
but for the pipelines' keys. -/
theorem digestEdges_eq (after : DB) {rows' : List LineageEdgeModel}
    (hc : db.Constraints) (hl : db.Linked) (hone : db.sources = [source])
    (hdatasets : after.datasets = db.datasets) {ordered : List LineageEdge}
    (h : List.Forall₂ (EdgeRow (config.rows db) db) ordered rows)
    (h' : List.Forall₂ (EdgeRow (config.rows after) after) ordered rows') :
    (rows'.flatMap fun edge => ((config.rows after).filter fun p => p.id = edge.pipelineId).map
      fun p => (⟨p.key, edge.upstreamDatasetId, edge.upstreamColumn, edge.downstreamDatasetId,
        edge.downstreamColumn⟩ : DigestEdge)) =
      rows.flatMap fun edge => ((config.rows db).filter fun p => p.id = edge.pipelineId).map
        fun p => ⟨p.key, edge.upstreamDatasetId, edge.upstreamColumn, edge.downstreamDatasetId,
          edge.downstreamColumn⟩ := by
  induction h generalizing rows' with
  | nil =>
    cases h'
    rfl
  | cons hrow hrest ih =>
    rcases h' with _ | ⟨hrow', hrest'⟩
    obtain ⟨u, hu, huref, huid⟩ := hrow.upstream
    obtain ⟨d, hd, hdref, hdid⟩ := hrow.downstream
    obtain ⟨u', hu', huref', huid'⟩ := hrow'.upstream
    obtain ⟨d', hd', hdref', hdid'⟩ := hrow'.downstream
    rw [hdatasets] at hu' hd'
    obtain rfl : u' = u := eq_of_ref_eq hc hl hone hu' hu (huref'.trans huref.symm)
    obtain rfl : d' = d := eq_of_ref_eq hc hl hone hd' hd (hdref'.trans hdref.symm)
    rw [List.flatMap_cons, List.flatMap_cons, hrow.digest, hrow'.digest, ih hrest', ← huid, ← hdid,
      ← huid', ← hdid']

/-- Rows in one order have one order of what they define. -/
theorem map_definition_sorted (models : List PipelineModel) :
    (models.insertionSort fun a b => a.key ≤ b.key).map PipelineModel.definition =
      (models.map PipelineModel.definition).insertionSort fun a b => a.key ≤ b.key :=
  List.map_insertionSort _ _ _ _ fun _ _ _ _ => Iff.rfl

theorem digestEntry_eq (models : List PipelineModel) :
    models.map PipelineModel.digestEntry = (models.map PipelineModel.definition).map
      fun p => (pipelineRow 0 p).digestEntry := by
  rw [List.map_map]
  rfl

theorem knownColumns_replaced : (db.replaced config rows).knownColumns = db.knownColumns := rfl

/-- **A second sync of the document leaves the digest as it is.** -/
theorem Computes.digest [Hashlib] {edges' : List (List LineageEdge)}
    {rows' : List LineageEdgeModel} (h : Computes db config edges rows)
    (h' : Computes (db.replaced config rows) config edges' rows') (hc : db.Constraints)
    (hl : db.Linked) (hone : db.sources = [source]) :
    ((db.replaced config rows).replaced config rows').catalogDigest =
      (db.replaced config rows).catalogDigest := by
  have hedges : edges' = edges := by
    have := h'.edgesOf
    rw [knownColumns_replaced, h.edgesOf] at this
    exact (Except.ok.inj this).symm
  subst hedges
  have hdigest := digestEdges_eq (db.replaced config rows) hc hl hone rfl
    (h.edgeRows.imp fun _ _ hrow => hrow.2) (h'.edgeRows.imp fun _ _ hrow => hrow.2)
  have hpipelines : ∀ x : DB, ((config.rows x).insertionSort fun a b => a.key ≤ b.key).map
      PipelineModel.digestEntry = (config.orderedPipelines.insertionSort fun a b =>
        a.key ≤ b.key).map fun p => (pipelineRow 0 p).digestEntry := by
    intro x
    rw [digestEntry_eq, map_definition_sorted, CatalogConfig.rows, map_definition_pipelineRows]
  have hpayload : ((db.replaced config rows).replaced config rows').catalogPayload =
      (db.replaced config rows).catalogPayload := by
    simp only [DB.catalogPayload]
    have hleft : ((db.replaced config rows).replaced config rows').digestEdges =
        (db.replaced config rows).digestEdges := hdigest
    have hright : (((db.replaced config rows).replaced config rows').pipelines.insertionSort
        fun a b => a.key ≤ b.key).map PipelineModel.digestEntry =
        ((db.replaced config rows).pipelines.insertionSort fun a b => a.key ≤ b.key).map
          PipelineModel.digestEntry :=
      (hpipelines (db.replaced config rows)).trans (hpipelines db).symm
    rw [hleft, hright]
  rw [DB.catalogDigest, DB.catalogDigest, hpayload]

/-! ## The sync -/

/-- **The sync is an exact, atomic and idempotent replacement.** With one
source, a document whose fields meet their constraints is accepted exactly
where it passes the checks; then the pipelines stored are those declared
and the edges those crossed, each once, and a second sync succeeds with
the same digest; otherwise the catalog stays; and nothing else changes. -/
theorem sync_exact [Hashlib] (hc : db.Constraints) (hl : db.Linked)
    (hone : db.sources = [source]) (hfields : config.FieldsOk) (hfits : config.Fits) :
    ((∃ r, syncResult (some config) db = .ok r) ↔ config.Accepted db) ∧
    (∀ r, syncResult (some config) db = .ok r →
      ((syncCatalog (some config) db).pipelines.map PipelineModel.definition).Perm
        (config.pipelines.map PipelineConfig.definition) ∧
      (syncCatalog (some config) db).lineageEdges.Nodup ∧
      (∀ e, e ∈ (syncCatalog (some config) db).lineageEdges ↔
        config.StoresEdge (syncCatalog (some config) db) e) ∧
      (∃ r', syncResult (some config) (syncCatalog (some config) db) = .ok r') ∧
      (syncCatalog (some config) (syncCatalog (some config) db)).catalogDigest =
        (syncCatalog (some config) db).catalogDigest) ∧
    (∀ e, syncResult (some config) db = .error e →
      (syncCatalog (some config) db).pipelines = db.pipelines ∧
      (syncCatalog (some config) db).lineageEdges = db.lineageEdges) ∧
    ∃ pipelines edges next,
      syncCatalog (some config) db = db.withCatalog pipelines edges next := by
  refine ⟨?_, fun r hr => ?_, fun e he => ?_, ?_⟩
  · rw [exists_sync_iff hc hl]
    exact ⟨fun h => h.2.2, fun h => ⟨hfields, hfits, h⟩⟩
  · obtain ⟨edges, rows, hcomputes, hreplaced, hsync⟩ := computes_of_ok hr
    have hc' : (db.replaced config rows).Constraints := hreplaced
    have hl' : (db.replaced config rows).Linked := linked_withCatalog hl (Nat.le_add_right _ _)
    have hagain : ∃ r', syncResult (some config) (db.replaced config rows) = .ok r' := by
      obtain ⟨-, haccepted⟩ := hcomputes.accepted
      refine (exists_sync_iff hc' hl').2 ⟨hfields, hfits, { haccepted with known := ?_ }⟩
      exact haccepted.known
    obtain ⟨r', hr'⟩ := hagain
    obtain ⟨edges', rows', hcomputes', -, hsync'⟩ := computes_of_ok hr'
    rw [hsync, hsync']
    refine ⟨perm_rows config db, ?_, fun e => hcomputes.mem_rows hc hl hone, ⟨r', hr'⟩,
      hcomputes.digest hcomputes' hc hl hone⟩
    exact List.Nodup.of_map _ hreplaced.lineageEdgeIdentity
  · rw [syncCatalog_of_error he]
    exact ⟨rfl, rfl⟩
  · rcases syncCatalog_cases (some config) db with heq | ⟨pipelines, edges, next, -, heq, -, -⟩
    · exact ⟨db.pipelines, db.lineageEdges, db.nextId, heq⟩
    · exact ⟨pipelines, edges, next, heq⟩

section Sample

attribute [local instance] Hashlib.plain

/-- The sample's catalog is stored and stays the same when it is synced once
more. -/
theorem sync_exact_sample :
    (syncCatalog (some sampleCatalog) sampleTables).lineageEdges.Nodup ∧
      (syncCatalog (some sampleCatalog)
        (syncCatalog (some sampleCatalog) sampleTables)).catalogDigest =
        (syncCatalog (some sampleCatalog) sampleTables).catalogDigest := by
  have hwf := sampleTables_reachable.wellFormed
  have hone : sampleTables.sources = [sampleSource] := rfl
  have hfields : sampleCatalog.FieldsOk := by
    refine ⟨by decide, by decide, by decide, by decide⟩
  have hfits : sampleCatalog.Fits := by
    unfold CatalogConfig.Fits
    decide
  have hresult : syncResult (some sampleCatalog) sampleTables = .ok ⟨1, 1⟩ := by decide +kernel
  obtain ⟨-, hstored, -⟩ := sync_exact hwf.constraints hwf.linked hone hfields hfits
  obtain ⟨-, hnodup, -, -, hdigest⟩ := hstored _ hresult
  exact ⟨hnodup, hdigest⟩

end Sample

end SchemaSentry
