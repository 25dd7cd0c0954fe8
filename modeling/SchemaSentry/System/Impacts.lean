import SchemaSentry.System.Isolation
import SchemaSentry.Store.Alerts
import SchemaSentry.Store.ScanQueries
/-!
# Schema Sentry — three lists of affected DAGs

What the alert, the API and the guard say a change affects. The API's list
and the guard's are the pipelines that chains of edges lead to from the
change's column; the alert's is read off the edges out of the column, a
pipeline for each. They agree where no pipeline is further away and none
is listed twice (`impactsAgree_iff`).
-/

namespace SchemaSentry

open Lib

/-! ## The lists -/

/-- The DAGs `_to_persisted` lists for a change row. -/
def DB.queryDags (db : DB) (row : SchemaChangeModel × DatasetModel) : List String :=
  (persistedChange (LineageGraph.ofEdges db.lineage) row).affectedDags

/-- The changes that `validate_pipeline` stops a pipeline for. -/
def DB.stoppedFor (db : DB) (pipelineKey : String) : List Uuid :=
  match validateResult pipelineKey db with
  | .ok validation => validation.blockingChanges.map BlockingChange.id
  | .error _ => []

/-- The DAGs of the pipelines that are stopped for a change row. -/
def DB.blockedDags (db : DB) (row : SchemaChangeModel) : List String :=
  ((db.pipelines.filter fun p => row.id ∈ db.stoppedFor p.key).map
    PipelineModel.airflowDagId).insertionSort fun a b => a ≤ b

/-- The three lists of a change row are one list, in which no DAG is twice. -/
def DB.ImpactsAgree (db : DB) (row : SchemaChangeModel × DatasetModel) : Prop :=
  db.affectedDags row.1 = db.queryDags row ∧ (db.queryDags row).Nodup ∧
    (row.1.state = .open → row.1.severity = .breaking → db.blockedDags row.1 = db.queryDags row)

/-- An edge out of a change row's column. -/
def LineageEdgeModel.LeavesColumn (e : LineageEdgeModel) (row : SchemaChangeModel) : Prop :=
  e.upstreamDatasetId = row.datasetId ∧ e.upstreamColumn = row.columnName

/-- The column's readers are direct: no pipeline has two edges out of it,
and each that a chain leads to has one. -/
structure DB.DirectlyRead (db : DB) (row : SchemaChangeModel × DatasetModel) : Prop where
  once : ∀ e ∈ db.lineageEdges, ∀ e' ∈ db.lineageEdges, e.LeavesColumn row.1 →
    e'.LeavesColumn row.1 → e.pipelineId = e'.pipelineId → e = e'
  near : ∀ k, Reaches db.lineage ⟨row.2.ref, row.1.columnName⟩ k →
    ∃ e ∈ db.lineageEdges, e.LeavesColumn row.1 ∧
      ∃ p ∈ db.pipelines, p.id = e.pipelineId ∧ p.key = k

/-! ## What is on them -/

variable {db : DB} {row : SchemaChangeModel × DatasetModel} {dag : String}

/-- Sorted lists without repetition are their members. -/
theorem eq_of_sorted {xs ys : List String} (hx : xs.Nodup) (hy : ys.Nodup)
    (hxs : xs.Pairwise (· ≤ ·)) (hys : ys.Pairwise (· ≤ ·)) (h : ∀ x, x ∈ xs ↔ x ∈ ys) :
    xs = ys :=
  List.Perm.eq_of_pairwise (fun _ _ _ _ => le_antisymm) hxs hys
    ((List.perm_ext_iff_of_nodup hx hy).2 h)

theorem mem_affectedDags : dag ∈ db.affectedDags row.1 ↔
    ∃ p ∈ db.pipelines, p.airflowDagId = dag ∧
      ∃ e ∈ db.lineageEdges, e.pipelineId = p.id ∧ e.LeavesColumn row.1 := by
  simp only [DB.affectedDags, List.mem_insertionSort, List.mem_flatMap, List.mem_map,
    List.mem_filter, decide_eq_true_eq, LineageEdgeModel.LeavesColumn]
  constructor
  · rintro ⟨p, hp, e, ⟨he, hpid, hleaves⟩, rfl⟩
    exact ⟨p, hp, rfl, e, he, hpid, hleaves⟩
  · rintro ⟨p, hp, rfl, e, he, hpid, hleaves⟩
    exact ⟨p, hp, e, ⟨he, hpid, hleaves⟩, rfl⟩

/-- A pipeline of a key is the one an impact of that key is of. -/
theorem mem_queryDags (hc : db.Constraints) : dag ∈ db.queryDags row ↔
    ∃ p ∈ db.pipelines, p.airflowDagId = dag ∧
      Reaches db.lineage ⟨row.2.ref, row.1.columnName⟩ p.key := by
  simp only [DB.queryDags, persistedChange, LineageGraph.affectedDags, List.mem_insertionSort,
    List.mem_dedup, List.mem_map]
  constructor
  · rintro ⟨impact, himpact, rfl⟩
    obtain ⟨e, he, hpipe⟩ := exists_edge_of_impact himpact
    obtain ⟨_, -, p, hp, _, -, _, -, -, -, -, hdef, -, -⟩ := mem_lineage.1 he
    have hp' : impact.pipeline = p.definition := hpipe.symm.trans hdef
    refine ⟨p, hp, by rw [hp']; rfl, reaches_iff.1 ⟨impact, himpact, by rw [hp']; rfl⟩⟩
  · rintro ⟨p, hp, rfl, hreaches⟩
    obtain ⟨impact, himpact, hkey⟩ := reaches_iff.2 hreaches
    obtain ⟨e, he, hpipe⟩ := exists_edge_of_impact himpact
    obtain ⟨_, -, q, hq, _, -, _, -, -, -, -, hdef, -, -⟩ := mem_lineage.1 he
    have hq' : impact.pipeline = q.definition := hpipe.symm.trans hdef
    have hkeys : q.key = p.key := by
      rw [← hkey, hq']
      rfl
    obtain rfl : q = p := eq_of_nodup_map hc.pipelineKey hq hp hkeys
    exact ⟨impact, himpact, by rw [hq']; rfl⟩

theorem stoppedFor_eq (hc : db.Constraints) {p : PipelineModel} (hp : p ∈ db.pipelines) :
    db.stoppedFor p.key = (db.blocking p.key).map BlockingChange.id := by
  unfold DB.stoppedFor
  rw [validateResult_eq hc ⟨p, hp, rfl⟩]

theorem mem_blockedDags (hc : db.Constraints) (hl : db.Linked) (hrow : row.1 ∈ db.schemaChanges)
    (hd : row.2 ∈ db.datasets) (hid : row.2.id = row.1.datasetId) (hopen : row.1.state = .open)
    (hsev : row.1.severity = .breaking) : dag ∈ db.blockedDags row.1 ↔
      ∃ p ∈ db.pipelines, p.airflowDagId = dag ∧
        Reaches db.lineage ⟨row.2.ref, row.1.columnName⟩ p.key := by
  simp only [DB.blockedDags, List.mem_insertionSort, List.mem_map, List.mem_filter,
    decide_eq_true_eq]
  constructor
  · rintro ⟨p, ⟨hp, hstopped⟩, rfl⟩
    rw [stoppedFor_eq hc hp] at hstopped
    obtain ⟨b, hb, hbid⟩ := List.mem_map.1 hstopped
    obtain ⟨row', hrow', d', hd', hid', -, -, hreaches, rfl⟩ := mem_blocking.1 hb
    obtain rfl : row' = row.1 := eq_of_nodup_map hl.changeIds hrow' hrow hbid
    obtain rfl : d' = row.2 := eq_of_nodup_map hl.datasetIds hd' hd (hid'.trans hid.symm)
    exact ⟨p, hp, rfl, hreaches⟩
  · rintro ⟨p, hp, rfl, hreaches⟩
    refine ⟨p, ⟨hp, ?_⟩, rfl⟩
    rw [stoppedFor_eq hc hp]
    exact List.mem_map.2 ⟨_, mem_blocking.2 ⟨row.1, hrow, row.2, hd, hid, hopen, hsev, hreaches,
      rfl⟩, rfl⟩

/-- An edge out of the column is a chain to its pipeline. -/
theorem reaches_of_leaves (hl : db.Linked) (hlin : db.LineageLinked) (hd : row.2 ∈ db.datasets)
    (hid : row.2.id = row.1.datasetId) {e : LineageEdgeModel} (he : e ∈ db.lineageEdges)
    (hleaves : e.LeavesColumn row.1) {p : PipelineModel} (hp : p ∈ db.pipelines)
    (hpid : e.pipelineId = p.id) : Reaches db.lineage ⟨row.2.ref, row.1.columnName⟩ p.key := by
  obtain ⟨up, hup, hupid⟩ := hlin.edgeUpstream e he
  obtain ⟨down, hdown, hdownid⟩ := hlin.edgeDownstream e he
  have hdatasets : up.id = row.2.id := hupid.trans (hleaves.1.trans hid.symm)
  obtain rfl : up = row.2 := eq_of_nodup_map hl.datasetIds hup hd hdatasets
  refine ⟨[], ⟨p.definition, ⟨row.2.ref, e.upstreamColumn⟩, ⟨down.ref, e.downstreamColumn⟩⟩,
    ⟨mem_lineage.2 ⟨e, he, p, hp, row.2, hd, down, hdown, hpid.symm, hupid, hdownid, rfl, rfl,
      rfl⟩, ?_, trivial⟩, rfl⟩
  rw [hleaves.2]

/-! ## In what order -/

theorem sorted_affectedDags : (db.affectedDags row.1).Pairwise (· ≤ ·) :=
  List.pairwise_insertionSort _ _

theorem sorted_queryDags : (db.queryDags row).Pairwise (· ≤ ·) := List.pairwise_insertionSort _ _

theorem nodup_queryDags : (db.queryDags row).Nodup :=
  (List.perm_insertionSort _ _).nodup_iff.2 (List.nodup_dedup _)

/-- The alert lists no DAG twice exactly where no pipeline has two edges
out of the column. -/
theorem nodup_affectedDags_iff (hc : db.Constraints) (hlin : db.LineageLinked) :
    (db.affectedDags row.1).Nodup ↔ ∀ e ∈ db.lineageEdges, ∀ e' ∈ db.lineageEdges,
      e.LeavesColumn row.1 → e'.LeavesColumn row.1 → e.pipelineId = e'.pipelineId → e = e' := by
  rw [DB.affectedDags, (List.perm_insertionSort _ _).nodup_iff, List.nodup_flatMap]
  constructor
  · rintro ⟨hinner, -⟩ e he e' he' hleaves hleaves' hpid
    obtain ⟨p, hp, hpe⟩ := hlin.edgePipeline e he
    refine List.inj_on_of_nodup_map (hinner p hp) ?_ ?_ rfl
    · exact List.mem_filter.2 ⟨he, decide_eq_true ⟨hpe.symm, hleaves.1, hleaves.2⟩⟩
    · refine List.mem_filter.2 ⟨he', decide_eq_true ⟨?_, hleaves'.1, hleaves'.2⟩⟩
      exact hpid.symm.trans hpe.symm
  · intro honce
    refine ⟨fun p _ => ?_, ?_⟩
    · refine List.Nodup.map_on (fun e he e' he' _ => ?_)
        ((List.Nodup.of_map _ hc.lineageEdgeIdentity).filter _)
      obtain ⟨hmem, hcond⟩ := List.mem_filter.1 he
      obtain ⟨hmem', hcond'⟩ := List.mem_filter.1 he'
      obtain ⟨hp, hleaves⟩ := of_decide_eq_true hcond
      obtain ⟨hp', hleaves'⟩ := of_decide_eq_true hcond'
      exact honce e hmem e' hmem' hleaves hleaves' (hp.trans hp'.symm)
    · refine (List.pairwise_map.1 hc.pipelineDag).imp fun hne x hx hx' => hne ?_
      obtain ⟨-, -, rfl⟩ := List.mem_map.1 hx
      obtain ⟨-, -, heq⟩ := List.mem_map.1 hx'
      exact heq.symm

/-- The guard's list is the API's, for a change that is OPEN and BREAKING. -/
theorem blockedDags_eq (hc : db.Constraints) (hl : db.Linked) (hrow : row.1 ∈ db.schemaChanges)
    (hd : row.2 ∈ db.datasets) (hid : row.2.id = row.1.datasetId) (hopen : row.1.state = .open)
    (hsev : row.1.severity = .breaking) : db.blockedDags row.1 = db.queryDags row := by
  refine eq_of_sorted ?_ nodup_queryDags (List.pairwise_insertionSort _ _) sorted_queryDags
    fun dag => ?_
  · refine (List.perm_insertionSort _ _).nodup_iff.2 ?_
    exact hc.pipelineDag.sublist (List.filter_sublist.map _)
  · rw [mem_blockedDags hc hl hrow hd hid hopen hsev, mem_queryDags hc]

/-- **The three impact computations agree** on a stored change exactly
where its column's readers are direct. -/
theorem impactsAgree_iff [Hashlib] (hwf : db.WellFormed) (hrow : row.1 ∈ db.schemaChanges)
    (hd : row.2 ∈ db.datasets) (hid : row.2.id = row.1.datasetId) :
    db.ImpactsAgree row ↔ db.DirectlyRead row := by
  have hc := hwf.constraints
  constructor
  · rintro ⟨heq, hnodup, -⟩
    refine ⟨(nodup_affectedDags_iff hc hwf.lineage).1 (heq ▸ hnodup), fun k hreaches => ?_⟩
    obtain ⟨p, hp, hkey⟩ := exists_pipeline_of_reaches hreaches
    have hmem : p.airflowDagId ∈ db.affectedDags row.1 := by
      rw [heq, mem_queryDags hc]
      exact ⟨p, hp, rfl, hkey ▸ hreaches⟩
    obtain ⟨q, hq, hdag, e, he, hpid, hleaves⟩ := mem_affectedDags.1 hmem
    obtain rfl : q = p := eq_of_nodup_map hc.pipelineDag hq hp hdag
    exact ⟨e, he, hleaves, q, hq, hpid.symm, hkey⟩
  · rintro ⟨honce, hnear⟩
    refine ⟨eq_of_sorted ((nodup_affectedDags_iff hc hwf.lineage).2 honce) nodup_queryDags
      sorted_affectedDags sorted_queryDags fun dag => ?_, nodup_queryDags,
      blockedDags_eq hc hwf.linked hrow hd hid⟩
    rw [mem_affectedDags, mem_queryDags hc]
    constructor
    · rintro ⟨p, hp, hdag, e, he, hpid, hleaves⟩
      exact ⟨p, hp, hdag, reaches_of_leaves hwf.linked hwf.lineage hd hid he hleaves hp hpid⟩
    · rintro ⟨p, hp, hdag, hreaches⟩
      obtain ⟨e, he, hleaves, q, hq, hqid, hkey⟩ := hnear p.key hreaches
      obtain rfl : q = p := eq_of_nodup_map hc.pipelineKey hq hp hkey
      exact ⟨q, hq, hdag, e, he, hqid.symm, hleaves⟩

section Sample

attribute [local instance] Hashlib.plain

/-- Two pipelines in a row: what one writes the other reads. -/
def sampleHops : DB :=
  { sources := [sampleSource]
    datasets := [⟨2, 0, "public", "users"⟩, ⟨3, 0, "public", "mart"⟩, ⟨4, 0, "public", "report"⟩]
    expectedColumns := [expectedRow 2 (sampleColumn "users" "id" "integer" false),
      expectedRow 3 (sampleColumn "mart" "id" "integer" false),
      expectedRow 4 (sampleColumn "report" "id" "integer" false)]
    scanRuns := [⟨1, 0, .manual, .completed, 0, some 0, some 0, none, none⟩]
    pipelines := [⟨5, "etl", "etl_dag", "data", .high⟩, ⟨6, "bi", "bi_dag", "data", .low⟩]
    lineageEdges := [⟨5, 2, "id", 3, "id"⟩, ⟨6, 3, "id", 4, "id"⟩]
    nextId := 7 }

theorem sampleHops_wellFormed : sampleHops.WellFormed := by
  refine ⟨by decide, ⟨by decide, by decide, by decide, by decide, by decide, by decide,
    fun c hc => ?_, by decide, by decide, by decide, by decide, by decide, by decide⟩,
    ⟨by decide, by decide, by decide, by decide⟩, fun row hrow => nomatch hrow⟩
  simp only [sampleHops, List.mem_cons, List.not_mem_nil, or_false] at hc
  rcases hc with rfl | rfl | rfl <;> exact ⟨_, rfl⟩

/-- The first column of the row is lost. -/
def sampleHopsLoss : DB := sampleHops.withLoss 1 sampleSource ⟨2, 0, "public", "users"⟩ "id"

/-- The change row of that loss and its dataset. -/
def sampleHopsRow : SchemaChangeModel × DatasetModel :=
  ({ changeRow 1 sampleSource 2 (changeFingerprint "crm" (lossOf ⟨2, 0, "public", "users"⟩ "id"))
      (lossOf ⟨2, 0, "public", "users"⟩ "id") with id := 7 }, ⟨2, 0, "public", "users"⟩)

theorem sampleHopsLoss_wellFormed : sampleHopsLoss.WellFormed :=
  withLoss_wellFormed sampleHops_wellFormed (by decide) (by decide) rfl (by decide)

theorem sampleHopsRow_severity : sampleHopsRow.1.severity = .breaking := by decide

theorem sampleHopsRow_mem : sampleHopsRow.1 ∈ sampleHopsLoss.schemaChanges :=
  List.mem_append_right _ (List.mem_singleton.2 rfl)

/-- The edges of the sample, as the graph has them. -/
theorem sampleHops_chain :
    Reaches sampleHopsLoss.lineage ⟨⟨"public", "users"⟩, "id"⟩ "etl" ∧
      Reaches sampleHopsLoss.lineage ⟨⟨"public", "users"⟩, "id"⟩ "bi" :=
  ⟨⟨[], _, ⟨List.mem_cons_self, rfl, trivial⟩, rfl⟩,
    ⟨[_], _, ⟨List.mem_cons_self, rfl, List.mem_cons_of_mem _ List.mem_cons_self, rfl, trivial⟩,
      rfl⟩⟩

/-- **The alert stops at the first hop**: it lists one DAG for the lost
column, where the API lists two and the guard blocks two. -/
theorem alert_misses_dag :
    sampleHopsLoss.WellFormed ∧ sampleHopsLoss.sources = [sampleSource] ∧
      sampleHopsRow.1 ∈ sampleHopsLoss.schemaChanges ∧ sampleHopsRow.1.state = .open ∧
      sampleHopsRow.1.severity = .breaking ∧
      sampleHopsLoss.affectedDags sampleHopsRow.1 = ["etl_dag"] ∧
      sampleHopsLoss.queryDags sampleHopsRow = ["bi_dag", "etl_dag"] ∧
      sampleHopsLoss.blockedDags sampleHopsRow.1 = ["bi_dag", "etl_dag"] ∧
      ¬ sampleHopsLoss.ImpactsAgree sampleHopsRow := by
  have hwf := sampleHopsLoss_wellFormed
  have hquery : sampleHopsLoss.queryDags sampleHopsRow = ["bi_dag", "etl_dag"] := by
    decide +kernel
  have halert : sampleHopsLoss.affectedDags sampleHopsRow.1 = ["etl_dag"] := by decide +kernel
  refine ⟨hwf, rfl, sampleHopsRow_mem, rfl, sampleHopsRow_severity, halert, hquery, ?_,
    fun hagree => ?_⟩
  · rw [blockedDags_eq hwf.constraints hwf.linked sampleHopsRow_mem (by decide) rfl rfl
      sampleHopsRow_severity, hquery]
  · have hlists := hagree.1
    rw [halert, hquery] at hlists
    exact absurd hlists (by decide)

/-- In the sample the lists differ, and the second pipeline is why. -/
theorem impactsAgree_iff_sample : ¬ sampleHopsLoss.ImpactsAgree sampleHopsRow := by
  intro hagree
  have hdirect := (impactsAgree_iff sampleHopsLoss_wellFormed sampleHopsRow_mem (by decide)
    rfl).1 hagree
  obtain ⟨e, he, hleaves, p, hp, hpid, hkey⟩ := hdirect.near "bi" sampleHops_chain.2
  have hall : ∀ e ∈ sampleHops.lineageEdges, e.upstreamDatasetId = 2 → e.pipelineId = 5 := by
    decide
  have hpipes : ∀ p ∈ sampleHops.pipelines, p.id = 5 → p.key ≠ "bi" := by decide
  exact hpipes p hp (hpid.trans (hall e he hleaves.1)) hkey

end Sample

end SchemaSentry
