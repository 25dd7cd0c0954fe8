import SchemaSentry.System.Guard
/-!
# Schema Sentry — sources beside one another

Whether drift in one source can block a pipeline that reads other sources
only. The tables tell datasets apart by source, schema and table, but the
lineage graph by schema and table: a change counts for every chain of
edges out of a column of its dataset's name, whosever the dataset is
(`isolated_iff`).
-/

namespace SchemaSentry

open Lib

/-! ## What a pipeline reads -/

/-- A dataset's column feeds a pipeline: an edge of the pipeline starts in
it, or an edge leads from it to a column that does. -/
inductive DB.Feeds (db : DB) (pipelineKey : String) : Uuid → String → Prop
  | direct {e : LineageEdgeModel} {p : PipelineModel} : e ∈ db.lineageEdges → p ∈ db.pipelines →
      p.id = e.pipelineId → p.key = pipelineKey →
      db.Feeds pipelineKey e.upstreamDatasetId e.upstreamColumn
  | through {e : LineageEdgeModel} : e ∈ db.lineageEdges →
      db.Feeds pipelineKey e.downstreamDatasetId e.downstreamColumn →
      db.Feeds pipelineKey e.upstreamDatasetId e.upstreamColumn

/-- All transitive upstream datasets of a pipeline are of other sources. -/
def DB.ReadsOthers (db : DB) (sourceId : Uuid) (pipelineKey : String) : Prop :=
  ∀ d ∈ db.datasets, ∀ name, db.Feeds pipelineKey d.id name → d.sourceId ≠ sourceId

/-- Two states of the tables that differ in a source's change rows at most. -/
structure DB.SameButChanges (sourceId : Uuid) (db db' : DB) : Prop where
  sources : db'.sources = db.sources
  datasets : db'.datasets = db.datasets
  expectedColumns : db'.expectedColumns = db.expectedColumns
  scanRuns : db'.scanRuns = db.scanRuns
  observedColumns : db'.observedColumns = db.observedColumns
  pipelines : db'.pipelines = db.pipelines
  lineageEdges : db'.lineageEdges = db.lineageEdges
  alertDeliveries : db'.alertDeliveries = db.alertDeliveries
  others : ∀ row : SchemaChangeModel, row.sourceId ≠ sourceId →
    (row ∈ db'.schemaChanges ↔ row ∈ db.schemaChanges)

/-- A chain that leads to a pipeline ends in an edge of a registered one. -/
theorem exists_pipeline_of_reaches {db : DB} {ref : ColumnRef} {k : String}
    (h : Reaches db.lineage ref k) : ∃ p ∈ db.pipelines, p.key = k := by
  obtain ⟨last, hlast, hkey⟩ := h.last
  obtain ⟨_, -, p, hp, _, -, _, -, -, -, -, hpipe, -, -⟩ := mem_lineage.1 hlast
  exact ⟨p, hp, by rw [← hkey, hpipe]; rfl⟩

/-! ## The answer is a set's -/

/-- Blocking changes of one sort key are one change. -/
theorem eq_of_blockingSortKey {db : DB} {k : String} (hl : db.Linked) {a b : BlockingChange}
    (ha : a ∈ db.blocking k) (hb : b ∈ db.blocking k)
    (h : blockingSortKey a = blockingSortKey b) : a = b := by
  obtain ⟨row, hrow, d, hd, hid, -, -, -, rfl⟩ := mem_blocking.1 ha
  obtain ⟨row', hrow', d', hd', hid', -, -, -, rfl⟩ := mem_blocking.1 hb
  have hids : row.id = row'.id := by
    simp only [blockingSortKey, EmbeddingLike.apply_eq_iff_eq, Prod.mk.injEq] at h
    have hrepr : row.id.repr = row'.id.repr := h.2.2.2
    exact Json.toDigits_inj (by rw [← Nat.toList_repr, hrepr, Nat.toList_repr])
  have hrows : row = row' := eq_of_nodup_map hl.changeIds hrow hrow' hids
  subst hrows
  rw [eq_of_nodup_map hl.datasetIds hd hd' (hid.trans hid'.symm)]

theorem nodup_blocking {db : DB} {k : String} (hl : db.Linked) : (db.blocking k).Nodup := by
  rw [DB.blocking, (List.perm_insertionSort _ _).nodup_iff]
  refine List.Nodup.map_on (fun row hrow row' hrow' heq => ?_)
    ((nodup_openBreakingRows hl).filter _)
  obtain ⟨hc, hd, hid, -, -⟩ := mem_openBreakingRows.1 (List.mem_of_mem_filter hrow)
  obtain ⟨hc', hd', hid', -, -⟩ := mem_openBreakingRows.1 (List.mem_of_mem_filter hrow')
  have hrows : row.1 = row'.1 :=
    eq_of_nodup_map hl.changeIds hc hc' (congrArg BlockingChange.id heq)
  refine Prod.ext hrows (eq_of_nodup_map hl.datasetIds hd hd' ?_)
  rw [hid, hid', hrows]

/-- **The same changes block in the same order.** -/
theorem blocking_eq {db db' : DB} {k : String} (hl : db.Linked) (hl' : db'.Linked)
    (h : ∀ b, b ∈ db'.blocking k ↔ b ∈ db.blocking k) : db'.blocking k = db.blocking k := by
  have hsorted : ∀ db : DB, (db.blocking k).Pairwise
      fun a b => blockingSortKey a ≤ blockingSortKey b := by
    intro db
    have : Std.Total fun a b : BlockingChange => blockingSortKey a ≤ blockingSortKey b :=
      ⟨fun _ _ => le_total _ _⟩
    have : IsTrans BlockingChange fun a b => blockingSortKey a ≤ blockingSortKey b :=
      ⟨fun _ _ _ => le_trans⟩
    exact List.pairwise_insertionSort _ _
  refine List.Perm.eq_of_pairwise (fun a b ha hb hab hba => ?_) (hsorted db') (hsorted db)
    ((List.perm_ext_iff_of_nodup (nodup_blocking hl') (nodup_blocking hl)).2 h)
  exact eq_of_blockingSortKey hl ((h a).1 ha) hb (le_antisymm hab hba)

/-- A pipeline that is not registered is not found. -/
theorem validateResult_unknown {db : DB} {k : String} (hc : db.Constraints)
    (hk : ¬ ∃ p ∈ db.pipelines, p.key = k) :
    validateResult k db = .error (.lookupError ("pipeline not found: " ++ k)) := by
  have hnone : db.pipelines.find? (fun p => p.key = k) = none := by
    rw [List.find?_eq_none]
    intro p hp hkey
    exact hk ⟨p, hp, by simpa using hkey⟩
  rw [validateResult, validatePipeline, DbM.exec_bind, listOpenBreakingChangesForPipeline,
    DbM.exec_bind, DbM.exec_select, if_pos (by exact hc)]
  simp only [Session.new, id, hnone, DbM.exec_raise]

/-! ## A source's drift -/

section Drift

variable [Hashlib]

/-- Drift in a source changes no answer about a pipeline that reads other
sources only. -/
def DB.Isolated (db : DB) (sourceId : Uuid) (pipelineKey : String) : Prop :=
  db.ReadsOthers sourceId pipelineKey → ∀ db' : DB, db'.WellFormed →
    db.SameButChanges sourceId db' → validateResult pipelineKey db' = validateResult pipelineKey db

/-- The tables without a source's change rows. -/
def DB.withoutChanges (sourceId : Uuid) (db : DB) : DB :=
  { db with schemaChanges := db.schemaChanges.filter fun row => row.sourceId ≠ sourceId }

/-- The removal of a column something depends on. -/
def lossOf (d : DatasetModel) (name : String) : SchemaChange :=
  .drop { dataset := d.ref, name := name, dataType := { name := "integer" }, nullable := false
          default := none } [⟨d.ref, name⟩]

/-- The tables with that removal as the source's only change row. -/
def DB.withLoss (scanId : Uuid) (source : DataSourceModel) (d : DatasetModel) (name : String)
    (db : DB) : DB :=
  (db.withoutChanges source.id).addSchemaChange
    (changeRow scanId source d.id (changeFingerprint source.key (lossOf d name)) (lossOf d name))

variable {db db' : DB} {source : DataSourceModel} {d : DatasetModel} {name k : String}
variable {scanId : Uuid}

omit [Hashlib] in
theorem genuine_lossOf : (lossOf d name).Genuine := by
  refine ⟨⟨fun b hb => ?_, fun a ha => nomatch ha⟩, [⟨d.ref, name⟩], ?_⟩
  · cases hb
    rfl
  · exact List.mem_singleton.2 (by rfl)

omit [Hashlib] in
theorem severity_lossOf : (lossOf d name).severity = .breaking := by
  simp [lossOf, SchemaChange.drop, ColumnDefinition.ref]

theorem withoutChanges_wellFormed (hwf : db.WellFormed) (sourceId : Uuid) :
    (db.withoutChanges sourceId).WellFormed := by
  have hsub : ((db.withoutChanges sourceId).schemaChanges).Sublist db.schemaChanges :=
    List.filter_sublist
  refine ⟨{ hwf.constraints with openFingerprint := ?_, changeLengths := ?_ },
    { hwf.linked with changeIds := ?_, changeFresh := ?_ }, { hwf.lineage with }, ?_⟩
  · exact hwf.constraints.openFingerprint.sublist ((hsub.filter _).map _)
  · exact fun c hc => hwf.constraints.changeLengths c (hsub.subset hc)
  · exact hwf.linked.changeIds.sublist (hsub.map _)
  · exact fun c hc => hwf.linked.changeFresh c (hsub.subset hc)
  · intro row hrow
    obtain ⟨s, dataset, c, hrec⟩ := hwf.recorded row (hsub.subset hrow)
    exact ⟨s, dataset, c, { hrec with }⟩

/-- **The loss of a column is a state of the tables.** -/
theorem withLoss_wellFormed (hwf : db.WellFormed) (hs : source ∈ db.sources)
    (hd : d ∈ db.datasets) (howner : d.sourceId = source.id) (hname : fits 63 name) :
    (db.withLoss scanId source d name).WellFormed := by
  have hwf' := withoutChanges_wellFormed hwf source.id
  have hothers : ∀ row ∈ (db.withoutChanges source.id).schemaChanges,
      row.sourceId ≠ source.id := by
    intro row hrow
    simpa using (List.mem_filter.1 hrow).2
  have hl := hwf'.linked
  have hle : ∀ {n : ℕ}, n < (db.withoutChanges source.id).nextId →
      n < (db.withoutChanges source.id).nextId + 1 := fun h => Nat.lt_succ_of_lt h
  refine ⟨{ hwf'.constraints with openFingerprint := ?_, changeLengths := ?_ },
    { hl with
      sourceFresh := fun s hs => hle (hl.sourceFresh s hs)
      datasetFresh := fun d hd => hle (hl.datasetFresh d hd)
      scanFresh := fun s hs => hle (hl.scanFresh s hs)
      observedFresh := fun o ho => hle (hl.observedFresh o ho)
      deliveryFresh := fun d hd => hle (hl.deliveryFresh d hd)
      changeIds := ?_
      changeFresh := ?_ }, { hwf'.lineage with }, ?_⟩
  · -- the source has no other OPEN row
    simp only [DB.openFingerprints, DB.withLoss, DB.addSchemaChange, List.filter_append,
      List.map_append]
    refine List.Nodup.append hwf'.constraints.openFingerprint (by simp [changeRow]) ?_
    intro pair hpair hnew
    obtain ⟨row, hrow, rfl⟩ := List.mem_map.1 hpair
    obtain ⟨new, hnew, heq⟩ := List.mem_map.1 hnew
    obtain rfl := List.mem_singleton.1 (List.mem_of_mem_filter hnew)
    exact hothers row (List.mem_of_mem_filter hrow) (Prod.mk.inj heq).1.symm
  · intro c hc
    rcases List.mem_append.1 hc with hold | hnew
    · exact hwf'.constraints.changeLengths c hold
    · rw [List.mem_singleton.1 hnew]
      exact hname
  · refine nodup_map_append hl.changeIds (by simp) hl.changeFresh fun c hc => ?_
    rw [List.mem_singleton.1 hc]
  · intro c hc
    rcases List.mem_append.1 hc with hold | hnew
    · exact hle (hl.changeFresh c hold)
    · rw [List.mem_singleton.1 hnew]
      exact Nat.lt_succ_self _
  · intro row hrow
    rcases List.mem_append.1 hrow with hold | hnew
    · obtain ⟨s, dataset, c, hrec⟩ := hwf'.recorded row hold
      exact ⟨s, dataset, c, { hrec with }⟩
    · rw [List.mem_singleton.1 hnew]
      exact ⟨source, d, lossOf d name, ⟨hs, rfl, hd, rfl, howner, rfl, rfl, rfl, rfl, rfl, rfl,
        rfl, genuine_lossOf⟩⟩

omit [Hashlib] in
theorem withoutChanges_same (sourceId : Uuid) :
    db.SameButChanges sourceId (db.withoutChanges sourceId) := by
  refine ⟨rfl, rfl, rfl, rfl, rfl, rfl, rfl, rfl, fun row hrow => ?_⟩
  simp [DB.withoutChanges, hrow]

theorem withLoss_same : db.SameButChanges source.id (db.withLoss scanId source d name) := by
  refine ⟨rfl, rfl, rfl, rfl, rfl, rfl, rfl, rfl, fun row hrow => ?_⟩
  refine Iff.trans ?_ ((withoutChanges_same source.id).others row hrow)
  constructor
  · intro hmem
    rcases List.mem_append.1 hmem with hold | hnew
    · exact hold
    · rw [List.mem_singleton.1 hnew] at hrow
      exact absurd rfl hrow
  · exact fun hmem => List.mem_append_left _ hmem

/-- **The loss of a column blocks the pipelines its name leads to**, and
nothing blocks them without it. -/
theorem blocking_withLoss (hwf : db.WellFormed) (hd : d ∈ db.datasets)
    (hreaches : Reaches db.lineage ⟨d.ref, name⟩ k) (scanId : Uuid) (source : DataSourceModel) :
    (∃ b ∈ (db.withLoss scanId source d name).blocking k, b.id = db.nextId) ∧
      ∀ b ∈ (db.withoutChanges source.id).blocking k, b.id ≠ db.nextId := by
  constructor
  · refine ⟨_, mem_blocking.2 ⟨_, List.mem_append_right _ (List.mem_singleton.2 rfl), d, hd, rfl,
      rfl, severity_lossOf, hreaches, rfl⟩, rfl⟩
  · intro b hb heq
    obtain ⟨row, hrow, dataset, -, -, -, -, -, rfl⟩ := mem_blocking.1 hb
    have hlt := hwf.linked.changeFresh row (List.mem_of_mem_filter hrow)
    have heq' : row.id = db.nextId := heq
    rw [heq'] at hlt
    exact absurd hlt (Nat.lt_irrefl _)

/-- Where no column of the source's datasets is named like one a chain
leads from to the pipeline, its drift blocks nothing. -/
theorem blocking_of_same (hwf : db.WellFormed) (hwf' : db'.WellFormed) {sourceId : Uuid}
    (hsame : db.SameButChanges sourceId db')
    (hnone : ∀ d ∈ db.datasets, d.sourceId = sourceId → ∀ name,
      ¬ Reaches db.lineage ⟨d.ref, name⟩ k) : db'.blocking k = db.blocking k := by
  have hlineage : db'.lineage = db.lineage := by
    rw [DB.lineage, DB.lineage, hsame.lineageEdges, hsame.pipelines, hsame.datasets]
  -- a row that counts is of another source
  have hother : ∀ {db₀ : DB}, db₀.WellFormed → db₀.datasets = db.datasets →
      ∀ row ∈ db₀.schemaChanges, ∀ d ∈ db.datasets, d.id = row.datasetId →
      Reaches db.lineage ⟨d.ref, row.columnName⟩ k → row.sourceId ≠ sourceId := by
    intro db₀ hwf₀ hdatasets row hrow d hd hid hreaches hsource
    obtain ⟨s, dataset, c, hrec⟩ := hwf₀.recorded row hrow
    have hmem : dataset ∈ db.datasets := hdatasets ▸ hrec.dataset_mem
    obtain rfl : dataset = d :=
      eq_of_nodup_map hwf.linked.datasetIds hmem hd (hrec.dataset_id.trans hid.symm)
    exact hnone dataset hd ((hrec.owner.trans hrec.source_id).trans hsource) _ hreaches
  refine blocking_eq hwf.linked hwf'.linked fun b => ?_
  rw [mem_blocking, mem_blocking, hlineage, hsame.datasets]
  constructor
  · rintro ⟨row, hrow, d, hd, hid, hopen, hsev, hreaches, rfl⟩
    have hne := hother hwf' hsame.datasets row hrow d hd hid hreaches
    exact ⟨row, (hsame.others row hne).1 hrow, d, hd, hid, hopen, hsev, hreaches, rfl⟩
  · rintro ⟨row, hrow, d, hd, hid, hopen, hsev, hreaches, rfl⟩
    have hne := hother hwf rfl row hrow d hd hid hreaches
    exact ⟨row, (hsame.others row hne).2 hrow, d, hd, hid, hopen, hsev, hreaches, rfl⟩

/-- **Drift in a source leaves a pipeline that reads other sources alone**
exactly where none of the source's columns is named, by schema, table and
column, like one that a chain of edges leads from to the pipeline. -/
theorem isolated_iff (hwf : db.WellFormed) {sourceId : Uuid} :
    db.Isolated sourceId k ↔ (db.ReadsOthers sourceId k → ∀ d ∈ db.datasets,
      d.sourceId = sourceId → ∀ name, ¬ Reaches db.lineage ⟨d.ref, name⟩ k) := by
  constructor
  · intro hiso hreads d hd howner name hreaches
    have hk := exists_pipeline_of_reaches hreaches
    obtain ⟨source, hs, hsid⟩ := hwf.linked.datasetSource d hd
    obtain rfl : source.id = sourceId := hsid.trans howner
    have hname : fits 63 name := by
      obtain ⟨e, he, hup⟩ := hreaches.first
      obtain ⟨edge, hedge, _, -, _, -, _, -, -, -, -, -, heup, -⟩ := mem_lineage.1 he
      have heq : edge.upstreamColumn = name := congrArg ColumnRef.name (heup.symm.trans hup)
      exact heq ▸ (hwf.constraints.lineageLengths edge hedge).1
    have hwf₀ := withoutChanges_wellFormed hwf source.id
    have hwf₁ : (db.withLoss 0 source d name).WellFormed :=
      withLoss_wellFormed hwf hs hd howner hname
    have heq := (hiso hreads _ hwf₁ withLoss_same).trans
      (hiso hreads _ hwf₀ (withoutChanges_same _)).symm
    rw [validateResult_eq hwf₁.constraints hk, validateResult_eq hwf₀.constraints hk] at heq
    have hblocking := congrArg PipelineValidation.blockingChanges (Except.ok.inj heq)
    obtain ⟨⟨b, hb, hid⟩, hnot⟩ := blocking_withLoss hwf hd hreaches 0 source
    simp only at hblocking
    exact hnot b (hblocking ▸ hb) hid
  · intro hcond hreads db' hwf' hsame
    by_cases hk : ∃ p ∈ db.pipelines, p.key = k
    · have hk' : ∃ p ∈ db'.pipelines, p.key = k := by
        rw [hsame.pipelines]
        exact hk
      rw [validateResult_eq hwf.constraints hk, validateResult_eq hwf'.constraints hk',
        blocking_of_same hwf hwf' hsame (hcond hreads)]
    · have hk' : ¬ ∃ p ∈ db'.pipelines, p.key = k := by
        rw [hsame.pipelines]
        exact hk
      rw [validateResult_unknown hwf.constraints hk, validateResult_unknown hwf'.constraints hk']

end Drift

section Sample

attribute [local instance] Hashlib.plain

/-- Two sources, each with a table `public.users`: the pipeline reads that
of the first, and only the name of the second's. -/
def sampleNamesakes : DB :=
  { sources := [{ id := 0, key := "crm" }, { id := 1, key := "erp" }]
    datasets := [⟨3, 0, "public", "users"⟩, ⟨4, 0, "public", "mart"⟩, ⟨7, 1, "public", "users"⟩]
    expectedColumns := [expectedRow 3 (sampleColumn "users" "id" "integer" false),
      expectedRow 4 (sampleColumn "mart" "id" "integer" false),
      expectedRow 7 (sampleColumn "users" "id" "integer" false)]
    scanRuns := [⟨2, 0, .manual, .completed, 0, some 0, some 0, none, none⟩,
      ⟨6, 1, .manual, .completed, 0, some 0, some 0, none, none⟩]
    pipelines := [⟨5, "etl", "etl", "data", .high⟩]
    lineageEdges := [⟨5, 3, "id", 4, "id"⟩]
    nextId := 8 }

/-- The second source and its table. -/
def sampleNamesake : DataSourceModel × DatasetModel :=
  ({ id := 1, key := "erp" }, ⟨7, 1, "public", "users"⟩)

theorem sampleNamesakes_wellFormed : sampleNamesakes.WellFormed := by
  refine ⟨by decide, ⟨by decide, by decide, by decide, by decide, by decide, by decide,
    fun c hc => ?_, by decide, by decide, by decide, by decide, by decide, by decide⟩,
    ⟨by decide, by decide, by decide, by decide⟩, fun row hrow => nomatch hrow⟩
  simp only [sampleNamesakes, List.mem_cons, List.not_mem_nil, or_false] at hc
  rcases hc with rfl | rfl | rfl <;> exact ⟨_, rfl⟩

theorem sampleNamesakes_reads : sampleNamesakes.ReadsOthers 1 "etl" := by
  intro d hd name hfeeds
  have hthree : ∀ e ∈ sampleNamesakes.lineageEdges, e.upstreamDatasetId = 3 := by decide
  have hid : d.id = 3 := by
    generalize d.id = id at hfeeds
    rcases hfeeds with ⟨he, -, -, -⟩ | ⟨he, -⟩
    · exact hthree _ he
    · exact hthree _ he
  have hsource : ∀ d ∈ sampleNamesakes.datasets, d.id = 3 → d.sourceId ≠ 1 := by decide
  exact hsource d hd hid

theorem sampleNamesakes_reaches :
    Reaches sampleNamesakes.lineage ⟨⟨"public", "users"⟩, "id"⟩ "etl" :=
  ⟨[], _, ⟨List.mem_cons_self, rfl, trivial⟩, rfl⟩

/-- **A namesake's drift blocks**: the two states differ in the second
source's change rows alone, the pipeline reads the first source alone, and
it is safe in one of them and blocked in the other. -/
theorem namesake_blocks :
    sampleNamesakes.WellFormed ∧ sampleNamesakes.ReadsOthers 1 "etl" ∧
      (sampleNamesakes.withLoss 6 sampleNamesake.1 sampleNamesake.2 "id").WellFormed ∧
      sampleNamesakes.SameButChanges 1
        (sampleNamesakes.withLoss 6 sampleNamesake.1 sampleNamesake.2 "id") ∧
      (∃ v, validateResult "etl" sampleNamesakes = .ok v ∧ v.safe = true) ∧
      ∃ v, validateResult "etl"
        (sampleNamesakes.withLoss 6 sampleNamesake.1 sampleNamesake.2 "id") = .ok v ∧
        v.safe = false := by
  have hwf := sampleNamesakes_wellFormed
  have hd : sampleNamesake.2 ∈ sampleNamesakes.datasets := by decide
  have hk : ∃ p ∈ sampleNamesakes.pipelines, p.key = "etl" := by decide
  have hwf' : (sampleNamesakes.withLoss 6 sampleNamesake.1 sampleNamesake.2 "id").WellFormed :=
    withLoss_wellFormed hwf (by decide) hd rfl (by decide)
  have hsame : sampleNamesakes.SameButChanges sampleNamesake.1.id
      (sampleNamesakes.withLoss 6 sampleNamesake.1 sampleNamesake.2 "id") := withLoss_same
  refine ⟨hwf, sampleNamesakes_reads, hwf', hsame,
    ⟨_, validateResult_eq hwf.constraints hk, ?_⟩, _, validateResult_eq hwf'.constraints hk, ?_⟩
  · have hempty : sampleNamesakes.blocking "etl" = [] := by
      refine List.eq_nil_iff_forall_not_mem.2 fun b hb => ?_
      obtain ⟨row, hrow, -⟩ := mem_blocking.1 hb
      cases hrow
    exact decide_eq_true hempty
  · obtain ⟨⟨b, hb, -⟩, -⟩ := blocking_withLoss hwf hd sampleNamesakes_reaches 6 sampleNamesake.1
    have hne : (sampleNamesakes.withLoss 6 sampleNamesake.1 sampleNamesake.2 "id").blocking
        "etl" ≠ [] := List.ne_nil_of_mem hb
    exact decide_eq_false hne

/-- The sources of the sample are not isolated. -/
theorem isolated_iff_namesakes : ¬ sampleNamesakes.Isolated 1 "etl" := by
  intro hiso
  exact (isolated_iff sampleNamesakes_wellFormed).1 hiso sampleNamesakes_reads sampleNamesake.2
    (by decide) rfl "id" sampleNamesakes_reaches

end Sample

end SchemaSentry
