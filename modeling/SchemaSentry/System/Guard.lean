import SchemaSentry.System.Reconciliation
import SchemaSentry.Application.ChangeService
/-!
# Schema Sentry — the guard

What `validate_pipeline` answers right after a drift scan. The changes it
lists are the OPEN and BREAKING rows whose column a chain of lineage edges
leads from to the pipeline (`mem_blocking`); after a drift scan those are
the baseline's columns that break in the observation and that the pipeline
reads, and a column a chain starts from is a dependency, so none of its
breaking differences is rated lower.
-/

namespace SchemaSentry

open Lib DbM

variable {db : DB} {source : DataSourceModel} {k : String} {observed : List ColumnDefinition}

/-! ## What blocks a pipeline -/

/-- The changes `list_open_breaking_changes_for_pipeline` returns. -/
def DB.blocking (db : DB) (pipelineKey : String) : List BlockingChange :=
  ((db.openBreakingRows.filter fun row =>
    ((LineageGraph.ofEdges db.lineage).impacts [domainChange row]).any fun impact =>
      impact.pipeline.key = pipelineKey).map blockingChange).insertionSort
    fun a b => blockingSortKey a ≤ blockingSortKey b

/-- **A registered pipeline is validated.** -/
theorem validateResult_eq (hc : db.Constraints) (hk : ∃ p ∈ db.pipelines, p.key = k) :
    validateResult k db = .ok
      { pipelineKey := k, safe := db.blocking k = [], blockingChanges := db.blocking k } := by
  obtain ⟨p, hp, hkey⟩ := hk
  have hfound : ∃ q, db.pipelines.find? (fun p => p.key = k) = some q := by
    refine Option.isSome_iff_exists.1 ?_
    rw [List.find?_isSome]
    exact ⟨p, hp, by simpa using hkey⟩
  obtain ⟨q, hq⟩ := hfound
  have hreturns : Returns (validatePipeline k) db Session.new
      { pipelineKey := k, safe := db.blocking k = [], blockingChanges := db.blocking k }
      Session.new := by
    simp only [validatePipeline, listOpenBreakingChangesForPipeline, returns_bind, returns_select]
    refine ⟨db.blocking k, Session.new, ⟨_, _, ⟨hc, rfl, rfl⟩, ?_⟩, returns_pure.2 ⟨rfl, rfl⟩⟩
    simp only [Session.new, id, hq, returns_bind, returns_select, returns_pure]
    exact ⟨_, _, ⟨hc, rfl, rfl⟩, _, _, ⟨hc, rfl, rfl⟩, rfl, rfl⟩
  rw [validateResult, hreturns]

theorem mem_openBreakingRows {row : SchemaChangeModel × DatasetModel} :
    row ∈ db.openBreakingRows ↔ row.1 ∈ db.schemaChanges ∧ row.2 ∈ db.datasets ∧
      row.2.id = row.1.datasetId ∧ row.1.state = .open ∧ row.1.severity = .breaking := by
  simp only [DB.openBreakingRows, List.mem_flatMap, List.mem_map, List.mem_filter,
    decide_eq_true_eq]
  constructor
  · rintro ⟨c, hc, d, ⟨hd, hid, hopen, hbreaking⟩, rfl⟩
    exact ⟨hc, hd, hid, hopen, hbreaking⟩
  · rintro ⟨hc, hd, hid, hopen, hbreaking⟩
    exact ⟨row.1, hc, row.2, ⟨hd, hid, hopen, hbreaking⟩, rfl⟩

/-- **What blocks a pipeline**: the OPEN and BREAKING rows of columns that a
chain of edges leads from to it. -/
theorem mem_blocking {b : BlockingChange} :
    b ∈ db.blocking k ↔ ∃ row ∈ db.schemaChanges, ∃ d ∈ db.datasets, d.id = row.datasetId ∧
      row.state = .open ∧ row.severity = .breaking ∧
      Reaches db.lineage ⟨d.ref, row.columnName⟩ k ∧ b = blockingChange (row, d) := by
  have himpacts : ∀ row : SchemaChangeModel × DatasetModel, row.1.severity = .breaking →
      (((LineageGraph.ofEdges db.lineage).impacts [domainChange row]).any
        (fun impact => impact.pipeline.key = k) = true ↔
        Reaches db.lineage ⟨row.2.ref, row.1.columnName⟩ k) := by
    intro row hbreaking
    rw [← reaches_iff, LineageGraph.impacts]
    simp [domainChange, hbreaking, SchemaChange.ref]
  simp only [DB.blocking, List.mem_insertionSort, List.mem_map, List.mem_filter,
    mem_openBreakingRows]
  constructor
  · rintro ⟨row, ⟨⟨hc, hd, hid, hopen, hbreaking⟩, himpact⟩, rfl⟩
    exact ⟨row.1, hc, row.2, hd, hid, hopen, hbreaking, (himpacts row hbreaking).1 himpact, rfl⟩
  · rintro ⟨c, hc, d, hd, hid, hopen, hbreaking, hreaches, rfl⟩
    exact ⟨(c, d), ⟨⟨hc, hd, hid, hopen, hbreaking⟩, (himpacts (c, d) hbreaking).2 hreaches⟩, rfl⟩

/-- What a blocking change is of. -/
def BlockingChange.kind (b : BlockingChange) : ColumnRef × ChangeType :=
  (⟨b.dataset, b.columnName⟩, b.changeType)

/-- A column a chain starts from is a dependency of the one source there is. -/
theorem mem_dependencies_of_reaches (hl : db.Linked) (hone : db.sources = [source])
    {ref : ColumnRef} (h : Reaches db.lineage ref k) : ref ∈ db.dependencies source.id := by
  obtain ⟨e, he, rfl⟩ := h.first
  obtain ⟨edge, hedge, p, -, up, hmem, down, -, -, hid, -, -, hup, -⟩ := mem_lineage.1 he
  obtain ⟨s, hs, hsid⟩ := hl.datasetSource up hmem
  rw [hone] at hs
  rw [List.mem_singleton.1 hs] at hsid
  exact mem_dependencies.2 ⟨edge, hedge, up, hmem, hid, hsid.symm, hup⟩

/-! ## What breaks -/

/-- How a column of the baseline breaks in an observation: it is missing,
its type changed for the worse, or it allows nulls where it did not. -/
inductive Breaks (observed : List ColumnDefinition) (x : ColumnDefinition) : ChangeType → Prop
  | missing : (∀ o ∈ observed, o.ref ≠ x.ref) → Breaks observed x .dropColumn
  | retyped {o : ColumnDefinition} : o ∈ observed → o.ref = x.ref →
      (classifyTypeChange x.dataType o.dataType).severity = .breaking →
      Breaks observed x .typeChange
  | relaxed {o : ColumnDefinition} : o ∈ observed → o.ref = x.ref → x.nullable = false →
      o.nullable = true → Breaks observed x .nullabilityChange

/-- **The breaking differences of dependencies are the columns that break.** -/
theorem exists_breaking_iff {expected : List ColumnDefinition} {dependencies : List ColumnRef}
    (he : DistinctRefs expected) (ho : DistinctRefs observed) {ref : ColumnRef}
    {type : ChangeType} (hdep : ref ∈ dependencies) :
    (∃ c ∈ diffColumns expected observed dependencies, c.severity = .breaking ∧ c.ref = ref ∧
        c.changeType = type) ↔
      ∃ x ∈ expected, x.ref = ref ∧ Breaks observed x type := by
  constructor
  · rintro ⟨c, hc, hbreaking, rfl, rfl⟩
    rcases breaking_iff.1 ⟨hc, hbreaking⟩ with ⟨b, hb, ha, -, heq⟩ | ⟨b, a, hb, ha, hsev, heq⟩ |
      ⟨b, a, hb, ha, hbn, han, -, heq⟩
    · have hbref := (mem_of_columnAt hb).2
      refine ⟨b, (mem_of_columnAt hb).1, hbref, ?_⟩
      rw [heq]
      exact .missing (hbref ▸ (columnAt_eq_none_iff ho).1 ha)
    · refine ⟨b, (mem_of_columnAt hb).1, (mem_of_columnAt hb).2, ?_⟩
      rw [heq]
      exact .retyped (mem_of_columnAt ha).1
        ((mem_of_columnAt ha).2.trans (mem_of_columnAt hb).2.symm) hsev
    · refine ⟨b, (mem_of_columnAt hb).1, (mem_of_columnAt hb).2, ?_⟩
      rw [heq]
      exact .relaxed (mem_of_columnAt ha).1
        ((mem_of_columnAt ha).2.trans (mem_of_columnAt hb).2.symm) hbn han
  · rintro ⟨x, hx, rfl, hbreaks⟩
    have hat : columnAt expected x.ref = some x := (columnAt_eq_some_iff he).2 ⟨hx, rfl⟩
    rcases hbreaks with hmissing | ⟨hmem, href, hsev⟩ | ⟨hmem, href, hxn, hon⟩
    · have hnone := (columnAt_eq_none_iff ho).2 hmissing
      obtain ⟨hc, hsev⟩ := (breaking_iff (c := .drop x dependencies)).2
        (Or.inl ⟨x, hat, hnone, hdep, rfl⟩)
      exact ⟨_, hc, hsev, rfl, rfl⟩
    · have hsome := (columnAt_eq_some_iff ho).2 ⟨hmem, href⟩
      obtain ⟨hc, hsev⟩ := (breaking_iff (c := .retype x _)).2
        (Or.inr (Or.inl ⟨x, _, hat, hsome, hsev, rfl⟩))
      exact ⟨_, hc, hsev, rfl, rfl⟩
    · have hsome := (columnAt_eq_some_iff ho).2 ⟨hmem, href⟩
      obtain ⟨hc, hsev⟩ := (breaking_iff (c := .renull x _ dependencies)).2
        (Or.inr (Or.inr ⟨x, _, hat, hsome, hxn, hon, hdep, rfl⟩))
      exact ⟨_, hc, hsev, rfl, rfl⟩

/-! ## After a drift scan -/

theorem nodup_openBreakingRows (hl : db.Linked) : db.openBreakingRows.Nodup := by
  refine List.nodup_flatMap.2 ⟨fun c _ => ?_, (List.Nodup.of_map _ hl.changeIds).imp ?_⟩
  · exact List.Nodup.map (fun d d' h => (Prod.mk.inj h).2)
      ((List.Nodup.of_map _ hl.datasetIds).filter _)
  · intro c c' hne row hrow hrow'
    obtain ⟨d, -, rfl⟩ := List.mem_map.1 hrow
    obtain ⟨d', -, heq⟩ := List.mem_map.1 hrow'
    exact hne (Prod.mk.inj heq).1.symm

section AfterDrift

variable [Hashlib]
variable {db' : DB} {changes : List SchemaChange} {scanId : Uuid} {resolvedAt : Timestamp}
variable (hwf' : db'.WellFormed) (hone : db.sources = [source])
variable (hrec : Reconciled db db' source changes scanId resolvedAt)

include hwf' hone hrec

/-- The rows of the one source there is are all the rows. -/
theorem sourceId_eq {row : SchemaChangeModel} (hrow : row ∈ db'.schemaChanges) :
    row.sourceId = source.id := by
  obtain ⟨s, _, _, hrecord⟩ := hwf'.recorded row hrow
  have hs := hrecord.source_mem
  rw [hrec.sources, hone] at hs
  rw [← hrecord.source_id, List.mem_singleton.1 hs]

/-- An OPEN row after the scan describes one of its differences. -/
theorem exists_change_of_open {row : SchemaChangeModel} (hrow : row ∈ db'.schemaChanges)
    (hopen : row.state = .open) : ∃ c ∈ changes, Describes db' source.id row c := by
  obtain ⟨rows, hperm, hall⟩ := hrec.correspondence
  exact exists_right_of_forall₂ hall
    (hperm.mem_iff.2 (mem_openRows.2 ⟨hrow, sourceId_eq hwf' hone hrec hrow, hopen⟩))

omit hone hrec in
theorem ref_of_describes {row : SchemaChangeModel} {c : SchemaChange} {d : DatasetModel}
    (hd : d ∈ db'.datasets) (hid : d.id = row.datasetId) (h : Describes db' source.id row c) :
    (⟨d.ref, row.columnName⟩ : ColumnRef) = c.ref := by
  obtain ⟨d', hd', hid', -, href⟩ := h.dataset
  rw [eq_of_nodup_map hwf'.linked.datasetIds hd hd' (hid.trans hid'.symm), href, h.columnName]
  rfl

omit [Hashlib] hwf' hone in
theorem lineage_eq : db'.lineage = db.lineage := by
  rw [DB.lineage, DB.lineage, hrec.lineage.1, hrec.lineage.2, hrec.datasets]

/-- **The blocking changes right after a drift scan** are its breaking
differences of the columns that a chain leads from to the pipeline. -/
theorem mem_blocking_kinds {ref : ColumnRef} {type : ChangeType} :
    (ref, type) ∈ (db'.blocking k).map BlockingChange.kind ↔ Reaches db.lineage ref k ∧
      ∃ c ∈ changes, c.severity = .breaking ∧ c.ref = ref ∧ c.changeType = type := by
  rw [List.mem_map, ← lineage_eq hrec]
  constructor
  · rintro ⟨b, hb, hkind⟩
    obtain ⟨row, hrow, d, hd, hid, hopen, hsev, hreaches, rfl⟩ := mem_blocking.1 hb
    obtain ⟨c, hc, hdesc⟩ := exists_change_of_open hwf' hone hrec hrow hopen
    have href := ref_of_describes hwf' hd hid hdesc
    obtain ⟨hkref, hktype⟩ := Prod.mk.inj hkind
    have hkref' : (⟨d.ref, row.columnName⟩ : ColumnRef) = ref := hkref
    refine ⟨hkref' ▸ hreaches, c, hc, hdesc.severity.symm.trans hsev, href.symm.trans hkref', ?_⟩
    exact hdesc.changeType.symm.trans hktype
  · rintro ⟨hreaches, c, hc, hsev, rfl, rfl⟩
    obtain ⟨rows, hperm, hall⟩ := hrec.correspondence
    obtain ⟨row, hrow, hdesc⟩ := exists_left_of_forall₂ hall hc
    obtain ⟨hmem, -, hopen⟩ := mem_openRows.1 (hperm.mem_iff.1 hrow)
    obtain ⟨d, hd, hid, -, -⟩ := hdesc.dataset
    have href := ref_of_describes hwf' hd hid hdesc
    refine ⟨blockingChange (row, d), mem_blocking.2 ⟨row, hmem, d, hd, hid, hopen,
      hdesc.severity.trans hsev, href ▸ hreaches, rfl⟩, ?_⟩
    exact Prod.ext href hdesc.changeType

/-- No column blocks twice in one way. -/
theorem nodup_blocking_kinds (hchanges : ∀ c ∈ changes, c.Filed)
    (hunique : ∀ c ∈ changes, ∀ c' ∈ changes, c.ref = c'.ref → c.changeType = c'.changeType →
      c = c') :
    ((db'.blocking k).map BlockingChange.kind).Nodup := by
  have hsource : source ∈ db'.sources := by
    rw [hrec.sources, hone]
    exact List.mem_cons_self
  rw [DB.blocking, ((List.perm_insertionSort _ _).map BlockingChange.kind).nodup_iff,
    List.map_map]
  refine List.Nodup.map_on (fun row hrow row' hrow' hkind => ?_)
    ((nodup_openBreakingRows hwf'.linked).filter _)
  obtain ⟨hc, hd, hid, hopen, -⟩ := mem_openBreakingRows.1 (List.mem_of_mem_filter hrow)
  obtain ⟨hc', hd', hid', hopen', -⟩ := mem_openBreakingRows.1 (List.mem_of_mem_filter hrow')
  obtain ⟨c, hcm, hdesc⟩ := exists_change_of_open hwf' hone hrec hc hopen
  obtain ⟨c', hcm', hdesc'⟩ := exists_change_of_open hwf' hone hrec hc' hopen'
  obtain ⟨hkref, hktype⟩ := Prod.mk.inj hkind
  have hcc : c = c' := by
    refine hunique c hcm c' hcm' ?_ ?_
    · exact (ref_of_describes hwf' hd hid hdesc).symm.trans
        (hkref.trans (ref_of_describes hwf' hd' hid' hdesc'))
    · exact hdesc.changeType.symm.trans (hktype.trans hdesc'.changeType)
  have hrows : row.1 = row'.1 := eq_of_describes hwf' hsource
    (mem_openRows.2 ⟨hc, sourceId_eq hwf' hone hrec hc, hopen⟩)
    (mem_openRows.2 ⟨hc', sourceId_eq hwf' hone hrec hc', hopen'⟩) hdesc (hcc ▸ hdesc')
    (hchanges c hcm)
  refine Prod.ext hrows (eq_of_nodup_map hwf'.linked.datasetIds hd hd' ?_)
  rw [hid, hid', hrows]

end AfterDrift

/-- **The guard is correct end to end.** Right after a drift scan a
registered pipeline is safe exactly when no column of the baseline that a
chain of edges leads from to it breaks in the observation, and what blocks
it are those columns, each way they break once. -/
theorem validate_after_drift [Hashlib] [Hashlib.CollisionFree]
    (hreach : db.Reachable DatasetRef.Dotless) (hone : db.sources = [source])
    (hbase : db.baseline source.id ≠ []) {req : ScanRequest}
    (hreq : (Op.scan req).Regular DatasetRef.Dotless) (hcollected : req.collected = .ok observed)
    (hdistinct : DistinctRefs observed) {report : ScanReport}
    (hscan : scanResult req db = .ok report) (hk : ∃ p ∈ db.pipelines, p.key = k) :
    ∃ v, validateResult k (postScans req db) = .ok v ∧ v.pipelineKey = k ∧
      (v.safe = true ↔ ∀ x ∈ db.baseline source.id, Reaches db.lineage x.ref k →
        ∀ type, ¬ Breaks observed x type) ∧
      (v.blockingChanges.map BlockingChange.kind).Nodup ∧
      (∀ ref type, (ref, type) ∈ v.blockingChanges.map BlockingChange.kind ↔
        ∃ x ∈ db.baseline source.id, x.ref = ref ∧ Reaches db.lineage x.ref k ∧
          Breaks observed x type) ∧
      ∀ b ∈ v.blockingChanges, b.severity = .breaking ∧
        ∃ row ∈ (postScans req db).openRows source.id, row.id = b.id := by
  have hwf := hreach.wellFormed
  have hwf' : (postScans req db).WellFormed := hwf.apply hreq
  have hsource : source ∈ db.sources := by
    rw [hone]
    exact List.mem_cons_self
  have hrec : Reconciled db (postScans req db) source
      (diffColumns (db.baseline source.id) observed (db.dependencies source.id)) db.nextId
      req.finishedAt := by
    have heff := scanEffect hwf hreq.1
    rw [hscan] at heff
    generalize postScans req db = after at heff hwf' ⊢
    rcases heff with _ | _ | ⟨hof, -, -, hempty, -⟩ | ⟨hof, hcol, -, -, hin, -⟩
    all_goals
      obtain ⟨hmem, -⟩ := mem_of_sourceOf? hof
      rw [hone, List.mem_singleton] at hmem
      subst hmem
    · exact absurd hempty hbase
    · cases hcollected.symm.trans hcol
      exact drifted_reconciled hwf hreach.names (hreq.2 _ hcollected) hsource hin hwf'
  have hpipelines : ∃ p ∈ (postScans req db).pipelines, p.key = k := by
    rw [hrec.lineage.1]
    exact hk
  have hkinds : ∀ ref type,
      (ref, type) ∈ ((postScans req db).blocking k).map BlockingChange.kind ↔
        ∃ x ∈ db.baseline source.id, x.ref = ref ∧ Reaches db.lineage x.ref k ∧
          Breaks observed x type := by
    intro ref type
    rw [mem_blocking_kinds hwf' hone hrec]
    constructor
    · rintro ⟨hreaches, hex⟩
      have hdep := mem_dependencies_of_reaches hwf.linked hone hreaches
      obtain ⟨x, hx, rfl, hbreaks⟩ := (exists_breaking_iff
        (distinctRefs_baseline hwf.linked hwf.constraints source.id) hdistinct hdep).1 hex
      exact ⟨x, hx, rfl, hreaches, hbreaks⟩
    · rintro ⟨x, hx, rfl, hreaches, hbreaks⟩
      have hdep := mem_dependencies_of_reaches hwf.linked hone hreaches
      exact ⟨hreaches, (exists_breaking_iff
        (distinctRefs_baseline hwf.linked hwf.constraints source.id) hdistinct hdep).2
        ⟨x, hx, rfl, hbreaks⟩⟩
  refine ⟨_, validateResult_eq hwf'.constraints hpipelines, rfl, ?_, ?_, hkinds, ?_⟩
  · simp only [decide_eq_true_eq]
    constructor
    · intro hempty x hx hreaches type hbreaks
      have hmem := (hkinds x.ref type).2 ⟨x, hx, rfl, hreaches, hbreaks⟩
      rw [hempty] at hmem
      cases hmem
    · intro hsafe
      refine List.eq_nil_iff_forall_not_mem.2 fun b hb => ?_
      obtain ⟨x, hx, -, hreaches, hbreaks⟩ :=
        (hkinds b.kind.1 b.kind.2).1 (List.mem_map_of_mem hb)
      exact hsafe x hx hreaches _ hbreaks
  · exact nodup_blocking_kinds hwf' hone hrec (fun c hc => filed_of_mem_diffColumns hc)
      fun c hc c' hc' => eq_of_mem_diffColumns hc hc'
  · intro b hb
    obtain ⟨row, hrow, d, -, -, hopen, hsev, -, rfl⟩ := mem_blocking.1 hb
    exact ⟨hsev, row, mem_openRows.2 ⟨hrow, sourceId_eq hwf' hone hrec hrow, hopen⟩, rfl⟩

section Sample

attribute [local instance] Hashlib.plain

/-- In the sample the scan that misses the column makes the pipeline that
reads it unsafe. -/
theorem validate_after_drift_sample :
    ∃ v, validateResult "etl" (postScans sampleLoss sampleTables) = .ok v ∧
      (v.safe = true ↔ ∀ x ∈ sampleTables.baseline 0, Reaches sampleTables.lineage x.ref "etl" →
        ∀ type, ¬ Breaks [sampleColumn "mart" "id" "integer" false] x type) := by
  have := Hashlib.collisionFree_plain
  have hone : sampleTables.sources = [{ id := 0, key := "crm" }] := by decide +kernel
  have hbase : sampleTables.baseline 0 ≠ [] := by decide +kernel
  have hk : ∃ p ∈ sampleTables.pipelines, p.key = "etl" := by decide +kernel
  have hscan : scanResult sampleLoss sampleTables = .ok sampleLossReport := by decide +kernel
  obtain ⟨v, hv, -, hsafe, -⟩ := validate_after_drift sampleTables_reachable hone hbase
    (sampleScan_regular (by decide)) rfl (by decide) hscan hk
  exact ⟨v, hv, hsafe⟩

end Sample

end SchemaSentry
