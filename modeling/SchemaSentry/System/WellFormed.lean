import SchemaSentry.Lib.Rows
import SchemaSentry.Store.TableEffects
/-!
# Schema Sentry — well-formed tables

What the constraints do not say but the repositories keep: primary keys
are distinct and below the next one, rows refer to rows there are, a
baseline row's type is a type's dictionary, and a change row is the record
of one change under its source's key. With it the baseline read from the
rows is a list of distinct columns (`mem_baseline`, `distinctRefs_baseline`)
and the dictionaries of the repositories look their rows up.
-/

namespace SchemaSentry

open Lib

/-! ## Change rows -/

/-- A change the diff lists of a column: filed under it, and what its two
definitions contribute. -/
structure SchemaChange.Genuine (c : SchemaChange) : Prop where
  filed : c.Filed
  listed : ∃ dependencies, c ∈ compareColumn c.ref c.before c.after dependencies

section Records

variable [Hashlib]

/-- A row records a change of a source in one of its datasets. -/
structure Records (db : DB) (row : SchemaChangeModel) (source : DataSourceModel)
    (dataset : DatasetModel) (c : SchemaChange) : Prop where
  source_mem : source ∈ db.sources
  source_id : source.id = row.sourceId
  dataset_mem : dataset ∈ db.datasets
  dataset_id : dataset.id = row.datasetId
  owner : dataset.sourceId = source.id
  ref : dataset.ref = c.dataset
  columnName : row.columnName = c.columnName
  changeType : row.changeType = c.changeType
  severity : row.severity = c.severity
  fingerprint : row.fingerprint = changeFingerprint source.key c
  before : row.beforeJson = c.before.map ColumnDefinition.toCanonicalDict
  after : row.afterJson = c.after.map ColumnDefinition.toCanonicalDict
  genuine : c.Genuine

end Records

/-! ## The invariant -/

/-- Keys are distinct and below the next one, and rows refer to rows. -/
structure DB.Linked (db : DB) : Prop where
  sourceIds : (db.sources.map DataSourceModel.id).Nodup
  sourceFresh : ∀ s ∈ db.sources, s.id < db.nextId
  datasetIds : (db.datasets.map DatasetModel.id).Nodup
  datasetFresh : ∀ d ∈ db.datasets, d.id < db.nextId
  datasetSource : ∀ d ∈ db.datasets, ∃ s ∈ db.sources, s.id = d.sourceId
  expectedDataset : ∀ c ∈ db.expectedColumns, ∃ d ∈ db.datasets, d.id = c.datasetId
  expectedTyped : ∀ c ∈ db.expectedColumns, ∃ type : CanonicalType,
    c.dataTypeJson = type.toCanonicalDict
  scanIds : (db.scanRuns.map ScanRunModel.id).Nodup
  scanFresh : ∀ s ∈ db.scanRuns, s.id < db.nextId
  observedFresh : ∀ c ∈ db.observedColumns, c.scanId < db.nextId
  changeIds : (db.schemaChanges.map SchemaChangeModel.id).Nodup
  changeFresh : ∀ c ∈ db.schemaChanges, c.id < db.nextId
  deliveryFresh : ∀ d ∈ db.alertDeliveries, d.scanId < db.nextId

/-- The stored catalog's keys are distinct and its edges refer to rows. -/
structure DB.LineageLinked (db : DB) : Prop where
  pipelineIds : (db.pipelines.map PipelineModel.id).Nodup
  edgePipeline : ∀ e ∈ db.lineageEdges, ∃ p ∈ db.pipelines, p.id = e.pipelineId
  edgeUpstream : ∀ e ∈ db.lineageEdges, ∃ d ∈ db.datasets, d.id = e.upstreamDatasetId
  edgeDownstream : ∀ e ∈ db.lineageEdges, ∃ d ∈ db.datasets, d.id = e.downstreamDatasetId

/-- **Well-formed tables.** -/
structure DB.WellFormed [Hashlib] (db : DB) : Prop where
  constraints : db.Constraints
  linked : db.Linked
  lineage : db.LineageLinked
  recorded : ∀ row ∈ db.schemaChanges, ∃ source dataset c, Records db row source dataset c

variable {db : DB} {sourceId : Uuid}

/-! ## Datasets -/

/-- A source's datasets have distinct references. -/
theorem nodup_refs (hc : db.Constraints) (sourceId : Uuid) :
    ((db.datasets.filter fun d => d.sourceId = sourceId).map DatasetModel.ref).Nodup := by
  refine List.Nodup.map_on ?_ ((List.Nodup.of_map _ hc.datasetIdentity).filter _)
  intro d hd d' hd' href
  obtain ⟨hmem, hs⟩ := List.mem_filter.1 hd
  obtain ⟨hmem', hs'⟩ := List.mem_filter.1 hd'
  refine eq_of_nodup_map hc.datasetIdentity hmem hmem' ?_
  simp only [decide_eq_true_eq] at hs hs'
  simp only [DatasetModel.ref, DatasetRef.mk.injEq] at href
  simp [hs, hs', href]

/-- **`datasets.get(ref)` is the source's dataset of that reference.** -/
theorem get?_datasetsByRef (hc : db.Constraints) {ref : DatasetRef} {d : DatasetModel} :
    Dict.get? ref (db.datasetsByRef sourceId) = some d ↔
      d ∈ db.datasets ∧ d.sourceId = sourceId ∧ d.ref = ref := by
  rw [DB.datasetsByRef, Dict.get?_ofItems_map (nodup_refs hc sourceId), List.mem_filter]
  simp [and_assoc]

theorem mem_keys_datasetsByRef (hc : db.Constraints) {ref : DatasetRef} :
    ref ∈ Dict.keys (db.datasetsByRef sourceId) ↔
      ∃ d ∈ db.datasets, d.sourceId = sourceId ∧ d.ref = ref := by
  constructor
  · intro h
    by_contra hnone
    refine absurd h (Dict.get?_eq_none_iff.1 ?_)
    cases hget : Dict.get? ref (db.datasetsByRef sourceId) with
    | none => rfl
    | some d =>
      obtain ⟨hd, hs, hr⟩ := (get?_datasetsByRef hc).1 hget
      exact absurd ⟨d, hd, hs, hr⟩ hnone
  · rintro ⟨d, hd, hs, hr⟩
    by_contra hnot
    have := (get?_datasetsByRef hc).2 ⟨hd, hs, hr⟩
    rw [Dict.get?_eq_none_iff.2 hnot] at this
    cases this

/-! ## OPEN rows -/

/-- A source's OPEN rows have distinct fingerprints. -/
theorem nodup_openFingerprints (hc : db.Constraints) (sourceId : Uuid) :
    ((db.openRows sourceId).map SchemaChangeModel.fingerprint).Nodup := by
  have hopen : (db.openRows sourceId).Sublist
      (db.schemaChanges.filter fun c => c.state = .open) := by
    have heq : db.openRows sourceId =
        (db.schemaChanges.filter fun c => c.state = .open).filter
          fun c => c.sourceId = sourceId := by
      rw [List.filter_filter, DB.openRows]
      simp
    rw [heq]
    exact List.filter_sublist
  have hpairs : ((db.openRows sourceId).map fun c => (c.sourceId, c.fingerprint)).Nodup :=
    List.Nodup.sublist (hopen.map _) hc.openFingerprint
  refine List.Nodup.map_on ?_ (List.Nodup.of_map _ hpairs)
  intro c hcm c' hcm' hfp
  refine eq_of_nodup_map hpairs hcm hcm' ?_
  have hs : c.sourceId = sourceId ∧ c.state = .open := by
    simpa using (List.mem_filter.1 hcm).2
  have hs' : c'.sourceId = sourceId ∧ c'.state = .open := by
    simpa using (List.mem_filter.1 hcm').2
  simp [hs.1, hs'.1, hfp]

theorem openChanges_eq (hc : db.Constraints) (sourceId : Uuid) :
    db.openChanges sourceId =
      (db.openRows sourceId).map fun change => (change.fingerprint, change) := by
  refine Dict.ofItems_eq_self ?_
  simpa [Function.comp_def] using nodup_openFingerprints hc sourceId

/-- The fingerprints OPEN already. -/
theorem mem_keys_openChanges (hc : db.Constraints) {fingerprint : String} :
    fingerprint ∈ Dict.keys (db.openChanges sourceId) ↔
      ∃ row ∈ db.openRows sourceId, row.fingerprint = fingerprint := by
  rw [openChanges_eq hc]
  simp [Dict.keys]

theorem mem_openRows {row : SchemaChangeModel} :
    row ∈ db.openRows sourceId ↔
      row ∈ db.schemaChanges ∧ row.sourceId = sourceId ∧ row.state = .open := by
  simp [DB.openRows]

/-! ## Dependencies -/

/-- A column is a dependency where an edge's upstream is it. -/
theorem mem_dependencies {ref : ColumnRef} :
    ref ∈ db.dependencies sourceId ↔ ∃ e ∈ db.lineageEdges, ∃ d ∈ db.datasets,
      d.id = e.upstreamDatasetId ∧ d.sourceId = sourceId ∧ ref = ⟨d.ref, e.upstreamColumn⟩ := by
  simp only [DB.dependencies, List.mem_map, List.mem_insertionSort, List.mem_filter,
    DB.upstreamJoin, List.mem_flatMap, decide_eq_true_eq]
  constructor
  · rintro ⟨row, ⟨⟨e, he, d, ⟨hd, hid⟩, rfl⟩, hs⟩, rfl⟩
    exact ⟨e, he, d, hd, hid, hs, rfl⟩
  · rintro ⟨e, he, d, hd, hid, hs, rfl⟩
    exact ⟨(e, d), ⟨⟨e, he, d, ⟨hd, hid⟩, rfl⟩, hs⟩, rfl⟩

/-! ## The baseline -/

/-- A source's baseline, and nothing where a row cannot be read. -/
def DB.baseline (db : DB) (sourceId : Uuid) : List ColumnDefinition :=
  match db.baseline? sourceId with
  | .ok columns => columns
  | .error _ => []

/-- The column of a well-typed row. -/
theorem toColumn_eq_ok {row : ExpectedColumnModel} {d : DatasetModel} {column : ColumnDefinition}
    {t : CanonicalType} (ht : row.dataTypeJson = t.toCanonicalDict) :
    row.toColumn d = .ok column ↔
      column = { dataset := d.ref, name := row.name, dataType := t, nullable := row.nullable
                 default := row.defaultExpression, ordinal := row.ordinal } := by
  unfold ExpectedColumnModel.toColumn
  rw [ht, ofKwargs_toCanonicalDict]
  constructor
  · intro h
    cases h
    rfl
  · rintro rfl
    rfl

theorem mem_expectedRows {row : ExpectedColumnModel × DatasetModel} :
    row ∈ db.expectedRows sourceId ↔ row.1 ∈ db.expectedColumns ∧ row.2 ∈ db.datasets ∧
      row.2.id = row.1.datasetId ∧ row.2.sourceId = sourceId := by
  simp only [DB.expectedRows, List.mem_insertionSort, List.mem_filter, DB.expectedJoin,
    List.mem_flatMap, List.mem_map, decide_eq_true_eq]
  constructor
  · rintro ⟨⟨c, hcm, d, ⟨hd, hid⟩, rfl⟩, hs⟩
    exact ⟨hcm, hd, hid, hs⟩
  · rintro ⟨hcm, hd, hid, hs⟩
    exact ⟨⟨row.1, hcm, row.2, ⟨hd, hid⟩, rfl⟩, hs⟩

section Linked

variable (hl : db.Linked)

include hl

/-- The baseline can be read. -/
theorem baseline?_forall₂ (sourceId : Uuid) :
    db.baseline? sourceId = .ok (db.baseline sourceId) ∧
      List.Forall₂ (fun (row : ExpectedColumnModel × DatasetModel) column =>
        row.1.toColumn row.2 = .ok column) (db.expectedRows sourceId) (db.baseline sourceId) := by
  have hrows : ∀ row ∈ db.expectedRows sourceId, ∃ column, row.1.toColumn row.2 = .ok column := by
    intro row hrow
    obtain ⟨type, ht⟩ := hl.expectedTyped row.1 (mem_expectedRows.1 hrow).1
    exact ⟨_, (toColumn_eq_ok ht).2 rfl⟩
  obtain ⟨columns, hcolumns, hall⟩ := mapM_ok hrows
  have hbase : db.baseline sourceId = columns := by
    rw [DB.baseline, DB.baseline?, hcolumns]
  rw [hbase]
  exact ⟨hcolumns, hall⟩

theorem baseline?_eq (sourceId : Uuid) : db.baseline? sourceId = .ok (db.baseline sourceId) :=
  (baseline?_forall₂ hl sourceId).1

/-- **The baseline's columns are the rows of the source's datasets.** -/
theorem mem_baseline {column : ColumnDefinition} :
    column ∈ db.baseline sourceId ↔ ∃ d ∈ db.datasets, d.sourceId = sourceId ∧
      d.ref = column.dataset ∧ expectedRow d.id column ∈ db.expectedColumns := by
  have hall := (baseline?_forall₂ hl sourceId).2
  constructor
  · intro hmem
    obtain ⟨row, hrow, hto⟩ := exists_left_of_forall₂ hall hmem
    obtain ⟨hcm, hd, hid, hs⟩ := mem_expectedRows.1 hrow
    obtain ⟨type, ht⟩ := hl.expectedTyped row.1 hcm
    obtain rfl := (toColumn_eq_ok ht).1 hto
    refine ⟨row.2, hd, hs, rfl, ?_⟩
    have hsame : expectedRow row.2.id ⟨row.2.ref, row.1.name, type, row.1.nullable,
        row.1.defaultExpression, row.1.ordinal⟩ = row.1 := by
      rw [expectedRow, hid, ← ht]
    rw [hsame]
    exact hcm
  · rintro ⟨d, hd, hs, href, hcm⟩
    have hrow : (expectedRow d.id column, d) ∈ db.expectedRows sourceId :=
      mem_expectedRows.2 ⟨hcm, hd, rfl, hs⟩
    obtain ⟨other, hother, hto⟩ := exists_right_of_forall₂ hall hrow
    have hcol : other = column := by
      rw [(toColumn_eq_ok (t := column.dataType) rfl).1 hto, href]
      rfl
    rw [← hcol]
    exact hother

/-- A baseline's references are those of its rows. -/
theorem baseline_refs (sourceId : Uuid) :
    (db.baseline sourceId).map ColumnDefinition.ref =
      (db.expectedRows sourceId).map fun row => ⟨row.2.ref, row.1.name⟩ := by
  have hall := (baseline?_forall₂ hl sourceId).2
  have htyped : ∀ row ∈ db.expectedRows sourceId, ∃ type : CanonicalType,
      row.1.dataTypeJson = type.toCanonicalDict :=
    fun row hrow => hl.expectedTyped row.1 (mem_expectedRows.1 hrow).1
  generalize db.expectedRows sourceId = rows at hall htyped
  generalize db.baseline sourceId = columns at hall
  induction hall with
  | nil => rfl
  | cons hto _ ih =>
    obtain ⟨type, ht⟩ := htyped _ List.mem_cons_self
    rw [List.map_cons, List.map_cons, ih fun row hrow => htyped row (List.mem_cons_of_mem _ hrow),
      (toColumn_eq_ok ht).1 hto]
    rfl

/-- **A source's baseline lists no column twice.** -/
theorem distinctRefs_baseline (hc : db.Constraints) (sourceId : Uuid) :
    DistinctRefs (db.baseline sourceId) := by
  rw [DistinctRefs, baseline_refs hl]
  have hcolumns := List.Nodup.of_map _ hc.expectedColumnIdentity
  have hdatasets := List.Nodup.of_map _ hc.datasetIdentity
  have hjoin : db.expectedJoin.Nodup := by
    refine List.nodup_flatMap.2 ⟨fun c _ => ?_, hcolumns.imp ?_⟩
    · exact List.Nodup.map (fun d d' h => (Prod.mk.inj h).2) (hdatasets.filter _)
    · intro c c' hne row hrow hrow'
      obtain ⟨d, -, rfl⟩ := List.mem_map.1 hrow
      obtain ⟨d', -, heq⟩ := List.mem_map.1 hrow'
      exact hne (Prod.mk.inj heq).1.symm
  have hrows : (db.expectedRows sourceId).Nodup :=
    (List.perm_insertionSort _ _).nodup_iff.2 (hjoin.filter _)
  refine List.Nodup.map_on ?_ hrows
  intro row hrow row' hrow' href
  obtain ⟨hcm, hd, hid, hs⟩ := mem_expectedRows.1 hrow
  obtain ⟨hcm', hd', hid', hs'⟩ := mem_expectedRows.1 hrow'
  obtain ⟨hdref, hname⟩ := ColumnRef.mk.inj href
  have hdeq : row.2 = row'.2 := by
    refine eq_of_nodup_map hc.datasetIdentity hd hd' ?_
    simp only [DatasetModel.ref, DatasetRef.mk.injEq] at hdref
    simp [hs, hs', hdref]
  have hceq : row.1 = row'.1 := by
    refine eq_of_nodup_map hc.expectedColumnIdentity hcm hcm' ?_
    simp [← hid, ← hid', hdeq, hname]
  exact Prod.ext hceq hdeq

end Linked

/-- **The definition a source's baseline gives a reference.** -/
theorem columnAt_baseline (hl : db.Linked) (hc : db.Constraints) {ref : ColumnRef}
    {column : ColumnDefinition} :
    columnAt (db.baseline sourceId) ref = some column ↔ column.ref = ref ∧ ∃ d ∈ db.datasets,
      d.sourceId = sourceId ∧ d.ref = column.dataset ∧
      expectedRow d.id column ∈ db.expectedColumns := by
  rw [columnAt_eq_some_iff (distinctRefs_baseline hl hc sourceId), mem_baseline hl, and_comm]

/-- A dataset is its source's and named as its reference says. -/
theorem eq_dataset (hc : db.Constraints) {d d' : DatasetModel} (hd : d ∈ db.datasets)
    (hd' : d' ∈ db.datasets) (hs : d.sourceId = d'.sourceId) (hr : d.ref = d'.ref) : d = d' := by
  refine eq_of_nodup_map hc.datasetIdentity hd hd' ?_
  simp only [DatasetModel.ref, DatasetRef.mk.injEq] at hr
  simp [hs, hr]

/-! ## What reading depends on -/

section Frame

variable {db' : DB}

/-- The baseline depends on the datasets and their rows. -/
theorem baseline_congr (hd : db'.datasets = db.datasets)
    (hc : db'.expectedColumns = db.expectedColumns) (sourceId : Uuid) :
    db'.baseline sourceId = db.baseline sourceId := by
  unfold DB.baseline DB.baseline? DB.expectedRows DB.expectedJoin
  rw [hd, hc]

/-- The dependencies depend on the datasets and the edges. -/
theorem dependencies_congr (hd : db'.datasets = db.datasets)
    (he : db'.lineageEdges = db.lineageEdges) (sourceId : Uuid) :
    db'.dependencies sourceId = db.dependencies sourceId := by
  unfold DB.dependencies DB.upstreamJoin
  rw [hd, he]

end Frame

end SchemaSentry
