import SchemaSentry.System.Runs
/-!
# Schema Sentry — reconciliation

What a completed drift scan leaves of the change rows. A row describes a
difference where it has its column, its kind, its severity and its
snapshots; without dots in names and collisions of digests an OPEN row's
fingerprint is among the scan's exactly when the row describes one of its
differences (`active_iff`), so the OPEN rows afterwards and the differences
correspond one to one.
-/

namespace SchemaSentry

open Lib

section Reconciliation

variable [Hashlib]
variable {db db' : DB} {source : DataSourceModel} {sourceId : Uuid}
variable {row : SchemaChangeModel} {c : SchemaChange} {changes : List SchemaChange}
variable {req : ScanRequest} {observed : List ColumnDefinition}

/-! ## Rows and differences -/

omit [Hashlib] in
/-- A source's row has a difference's column, kind, severity and snapshots. -/
structure Describes (db : DB) (sourceId : Uuid) (row : SchemaChangeModel) (c : SchemaChange) :
    Prop where
  source : row.sourceId = sourceId
  dataset : ∃ d ∈ db.datasets, d.id = row.datasetId ∧ d.sourceId = sourceId ∧ d.ref = c.dataset
  columnName : row.columnName = c.columnName
  changeType : row.changeType = c.changeType
  severity : row.severity = c.severity
  before : row.beforeJson = c.before.map ColumnDefinition.toCanonicalDict
  after : row.afterJson = c.after.map ColumnDefinition.toCanonicalDict

theorem Records.describes {dataset : DatasetModel} (h : Records db row source dataset c) :
    Describes db source.id row c where
  source := h.source_id.symm
  dataset := ⟨dataset, h.dataset_mem, h.dataset_id, h.owner, h.ref⟩
  columnName := h.columnName
  changeType := h.changeType
  severity := h.severity
  before := h.before
  after := h.after

omit [Hashlib] in
theorem Describes.settle {active : List String} {resolvedAt : Timestamp}
    (h : Describes db sourceId row c) :
    Describes db sourceId (settle source active resolvedAt row) c := by
  unfold SchemaSentry.settle
  split
  · exact { h with }
  · exact h

omit [Hashlib] in
theorem snapshot_eq_of_map_eq {a b : Option ColumnDefinition}
    (h : a.map ColumnDefinition.toCanonicalDict = b.map ColumnDefinition.toCanonicalDict) :
    snapshot a = snapshot b := by
  cases a <;> cases b <;> simp_all [snapshot]

/-- **A recorded row that describes a difference records it.** -/
theorem Describes.eq_of_records (hwf : db.WellFormed) {dataset : DatasetModel}
    {c' : SchemaChange} (hrec : Records db row source dataset c')
    (h : Describes db source.id row c) (hc : c.Filed) : c' = c := by
  obtain ⟨d, hd, hid, -, href⟩ := h.dataset
  have hdataset : d = dataset := eq_of_nodup_map hwf.linked.datasetIds hd hrec.dataset_mem
    (hid.trans hrec.dataset_id.symm)
  have hsame : c'.dataset = c.dataset := by rw [← hrec.ref, ← hdataset, href]
  refine SchemaChange.eq_of_toCanonicalDict hrec.genuine.filed hc ?_ hsame
  rw [SchemaChange.toCanonicalDict, SchemaChange.toCanonicalDict, hsame, ← hrec.columnName,
    h.columnName, ← hrec.changeType, h.changeType, ← hrec.severity, h.severity,
    snapshot_eq_of_map_eq (hrec.before.symm.trans h.before),
    snapshot_eq_of_map_eq (hrec.after.symm.trans h.after)]

/-- A source's row is recorded of that source. -/
theorem exists_records_of_source (hwf : db.WellFormed) (hsource : source ∈ db.sources)
    (hrow : row ∈ db.schemaChanges) (hid : row.sourceId = source.id) :
    ∃ dataset c, Records db row source dataset c :=
  exists_records hwf hrow ((find?_eq_some_of_nodup hwf.linked.sourceIds).2 ⟨hsource, hid.symm⟩)

/-- A row that describes a difference has its fingerprint. -/
theorem fingerprint_of_describes (hwf : db.WellFormed) (hsource : source ∈ db.sources)
    (hrow : row ∈ db.schemaChanges) (h : Describes db source.id row c) (hc : c.Filed) :
    row.fingerprint = changeFingerprint source.key c := by
  obtain ⟨dataset, c', hrec⟩ := exists_records_of_source hwf hsource hrow h.source
  rw [hrec.fingerprint, h.eq_of_records hwf hrec hc]

/-- One difference is described by one OPEN row at most. -/
theorem eq_of_describes (hwf : db.WellFormed) (hsource : source ∈ db.sources)
    {row' : SchemaChangeModel} (hrow : row ∈ db.openRows source.id)
    (hrow' : row' ∈ db.openRows source.id) (h : Describes db source.id row c)
    (h' : Describes db source.id row' c) (hc : c.Filed) : row = row' := by
  refine eq_of_nodup_map (nodup_openFingerprints hwf.constraints source.id) hrow hrow' ?_
  rw [fingerprint_of_describes hwf hsource (mem_openRows.1 hrow).1 h hc,
    fingerprint_of_describes hwf hsource (mem_openRows.1 hrow').1 h' hc]

/-- **Without dots and collisions a row with a difference's fingerprint
describes it.** -/
theorem describes_of_fingerprint [Hashlib.CollisionFree] (hwf : db.WellFormed)
    (hdotless : ∀ d ∈ db.datasets, d.ref.Dotless) (hsource : source ∈ db.sources)
    (hrow : row ∈ db.schemaChanges) (hid : row.sourceId = source.id) (hc : c.Filed)
    (hd : c.dataset.Dotless) (h : row.fingerprint = changeFingerprint source.key c) :
    Describes db source.id row c := by
  obtain ⟨dataset, c', hrec⟩ := exists_records_of_source hwf hsource hrow hid
  have heq : c' = c := eq_of_changeFingerprint_eq hrec.genuine.filed hc
    (by rw [← hrec.ref]; exact hdotless dataset hrec.dataset_mem) hd
    (hrec.fingerprint.symm.trans h)
  exact heq ▸ hrec.describes

/-! ## The differences of a scan -/

/-- A difference is in a dataset of the baseline or of the observation. -/
theorem dotless_of_mem_driftChanges (hwf : db.WellFormed)
    (hdotless : ∀ d ∈ db.datasets, d.ref.Dotless)
    (hobserved : ∀ column ∈ observed, column.dataset.Dotless)
    (h : c ∈ db.driftChanges source (db.baseline source.id) observed) : c.dataset.Dotless := by
  have hmem := mem_diffColumns.1 h
  rcases (mem_compareColumn ref_of_columnAt).1 hmem with ⟨a, -, ha, rfl⟩ | ⟨b, hb, -, rfl⟩ |
    ⟨b, a, hb, -, -, rfl⟩ | ⟨b, a, hb, -, -, rfl⟩
  · exact hobserved a (mem_of_columnAt ha).1
  all_goals
    obtain ⟨d, hd, -, href, -⟩ := (mem_baseline hwf.linked).1 (mem_of_columnAt hb).1
    have hdot := hdotless d hd
    rw [href] at hdot
    exact hdot

section Drifted

variable [Hashlib.CollisionFree]
variable (hwf : db.WellFormed) (hdotless : ∀ d ∈ db.datasets, d.ref.Dotless)
variable (hobserved : ∀ column ∈ observed, column.dataset.Dotless)
variable (hsource : source ∈ db.sources)

include hwf hdotless hobserved hsource

/-- **An OPEN row stays where it describes a difference of the scan.** -/
theorem active_iff (hrow : row ∈ db.schemaChanges) (hid : row.sourceId = source.id) :
    row.fingerprint ∈ db.activeFingerprints source (db.baseline source.id) observed ↔
      ∃ c ∈ db.driftChanges source (db.baseline source.id) observed,
        Describes db source.id row c := by
  rw [DB.activeFingerprints, List.mem_map]
  constructor
  · rintro ⟨c, hc, hfp⟩
    exact ⟨c, hc, describes_of_fingerprint hwf hdotless hsource hrow hid
      (filed_of_mem_diffColumns hc) (dotless_of_mem_driftChanges hwf hdotless hobserved hc)
      hfp.symm⟩
  · rintro ⟨c, hc, hdesc⟩
    exact ⟨c, hc, (fingerprint_of_describes hwf hsource hrow hdesc
      (filed_of_mem_diffColumns hc)).symm⟩

end Drifted

/-! ## What a completed drift scan leaves -/

omit [Hashlib] in
/-- How a scan of a source that finds some differences leaves an old row:
resolved where it was OPEN and describes none of them, and as it was
otherwise. -/
def Settled (db : DB) (sourceId : Uuid) (changes : List SchemaChange) (resolvedAt : Timestamp)
    (row row' : SchemaChangeModel) : Prop :=
  ((row.sourceId = sourceId ∧ row.state = .open ∧ ¬ ∃ c ∈ changes, Describes db sourceId row c) ∧
    row' = row.resolve resolvedAt) ∨
  (¬ (row.sourceId = sourceId ∧ row.state = .open ∧
    ¬ ∃ c ∈ changes, Describes db sourceId row c) ∧ row' = row)

omit [Hashlib] in
/-- A scan of a source that found some differences reconciled the change
rows with them, and left all else alone but for what it added. -/
structure Reconciled (db db' : DB) (source : DataSourceModel) (changes : List SchemaChange)
    (scanId : Uuid) (resolvedAt : Timestamp) : Prop where
  /-- The OPEN rows pair off with the differences. -/
  correspondence : ∃ rows, rows.Perm (db'.openRows source.id) ∧
    List.Forall₂ (Describes db' source.id) rows changes
  /-- The old rows stay or are resolved, and the new ones are OPEN rows of the scan. -/
  rows : ∃ kept added, db'.schemaChanges = kept ++ added ∧
    List.Forall₂ (Settled db source.id changes resolvedAt) db.schemaChanges kept ∧
    ∀ row ∈ added, row.sourceId = source.id ∧ row.state = .open ∧ row.scanId = scanId ∧
      row.id ∉ db.schemaChanges.map SchemaChangeModel.id
  sources : db'.sources = db.sources
  datasets : db'.datasets = db.datasets
  expectedColumns : db'.expectedColumns = db.expectedColumns
  scanRuns : ∃ scan, db'.scanRuns = db.scanRuns ++ [scan] ∧ scan.id = scanId ∧
    scan.sourceId = source.id ∧ scan.status = .completed
  observedColumns : ∃ added, db'.observedColumns = db.observedColumns ++ added ∧
    ∀ column ∈ added, column.scanId = scanId
  lineage : db'.pipelines = db.pipelines ∧ db'.lineageEdges = db.lineageEdges
  alertDeliveries : ∃ added, db'.alertDeliveries = db.alertDeliveries ++ added ∧
    ∀ delivery ∈ added, delivery.scanId = scanId

section Completed

variable [Hashlib.CollisionFree]
variable (hwf : db.WellFormed) (hdotless : ∀ d ∈ db.datasets, d.ref.Dotless)
variable (hobserved : ∀ column ∈ observed, column.dataset.Dotless)
variable (hsource : source ∈ db.sources)
variable (hin : InDatasets (db.datasetsByRef source.id)
  (db.opened source (db.baseline source.id) observed))
variable (hwf' : (req.drifted source (db.baseline source.id) observed db).WellFormed)

include hwf hdotless hobserved hsource hin hwf'

/-- **The OPEN rows after a drift scan and its differences correspond.** -/
theorem drifted_correspondence :
    ∃ rows, rows.Perm
        ((req.drifted source (db.baseline source.id) observed db).openRows source.id) ∧
      List.Forall₂ (Describes (req.drifted source (db.baseline source.id) observed db) source.id)
        rows (db.driftChanges source (db.baseline source.id) observed) := by
  have hdesc : ∀ {row c}, Describes (req.drifted source (db.baseline source.id) observed db)
      source.id row c ↔ Describes db source.id row c := by
    intro row c
    rw [drifted_eq hwf]
    exact ⟨fun h => { h with }, fun h => { h with }⟩
  have hsources : (req.drifted source (db.baseline source.id) observed db).sources =
      db.sources := by rw [drifted_eq hwf]
  refine exists_perm_forall₂
    (List.Nodup.of_map _ (nodup_openFingerprints hwf'.constraints source.id)) nodup_diffColumns
    (fun row hrow => ?_) (fun c hc => ?_) (fun row _ c hc c' hc' h h' => ?_)
    (fun c hc row hrow row' hrow' h h' => ?_)
  · rcases (mem_openRows_drifted hwf).1 hrow with ⟨hold, hactive⟩ | hnew
    · obtain ⟨hmem, hs, -⟩ := mem_openRows.1 hold
      obtain ⟨c, hc, h⟩ := (active_iff hwf hdotless hobserved hsource hmem hs).1 hactive
      exact ⟨c, hc, hdesc.2 h⟩
    · obtain ⟨c, hc, d, hd, hs, href, -, heq⟩ := mem_openedRows hwf hnew
      have hdrift := List.mem_of_mem_filter hc
      refine ⟨c, hdrift, hdesc.2 ?_⟩
      rw [heq]
      exact (records_openedRow hsource hd hs href hdrift).describes
  · by_cases hknown : changeFingerprint source.key c ∈ Dict.keys (db.openChanges source.id)
    · obtain ⟨row, hrow, hrowfp⟩ := (mem_keys_openChanges hwf.constraints).1 hknown
      obtain ⟨hmem, hs, -⟩ := mem_openRows.1 hrow
      have hactive : row.fingerprint ∈
          db.activeFingerprints source (db.baseline source.id) observed := by
        rw [hrowfp]
        exact List.mem_map_of_mem hc
      refine ⟨row, (mem_openRows_drifted hwf).2 (Or.inl ⟨hrow, hactive⟩), hdesc.2 ?_⟩
      exact describes_of_fingerprint hwf hdotless hsource hmem hs (filed_of_mem_diffColumns hc)
        (dotless_of_mem_driftChanges hwf hdotless hobserved hc) hrowfp
    · have hnew : c ∈ db.opened source (db.baseline source.id) observed :=
        List.mem_filter.2 ⟨hc, by simpa using hknown⟩
      obtain ⟨d, hd, hs, href⟩ := (mem_keys_datasetsByRef hwf.constraints).1 (hin c hnew)
      obtain ⟨id, hrow⟩ : ∃ id, openedRow db.nextId source d c id ∈
          req.openedRows source (db.baseline source.id) observed db :=
        exists_openedRow hwf hnew hd hs href
      exact ⟨_, (mem_openRows_drifted hwf).2 (Or.inr hrow),
        hdesc.2 (records_openedRow hsource hd hs href hc).describes⟩
  · refine eq_of_mem_diffColumns hc hc' ?_ (h.changeType.symm.trans h'.changeType)
    obtain ⟨d, hd, hid, hs, href⟩ := h.dataset
    obtain ⟨d', hd', hid', hs', href'⟩ := h'.dataset
    have hsame : d = d' := eq_of_nodup_map hwf'.linked.datasetIds hd hd' (hid.trans hid'.symm)
    rw [SchemaChange.ref, SchemaChange.ref, ← href, ← href', hsame, ← h.columnName,
      ← h'.columnName]
  · exact eq_of_describes hwf' (hsources ▸ hsource) hrow hrow' h h' (filed_of_mem_diffColumns hc)

/-- **A completed drift scan reconciles.** -/
theorem drifted_reconciled :
    Reconciled db (req.drifted source (db.baseline source.id) observed db) source
      (db.driftChanges source (db.baseline source.id) observed) db.nextId req.finishedAt := by
  have hcorr := drifted_correspondence hwf hdotless hobserved hsource hin hwf'
  refine ⟨hcorr, ?_, ?_, ?_, ?_, ?_, ?_, ?_, ?_⟩ <;> rw [drifted_eq hwf]
  · refine ⟨_, _, rfl, ?_, fun row hrow => ?_⟩
    · refine List.forall₂_map_right_iff.2 (List.forall₂_same.2 fun row hrow => ?_)
      unfold Settled settle
      by_cases hs : row.sourceId = source.id
      · rw [← not_congr (active_iff hwf hdotless hobserved hsource hrow hs)]
        split
        · rename_i h
          exact Or.inl ⟨h, rfl⟩
        · rename_i h
          exact Or.inr ⟨h, rfl⟩
      · rw [if_neg fun h => hs h.1]
        exact Or.inr ⟨fun h => hs h.1, rfl⟩
    · obtain ⟨c, -, d, -, -, -, hid, heq⟩ := mem_openedRows hwf hrow
      refine ⟨by rw [heq]; rfl, by rw [heq]; rfl, by rw [heq]; rfl, fun hmem => ?_⟩
      obtain ⟨old, hold, hsame⟩ := List.mem_map.1 hmem
      have hlt := hwf.linked.changeFresh old hold
      rw [hsame] at hlt
      exact Nat.lt_irrefl _ (hlt.trans hid)
  · exact ⟨_, rfl, rfl, rfl, rfl⟩
  · refine ⟨_, rfl, fun column hcolumn => ?_⟩
    obtain ⟨_, -, rfl⟩ := List.mem_map.1 hcolumn
    rfl
  · exact ⟨rfl, rfl⟩
  · refine ⟨_, rfl, fun delivery hdelivery => ?_⟩
    split at hdelivery
    · exact mem_pendingDeliveries hdelivery
    · cases hdelivery

end Completed

/-- **Reconciliation is exact.** A drift scan that completes in reachable
tables leaves OPEN rows that correspond to its differences one to one, and
resolves the OPEN rows that describe none of them. -/
theorem scan_reconciles [Hashlib.CollisionFree] (hreach : db.Reachable DatasetRef.Dotless)
    (hreq : (Op.scan req).Regular DatasetRef.Dotless) {report : ScanReport}
    (hscan : scanResult req db = .ok report) (hdrift : report.baselineCreated = false) :
    ∃ source observed, db.sourceOf? req.sourceKey = some source ∧
      req.collected = .ok observed ∧ db.baseline source.id ≠ [] ∧
      Reconciled db (postScans req db) source
        (diffColumns (db.baseline source.id) observed (db.dependencies source.id))
        report.scanId req.finishedAt := by
  have hwf := hreach.wellFormed
  have heff := scanEffect hwf hreq.1
  rw [hscan] at heff
  have hwf' : (postScans req db).WellFormed := hwf.apply hreq
  generalize postScans req db = after at heff hwf' ⊢
  rcases heff with _ | _ | _ | ⟨hsource, hcollected, -, hbase, hin, -⟩
  · cases hdrift
  · exact ⟨_, _, hsource, hcollected, hbase, drifted_reconciled hwf hreach.names
      (hreq.2 _ hcollected) (mem_of_sourceOf? hsource).1 hin hwf'⟩

end Reconciliation

section Sample

attribute [local instance] Hashlib.plain

/-- In the sample the scan that misses a column is reconciled. -/
theorem scan_reconciles_sample :
    ∃ source observed, sampleTables.sourceOf? "crm" = some source ∧
      sampleLoss.collected = .ok observed ∧ sampleTables.baseline source.id ≠ [] ∧
      Reconciled sampleTables (postScans sampleLoss sampleTables) source
        (diffColumns (sampleTables.baseline source.id) observed
          (sampleTables.dependencies source.id)) 5 0 := by
  have := Hashlib.collisionFree_plain
  have hscan : scanResult sampleLoss sampleTables = .ok sampleLossReport := by decide +kernel
  exact scan_reconciles sampleTables_reachable (sampleScan_regular (by decide)) hscan rfl

end Sample

end SchemaSentry
