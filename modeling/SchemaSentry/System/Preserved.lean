import SchemaSentry.System.ScanTables
import SchemaSentry.System.AcceptTables
import SchemaSentry.System.CatalogTables
/-!
# Schema Sentry — well-formed tables stay well-formed

Each outcome of a scan, of an acceptance and of a sync keeps the tables
well-formed. A scan's outcomes add rows with new keys; an acceptance keeps
every key and promotes a recorded change.
-/

namespace SchemaSentry

open Lib

variable [Hashlib]
variable {req : ScanRequest} {db db' : DB} {source : DataSourceModel}
variable {expected observed : List ColumnDefinition}
variable {row : SchemaChangeModel} {dataset : DatasetModel} {c : SchemaChange}

/-! ## Records -/

/-- A record stays one where its dataset stays and its source keeps its key. -/
theorem Records.mono (h : Records db row source dataset c) {s : DataSourceModel}
    (hs : s ∈ db'.sources) (hid : s.id = source.id) (hkey : s.key = source.key)
    (hdataset : dataset ∈ db'.datasets) : Records db' row s dataset c :=
  { h with
    source_mem := hs
    source_id := hid.trans h.source_id
    dataset_mem := hdataset
    owner := h.owner.trans hid.symm
    fingerprint := by rw [h.fingerprint, hkey] }

theorem Records.resolve (h : Records db row source dataset c) (resolvedAt : Timestamp) :
    Records db (row.resolve resolvedAt) source dataset c := { h with }

theorem Records.accept (h : Records db row source dataset c) (acceptedAt : Timestamp) :
    Records db (row.accept acceptedAt) source dataset c := { h with }

theorem Records.settle {other : DataSourceModel} (h : Records db row source dataset c)
    (active : List String) (resolvedAt : Timestamp) :
    Records db (settle other active resolvedAt row) source dataset c := by
  unfold SchemaSentry.settle
  split
  · exact h.resolve resolvedAt
  · exact h

/-- A row found by its source's key is recorded of that source. -/
theorem exists_records (hwf : db.WellFormed) (hrow : row ∈ db.schemaChanges)
    (hsource : db.sources.find? (fun s => s.id = row.sourceId) = some source) :
    ∃ dataset c, Records db row source dataset c := by
  obtain ⟨s, dataset, c, hrec⟩ := hwf.recorded row hrow
  obtain ⟨hmem, hid⟩ := (find?_eq_some_of_nodup hwf.linked.sourceIds).1 hsource
  obtain rfl : s = source := eq_of_nodup_map hwf.linked.sourceIds hrec.source_mem hmem
    (hrec.source_id.trans hid.symm)
  exact ⟨dataset, c, hrec⟩

/-- **A row a scan opens is the record of its difference.** -/
theorem records_openedRow (hsource : source ∈ db.sources) (hd : dataset ∈ db.datasets)
    (hs : dataset.sourceId = source.id) (href : dataset.ref = c.dataset) {scanId id : Uuid}
    (hc : c ∈ db.driftChanges source expected observed) :
    Records db (openedRow scanId source dataset c id) source dataset c where
  source_mem := hsource
  source_id := rfl
  dataset_mem := hd
  dataset_id := rfl
  owner := hs
  ref := href
  columnName := rfl
  changeType := rfl
  severity := rfl
  fingerprint := rfl
  before := rfl
  after := rfl
  genuine := by
    refine ⟨filed_of_mem_diffColumns hc, db.dependencies source.id, ?_⟩
    obtain ⟨hbefore, hafter⟩ := sides_of_mem_diffColumns hc
    rw [hbefore, hafter]
    exact mem_diffColumns.1 hc

omit [Hashlib] in
/-- The source a request names is one there is. -/
theorem mem_of_sourceOf? {sourceKey : String} (h : db.sourceOf? sourceKey = some source) :
    source ∈ db.sources ∧ source.key = sourceKey :=
  ⟨List.mem_of_find?_eq_some h, by simpa using List.find?_some h⟩

/-! ## Deliveries -/

section Deliveries

variable {next scanId : Uuid} {channels : List AlertChannel}

omit [Hashlib]

theorem mem_pendingDeliveries {d : AlertDeliveryModel}
    (h : d ∈ pendingDeliveries next scanId channels) : d.scanId = scanId := by
  obtain ⟨i, hi, rfl⟩ := List.mem_mapIdx.1 h
  rfl

theorem map_identity_pendingDeliveries (next : Uuid) :
    (pendingDeliveries next scanId channels).map (fun d => (d.scanId, d.channel)) =
      channels.map fun channel => (scanId, channel) := by
  induction channels generalizing next with
  | nil => rfl
  | cons channel channels ih =>
    rw [List.map_cons, ← ih (next + 1), pendingDeliveries, List.mapIdx_cons, List.map_cons]
    simp [pendingDeliveries, Nat.add_assoc, Nat.add_comm 1]

/-- A new scan's deliveries are apart from each other and from those there
are. -/
theorem nodup_deliveries (hc : db.Constraints) (hl : db.Linked) (settings : Settings)
    (next : Uuid) :
    ((db.alertDeliveries ++ pendingDeliveries next db.nextId (enabledChannels settings)).map
      fun d => (d.scanId, d.channel)).Nodup := by
  rw [List.map_append, map_identity_pendingDeliveries]
  refine List.Nodup.append hc.alertDeliveryIdentity
    ((nodup_enabledChannels settings).map fun a b h => (Prod.mk.inj h).2) fun k hold hnew => ?_
  obtain ⟨d, hd, rfl⟩ := List.mem_map.1 hold
  obtain ⟨channel, -, heq⟩ := List.mem_map.1 hnew
  exact absurd (hl.deliveryFresh d hd) (Nat.not_lt.2 (Nat.le_of_eq (Prod.mk.inj heq).1))

theorem deliveryFresh_append (hl : db.Linked) {bound : Uuid} (hbound : db.nextId < bound) :
    ∀ d ∈ db.alertDeliveries ++ pendingDeliveries next db.nextId channels, d.scanId < bound := by
  intro d hd
  rcases List.mem_append.1 hd with hold | hnew
  · exact (hl.deliveryFresh d hold).trans hbound
  · rw [mem_pendingDeliveries hnew]
    exact hbound

end Deliveries

/-! ## Scans -/

omit [Hashlib] in
theorem lt_next (a b : ℕ) : db.nextId < db.nextId + 1 + a + b := by
  rw [Nat.add_assoc, Nat.add_assoc]
  exact Nat.lt_add_of_pos_right (Nat.lt_of_lt_of_le Nat.zero_lt_one (Nat.le_add_right _ _))

section Scans

variable (hwf : db.WellFormed)

include hwf

/-- **A failed scan keeps the tables well-formed.** -/
theorem failed_wellFormed (source : DataSourceModel) (e : PyException) :
    (req.failed source e db).WellFormed := by
  have hl := hwf.linked
  have hc := hwf.constraints
  rw [failed_eq hl.scanFresh]
  have hlt : db.nextId < db.nextId + 1 + (enabledChannels req.settings).length :=
    lt_next 0 (enabledChannels req.settings).length
  refine ⟨{ hc with alertDeliveryIdentity := nodup_deliveries hc hl req.settings _ },
    { hl with
      sourceFresh := fun s hs => (hl.sourceFresh s hs).trans hlt
      datasetFresh := fun d hd => (hl.datasetFresh d hd).trans hlt
      scanIds := ?_
      scanFresh := ?_
      observedFresh := fun o ho => (hl.observedFresh o ho).trans hlt
      changeFresh := fun c hc => (hl.changeFresh c hc).trans hlt
      deliveryFresh := deliveryFresh_append hl hlt },
    { hwf.lineage with }, fun row hrow => ?_⟩
  · exact nodup_map_append hl.scanIds (by simp) hl.scanFresh
      (by simp [ScanRequest.failedScan, ScanRequest.scan])
  · intro s hs
    rcases List.mem_append.1 hs with hold | hnew
    · exact (hl.scanFresh s hold).trans hlt
    · rw [List.mem_singleton.1 hnew]
      exact hlt
  · obtain ⟨s, dataset, c, hrec⟩ := hwf.recorded row hrow
    exact ⟨s, dataset, c, { hrec with }⟩

/-- **A drift scan keeps the tables well-formed.** -/
theorem drifted_wellFormed (hsource : source ∈ db.sources)
    (hc : (req.drifted source expected observed db).Constraints) :
    (req.drifted source expected observed db).WellFormed := by
  have hl := hwf.linked
  have hnext : ∀ b, db.nextId < db.nextId + 1 +
      (req.openedRows source expected observed db).length + b := fun b => lt_next _ b
  rw [drifted_eq hwf] at hc ⊢
  refine ⟨hc,
    { hl with
      sourceFresh := fun s hs => (hl.sourceFresh s hs).trans (hnext _)
      datasetFresh := fun d hd => (hl.datasetFresh d hd).trans (hnext _)
      scanIds := ?_
      scanFresh := fun s hs => ?_
      observedFresh := fun o ho => ?_
      changeIds := ?_
      changeFresh := fun c hcm => ?_
      deliveryFresh := fun d hd => ?_ },
    { hwf.lineage with }, fun row hrow => ?_⟩
  · exact nodup_map_append hl.scanIds (by simp) hl.scanFresh
      (by simp [ScanRequest.completedScan, ScanRequest.scan])
  · rcases List.mem_append.1 hs with hold | hnew
    · exact (hl.scanFresh s hold).trans (hnext _)
    · rw [List.mem_singleton.1 hnew]
      exact hnext _
  · rcases List.mem_append.1 ho with hold | hnew
    · exact (hl.observedFresh o hold).trans (hnext _)
    · obtain ⟨column, -, rfl⟩ := List.mem_map.1 hnew
      exact hnext _
  · refine nodup_map_append (n := db.nextId) (nodup_map_map id_settle hl.changeIds) ?_
      (fun c hcm => ?_) (fun c hcm => ?_)
    · rw [ScanRequest.openedRows, map_keyed fun _ _ => rfl]
      exact List.nodup_range'
    · obtain ⟨old, hold, rfl⟩ := List.mem_map.1 hcm
      rw [id_settle]
      exact hl.changeFresh old hold
    · obtain ⟨-, -, -, -, -, -, hid, -⟩ := mem_openedRows hwf hcm
      exact Nat.le_of_lt hid
  · rcases List.mem_append.1 hcm with hold | hnew
    · obtain ⟨old, hmem, rfl⟩ := List.mem_map.1 hold
      rw [id_settle]
      exact (hl.changeFresh old hmem).trans (hnext _)
    · exact Nat.lt_of_lt_of_le (id_lt_of_mem_openedRows hnew) (Nat.le_add_right _ _)
  · rcases List.mem_append.1 hd with hold | hnew
    · exact (hl.deliveryFresh d hold).trans (hnext _)
    · split at hnew
      · rw [mem_pendingDeliveries hnew]
        exact hnext _
      · cases hnew
  · rcases List.mem_append.1 hrow with hold | hnew
    · obtain ⟨old, hmem, rfl⟩ := List.mem_map.1 hold
      obtain ⟨s, dataset, c, hrec⟩ := hwf.recorded old hmem
      exact ⟨s, dataset, c, { hrec.settle _ _ with }⟩
    · obtain ⟨c, hcm, d, hd, hs, href, -, heq⟩ := mem_openedRows hwf hnew
      rw [heq]
      exact ⟨source, d, c,
        { records_openedRow hsource hd hs href (List.mem_of_mem_filter hcm) with }⟩

/-- **The first baseline keeps the tables well-formed.** -/
theorem baselined_wellFormed (hsource : source ∈ db.sources)
    (hc : (req.baselined source observed db).Constraints) :
    (req.baselined source observed db).WellFormed := by
  have hl := hwf.linked
  obtain ⟨next, added, rows, hrows, heq⟩ := baselined_eq hwf req source observed
  have hnext : db.nextId < next := hrows.next_le
  rw [heq] at hc ⊢
  refine ⟨hc,
    { hl with
      sourceFresh := fun s hs => (hl.sourceFresh s hs).trans hnext
      datasetIds := ?_
      datasetFresh := fun d hd => ?_
      datasetSource := fun d hd => ?_
      expectedDataset := fun row hrow => ?_
      expectedTyped := fun row hrow => ?_
      scanIds := ?_
      scanFresh := fun s hs => ?_
      observedFresh := fun o ho => ?_
      changeFresh := fun c hcm => (hl.changeFresh c hcm).trans hnext
      deliveryFresh := fun d hd => (hl.deliveryFresh d hd).trans hnext },
    { hwf.lineage with
      edgeUpstream := fun e he => ?_
      edgeDownstream := fun e he => ?_ }, fun row hrow => ?_⟩
  · exact nodup_map_append hl.datasetIds hrows.ids hl.datasetFresh
      fun d hd => Nat.le_of_succ_le (hrows.fresh d hd).1
  · rcases List.mem_append.1 hd with hold | hnew
    · exact (hl.datasetFresh d hold).trans hnext
    · exact (hrows.fresh d hnew).2
  · rcases List.mem_append.1 hd with hold | hnew
    · exact hl.datasetSource d hold
    · exact ⟨source, hsource, (hrows.owner d hnew).symm⟩
  · rcases List.mem_append.1 hrow with hold | hnew
    · obtain ⟨d, hd, hid⟩ := hl.expectedDataset row hold
      exact ⟨d, List.mem_append_left _ hd, hid⟩
    · obtain ⟨column, -, d, hd, -, -, rfl⟩ := hrows.exists_of_mem hnew
      exact ⟨d, hd, rfl⟩
  · rcases List.mem_append.1 hrow with hold | hnew
    · exact hl.expectedTyped row hold
    · obtain ⟨column, -, d, -, -, -, rfl⟩ := hrows.exists_of_mem hnew
      exact ⟨column.dataType, rfl⟩
  · exact nodup_map_append hl.scanIds (by simp) hl.scanFresh
      (by simp [ScanRequest.completedScan, ScanRequest.scan])
  · rcases List.mem_append.1 hs with hold | hnew
    · exact (hl.scanFresh s hold).trans hnext
    · rw [List.mem_singleton.1 hnew]
      exact hnext
  · rcases List.mem_append.1 ho with hold | hnew
    · exact (hl.observedFresh o hold).trans hnext
    · obtain ⟨column, -, rfl⟩ := List.mem_map.1 hnew
      exact hnext
  · obtain ⟨d, hd, hid⟩ := hwf.lineage.edgeUpstream e he
    exact ⟨d, List.mem_append_left _ hd, hid⟩
  · obtain ⟨d, hd, hid⟩ := hwf.lineage.edgeDownstream e he
    exact ⟨d, List.mem_append_left _ hd, hid⟩
  · obtain ⟨s, dataset, c, hrec⟩ := hwf.recorded row hrow
    exact ⟨s, dataset, c, { hrec with dataset_mem := List.mem_append_left _ hrec.dataset_mem }⟩

end Scans

/-! ## Acceptances -/

section Acceptances

variable {applied : DB} {change : SchemaChangeModel} {acceptedAt : Timestamp}

/-- A source's version is raised. -/
def raiseVersion (source s : DataSourceModel) : DataSourceModel :=
  if s.id = source.id then { s with baselineVersion := source.baselineVersion + 1 } else s

omit [Hashlib] in
@[simp] theorem id_raiseVersion (source s : DataSourceModel) : (raiseVersion source s).id = s.id := by
  unfold raiseVersion
  split <;> rfl

omit [Hashlib] in
@[simp] theorem key_raiseVersion (source s : DataSourceModel) :
    (raiseVersion source s).key = s.key := by
  unfold raiseVersion
  split <;> rfl

/-- The row accepted is closed. -/
def closeRow (change : SchemaChangeModel) (acceptedAt : Timestamp) (c : SchemaChangeModel) :
    SchemaChangeModel :=
  if c.id = change.id then c.accept acceptedAt else c

omit [Hashlib] in
@[simp] theorem id_closeRow (c : SchemaChangeModel) : (closeRow change acceptedAt c).id = c.id := by
  unfold closeRow
  split <;> rfl

omit [Hashlib] in
/-- **An acceptance** rewrites the baseline's rows, raises the version and
closes the row. -/
theorem accepted_eq (rows : List ExpectedColumnModel) :
    { db with expectedColumns := rows }.accepted source change acceptedAt =
      { db with
        expectedColumns := rows
        sources := db.sources.map (raiseVersion source)
        schemaChanges := db.schemaChanges.map (closeRow change acceptedAt) } := rfl

/-- **An acceptance keeps the tables well-formed.** -/
theorem accepted_wellFormed (hwf : db.WellFormed) (hrec : Records db change source dataset c)
    (happly : AppliesTo change db applied)
    (hc : (applied.accepted source change acceptedAt).Constraints) :
    (applied.accepted source change acceptedAt).WellFormed := by
  have hl := hwf.linked
  obtain ⟨rows, rfl, hp⟩ := happly.promoted hl hwf.constraints hrec
  rw [accepted_eq] at hc ⊢
  refine ⟨hc,
    { hl with
      sourceIds := ?_
      sourceFresh := fun s hs => ?_
      datasetSource := fun d hd => ?_
      expectedDataset := hp.dataset
      expectedTyped := hp.typed
      changeIds := ?_
      changeFresh := fun row hrow => ?_ },
    { hwf.lineage with }, fun row hrow => ?_⟩
  · exact nodup_map_map (id_raiseVersion source) hl.sourceIds
  · obtain ⟨old, hold, rfl⟩ := List.mem_map.1 hs
    rw [id_raiseVersion]
    exact hl.sourceFresh old hold
  · obtain ⟨s, hs, hid⟩ := hl.datasetSource d hd
    exact ⟨_, List.mem_map_of_mem hs, (id_raiseVersion source s).trans hid⟩
  · exact nodup_map_map id_closeRow hl.changeIds
  · obtain ⟨old, hold, rfl⟩ := List.mem_map.1 hrow
    rw [id_closeRow]
    exact hl.changeFresh old hold
  · obtain ⟨old, hold, rfl⟩ := List.mem_map.1 hrow
    obtain ⟨s, d, c', hold'⟩ := hwf.recorded old hold
    have hclosed : Records db (closeRow change acceptedAt old) s d c' := by
      unfold closeRow
      split
      · exact hold'.accept acceptedAt
      · exact hold'
    exact ⟨_, d, c', hclosed.mono (List.mem_map_of_mem hold'.source_mem)
      (id_raiseVersion source s) (key_raiseVersion source s) hold'.dataset_mem⟩

end Acceptances

/-! ## Syncs -/

omit [Hashlib] in
theorem linked_withCatalog (hl : db.Linked) {pipelines : List PipelineModel}
    {edges : List LineageEdgeModel} {next : Uuid} (hnext : db.nextId ≤ next) :
    (db.withCatalog pipelines edges next).Linked :=
  { hl with
    sourceFresh := fun s hs => (hl.sourceFresh s hs).trans_le hnext
    datasetFresh := fun d hd => (hl.datasetFresh d hd).trans_le hnext
    scanFresh := fun s hs => (hl.scanFresh s hs).trans_le hnext
    observedFresh := fun o ho => (hl.observedFresh o ho).trans_le hnext
    changeFresh := fun c hcm => (hl.changeFresh c hcm).trans_le hnext
    deliveryFresh := fun d hd => (hl.deliveryFresh d hd).trans_le hnext }

/-- **Another catalog keeps the tables well-formed**, where its rows are
linked. -/
theorem withCatalog_wellFormed (hwf : db.WellFormed) {pipelines : List PipelineModel}
    {edges : List LineageEdgeModel} {next : Uuid} (hnext : db.nextId ≤ next)
    (hc : (db.withCatalog pipelines edges next).Constraints)
    (hlinked : (db.withCatalog pipelines edges next).LineageLinked) :
    (db.withCatalog pipelines edges next).WellFormed := by
  refine ⟨hc, linked_withCatalog hwf.linked hnext, hlinked, fun row hrow => ?_⟩
  obtain ⟨s, dataset, c, hrec⟩ := hwf.recorded row hrow
  exact ⟨s, dataset, c, { hrec with }⟩

end SchemaSentry
