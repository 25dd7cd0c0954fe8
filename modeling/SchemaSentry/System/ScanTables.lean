import SchemaSentry.Application.ScanOutcome
import SchemaSentry.System.WellFormed
/-!
# Schema Sentry — the tables after a scan

Each outcome of a scan as one rewriting of the tables it met, in
well-formed tables: what a failed scan, a drift scan and a first baseline
add, what the drift scan settles, and what all of them leave alone.
-/

namespace SchemaSentry

open Lib

variable [Hashlib]
variable {req : ScanRequest} {db : DB} {source : DataSourceModel}
variable {expected observed : List ColumnDefinition}

/-! ## A failed scan -/

/-- The row of a scan that failed. -/
def ScanRequest.failedScan (req : ScanRequest) (source : DataSourceModel) (e : PyException)
    (db : DB) : ScanRunModel :=
  { req.scan source db with
    status := .failed
    finishedAt := some req.failedAt
    durationMs := some (durationMs req.startedAt req.failedAt)
    errorCode := some e.typeName
    errorMessage := some "schema collection failed" }

omit [Hashlib] in
/-- **A failed scan adds its row and its deliveries**, and nothing else. -/
theorem failed_eq (hfresh : db.FreshScans) (source : DataSourceModel) (e : PyException) :
    req.failed source e db =
      { db with
        scanRuns := db.scanRuns ++ [req.failedScan source e db]
        alertDeliveries := db.alertDeliveries ++
          pendingDeliveries (db.nextId + 1) db.nextId (enabledChannels req.settings)
        nextId := db.nextId + 1 + (enabledChannels req.settings).length } := by
  have hruns : (db.scanRuns ++ [req.scan source db]).map (fun x =>
      if x.id = (req.scan source db).id then
        { x with
          status := .failed
          finishedAt := some req.failedAt
          durationMs := some (durationMs (req.scan source db).startedAt req.failedAt)
          errorCode := some e.typeName
          errorMessage := some "schema collection failed" }
      else x) = db.scanRuns ++ [req.failedScan source e db] :=
    updateScan_of_fresh hfresh
  rw [ScanRequest.failed, DB.failed, addDeliveries_eq]
  simp only [ScanRequest.started, DB.addScanRun, DB.updateScan, DB.mk.injEq, true_and, and_true]
  exact ⟨hruns, rfl⟩

/-! ## A drift scan -/

/-- The row of a scan that completed. -/
def ScanRequest.completedScan (req : ScanRequest) (source : DataSourceModel) (db : DB) :
    ScanRunModel :=
  { req.scan source db with
    status := .completed
    finishedAt := some req.finishedAt
    durationMs := some (durationMs req.startedAt req.finishedAt) }

/-- A change row of the source that is OPEN and not active any more is
resolved. -/
def settle (source : DataSourceModel) (active : List String) (resolvedAt : Timestamp)
    (c : SchemaChangeModel) : SchemaChangeModel :=
  if c.sourceId = source.id ∧ c.state = .open ∧ c.fingerprint ∉ active then c.resolve resolvedAt
  else c

omit [Hashlib] in
theorem id_settle {active : List String} {resolvedAt : Timestamp} (c : SchemaChangeModel) :
    (settle source active resolvedAt c).id = c.id := by
  unfold settle
  split <;> rfl

/-- The fingerprints of a scan's differences. -/
def DB.activeFingerprints (db : DB) (source : DataSourceModel)
    (expected observed : List ColumnDefinition) : List String :=
  (db.driftChanges source expected observed).map (changeFingerprint source.key)

/-- The differences a scan opens. -/
def DB.opened (db : DB) (source : DataSourceModel) (expected observed : List ColumnDefinition) :
    List SchemaChange :=
  newChanges source.key (db.openChanges source.id) (db.driftChanges source expected observed)

/-- The rows of the differences a scan opens, with their keys. -/
def ScanRequest.openedRows (req : ScanRequest) (source : DataSourceModel)
    (expected observed : List ColumnDefinition) (db : DB) : List SchemaChangeModel :=
  keyed SchemaChangeModel.withId (db.nextId + 1)
    (changeRows (req.scan source db) source source.key (db.datasetsByRef source.id)
      (db.opened source expected observed))

/-- A scan is alertable where it opens a WARNING or a BREAKING difference. -/
def DB.opensAlertable (db : DB) (source : DataSourceModel)
    (expected observed : List ColumnDefinition) : Bool :=
  (db.opened source expected observed).any fun c => c.severity.alertable

theorem length_openedRows : (req.openedRows source expected observed db).length =
    (changeRows (req.scan source db) source source.key (db.datasetsByRef source.id)
      (db.opened source expected observed)).length := by
  simp [ScanRequest.openedRows, keyed]

/-- The rows a drift scan resolves are the OPEN rows not active any more. -/
theorem mem_absentIds (hwf : db.WellFormed) {active : List String} {c : SchemaChangeModel}
    (hc : c ∈ db.schemaChanges) :
    c.id ∈ absentIds (db.openChanges source.id) active ↔
      c.sourceId = source.id ∧ c.state = .open ∧ c.fingerprint ∉ active := by
  simp only [absentIds, openChanges_eq hwf.constraints, List.mem_map, List.mem_filter,
    decide_eq_true_eq]
  constructor
  · rintro ⟨item, ⟨⟨row, hrow, rfl⟩, hactive⟩, hid⟩
    obtain ⟨hmem, hs, hopen⟩ := mem_openRows.1 hrow
    obtain rfl : row = c := eq_of_nodup_map hwf.linked.changeIds hmem hc hid
    exact ⟨hs, hopen, hactive⟩
  · rintro ⟨hs, hopen, hactive⟩
    exact ⟨(c.fingerprint, c), ⟨⟨c, mem_openRows.2 ⟨hc, hs, hopen⟩, rfl⟩, hactive⟩, rfl⟩

/-- What is resolved was there before. -/
theorem lt_of_mem_absentIds (hwf : db.WellFormed) {active : List String} {id : Uuid}
    (h : id ∈ absentIds (db.openChanges source.id) active) : id < db.nextId := by
  simp only [absentIds, openChanges_eq hwf.constraints, List.mem_map, List.mem_filter] at h
  obtain ⟨item, ⟨⟨row, hrow, rfl⟩, -⟩, rfl⟩ := h
  exact hwf.linked.changeFresh row (mem_openRows.1 hrow).1

/-- **A drift scan** adds its row, its observation, a row for each
difference it opens and the deliveries if one is alertable, and settles the
OPEN rows. -/
theorem drifted_eq (hwf : db.WellFormed) :
    req.drifted source expected observed db =
      { db with
        scanRuns := db.scanRuns ++ [req.completedScan source db]
        observedColumns := db.observedColumns ++ observed.map (observedRow db.nextId)
        schemaChanges :=
          db.schemaChanges.map (settle source (db.activeFingerprints source expected observed)
            req.finishedAt) ++ req.openedRows source expected observed db
        alertDeliveries := db.alertDeliveries ++
          if db.opensAlertable source expected observed then
            pendingDeliveries
              (db.nextId + 1 + (req.openedRows source expected observed db).length) db.nextId
              (enabledChannels req.settings)
          else []
        nextId := db.nextId + 1 + (req.openedRows source expected observed db).length +
          if db.opensAlertable source expected observed then
            (enabledChannels req.settings).length else 0 } := by
  have hruns : (db.scanRuns ++ [req.scan source db]).map (fun x =>
      if x.id = (req.scan source db).id then
        { x with
          status := .completed
          finishedAt := some req.finishedAt
          durationMs := some (durationMs (req.scan source db).startedAt req.finishedAt) }
      else x) = db.scanRuns ++ [req.completedScan source db] :=
    updateScan_of_fresh hwf.linked.scanFresh
  have hchanges : (db.schemaChanges ++ req.openedRows source expected observed db).map (fun c =>
      if c.id ∈ absentIds (db.openChanges source.id)
          (db.activeFingerprints source expected observed).reverse then
        c.resolve req.finishedAt else c) =
      db.schemaChanges.map (settle source (db.activeFingerprints source expected observed)
        req.finishedAt) ++ req.openedRows source expected observed db := by
    rw [List.map_append]
    congr 1
    · refine List.map_congr_left fun c hc => ?_
      simp only [settle, mem_absentIds hwf hc, List.mem_reverse]
    · -- the rows just added have keys that no row had before
      conv_rhs => rw [← List.map_id (req.openedRows source expected observed db)]
      refine List.map_congr_left fun c hc => ?_
      obtain ⟨i, -, r, -, rfl⟩ := mem_keyed hc
      have hnot : (r.withId (db.nextId + 1 + i)).id ∉ absentIds (db.openChanges source.id)
          (db.activeFingerprints source expected observed).reverse := by
        intro hmem
        have hlt : db.nextId + 1 + i < db.nextId := lt_of_mem_absentIds hwf hmem
        exact absurd hlt (by rw [Nat.add_assoc]; exact Nat.not_lt.2 (Nat.le_add_right _ _))
      rw [if_neg hnot]
      rfl
  have halert : ((newChanges source.key ((req.started source db).openChanges source.id)
      (db.driftChanges source expected observed)).any fun c => c.severity.alertable) =
      db.opensAlertable source expected observed := rfl
  simp only [ScanRequest.drifted, DB.afterDrift, DB.completed, halert, addSchemaChanges_eq,
    resolveAbsent_eq, addDeliveries_eq, length_openedRows]
  by_cases h : db.opensAlertable source expected observed = true
  · simp only [h, if_true, DB.updateScan, DB.mk.injEq]
    exact ⟨rfl, rfl, rfl, hruns, rfl, hchanges, rfl, rfl, rfl, rfl⟩
  · simp only [h, DB.updateScan, DB.mk.injEq]
    exact ⟨rfl, rfl, rfl, hruns, rfl, hchanges, rfl, rfl, (List.append_nil _).symm, rfl⟩

/-- A drift scan leaves every baseline as it was. -/
theorem baseline_drifted (hwf : db.WellFormed) (sourceId : Uuid) :
    (req.drifted source expected observed db).baseline sourceId = db.baseline sourceId :=
  baseline_congr (by rw [drifted_eq hwf]) (by rw [drifted_eq hwf]) sourceId

/-- A drift scan leaves every source's dependencies as they were. -/
theorem dependencies_drifted (hwf : db.WellFormed) (sourceId : Uuid) :
    (req.drifted source expected observed db).dependencies sourceId = db.dependencies sourceId :=
  dependencies_congr (by rw [drifted_eq hwf]) (by rw [drifted_eq hwf]) sourceId

/-- The row of a difference opened, in its dataset. -/
def openedRow (scanId : Uuid) (source : DataSourceModel) (dataset : DatasetModel)
    (c : SchemaChange) (id : Uuid) : SchemaChangeModel :=
  (changeRow scanId source dataset.id (changeFingerprint source.key c) c).withId id

/-- A row a drift scan opens is a difference's, in the dataset it is in. -/
theorem mem_openedRows (hwf : db.WellFormed) {row : SchemaChangeModel}
    (h : row ∈ req.openedRows source expected observed db) :
    ∃ c ∈ db.opened source expected observed, ∃ d ∈ db.datasets, d.sourceId = source.id ∧
      d.ref = c.dataset ∧ db.nextId < row.id ∧
      row = openedRow db.nextId source d c row.id := by
  obtain ⟨i, -, r, hr, rfl⟩ := mem_keyed h
  obtain ⟨c, hc, hrow⟩ := List.mem_filterMap.1 hr
  obtain ⟨d, hget, rfl⟩ := Option.map_eq_some_iff.1 hrow
  obtain ⟨hd, hs, href⟩ := (get?_datasetsByRef hwf.constraints).1 hget
  exact ⟨c, hc, d, hd, hs, href, Nat.lt_of_succ_le (Nat.le_add_right _ _), rfl⟩

theorem id_lt_of_mem_openedRows {row : SchemaChangeModel}
    (h : row ∈ req.openedRows source expected observed db) :
    row.id < db.nextId + 1 + (req.openedRows source expected observed db).length := by
  rw [length_openedRows]
  obtain ⟨i, hi, r, -, rfl⟩ := mem_keyed h
  exact Nat.add_lt_add_left hi _

/-- Each difference opened in a dataset there is has its row. -/
theorem exists_openedRow (hwf : db.WellFormed) {c : SchemaChange}
    (hc : c ∈ db.opened source expected observed) {d : DatasetModel} (hd : d ∈ db.datasets)
    (hs : d.sourceId = source.id) (href : d.ref = c.dataset) :
    ∃ id, openedRow db.nextId source d c id ∈ req.openedRows source expected observed db := by
  have hget := (get?_datasetsByRef hwf.constraints).2 ⟨hd, hs, href⟩
  have hrow : changeRow db.nextId source d.id (changeFingerprint source.key c) c ∈
      changeRows (req.scan source db) source source.key (db.datasetsByRef source.id)
        (db.opened source expected observed) :=
    List.mem_filterMap.2 ⟨c, hc, by rw [hget]; rfl⟩
  obtain ⟨i, -, hmem⟩ : ∃ i < _, SchemaChangeModel.withId (db.nextId + 1 + i) _ ∈
      req.openedRows source expected observed db := exists_mem_keyed hrow
  exact ⟨_, hmem⟩

/-- **The OPEN rows after a drift scan** are the old ones it finds active and
the ones it opens. -/
theorem mem_openRows_drifted (hwf : db.WellFormed) {row : SchemaChangeModel} :
    row ∈ (req.drifted source expected observed db).openRows source.id ↔
      (row ∈ db.openRows source.id ∧
        row.fingerprint ∈ db.activeFingerprints source expected observed) ∨
      row ∈ req.openedRows source expected observed db := by
  rw [mem_openRows, drifted_eq hwf, List.mem_append, List.mem_map, mem_openRows]
  constructor
  · rintro ⟨⟨old, hold, rfl⟩ | hnew, hs, hstate⟩
    · unfold settle at hs hstate ⊢
      split at hs
      · rename_i habsent
        rw [if_pos habsent] at hstate
        cases hstate
      · rename_i hkept
        rw [if_neg hkept] at hstate ⊢
        refine Or.inl ⟨⟨hold, hs, hstate⟩, ?_⟩
        by_contra hnot
        exact hkept ⟨hs, hstate, hnot⟩
    · exact Or.inr hnew
  · rintro (⟨⟨hmem, hs, hstate⟩, hactive⟩ | hnew)
    · refine ⟨Or.inl ⟨row, hmem, ?_⟩, hs, hstate⟩
      unfold settle
      rw [if_neg fun h => h.2.2 hactive]
    · obtain ⟨c, -, d, -, -, -, -, heq⟩ := mem_openedRows hwf hnew
      exact ⟨Or.inr hnew, by rw [heq]; rfl, by rw [heq]; rfl⟩

/-- After a drift scan every OPEN row has the fingerprint of a difference. -/
theorem active_of_mem_openRows_drifted (hwf : db.WellFormed) {row : SchemaChangeModel}
    (h : row ∈ (req.drifted source expected observed db).openRows source.id) :
    row.fingerprint ∈ db.activeFingerprints source expected observed := by
  rcases (mem_openRows_drifted hwf).1 h with ⟨-, hactive⟩ | hnew
  · exact hactive
  · obtain ⟨c, hc, d, -, -, -, -, heq⟩ := mem_openedRows hwf hnew
    rw [heq]
    exact List.mem_map_of_mem (List.mem_of_mem_filter hc)

/-! ## The first baseline -/

/-- A dictionary looks up a source's datasets. -/
def Tracks (sourceId : Uuid) (datasets : Dict DatasetRef DatasetModel) (db : DB) : Prop :=
  ∀ ref d, Dict.get? ref datasets = some d ↔ d ∈ db.datasets ∧ d.sourceId = sourceId ∧ d.ref = ref

/-- What the loop of `complete_initial_baseline` adds: datasets of the
source with keys not used before, and for each column a row in the dataset
it is in. -/
structure BaselineRows (sourceId : Uuid) (observed : List ColumnDefinition) (db : DB)
    (next : Uuid) (datasets : List DatasetModel) (rows : List ExpectedColumnModel) : Prop where
  next_le : db.nextId ≤ next
  ids : (datasets.map DatasetModel.id).Nodup
  fresh : ∀ d ∈ datasets, db.nextId ≤ d.id ∧ d.id < next
  owner : ∀ d ∈ datasets, d.sourceId = sourceId
  seen : ∀ d ∈ datasets, ∃ column ∈ observed, d.ref = column.dataset
  apart : ∀ d ∈ datasets, ∀ d' ∈ db.datasets ++ datasets, d'.sourceId = sourceId →
    d'.ref = d.ref → d' = d
  placed : List.Forall₂ (fun (column : ColumnDefinition) row => ∃ d ∈ db.datasets ++ datasets,
    d.sourceId = sourceId ∧ d.ref = column.dataset ∧ row = expectedRow d.id column) observed rows

omit [Hashlib] in
/-- Each row is a column's, in the dataset it is in. -/
theorem BaselineRows.exists_of_mem {sourceId next : Uuid} {datasets : List DatasetModel}
    {rows : List ExpectedColumnModel} (h : BaselineRows sourceId observed db next datasets rows)
    {row : ExpectedColumnModel} (hrow : row ∈ rows) :
    ∃ column ∈ observed, ∃ d ∈ db.datasets ++ datasets, d.sourceId = sourceId ∧
      d.ref = column.dataset ∧ row = expectedRow d.id column :=
  exists_left_of_forall₂ h.placed hrow

omit [Hashlib] in
/-- Each column has its row. -/
theorem BaselineRows.exists_row {sourceId next : Uuid} {datasets : List DatasetModel}
    {rows : List ExpectedColumnModel} (h : BaselineRows sourceId observed db next datasets rows)
    {column : ColumnDefinition} (hcolumn : column ∈ observed) :
    ∃ d ∈ db.datasets ++ datasets, d.sourceId = sourceId ∧ d.ref = column.dataset ∧
      expectedRow d.id column ∈ rows := by
  obtain ⟨row, hrow, d, hd, hs, hr, rfl⟩ := exists_right_of_forall₂ h.placed hcolumn
  exact ⟨d, hd, hs, hr, hrow⟩

omit [Hashlib] in
theorem Tracks.addDataset {sourceId : Uuid} {datasets : Dict DatasetRef DatasetModel}
    {ref : DatasetRef} (h : Tracks sourceId datasets db) (hnone : Dict.get? ref datasets = none) :
    Tracks sourceId
      (Dict.insert ref ⟨db.nextId, sourceId, ref.schema, ref.table⟩ datasets)
      (db.addDataset sourceId ref) := by
  intro ref' d
  rw [Dict.get?_insert]
  by_cases href : ref' = ref
  · subst href
    simp only [if_true, Option.some.injEq, DB.addDataset, List.mem_append, List.mem_singleton]
    constructor
    · rintro rfl
      exact ⟨Or.inr rfl, rfl, rfl⟩
    · rintro ⟨hd | hd, hs, hr⟩
      · rw [(h ref' d).2 ⟨hd, hs, hr⟩] at hnone
        cases hnone
      · exact hd.symm
  · simp only [href, if_false, h ref' d, DB.addDataset, List.mem_append, List.mem_singleton]
    constructor
    · rintro ⟨hd, hs, hr⟩
      exact ⟨Or.inl hd, hs, hr⟩
    · rintro ⟨hd | rfl, hs, hr⟩
      · exact ⟨hd, hs, hr⟩
      · exact absurd hr.symm href

omit [Hashlib] in
theorem withBaseline_eq {sourceId : Uuid} {datasets : Dict DatasetRef DatasetModel}
    (h : Tracks sourceId datasets db) (observed : List ColumnDefinition) :
    ∃ next added rows, BaselineRows sourceId observed db next added rows ∧
      db.withBaseline sourceId datasets observed =
        { db with
          datasets := db.datasets ++ added
          expectedColumns := db.expectedColumns ++ rows
          nextId := next } := by
  induction observed generalizing db datasets with
  | nil =>
    exact ⟨db.nextId, [], [], ⟨Nat.le_refl _, by simp, by simp, by simp, by simp, by simp, .nil⟩,
      by simp [DB.withBaseline]⟩
  | cons column rest ih =>
    rw [DB.withBaseline]
    cases hget : Dict.get? column.dataset datasets with
    | some d =>
      obtain ⟨hd, hs, hr⟩ := (h column.dataset d).1 hget
      have htracks : Tracks sourceId datasets (db.addExpectedColumn (expectedRow d.id column)) := h
      obtain ⟨next, added, rows, hrows, heq⟩ := ih htracks
      refine ⟨next, added, expectedRow d.id column :: rows, ⟨hrows.next_le, hrows.ids, hrows.fresh,
        hrows.owner, fun d' hd' => ?_, hrows.apart,
        .cons ⟨d, List.mem_append_left _ hd, hs, hr, rfl⟩ hrows.placed⟩, ?_⟩
      · obtain ⟨c, hc, hcr⟩ := hrows.seen d' hd'
        exact ⟨c, List.mem_cons_of_mem _ hc, hcr⟩
      · refine heq.trans ?_
        simp only [DB.addExpectedColumn, List.append_assoc, List.singleton_append]
    | none =>
      have htracks : Tracks sourceId (Dict.insert column.dataset
          ⟨db.nextId, sourceId, column.dataset.schema, column.dataset.table⟩ datasets)
          ((db.addDataset sourceId column.dataset).addExpectedColumn
            (expectedRow db.nextId column)) := h.addDataset hget
      obtain ⟨next, added, rows, hrows, heq⟩ := ih htracks
      have hnext : db.nextId < next := hrows.next_le
      refine ⟨next, ⟨db.nextId, sourceId, column.dataset.schema, column.dataset.table⟩ :: added,
        expectedRow db.nextId column :: rows, ⟨Nat.le_of_lt hnext, ?_, ?_, ?_, ?_, ?_, ?_⟩, ?_⟩
      · rw [List.map_cons, List.nodup_cons]
        refine ⟨fun hmem => ?_, hrows.ids⟩
        obtain ⟨d, hd, hid⟩ := List.mem_map.1 hmem
        have hle : db.nextId + 1 ≤ d.id := (hrows.fresh d hd).1
        rw [hid] at hle
        exact absurd hle (Nat.not_succ_le_self _)
      · intro d hd
        rcases List.mem_cons.1 hd with rfl | hold
        · exact ⟨Nat.le_refl _, hnext⟩
        · exact ⟨Nat.le_of_succ_le (hrows.fresh d hold).1, (hrows.fresh d hold).2⟩
      · intro d hd
        rcases List.mem_cons.1 hd with rfl | hold
        · rfl
        · exact hrows.owner d hold
      · intro d hd
        rcases List.mem_cons.1 hd with rfl | hold
        · exact ⟨column, List.mem_cons_self, rfl⟩
        · obtain ⟨c, hc, hcr⟩ := hrows.seen d hold
          exact ⟨c, List.mem_cons_of_mem _ hc, hcr⟩
      · intro d hd d' hd' hs hr
        have hapart := hrows.apart
        simp only [DB.addDataset, DB.addExpectedColumn, List.append_assoc,
          List.singleton_append] at hapart
        rcases List.mem_cons.1 hd with rfl | hold
        · rcases List.mem_append.1 hd' with hbefore | hnew
          · rw [(h column.dataset d').2 ⟨hbefore, hs, hr⟩] at hget
            cases hget
          · rcases List.mem_cons.1 hnew with rfl | hlater
            · rfl
            · exact (hapart d' hlater _ (List.mem_append_right _ List.mem_cons_self) rfl
                hr.symm).symm
        · exact hapart d hold d' hd' hs hr
      · have hall := hrows.placed
        simp only [DB.addDataset, DB.addExpectedColumn, List.append_assoc,
          List.singleton_append] at hall
        exact .cons ⟨_, List.mem_append_right _ List.mem_cons_self, rfl, rfl, rfl⟩ hall
      · refine heq.trans ?_
        simp only [DB.addDataset, DB.addExpectedColumn, List.append_assoc,
          List.singleton_append]

/-- **The first baseline** adds the scan's row and its observation, the
datasets that were not there and a row for each column. -/
theorem baselined_eq (hwf : db.WellFormed) (req : ScanRequest) (source : DataSourceModel)
    (observed : List ColumnDefinition) :
    ∃ next added rows, BaselineRows source.id observed (req.started source db) next added rows ∧
      req.baselined source observed db =
        { db with
          scanRuns := db.scanRuns ++ [req.completedScan source db]
          datasets := db.datasets ++ added
          expectedColumns := db.expectedColumns ++ rows
          observedColumns := db.observedColumns ++ observed.map (observedRow db.nextId)
          nextId := next } := by
  have htracks : Tracks source.id ((req.started source db).datasetsByRef source.id)
      (req.started source db) := fun ref d => get?_datasetsByRef hwf.constraints
  obtain ⟨next, added, rows, hrows, heq⟩ := withBaseline_eq htracks observed
  have hruns : (db.scanRuns ++ [req.scan source db]).map (fun x =>
      if x.id = (req.scan source db).id then
        { x with
          status := .completed
          finishedAt := some req.finishedAt
          durationMs := some (durationMs (req.scan source db).startedAt req.finishedAt) }
      else x) = db.scanRuns ++ [req.completedScan source db] :=
    updateScan_of_fresh hwf.linked.scanFresh
  refine ⟨next, added, rows, hrows, ?_⟩
  rw [ScanRequest.baselined, DB.afterBaseline, DB.completed, heq]
  simp only [DB.addObservedColumns, DB.updateScan, ScanRequest.started, DB.addScanRun,
    DB.mk.injEq, true_and, and_true]
  exact ⟨hruns, rfl⟩

end SchemaSentry
