import SchemaSentry.Application.ScanReturns
import SchemaSentry.System.Reconciliation
/-!
# Schema Sentry — scan progress

When a scan that has collected something completes. A first baseline takes
any observation; a drift scan records its differences exactly where each of
them is on record already or in a dataset of the source, and no two of
those it opens share a fingerprint (`scan_progresses_iff`).
-/

namespace SchemaSentry

open Lib

section Progress

variable [Hashlib]
variable {db : DB} {source : DataSourceModel} {req : ScanRequest}
variable {expected observed : List ColumnDefinition} {c : SchemaChange}

/-! ## The tables a scan would leave -/

omit [Hashlib] in
/-- The texts of an observation fit the columns that hold them. -/
def Fits (observed : List ColumnDefinition) : Prop :=
  ∀ column ∈ observed, (fits 63 column.dataset.schema ∧ fits 63 column.dataset.table) ∧
    fits 63 column.name ∧ ∀ e ∈ column.default, fits 1000 e

omit [Hashlib] in
instance (observed : List ColumnDefinition) : Decidable (Fits observed) :=
  inferInstanceAs (Decidable (∀ _ ∈ observed, _))

omit [Hashlib] in
theorem observedLengths_of_fits (hc : db.Constraints) (hfits : Fits observed) (scanId : Uuid) :
    ∀ c ∈ db.observedColumns ++ observed.map (observedRow scanId),
      (fits 63 c.schemaName ∧ fits 63 c.tableName) ∧ fits 63 c.name ∧
        ∀ e ∈ c.defaultExpression, fits 1000 e := by
  intro c hmem
  rcases List.mem_append.1 hmem with hold | hnew
  · exact hc.observedLengths c hold
  · obtain ⟨column, hcolumn, rfl⟩ := List.mem_map.1 hnew
    exact hfits column hcolumn

/-- **A first baseline meets the constraints.** -/
theorem baselined_constraints (hwf : db.WellFormed) (hfits : Fits observed)
    (hdistinct : DistinctRefs observed) (hbase : db.baseline source.id = []) :
    (req.baselined source observed db).Constraints := by
  have hc := hwf.constraints
  have hl := hwf.linked
  obtain ⟨next, added, rows, hrows, heq⟩ := baselined_eq hwf req source observed
  rw [heq]
  have hids : ((db.datasets ++ added).map DatasetModel.id).Nodup :=
    nodup_map_append hl.datasetIds hrows.ids hl.datasetFresh
      fun d hd => Nat.le_of_succ_le (hrows.fresh d hd).1
  refine { hc with
    datasetIdentity := ?_
    expectedColumnIdentity := ?_
    datasetLengths := fun d hd => ?_
    expectedLengths := fun row hrow => ?_
    observedLengths := observedLengths_of_fits hc hfits db.nextId }
  · refine List.Nodup.map_on (fun d hd d' hd' hkey => ?_) (List.Nodup.of_map _ hids)
    obtain ⟨hs, hrest⟩ := Prod.mk.inj hkey
    obtain ⟨hschema, htable⟩ := Prod.mk.inj hrest
    have href : d.ref = d'.ref := by rw [DatasetModel.ref, DatasetModel.ref, hschema, htable]
    rcases List.mem_append.1 hd with hold | hnew
    · rcases List.mem_append.1 hd' with hold' | hnew'
      · exact eq_dataset hc hold hold' hs href
      · exact hrows.apart d' hnew' d hd (hs.trans (hrows.owner d' hnew')) href
    · exact (hrows.apart d hnew d' hd' (hs.symm.trans (hrows.owner d hnew)) href.symm).symm
  · rw [List.map_append]
    refine List.Nodup.append hc.expectedColumnIdentity
      (nodup_map_of_forall₂ hrows.placed hdistinct ?_) fun key hold hnew => ?_
    · rintro x _ x' _ ⟨d, hd, -, href, rfl⟩ ⟨d', hd', -, href', rfl⟩ hkey
      obtain ⟨hid, hname⟩ := Prod.mk.inj hkey
      obtain rfl : d = d' := eq_of_nodup_map hids hd hd' hid
      exact congrArg₂ ColumnRef.mk (href.symm.trans href') hname
    · -- a row there already is of a dataset there already, and so in the baseline
      obtain ⟨row, hrow, rfl⟩ := List.mem_map.1 hold
      obtain ⟨row', hrow', hkey⟩ := List.mem_map.1 hnew
      obtain ⟨column, -, d, hd, hs, -, rfl⟩ := hrows.exists_of_mem hrow'
      obtain ⟨d', hd', hid'⟩ := hl.expectedDataset row hrow
      obtain rfl : d = d' := eq_of_nodup_map hids hd (List.mem_append_left _ hd')
        ((Prod.mk.inj hkey).1.trans hid'.symm)
      obtain ⟨type, htype⟩ := hl.expectedTyped row hrow
      have hmem : (⟨d.ref, row.name, type, row.nullable, row.defaultExpression, row.ordinal⟩ :
          ColumnDefinition) ∈ db.baseline source.id := by
        refine (mem_baseline hl).2 ⟨d, hd', hs, rfl, ?_⟩
        rw [expectedRow, hid', ← htype]
        exact hrow
      rw [hbase] at hmem
      cases hmem
  · rcases List.mem_append.1 hd with hold | hnew
    · exact hc.datasetLengths d hold
    · obtain ⟨column, hcolumn, href⟩ := hrows.seen d hnew
      obtain ⟨hschema, htable⟩ := DatasetRef.mk.inj href
      rw [hschema, htable]
      exact (hfits column hcolumn).1
  · rcases List.mem_append.1 hrow with hold | hnew
    · exact hc.expectedLengths row hold
    · obtain ⟨column, hcolumn, d, -, -, -, rfl⟩ := hrows.exists_of_mem hnew
      exact (hfits column hcolumn).2

/-- The rows a scan opens have its new differences' fingerprints. -/
theorem fingerprints_openedRows
    (hin : InDatasets (db.datasetsByRef source.id) (db.opened source expected observed)) :
    (req.openedRows source expected observed db).map SchemaChangeModel.fingerprint =
      (db.opened source expected observed).map (changeFingerprint source.key) := by
  have hframe : ∀ (id : Uuid) (row : SchemaChangeModel),
      (row.withId id).fingerprint = row.fingerprint := fun _ _ => rfl
  rw [ScanRequest.openedRows, map_keyed_of_frame hframe]
  generalize db.opened source expected observed = changes at hin
  induction changes with
  | nil => rfl
  | cons c rest ih =>
    obtain ⟨hc, hrest⟩ := List.forall_mem_cons.1 hin
    cases hget : Dict.get? c.dataset (db.datasetsByRef source.id) with
    | none => exact absurd hc (Dict.get?_eq_none_iff.1 hget)
    | some d =>
      rw [changeRows, List.filterMap_cons_some (b := changeRow (req.scan source db).id source d.id
        (changeFingerprint source.key c) c) (by rw [hget]; rfl), List.map_cons, List.map_cons]
      exact congrArg _ (ih hrest)

/-- The source and fingerprint of the rows a scan opens, which are OPEN. -/
theorem openKeys_openedRows (hwf : db.WellFormed)
    (hin : InDatasets (db.datasetsByRef source.id) (db.opened source expected observed)) :
    ((req.openedRows source expected observed db).filter fun c => c.state = .open).map
        (fun c => (c.sourceId, c.fingerprint)) =
      (db.opened source expected observed).map fun c =>
        (source.id, changeFingerprint source.key c) := by
  have hrow : ∀ row ∈ req.openedRows source expected observed db,
      row.state = .open ∧ row.sourceId = source.id := by
    intro row hrow
    obtain ⟨c, -, d, -, -, -, -, heq⟩ := mem_openedRows hwf hrow
    rw [heq]
    exact ⟨rfl, rfl⟩
  have hall : (req.openedRows source expected observed db).filter (fun c => c.state = .open) =
      req.openedRows source expected observed db :=
    List.filter_eq_self.2 fun row hmem => by simpa using (hrow row hmem).1
  rw [hall]
  calc (req.openedRows source expected observed db).map (fun c => (c.sourceId, c.fingerprint))
      = ((req.openedRows source expected observed db).map SchemaChangeModel.fingerprint).map
          (Prod.mk source.id) := by
        rw [List.map_map]
        refine List.map_congr_left fun row hmem => ?_
        rw [Function.comp, (hrow row hmem).2]
    _ = _ := by
        rw [fingerprints_openedRows hin, List.map_map]
        rfl

/-- **No two rows a drift scan leaves OPEN share a fingerprint** where no two
differences it opens do. -/
theorem openFingerprints_drifted_iff (hwf : db.WellFormed)
    (hin : InDatasets (db.datasetsByRef source.id)
      (db.opened source (db.baseline source.id) observed)) :
    (req.drifted source (db.baseline source.id) observed db).openFingerprints.Nodup ↔
      ((db.opened source (db.baseline source.id) observed).map
        (changeFingerprint source.key)).Nodup := by
  have hc := hwf.constraints
  have hpair : ((db.opened source (db.baseline source.id) observed).map
      fun c => (source.id, changeFingerprint source.key c)) =
      ((db.opened source (db.baseline source.id) observed).map
        (changeFingerprint source.key)).map (Prod.mk source.id) := by
    rw [List.map_map]
    rfl
  rw [drifted_eq hwf, DB.openFingerprints, List.filter_append, List.map_append,
    openKeys_openedRows hwf hin, hpair]
  constructor
  · exact fun h => List.Nodup.of_map _ (List.Nodup.of_append_right h)
  · intro hapart
    have hsub : (((db.schemaChanges.map (settle source
        (db.activeFingerprints source (db.baseline source.id) observed)
        req.finishedAt)).filter fun c => c.state = .open).map
          fun c => (c.sourceId, c.fingerprint)).Sublist db.openFingerprints := by
      refine filter_map_sublist (fun row => ?_) (fun row => ?_) _
      · unfold settle
        split
        · simp [SchemaChangeModel.resolve]
        · exact id
      · unfold settle
        split <;> rfl
    refine List.Nodup.append (hc.openFingerprint.sublist hsub)
      (hapart.map fun a b h => (Prod.mk.inj h).2) fun key hold hnew => ?_
    -- a fingerprint there already would not have been opened
    rw [← hpair] at hnew
    obtain ⟨c, hcm, rfl⟩ := List.mem_map.1 hnew
    obtain ⟨row, hrow, hkey⟩ := List.mem_map.1 (hsub.subset hold)
    obtain ⟨hmem, hstate⟩ := List.mem_filter.1 hrow
    obtain ⟨hs, hfp⟩ := Prod.mk.inj hkey
    have hknown : changeFingerprint source.key c ∈ Dict.keys (db.openChanges source.id) :=
      (mem_keys_openChanges hc).2
        ⟨row, mem_openRows.2 ⟨hmem, hs, by simpa using hstate⟩, hfp⟩
    exact absurd hknown (by simpa using (List.mem_filter.1 hcm).2)

/-- **A drift scan meets the constraints** where no two differences it opens
share a fingerprint. -/
theorem drifted_constraints (hwf : db.WellFormed) (hfits : Fits observed)
    (hin : InDatasets (db.datasetsByRef source.id)
      (db.opened source (db.baseline source.id) observed))
    (hapart : ((db.opened source (db.baseline source.id) observed).map
      (changeFingerprint source.key)).Nodup) :
    (req.drifted source (db.baseline source.id) observed db).Constraints := by
  have hc := hwf.constraints
  have hopen : (req.drifted source (db.baseline source.id) observed db).openFingerprints.Nodup :=
    (openFingerprints_drifted_iff hwf hin).2 hapart
  rw [drifted_eq hwf] at hopen ⊢
  refine { hc with
    openFingerprint := hopen
    alertDeliveryIdentity := ?_
    observedLengths := observedLengths_of_fits hc hfits db.nextId
    changeLengths := fun row hrow => ?_ }
  · have hdeliveries := nodup_deliveries hc hwf.linked req.settings
      (db.nextId + 1 + (req.openedRows source (db.baseline source.id) observed db).length)
    split
    · exact hdeliveries
    · rw [List.append_nil]
      exact hc.alertDeliveryIdentity
  · rcases List.mem_append.1 hrow with hold | hnew
    · obtain ⟨old, hmem, rfl⟩ := List.mem_map.1 hold
      have hname : (settle source (db.activeFingerprints source (db.baseline source.id) observed)
          req.finishedAt old).columnName = old.columnName := by
        unfold settle
        split <;> rfl
      rw [hname]
      exact hc.changeLengths old hmem
    · obtain ⟨c, hcm, d, -, -, -, -, heq⟩ := mem_openedRows hwf hnew
      rw [heq]
      show fits 63 c.columnName
      -- the column is observed, or the baseline's
      have hdrift := mem_diffColumns.1 (List.mem_of_mem_filter hcm)
      rcases (mem_compareColumn ref_of_columnAt).1 hdrift with ⟨a, -, ha, rfl⟩ | ⟨b, hb, -, rfl⟩ |
        ⟨b, a, hb, -, -, rfl⟩ | ⟨b, a, hb, -, -, rfl⟩
      · exact (hfits a (mem_of_columnAt ha).1).2.1
      all_goals
        obtain ⟨d, -, -, -, hrow⟩ := (mem_baseline hwf.linked).1 (mem_of_columnAt hb).1
        exact (hc.expectedLengths _ hrow).1

/-! ## When a scan progresses -/

omit [Hashlib] in
/-- An OPEN row of the source describes the difference. -/
def Recorded (db : DB) (sourceId : Uuid) (c : SchemaChange) : Prop :=
  ∃ row ∈ db.openRows sourceId, Describes db sourceId row c

/-- The scan returns a report and is COMPLETED; its observation is stored,
and is the baseline where there was none; where there was one, every
difference from it is recorded. -/
structure Progresses (req : ScanRequest) (source : DataSourceModel)
    (observed : List ColumnDefinition) (db : DB) : Prop where
  returned : ∃ report, scanResult req db = .ok report ∧ report.scanId = db.nextId
  completed : ∃ scan ∈ (postScans req db).scanRuns, scan.id = db.nextId ∧
    scan.sourceId = source.id ∧ scan.status = .completed
  stored : (postScans req db).observedColumns.filter (fun c => c.scanId = db.nextId) =
    observed.map (observedRow db.nextId)
  first : db.baseline source.id = [] →
    ∀ column, column ∈ (postScans req db).baseline source.id ↔ column ∈ observed
  drift : db.baseline source.id ≠ [] →
    ∀ c ∈ db.driftChanges source (db.baseline source.id) observed,
      Recorded (postScans req db) source.id c

/-- Every difference is on record, or has a dataset of the source and no
OPEN row with its fingerprint; and those of the second kind have different
fingerprints. -/
structure Recordable (source : DataSourceModel) (observed : List ColumnDefinition) (db : DB) :
    Prop where
  place : ∀ c ∈ db.driftChanges source (db.baseline source.id) observed,
    Recorded db source.id c ∨
      changeFingerprint source.key c ∉ Dict.keys (db.openChanges source.id) ∧
        ∃ d ∈ db.datasets, d.sourceId = source.id ∧ d.ref = c.dataset
  apart : ((db.opened source (db.baseline source.id) observed).map
    (changeFingerprint source.key)).Nodup

/-- What is recorded has its fingerprint among the OPEN rows'. -/
theorem Recorded.mem_keys (hwf : db.WellFormed) (hsource : source ∈ db.sources)
    (hc : c.Filed) (h : Recorded db source.id c) :
    changeFingerprint source.key c ∈ Dict.keys (db.openChanges source.id) := by
  obtain ⟨row, hrow, hdesc⟩ := h
  exact (mem_keys_openChanges hwf.constraints).2
    ⟨row, hrow, fingerprint_of_describes hwf hsource (mem_openRows.1 hrow).1 hdesc hc⟩

theorem Recordable.inDatasets (hwf : db.WellFormed) (hsource : source ∈ db.sources)
    (h : Recordable source observed db) :
    InDatasets (db.datasetsByRef source.id)
      (db.opened source (db.baseline source.id) observed) := by
  intro c hc
  obtain ⟨hdrift, hnew⟩ := List.mem_filter.1 hc
  rcases h.place c hdrift with hrecorded | ⟨-, hdataset⟩
  · have hknown := hrecorded.mem_keys hwf hsource (filed_of_mem_diffColumns hdrift)
    exact absurd hknown (by simpa using hnew)
  · exact (mem_keys_datasetsByRef hwf.constraints).2 hdataset

/-- An observation is stored under its scan and no other's. -/
theorem stored_after (hwf : db.WellFormed) :
    (db.observedColumns ++ observed.map (observedRow db.nextId)).filter
      (fun c => c.scanId = db.nextId) = observed.map (observedRow db.nextId) := by
  have hold : db.observedColumns.filter (fun c => c.scanId = db.nextId) = [] := by
    refine List.filter_eq_nil_iff.2 fun c hc => ?_
    simpa using Nat.ne_of_lt (hwf.linked.observedFresh c hc)
  rw [List.filter_append, hold, List.nil_append]
  refine List.filter_eq_self.2 fun c hc => ?_
  obtain ⟨column, -, rfl⟩ := List.mem_map.1 hc
  simp [observedRow]

/-- **After a first baseline the baseline is the observation.** -/
theorem mem_baseline_baselined (hwf : db.WellFormed) (hsource : source ∈ db.sources)
    (hbase : db.baseline source.id = []) (hc : (req.baselined source observed db).Constraints)
    (column : ColumnDefinition) :
    column ∈ (req.baselined source observed db).baseline source.id ↔ column ∈ observed := by
  have hwf' := baselined_wellFormed hwf hsource hc
  rw [mem_baseline hwf'.linked]
  have hids := hwf'.linked.datasetIds
  obtain ⟨next, added, rows, hrows, heq⟩ := baselined_eq hwf req source observed
  rw [heq] at hids ⊢
  constructor
  · rintro ⟨d, hd, hs, href, hrow⟩
    rcases List.mem_append.1 hrow with hold | hnew
    · obtain ⟨d', hd', hid'⟩ := hwf.linked.expectedDataset _ hold
      obtain rfl : d = d' := eq_of_nodup_map hids hd (List.mem_append_left _ hd') hid'.symm
      have hmem : column ∈ db.baseline source.id :=
        (mem_baseline hwf.linked).2 ⟨d, hd', hs, href, hold⟩
      rw [hbase] at hmem
      cases hmem
    · obtain ⟨column', hcolumn', d', hd', -, href', hsame⟩ := hrows.exists_of_mem hnew
      obtain rfl : d = d' :=
        eq_of_nodup_map hids hd hd' (congrArg ExpectedColumnModel.datasetId hsame)
      rw [(expectedRow_inj (href.symm.trans href') hsame).2]
      exact hcolumn'
  · intro hcolumn
    obtain ⟨d, hd, hs, href, hrow⟩ := hrows.exists_row hcolumn
    exact ⟨d, hd, hs, href, List.mem_append_right _ hrow⟩

/-- **What a completed drift scan has recorded**: the differences that were on
record, and those whose fingerprint was not OPEN. -/
theorem recorded_drifted_iff (hwf : db.WellFormed) (hsource : source ∈ db.sources)
    (hin : InDatasets (db.datasetsByRef source.id)
      (db.opened source (db.baseline source.id) observed))
    (hc : (req.drifted source (db.baseline source.id) observed db).Constraints)
    (hcm : c ∈ db.driftChanges source (db.baseline source.id) observed) :
    Recorded (req.drifted source (db.baseline source.id) observed db) source.id c ↔
      Recorded db source.id c ∨
        changeFingerprint source.key c ∉ Dict.keys (db.openChanges source.id) := by
  have hwf' := drifted_wellFormed hwf hsource hc
  have hdesc : ∀ {row c}, Describes (req.drifted source (db.baseline source.id) observed db)
      source.id row c ↔ Describes db source.id row c := by
    intro row c
    rw [drifted_eq hwf]
    exact ⟨fun h => { h with }, fun h => { h with }⟩
  have hsources : (req.drifted source (db.baseline source.id) observed db).sources =
      db.sources := by rw [drifted_eq hwf]
  have hfiled := filed_of_mem_diffColumns hcm
  constructor
  · rintro ⟨row, hrow, hrowdesc⟩
    have hfp := fingerprint_of_describes hwf' (hsources ▸ hsource) (mem_openRows.1 hrow).1 hrowdesc
      hfiled
    rcases (mem_openRows_drifted hwf).1 hrow with ⟨hold, -⟩ | hnew
    · exact Or.inl ⟨row, hold, hdesc.1 hrowdesc⟩
    · refine Or.inr ?_
      obtain ⟨c', hc', d, -, -, -, -, heq⟩ := mem_openedRows hwf hnew
      have hsame : changeFingerprint source.key c' = changeFingerprint source.key c := by
        rw [← hfp, heq]
        rfl
      rw [← hsame]
      simpa using (List.mem_filter.1 hc').2
  · rintro (⟨row, hrow, hrowdesc⟩ | hnew)
    · refine ⟨row, (mem_openRows_drifted hwf).2 (Or.inl ⟨hrow, ?_⟩), hdesc.2 hrowdesc⟩
      rw [fingerprint_of_describes hwf hsource (mem_openRows.1 hrow).1 hrowdesc hfiled]
      exact List.mem_map_of_mem hcm
    · have hopened : c ∈ db.opened source (db.baseline source.id) observed :=
        List.mem_filter.2 ⟨hcm, by simpa using hnew⟩
      obtain ⟨d, hd, hs, href⟩ := (mem_keys_datasetsByRef hwf.constraints).1 (hin c hopened)
      obtain ⟨id, hrow⟩ : ∃ id, openedRow db.nextId source d c id ∈
          req.openedRows source (db.baseline source.id) observed db :=
        exists_openedRow hwf hopened hd hs href
      exact ⟨_, (mem_openRows_drifted hwf).2 (Or.inr hrow),
        hdesc.2 (records_openedRow hsource hd hs href hcm).describes⟩

/-- A drift scan that recorded all it found could. -/
theorem recordable_of_drifted (hwf : db.WellFormed) (hsource : source ∈ db.sources)
    (hin : InDatasets (db.datasetsByRef source.id)
      (db.opened source (db.baseline source.id) observed))
    (hc : (req.drifted source (db.baseline source.id) observed db).Constraints)
    (hrecorded : ∀ c ∈ db.driftChanges source (db.baseline source.id) observed,
      Recorded (req.drifted source (db.baseline source.id) observed db) source.id c) :
    Recordable source observed db := by
  constructor
  · intro c hcm
    refine ((recorded_drifted_iff hwf hsource hin hc hcm).1 (hrecorded c hcm)).imp_right
      fun hnew => ⟨hnew, ?_⟩
    exact (mem_keys_datasetsByRef hwf.constraints).1
      (hin c (List.mem_filter.2 ⟨hcm, by simpa using hnew⟩))
  · exact (openFingerprints_drifted_iff hwf hin).1 hc.openFingerprint

/-- **A scan of a source with a baseline records what it can.** -/
theorem scan_records (hwf : db.WellFormed) (hf : req.faults = noFaults)
    (hsource : db.sourceOf? req.sourceKey = some source) (hcollected : req.collected = .ok observed)
    (hne : observed ≠ []) (hfits : Fits observed) (hbase : db.baseline source.id ≠ [])
    (hin : InDatasets (db.datasetsByRef source.id)
      (db.opened source (db.baseline source.id) observed))
    (hapart : ((db.opened source (db.baseline source.id) observed).map
      (changeFingerprint source.key)).Nodup) :
    scanResult req db =
      .ok { scanId := db.nextId, sourceKey := req.sourceKey, trigger := req.trigger
            baselineCreated := false, observedCount := observed.length
            changes := db.driftChanges source (db.baseline source.id) observed } ∧
      postScans req db = req.drifted source (db.baseline source.id) observed db ∧
      (req.drifted source (db.baseline source.id) observed db).Constraints := by
  have hc : (req.drifted source (db.baseline source.id) observed db).Constraints :=
    drifted_constraints hwf hfits hin hapart
  obtain ⟨hresult, hpost⟩ := scan_drifts hf hwf.linked.scanFresh hwf.constraints hsource
    hcollected hne (baseline?_eq hwf.linked source.id) hbase hin
    { hwf.constraints with
      observedLengths := observedLengths_of_fits hwf.constraints hfits db.nextId } hc
  exact ⟨hresult, hpost, hc⟩

/-- **A scan progresses exactly where it finds no baseline, or can record
what it finds.** -/
theorem scan_progresses_iff (hreach : db.Reachable fun _ => True) (hf : req.faults = noFaults)
    (hsource : db.sourceOf? req.sourceKey = some source) (hcollected : req.collected = .ok observed)
    (hne : observed ≠ []) (hdistinct : DistinctRefs observed) (hfits : Fits observed) :
    Progresses req source observed db ↔
      db.baseline source.id = [] ∨ Recordable source observed db := by
  have hwf := hreach.wellFormed
  have hmem := (mem_of_sourceOf? hsource).1
  have hread := baseline?_eq hwf.linked source.id
  by_cases hbase : db.baseline source.id = []
  · refine ⟨fun _ => Or.inl hbase, fun _ => ?_⟩
    have hc : (req.baselined source observed db).Constraints :=
      baselined_constraints hwf hfits hdistinct hbase
    rw [hbase] at hread
    obtain ⟨hresult, hpost⟩ := scan_baselines hf hwf.linked.scanFresh hwf.constraints hsource
      hcollected hne hread hc
    have hafter := mem_baseline_baselined hwf hmem hbase hc
    rw [← hpost] at hafter
    obtain ⟨next, added, rows, -, heq⟩ := baselined_eq hwf req source observed
    refine ⟨⟨_, hresult, rfl⟩, ?_, ?_, fun _ => hafter, fun h => absurd hbase h⟩
    · rw [hpost, heq]
      exact ⟨_, List.mem_append_right _ List.mem_cons_self, rfl, rfl, rfl⟩
    · rw [hpost, heq]
      exact stored_after hwf
  · rw [or_iff_right hbase]
    constructor
    · rintro ⟨⟨report, hresult, -⟩, -, -, -, hdrift⟩
      have heff := scanEffect hwf hf
      have hrecorded := hdrift hbase
      rw [hresult] at heff
      generalize postScans req db = after at heff hrecorded
      rcases heff with _ | _ | ⟨hof, -, -, hnone, -⟩ | ⟨hof, hcol, -, -, hin, hc⟩
      · cases hsource.symm.trans hof
        exact absurd hnone hbase
      · cases hsource.symm.trans hof
        cases hcollected.symm.trans hcol
        exact recordable_of_drifted hwf hmem hin hc hrecorded
    · intro h
      have hin := h.inDatasets hwf hmem
      obtain ⟨hresult, hpost, hc⟩ :=
        scan_records hwf hf hsource hcollected hne hfits hbase hin h.apart
      refine ⟨⟨_, hresult, rfl⟩, ?_, ?_, fun hnone => absurd hnone hbase, fun _ c hcm => ?_⟩
      · rw [hpost, drifted_eq hwf]
        exact ⟨_, List.mem_append_right _ List.mem_cons_self, rfl, rfl, rfl⟩
      · rw [hpost, drifted_eq hwf]
        exact stored_after hwf
      · rw [hpost]
        exact (recorded_drifted_iff hwf hmem hin hc hcm).2 ((h.place c hcm).imp_right And.left)

end Progress

section Sample

attribute [local instance] Hashlib.plain

/-- The sample's columns and one of a table that was not there. -/
def sampleGrown : List ColumnDefinition :=
  [sampleColumn "users" "id" "integer" false, sampleColumn "mart" "id" "integer" false,
   sampleColumn "orders" "id" "integer" false]

/-- **A new table stops the scan**: its column is a difference, and no
dataset is there to file it under. -/
theorem new_table_stops_scan :
    sampleTables.Reachable (fun _ => True) ∧ sampleTables.sourceOf? "crm" = some sampleSource ∧
    DistinctRefs sampleGrown ∧ Fits sampleGrown ∧
    scanResult (sampleScan sampleGrown) sampleTables =
      .error (.lookupError "baseline dataset not found: public.orders") ∧
    ¬ Progresses (sampleScan sampleGrown) sampleSource sampleGrown sampleTables := by
  have hresult : scanResult (sampleScan sampleGrown) sampleTables =
      .error (.lookupError "baseline dataset not found: public.orders") := by decide +kernel
  refine ⟨sampleTables_reachable.any, by decide, by decide, by decide, hresult, fun h => ?_⟩
  obtain ⟨report, hreport, -⟩ := h.returned
  rw [hresult] at hreport
  cases hreport

/-- In the sample the loss of a column is recorded. -/
theorem scan_progresses_iff_sample :
    Progresses sampleLoss sampleSource [sampleColumn "mart" "id" "integer" false] sampleTables ↔
      sampleTables.baseline 0 = [] ∨
        Recordable sampleSource [sampleColumn "mart" "id" "integer" false] sampleTables :=
  scan_progresses_iff sampleTables_reachable.any rfl (by decide) rfl (by decide) (by decide)
    (by decide)

end Sample

end SchemaSentry
