import SchemaSentry.System.Isolation
/-!
# Schema Sentry — what releases a pipeline

A change that blocks a pipeline goes on blocking it until a request
releases it: the change is accepted, a drift scan of its source completes
without finding it, or another catalog is stored whose edges lead nowhere
from its column to the pipeline (`blocked_throughout_iff`). No failed scan,
no scan of another source, no acceptance of another change and no sync that
keeps the chain lets the pipeline through. A change once accepted or
resolved blocks nothing again, whatever is stored later
(`closed_never_blocks`).
-/

namespace SchemaSentry

open Lib

variable {db : DB} {k : String} {row : SchemaChangeModel} {d : DatasetModel}

/-- `validate_pipeline` lists a change against a pipeline. -/
def DB.Blocks (db : DB) (k : String) (changeId : Uuid) : Prop :=
  ∃ v, validateResult k db = .ok v ∧ ∃ b ∈ v.blockingChanges, b.id = changeId

section Requests

variable [Hashlib]

/-- A request closes an OPEN row: it accepts the change, or it is a scan of
the row's source that completes against its baseline and whose differences
do not have the row's fingerprint. -/
def Op.Closes (row : SchemaChangeModel) (db : DB) : Op → Prop
  | .scan req => ∃ source report, db.sourceOf? req.sourceKey = some source ∧
      source.id = row.sourceId ∧ scanResult req db = .ok report ∧
      report.baselineCreated = false ∧
      row.fingerprint ∉ report.changes.map (changeFingerprint req.sourceKey)
  | .accept req => req.changeId = row.id ∧ ∃ result, acceptResult req db = .ok result
  | .sync _ => False
  | .relink _ _ => False

/-- A request stores another catalog, whose edges lead nowhere from a column
to a pipeline. -/
def Op.Reroutes (column : ColumnRef) (k : String) (db : DB) : Op → Prop
  | .scan _ => False
  | .accept _ => False
  | .sync document => ¬ Reaches (syncCatalog document db).lineage column k
  | .relink pipelines edges => ¬ Reaches (db.relink pipelines edges).lineage column k

/-- A request releases a pipeline from a change of a column. -/
def Op.Releases (row : SchemaChangeModel) (column : ColumnRef) (k : String) (op : Op) (db : DB) :
    Prop :=
  op.Closes row db ∨ op.Reroutes column k db

/-! ## The rows a request finds -/

/-- What a request makes of the change rows it finds: a row stays as it is
unless the request closes it, and then it is not OPEN any more. -/
structure RowsKept (op : Op) (db : DB) : Prop where
  kept : ∀ row ∈ db.schemaChanges, ¬ (row.state = .open ∧ op.Closes row db) →
    row ∈ (op.apply db).schemaChanges
  closed : ∀ row ∈ db.schemaChanges, row.state = .open → op.Closes row db →
    ∃ row' ∈ (op.apply db).schemaChanges, row'.id = row.id ∧ row'.state ≠ .open

theorem RowsKept.of_eq {op : Op} (hrows : (op.apply db).schemaChanges = db.schemaChanges)
    (hcloses : ∀ row, ¬ op.Closes row db) : RowsKept op db :=
  ⟨fun row hrow _ => by rwa [hrows], fun row _ _ h => absurd h (hcloses row)⟩

omit [Hashlib] in
/-- A drift scan closes the OPEN rows of its source that it does not find. -/
theorem settle_eq_iff {source : DataSourceModel} {active : List String} {resolvedAt : Timestamp}
    (hopen : row.state = .open) : settle source active resolvedAt row = row ↔
      ¬ (row.sourceId = source.id ∧ row.fingerprint ∉ active) := by
  unfold settle
  constructor
  · intro heq habsent
    rw [if_pos ⟨habsent.1, hopen, habsent.2⟩] at heq
    have hstate := congrArg SchemaChangeModel.state heq
    rw [hopen] at hstate
    cases hstate
  · intro hkept
    rw [if_neg fun h => hkept ⟨h.1, h.2.2⟩]

/-- **What a scan makes of the change rows it finds.** -/
theorem rowsKept_scan (hwf : db.WellFormed) {req : ScanRequest} (hf : req.faults = noFaults) :
    RowsKept (.scan req) db := by
  have heff := scanEffect hwf hf
  cases hresult : scanResult req db with
  | error e =>
    have hnone : ∀ row, ¬ (Op.scan req).Closes row db := by
      rintro row ⟨-, report, -, -, hok, -⟩
      rw [hresult] at hok
      cases hok
    refine RowsKept.of_eq ?_ hnone
    rw [hresult] at heff
    show (postScans req db).schemaChanges = _
    generalize postScans req db = after at heff
    rcases heff with _ | ⟨-⟩
    · rfl
    · rw [failed_eq hwf.linked.scanFresh]
  | ok report =>
    rw [hresult] at heff
    have hafter : (Op.scan req).apply db = postScans req db := rfl
    generalize postScans req db = after at heff hafter
    rcases heff with _ | _ | ⟨hsource, hcollected, hne, hbase, hc⟩ |
      @⟨source, observed, hsource, hcollected, hne, hbase, hin, hc⟩
    · -- a first baseline closes nothing
      refine RowsKept.of_eq ?_ ?_
      · obtain ⟨next, added, rows, -, heq⟩ := baselined_eq hwf req _ _
        rw [hafter, heq]
      · rintro row ⟨-, report', -, -, hok, hcreated, -⟩
        rw [hresult] at hok
        cases hok
        cases hcreated
    · have hkey : source.key = req.sourceKey := (mem_of_sourceOf? hsource).2
      have hcloses : ∀ row, (Op.scan req).Closes row db ↔ row.sourceId = source.id ∧
          row.fingerprint ∉ db.activeFingerprints source (db.baseline source.id) observed := by
        intro row
        constructor
        · rintro ⟨source', report', hsource', hid, hok, -, hnot⟩
          rw [hsource] at hsource'
          cases hsource'
          rw [hresult] at hok
          cases hok
          refine ⟨hid.symm, ?_⟩
          rwa [DB.activeFingerprints, hkey]
        · rintro ⟨hid, hnot⟩
          refine ⟨source, _, hsource, hid.symm, hresult, rfl, ?_⟩
          rwa [DB.activeFingerprints, hkey] at hnot
      refine ⟨fun row hrow hstays => ?_, fun row hrow hopen hclosed => ?_⟩
      · rw [hafter, drifted_eq hwf]
        refine List.mem_append_left _ (List.mem_map.2 ⟨row, hrow, ?_⟩)
        by_cases hopen : row.state = .open
        · rw [settle_eq_iff hopen, ← hcloses]
          exact fun h => hstays ⟨hopen, h⟩
        · unfold settle
          rw [if_neg fun h => hopen h.2.1]
      · obtain ⟨hid, hnot⟩ := (hcloses row).1 hclosed
        rw [hafter, drifted_eq hwf]
        refine ⟨_, List.mem_append_left _ (List.mem_map_of_mem hrow), id_settle row, ?_⟩
        unfold settle
        rw [if_pos ⟨hid, hopen, hnot⟩]
        simp [SchemaChangeModel.resolve]

/-- **What an acceptance makes of the change rows it finds.** -/
theorem rowsKept_accept (hwf : db.WellFormed) (req : AcceptRequest) :
    RowsKept (.accept req) db := by
  have heff := acceptEffect hwf req
  cases hresult : acceptResult req db with
  | error e =>
    have hnone : ∀ row, ¬ (Op.accept req).Closes row db := by
      rintro row ⟨-, result, hok⟩
      rw [hresult] at hok
      cases hok
    refine RowsKept.of_eq ?_ hnone
    rw [hresult] at heff
    show (postAccept req db).schemaChanges = _
    generalize postAccept req db = after at heff
    cases heff
    rfl
  | ok result =>
    rw [hresult] at heff
    have hafter : (Op.accept req).apply db = postAccept req db := rfl
    generalize postAccept req db = after at heff hafter
    obtain _ | @⟨change, source, _, _, rows, hmem, hid, hopen, -, -, -, -⟩ := heff
    have hcloses : ∀ row, (Op.accept req).Closes row db ↔ row.id = change.id := by
      intro row
      rw [hid]
      exact ⟨fun h => h.1.symm, fun h => ⟨h.symm, _, hresult⟩⟩
    rw [accepted_eq] at hafter
    refine ⟨fun row hrow hstays => ?_, fun row hrow hopen' hclosed => ?_⟩
    · rw [hafter]
      refine List.mem_map.2 ⟨row, hrow, ?_⟩
      have hne : row.id ≠ change.id := by
        intro heq
        obtain rfl : row = change := eq_of_nodup_map hwf.linked.changeIds hrow hmem heq
        exact hstays ⟨hopen, (hcloses row).2 heq⟩
      unfold closeRow
      rw [if_neg hne]
    · rw [hafter]
      refine ⟨_, List.mem_map_of_mem hrow, id_closeRow row, ?_⟩
      unfold closeRow
      rw [if_pos ((hcloses row).1 hclosed)]
      simp [SchemaChangeModel.accept]

omit [Hashlib] in
/-- The change rows do not depend on the catalog. -/
theorem rows_syncCatalog (document : Option CatalogConfig) :
    (syncCatalog document db).schemaChanges = db.schemaChanges := by
  rcases syncCatalog_cases document db with heq | ⟨_, _, _, -, heq, -, -⟩
  · rw [heq]
  · rw [heq]
    rfl

omit [Hashlib] in
theorem rows_relink (pipelines : List PipelineModel) (edges : List LineageEdgeModel) :
    (db.relink pipelines edges).schemaChanges = db.schemaChanges := by
  unfold DB.relink
  split <;> rfl

/-- **What a request makes of the change rows it finds.** -/
theorem rowsKept {P : DatasetRef → Prop} (hwf : db.WellFormed) {op : Op} (hop : op.Regular P) :
    RowsKept op db := by
  cases op with
  | scan req => exact rowsKept_scan hwf hop.1
  | accept req => exact rowsKept_accept hwf req
  | sync document => exact .of_eq (rows_syncCatalog document) fun _ => id
  | relink pipelines edges => exact .of_eq (rows_relink pipelines edges) fun _ => id

/-! ## The lineage a request finds -/

omit [Hashlib] in
/-- Datasets no edge refers to do not show in the graph. -/
theorem lineage_of_added {db' : DB} {added : List DatasetModel} (hlin : db.LineageLinked)
    (hedges : db'.lineageEdges = db.lineageEdges) (hpipelines : db'.pipelines = db.pipelines)
    (hdatasets : db'.datasets = db.datasets ++ added)
    (hids : (db'.datasets.map DatasetModel.id).Nodup) : db'.lineage = db.lineage := by
  have hfilter : ∀ id : Uuid, (∃ d ∈ db.datasets, d.id = id) →
      db'.datasets.filter (fun d => d.id = id) = db.datasets.filter fun d => d.id = id := by
    rintro id ⟨d, hd, rfl⟩
    have hnone : added.filter (fun d' => d'.id = d.id) = [] := by
      refine List.filter_eq_nil_iff.2 fun d' hd' hid => ?_
      rw [hdatasets, List.map_append] at hids
      simp only [decide_eq_true_eq] at hid
      exact (List.nodup_append.1 hids).2.2 _ (List.mem_map_of_mem hd) _
        (List.mem_map_of_mem hd') hid.symm
    rw [hdatasets, List.filter_append, hnone, List.append_nil]
  unfold DB.lineage
  rw [hedges, hpipelines]
  refine List.flatMap_congr fun e he => List.flatMap_congr fun p _ => ?_
  rw [hfilter _ (hlin.edgeUpstream e he), hfilter _ (hlin.edgeDownstream e he)]

/-- What a request leaves of the datasets and, if it stores no catalog, of
the graph. -/
structure GraphKept (op : Op) (db : DB) : Prop where
  datasets : ∀ d ∈ db.datasets, d ∈ (op.apply db).datasets
  lineage : (∃ req, op = .scan req) ∨ (∃ req, op = .accept req) →
    (op.apply db).lineage = db.lineage

/-- **What a request makes of the datasets and the graph it finds.** -/
theorem graphKept {P : DatasetRef → Prop} (hwf : db.WellFormed) {op : Op} (hop : op.Regular P) :
    GraphKept op db := by
  have hids : ((op.apply db).datasets.map DatasetModel.id).Nodup :=
    (hwf.apply hop).linked.datasetIds
  have hsame : (op.apply db).lineageEdges = db.lineageEdges →
      (op.apply db).pipelines = db.pipelines →
      (∃ added, (op.apply db).datasets = db.datasets ++ added) → GraphKept op db := by
    rintro hedges hpipelines ⟨added, hdatasets⟩
    refine ⟨fun d hd => ?_, fun _ =>
      lineage_of_added hwf.lineage hedges hpipelines hdatasets hids⟩
    rw [hdatasets]
    exact List.mem_append_left _ hd
  cases op with
  | scan req =>
    have heff := scanEffect hwf hop.1
    have hafter : (Op.scan req).apply db = postScans req db := rfl
    rw [hafter] at hsame
    generalize scanResult req db = result at heff
    generalize postScans req db = after at heff hsame
    rcases heff with _ | _ | _ | _
    · exact hsame rfl rfl ⟨[], (List.append_nil _).symm⟩
    · rw [failed_eq hwf.linked.scanFresh] at hsame
      exact hsame rfl rfl ⟨[], (List.append_nil _).symm⟩
    · obtain ⟨next, added, rows, -, heq⟩ := baselined_eq hwf req _ _
      rw [heq] at hsame
      exact hsame rfl rfl ⟨added, rfl⟩
    · rw [drifted_eq hwf] at hsame
      exact hsame rfl rfl ⟨[], (List.append_nil _).symm⟩
  | accept req =>
    have heff := acceptEffect hwf req
    have hafter : (Op.accept req).apply db = postAccept req db := rfl
    rw [hafter] at hsame
    generalize acceptResult req db = result at heff
    generalize postAccept req db = after at heff hsame
    rcases heff with _ | _
    · exact hsame rfl rfl ⟨[], (List.append_nil _).symm⟩
    · exact hsame rfl rfl ⟨[], (List.append_nil _).symm⟩
  | sync document =>
    refine ⟨fun d hd => ?_, fun h => ?_⟩
    · rcases syncCatalog_cases document db with heq | ⟨_, _, _, -, heq, -, -⟩
      · rw [Op.apply, heq]
        exact hd
      · rw [Op.apply, heq]
        exact hd
    · rcases h with ⟨_, h⟩ | ⟨_, h⟩ <;> cases h
  | relink pipelines edges =>
    refine ⟨fun d hd => ?_, fun h => ?_⟩
    · rw [Op.apply, DB.relink]
      split <;> exact hd
    · rcases h with ⟨_, h⟩ | ⟨_, h⟩ <;> cases h

/-- **A chain there was leads on unless another catalog cuts it.** -/
theorem reaches_apply_iff {P : DatasetRef → Prop} (hwf : db.WellFormed) {op : Op}
    (hop : op.Regular P) {column : ColumnRef} (hreaches : Reaches db.lineage column k) :
    Reaches (op.apply db).lineage column k ↔ ¬ op.Reroutes column k db := by
  have hkept := (graphKept hwf hop).lineage
  cases op with
  | scan req =>
    rw [hkept (Or.inl ⟨req, rfl⟩)]
    exact iff_of_true hreaches id
  | accept req =>
    rw [hkept (Or.inr ⟨req, rfl⟩)]
    exact iff_of_true hreaches id
  | sync document => exact not_not.symm
  | relink pipelines edges => exact not_not.symm

/-! ## Blocking -/

/-- **What blocks a pipeline is an OPEN and BREAKING row** of a column that
a chain of edges leads from to it. -/
theorem blocks_iff (hwf : db.WellFormed) {changeId : Uuid} : db.Blocks k changeId ↔
    ∃ row ∈ db.schemaChanges, row.id = changeId ∧ row.state = .open ∧ row.severity = .breaking ∧
      ∃ d ∈ db.datasets, d.id = row.datasetId ∧
        Reaches db.lineage ⟨d.ref, row.columnName⟩ k := by
  constructor
  · rintro ⟨v, hv, b, hb, hid⟩
    by_cases hk : ∃ p ∈ db.pipelines, p.key = k
    · rw [validateResult_eq hwf.constraints hk] at hv
      cases hv
      obtain ⟨row, hrow, d, hd, hdid, hopen, hsev, hreaches, rfl⟩ := mem_blocking.1 hb
      exact ⟨row, hrow, hid, hopen, hsev, d, hd, hdid, hreaches⟩
    · rw [validateResult_unknown hwf.constraints hk] at hv
      cases hv
  · rintro ⟨row, hrow, hid, hopen, hsev, d, hd, hdid, hreaches⟩
    have hk : ∃ p ∈ db.pipelines, p.key = k := by
      obtain ⟨e, he, hkey⟩ := hreaches.last
      obtain ⟨_, -, p, hp, _, -, _, -, -, -, -, hdef, -, -⟩ := mem_lineage.1 he
      refine ⟨p, hp, ?_⟩
      rw [← hkey, hdef]
      rfl
    exact ⟨_, validateResult_eq hwf.constraints hk, _,
      mem_blocking.2 ⟨row, hrow, d, hd, hdid, hopen, hsev, hreaches, rfl⟩, hid⟩

/-- What a run keeps of a change row once stored: it is as it was, or it is
closed. -/
structure RowKept (row : SchemaChangeModel) (d : DatasetModel) (db : DB) : Prop where
  wellFormed : db.WellFormed
  dataset : d ∈ db.datasets
  row : ∃ r ∈ db.schemaChanges, r.id = row.id ∧ (r = row ∨ r.state ≠ .open)

/-- **Requests keep the row.** -/
theorem RowKept.apply {P : DatasetRef → Prop} (h : RowKept row d db) {op : Op}
    (hop : op.Regular P) : RowKept row d (op.apply db) := by
  refine ⟨h.wellFormed.apply hop, (graphKept h.wellFormed hop).datasets d h.dataset, ?_⟩
  have hrows := rowsKept h.wellFormed hop
  obtain ⟨r, hr, hid, hcases⟩ := h.row
  by_cases hcloses : r.state = .open ∧ op.Closes r db
  · obtain ⟨r', hr', hid', hclosed⟩ := hrows.closed r hr hcloses.1 hcloses.2
    exact ⟨r', hr', hid'.trans hid, Or.inr hclosed⟩
  · exact ⟨r, hrows.kept r hr hcloses, hid, hcases⟩

/-- While the row blocks anything it is as it was. -/
theorem RowKept.eq_of_open (h : RowKept row d db) {r : SchemaChangeModel}
    (hr : r ∈ db.schemaChanges) (hid : r.id = row.id) (hopen : r.state = .open) : r = row := by
  obtain ⟨r', hr', hid', hcases⟩ := h.row
  obtain rfl : r = r' := eq_of_nodup_map h.wellFormed.linked.changeIds hr hr'
    (hid.trans hid'.symm)
  rcases hcases with heq | hclosed
  · exact heq
  · exact absurd hopen hclosed

/-- **One request releases a pipeline from a change exactly if it closes the
change or cuts the chains.** -/
theorem blocks_apply_iff {P : DatasetRef → Prop} (h : RowKept row d db)
    (hid : d.id = row.datasetId) (hblocks : db.Blocks k row.id) {op : Op} (hop : op.Regular P) :
    (op.apply db).Blocks k row.id ↔ ¬ op.Releases row ⟨d.ref, row.columnName⟩ k db := by
  have hwf := h.wellFormed
  have hafter := h.apply hop
  have hrows := rowsKept hwf hop
  obtain ⟨r, hr, hrid, hopen, hsev, d', hd', hdid, hreaches⟩ := (blocks_iff hwf).1 hblocks
  obtain rfl := h.eq_of_open hr hrid hopen
  obtain rfl : d' = d := eq_of_nodup_map hwf.linked.datasetIds hd' h.dataset
    (hdid.trans hid.symm)
  have hchain := reaches_apply_iff hwf hop hreaches
  rw [blocks_iff hafter.wellFormed, Op.Releases, not_or]
  constructor
  · rintro ⟨r', hr', hrid', hopen', -, d'', hd'', hdid'', hreaches'⟩
    obtain rfl := hafter.eq_of_open hr' hrid' hopen'
    obtain rfl : d'' = d' := eq_of_nodup_map hafter.wellFormed.linked.datasetIds hd''
      hafter.dataset (hdid''.trans hid.symm)
    refine ⟨fun hcloses => ?_, hchain.1 hreaches'⟩
    obtain ⟨c, hc, hcid, hclosed⟩ := hrows.closed r' hr hopen hcloses
    obtain rfl : c = r' := eq_of_nodup_map hafter.wellFormed.linked.changeIds hc hr' hcid
    exact hclosed hopen
  · rintro ⟨hcloses, hreroutes⟩
    exact ⟨r, hrows.kept r hr fun hboth => hcloses hboth.2, rfl, hopen, hsev, d', hafter.dataset,
      hid, hchain.2 hreroutes⟩

/-- **Nothing else releases a pipeline.** In every run from tables in which a
change blocks a pipeline it does so throughout exactly if no request of the
run accepts the change, completes a scan of its source without finding it,
or stores a catalog with no chain from its column to the pipeline. -/
theorem blocked_throughout_iff {P : DatasetRef → Prop} (hreach : db.Reachable P) {ops : List Op}
    (hops : ∀ op ∈ ops, op.Regular P) (hrow : row ∈ db.schemaChanges) (hd : d ∈ db.datasets)
    (hid : d.id = row.datasetId) (hblocks : db.Blocks k row.id) :
    Path.Throughout Op.apply (fun s => s.Blocks k row.id) ops db ↔
      Path.Along Op.apply (fun s op => ¬ op.Releases row ⟨d.ref, row.columnName⟩ k s) ops db := by
  have hstart : RowKept row d db := ⟨hreach.wellFormed, hd, row, hrow, rfl, Or.inl rfl⟩
  have hkept : ∀ (s : DB) (op : Op), RowKept row d s → op.Regular P → RowKept row d (op.apply s) :=
    fun _ _ h hop => h.apply hop
  exact Path.throughout_iff_along hkept
    (fun _ _ h hb hop => blocks_apply_iff h hid hb hop) ops hops hstart hblocks

/-- **What is closed blocks nothing again**, in whatever tables a run leads
to and whatever pipelines they have. -/
theorem closed_never_blocks {P : DatasetRef → Prop} (hreach : db.Reachable P)
    (hrow : row ∈ db.schemaChanges) (hclosed : row.state ≠ .open) {after : DB}
    (hrun : Lib.Path Op.apply (fun _ op => op.Regular P) db after) :
    ¬ after.Blocks k row.id := by
  have hkept : after.WellFormed ∧ row ∈ after.schemaChanges := by
    refine hrun.invariant (P := fun s => s.WellFormed ∧ row ∈ s.schemaChanges)
      ⟨hreach.wellFormed, hrow⟩ fun s op hs hop => ⟨hs.1.apply hop, ?_⟩
    exact (rowsKept hs.1 hop).kept row hs.2 fun h => hclosed h.1
  intro hblocks
  obtain ⟨r, hr, hid, hopen, -⟩ := (blocks_iff hkept.1).1 hblocks
  obtain rfl : r = row := eq_of_nodup_map hkept.1.linked.changeIds hr hkept.2 hid
  exact hclosed hopen

end Requests

section Sample

attribute [local instance] Hashlib.plain

/-- The tables after the scan that misses the column the pipeline reads. -/
def sampleMissing : DB := postScans sampleLoss sampleTables

/-- The row of the missing column. -/
def sampleMissingRow : SchemaChangeModel :=
  { id := 6, scanId := 5, sourceId := 0, datasetId := 2, columnName := "id"
    changeType := .dropColumn, severity := .breaking
    fingerprint := changeFingerprint "crm"
      (.drop (sampleColumn "users" "id" "integer" false) [⟨⟨"public", "users"⟩, "id"⟩])
    beforeJson := some (sampleColumn "users" "id" "integer" false).toCanonicalDict
    afterJson := none, baselineVersion := 1 }

theorem sampleMissing_reachable : sampleMissing.Reachable DatasetRef.Dotless :=
  have hregular : (Op.scan sampleLoss).Regular DatasetRef.Dotless :=
    sampleScan_regular (by decide)
  sampleTables_reachable.step hregular

theorem sampleMissingRow_mem : sampleMissingRow ∈ sampleMissing.schemaChanges := by decide +kernel

/-- What blocks the pipeline in the sample. -/
theorem sampleMissing_blocks : sampleMissing.Blocks "etl" sampleMissingRow.id := by
  have hv : validateResult "etl" sampleMissing = .ok
      { pipelineKey := "etl", safe := false
        blockingChanges := [⟨6, ⟨"public", "users"⟩, "id", .dropColumn, .breaking⟩] } := by
    decide +kernel
  exact ⟨_, hv, _, List.mem_cons_self, rfl⟩

/-- The source is down. -/
def sampleOutage : ScanRequest :=
  { sampleScan [] with collected := .error (.psycopgError "OperationalError") }

/-- In the sample the pipeline stays blocked while the source is down. -/
theorem blocked_throughout_iff_sample :
    Path.Throughout Op.apply (fun s => s.Blocks "etl" 6) [.scan sampleOutage] sampleMissing := by
  have hregular : ∀ op ∈ [Op.scan sampleOutage], op.Regular DatasetRef.Dotless := by
    rintro op hop
    obtain rfl := List.mem_singleton.1 hop
    refine ⟨rfl, fun observed hobserved => ?_⟩
    cases hobserved
  have hd : (⟨2, 0, "public", "users"⟩ : DatasetModel) ∈ sampleMissing.datasets := by
    decide +kernel
  refine (blocked_throughout_iff sampleMissing_reachable hregular sampleMissingRow_mem hd rfl
    sampleMissing_blocks).2 ⟨?_, trivial⟩
  rintro (⟨source, report, -, -, hok, -⟩ | hreroutes)
  · have hfails : scanResult sampleOutage sampleMissing =
        .error (.psycopgError "OperationalError") := by decide +kernel
    rw [hfails] at hok
    cases hok
  · exact hreroutes

/-- The tables after a scan that finds the column again. -/
def sampleRepaired : DB :=
  postScans (sampleScan [sampleColumn "users" "id" "integer" false,
    sampleColumn "mart" "id" "integer" false]) sampleMissing

theorem sampleRepaired_reachable : sampleRepaired.Reachable DatasetRef.Dotless :=
  have hregular : (Op.scan (sampleScan [sampleColumn "users" "id" "integer" false,
      sampleColumn "mart" "id" "integer" false])).Regular DatasetRef.Dotless :=
    sampleScan_regular (by decide)
  sampleMissing_reachable.step hregular

/-- In the sample the change that was resolved does not block the pipeline
when the column is lost once more. -/
theorem closed_never_blocks_sample : ¬ (postScans sampleLoss sampleRepaired).Blocks "etl" 6 := by
  have hrow : { sampleMissingRow with state := .resolved, resolvedAt := some 0 } ∈
      sampleRepaired.schemaChanges := by decide +kernel
  have hrun : Lib.Path Op.apply (fun _ op => op.Regular DatasetRef.Dotless) sampleRepaired
      (postScans sampleLoss sampleRepaired) :=
    Lib.Path.refl.tail (e := Op.scan sampleLoss) (sampleScan_regular (by decide))
  exact closed_never_blocks sampleRepaired_reachable hrow (by decide) hrun

end Sample

end SchemaSentry
