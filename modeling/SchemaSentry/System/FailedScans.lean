import SchemaSentry.System.Progress
import SchemaSentry.System.SystemErrors
/-!
# Schema Sentry — what a failed scan leaves

`run_scan` turns every exception into a FAILED scan, and the route decides
afterwards whether that is committed. An exception leaves the record of the
failure and nothing else exactly where it is raised before the completing
method added its first row and is one after which the route commits
(`failure_recorded_iff`). The two halves are told apart by the rows a scan
adds to: until the first of them is added there are as many as before, and
no step takes one away (`Grows`). The deliveries stay PENDING to the end of
the request where the dispatch it makes after the commit leaves no attempt
(`DB.Attempts`).
-/

namespace SchemaSentry

open Lib DbM

/-- How many rows there are of the tables a completed scan files columns
in. -/
def DB.filed (db : DB) : ℕ :=
  db.datasets.length + db.expectedColumns.length + db.observedColumns.length

/-! ## Programs that only add -/

section Grows

variable {α β : Type} {db : DB} {s t u : Session} {a : α} {e : PyException}

/-- A program leaves as much pending as there was, whatever it ends in. -/
def Grows (x : DbM α) : Prop :=
  ∀ db s, (s.pending db).filed ≤ ((exec x db s).2.pending db).filed

/-- A program leaves more pending than there was. -/
def Adds (x : DbM α) (db : DB) (s : Session) : Prop :=
  (s.pending db).filed < ((exec x db s).2.pending db).filed

theorem grows_pure : Grows (Pure.pure a : DbM α) := fun _ _ => le_refl _

theorem grows_raise : Grows (raise e : DbM α) := fun _ _ => le_refl _

theorem Grows.bind {x : DbM α} {f : α → DbM β} (hx : Grows x) (hf : ∀ a, Grows (f a)) :
    Grows (x >>= f) := by
  intro db s
  have hfirst := hx db s
  rw [exec_bind]
  generalize exec x db s = outcome at hfirst
  obtain ⟨e | a, t⟩ := outcome
  · exact hfirst
  · exact hfirst.trans (hf a db t)

theorem grows_select (query : DB → α) : Grows (select query) := by
  intro db s
  rw [exec_select]
  split <;> exact le_refl _

theorem grows_write {f : DB → DB} (h : ∀ db : DB, db.filed ≤ (f db).filed) : Grows (write f) :=
  fun db s => h (s.pending db)

theorem grows_getScan (scanId : Uuid) : Grows (getScan scanId) := by
  refine (grows_select _).bind fun row => ?_
  cases row with
  | none => exact grows_raise
  | some scan => exact grows_pure

theorem grows_checkpoint (faults : Faults) (point : ScanPoint) :
    Grows (checkpoint faults point) := by
  unfold checkpoint
  split
  · exact grows_pure
  · exact grows_raise

theorem returns_unfaulted {faults : Faults} {point : ScanPoint} (h : faults point = none) :
    Returns (checkpoint faults point) db s () s :=
  returns_checkpoint.2 ⟨h, rfl⟩

/-- What a first part adds is there at the end. -/
theorem Adds.bind {x : DbM α} {f : α → DbM β} (hx : Adds x db s)
    (hf : ∀ a, Grows (f a)) : Adds (x >>= f) db s := by
  have hfirst := hx
  rw [Adds] at hfirst ⊢
  rw [exec_bind]
  generalize exec x db s = outcome at hfirst
  obtain ⟨e | a, t⟩ := outcome
  · exact hfirst
  · exact hfirst.trans_le (hf a db t)

/-- A first part that returns what was pending leaves it to the rest. -/
theorem Adds.after {x : DbM α} {f : α → DbM β} (hx : Returns x db s a s)
    (hf : Adds (f a) db s) : Adds (x >>= f) db s := by
  rw [Adds, exec_bind, hx]
  exact hf

theorem adds_write {f : DB → DB} (h : (s.pending db).filed < (f (s.pending db)).filed) :
    Adds (write f) db s := h

/-- A sequence whose first part returns raises what the rest raises. -/
theorem raises_of_returns {x : DbM α} {f : α → DbM β} (hx : Returns x db s a u)
    (hf : Raises (f a) db u e t) : Raises (x >>= f) db s e t :=
  raises_bind.2 (Or.inr ⟨a, u, hx, hf⟩)

end Grows

/-! ## The rows a scan adds to -/

section Filed

variable {db : DB} {s : Session} {faults : Faults} {source : DataSourceModel} {sourceKey : String}

theorem filed_addExpectedColumn (row : ExpectedColumnModel) :
    (db.addExpectedColumn row).filed = db.filed + 1 := by
  simp only [DB.filed, DB.addExpectedColumn, List.length_append, List.length_singleton]
  omega

theorem filed_addDataset (sourceId : Uuid) (ref : DatasetRef) :
    (db.addDataset sourceId ref).filed = db.filed + 1 := by
  simp only [DB.filed, DB.addDataset, List.length_append, List.length_singleton]
  omega

theorem filed_addObservedColumns (rows : List ObservedColumnModel) :
    (db.addObservedColumns rows).filed = db.filed + rows.length := by
  simp only [DB.filed, DB.addObservedColumns, List.length_append]
  omega

theorem filed_updateScan (scanId : Uuid) (f : ScanRunModel → ScanRunModel) :
    (db.updateScan scanId f).filed = db.filed := rfl

theorem filed_addSchemaChange (row : SchemaChangeModel) :
    (db.addSchemaChange row).filed = db.filed := rfl

theorem filed_addDeliveries (scanId : Uuid) (channels : List AlertChannel) :
    (db.addDeliveries scanId channels).filed = db.filed := by
  rw [addDeliveries_eq]
  rfl

theorem filed_resolveAbsent (openChanges : Dict String SchemaChangeModel) (active : List String)
    (resolvedAt : Timestamp) : (db.resolveAbsent openChanges active resolvedAt).filed = db.filed := by
  rw [resolveAbsent_eq]
  rfl

theorem grows_deliveries (channels : List AlertChannel) (scanId : Uuid) :
    Grows (createPendingDeliveries channels scanId) :=
  grows_write fun _ => (filed_addDeliveries scanId channels).ge

theorem grows_completeScan (scan : ScanRunModel) (finishedAt : Timestamp) :
    Grows (completeScan scan finishedAt) :=
  grows_write fun _ => (filed_updateScan _ _).ge

theorem grows_failScan (channels : List AlertChannel) (scanId : Uuid) (errorCode : String)
    (errorMessage : String) (finishedAt : Timestamp) :
    Grows (failScan channels scanId errorCode errorMessage finishedAt) := by
  refine (grows_getScan scanId).bind fun scan => ?_
  refine (grows_write fun _ => (filed_updateScan _ _).ge).bind fun _ => ?_
  exact (grows_deliveries channels scan.id).bind fun _ => grows_select _

theorem grows_recordBaseline {observed : List ColumnDefinition} {n : ℕ}
    {datasets : Dict DatasetRef DatasetModel} :
    Grows (recordBaseline faults source n datasets observed) := by
  induction observed generalizing n datasets with
  | nil => exact grows_pure
  | cons column rest ih =>
    rw [recordBaseline]
    refine (grows_checkpoint faults (.turn n)).bind fun _ => ?_
    have hrow : ∀ row, Grows (write (DB.addExpectedColumn row)) :=
      fun row => grows_write fun _ => by rw [filed_addExpectedColumn]; omega
    cases Dict.get? column.dataset datasets with
    | some dataset => exact (hrow _).bind fun _ => ih
    | none =>
      refine (grows_select _).bind fun datasetId => ?_
      refine (grows_write fun _ => by rw [filed_addDataset]; omega).bind fun _ => ?_
      refine (grows_select _).bind fun _ => ?_
      exact (hrow _).bind fun _ => ih

/-- **The first turn of the first baseline's loop adds a row.** -/
theorem adds_recordBaseline {column : ColumnDefinition} {rest : List ColumnDefinition}
    {datasets : Dict DatasetRef DatasetModel} (hturn : faults (.turn 0) = none)
    (hc : (s.pending db).Constraints) :
    Adds (recordBaseline faults source 0 datasets (column :: rest)) db s := by
  rw [recordBaseline]
  refine Adds.after (returns_unfaulted hturn) ?_
  cases Dict.get? column.dataset datasets with
  | some dataset =>
    exact (adds_write (by rw [filed_addExpectedColumn]; omega)).bind fun _ => grows_recordBaseline
  | none =>
    refine Adds.after (returns_select.2 ⟨hc, rfl, rfl⟩) ?_
    refine (adds_write (by rw [filed_addDataset]; omega)).bind fun _ => ?_
    refine (grows_select _).bind fun _ => ?_
    exact (grows_write fun _ => by rw [filed_addExpectedColumn]; omega).bind fun _ =>
      grows_recordBaseline

theorem Loaded.adds_completeInitialBaseline (hl : Loaded db sourceKey source s)
    {scanId : Uuid} {scan : ScanRunModel} {observed : List ColumnDefinition}
    {finishedAt : Timestamp} (hc : (s.pending db).Constraints)
    (hscan : (s.pending db).scanRuns.find? (fun x => x.id = scanId) = some scan)
    (hcompletion : faults .completion = none) (hturn : faults (.turn 0) = none)
    (hne : observed ≠ []) :
    Adds (completeInitialBaseline faults scanId sourceKey observed finishedAt) db s := by
  obtain ⟨column, rest, rfl⟩ := List.exists_cons_of_ne_nil hne
  refine Adds.after (hl.returns_getSource.2 ⟨hc, rfl, rfl⟩) ?_
  refine Adds.after (returns_getScan.2 ⟨hc, hscan, rfl⟩) ?_
  refine Adds.after (returns_select.2 ⟨hc, rfl, rfl⟩) ?_
  refine Adds.after (returns_unfaulted hcompletion) ?_
  refine (adds_recordBaseline hturn hc).bind fun _ => ?_
  refine (grows_checkpoint faults .ending).bind fun _ => ?_
  refine (grows_write fun _ => by rw [filed_addObservedColumns]; omega).bind fun _ => ?_
  exact (grows_completeScan scan finishedAt).bind fun _ => grows_select _

variable [Hashlib]

theorem grows_recordChanges {changes : List SchemaChange} {scan : ScanRunModel} {n : ℕ}
    {datasets : Dict DatasetRef DatasetModel} {openChanges : Dict String SchemaChangeModel}
    {progress : DriftProgress} :
    Grows
      (recordChanges faults scan source sourceKey datasets openChanges n progress changes) := by
  induction changes generalizing n progress with
  | nil => exact grows_pure
  | cons change rest ih =>
    rw [recordChanges]
    refine (grows_checkpoint faults (.turn n)).bind fun _ => ?_
    by_cases hopen : changeFingerprint sourceKey change ∈ Dict.keys openChanges
    · simp only [hopen, if_true]
      exact ih
    · simp only [hopen, if_false]
      cases Dict.get? change.dataset datasets with
      | none => exact grows_raise
      | some dataset =>
        exact (grows_write fun _ => (filed_addSchemaChange _).ge).bind fun _ => ih

theorem Loaded.adds_completeDriftScan (hl : Loaded db sourceKey source s)
    {channels : List AlertChannel} {scanId : Uuid} {scan : ScanRunModel}
    {observed : List ColumnDefinition} {changes : List SchemaChange} {finishedAt : Timestamp}
    (hc : (s.pending db).Constraints)
    (hscan : (s.pending db).scanRuns.find? (fun x => x.id = scanId) = some scan)
    (hcompletion : faults .completion = none) (hne : observed ≠ []) :
    Adds
      (completeDriftScan faults channels scanId sourceKey observed changes finishedAt) db s := by
  have hpos := List.length_pos_of_ne_nil hne
  refine Adds.after (hl.returns_getSource.2 ⟨hc, rfl, rfl⟩) ?_
  refine Adds.after (returns_getScan.2 ⟨hc, hscan, rfl⟩) ?_
  refine Adds.after (returns_select.2 ⟨hc, rfl, rfl⟩) ?_
  refine Adds.after (returns_unfaulted hcompletion) ?_
  have hobserved : Adds (persistObservations scan.id observed) db s :=
    adds_write (by rw [filed_addObservedColumns, List.length_map]; omega)
  refine hobserved.bind fun _ => ?_
  refine (grows_select _).bind fun openChanges => ?_
  refine grows_recordChanges.bind fun progress => ?_
  refine (grows_checkpoint faults .ending).bind fun _ => ?_
  refine (grows_write fun _ => (filed_resolveAbsent openChanges _ finishedAt).ge).bind fun _ => ?_
  by_cases halert : progress.hasNewAlertableChange = true
  · rw [if_pos halert]
    refine (grows_deliveries channels scan.id).bind fun _ => ?_
    exact (grows_completeScan scan finishedAt).bind fun _ => grows_select _
  · rw [if_neg halert]
    exact (grows_completeScan scan finishedAt).bind fun _ => grows_select _

end Filed

/-! ## Raising before anything is filed -/

/-- The exception of the first of some steps that raises one. -/
def firstFault (faults : Faults) (points : List ScanPoint) : Option PyException :=
  points.findSome? faults

section Early

variable {db : DB} {s : Session} {faults : Faults} {source : DataSourceModel} {sourceKey : String}
variable {point : ScanPoint} {points : List ScanPoint} {e : PyException}
variable {scanId : Uuid} {scan : ScanRunModel} {observed : List ColumnDefinition}
variable {finishedAt : Timestamp}

theorem firstFault_cons_eq_some : firstFault faults (point :: points) = some e ↔
    faults point = some e ∨ faults point = none ∧ firstFault faults points = some e := by
  rw [firstFault, List.findSome?_cons]
  cases faults point <;> simp [firstFault]

theorem firstFault_cons_eq_none : firstFault faults (point :: points) = none ↔
    faults point = none ∧ firstFault faults points = none := by
  rw [firstFault, List.findSome?_cons]
  cases faults point <;> simp [firstFault]

theorem not_firstFault_nil : firstFault faults [] ≠ some e := by simp [firstFault]

/-- A first baseline's first step that raises before its first row. -/
theorem Loaded.raises_baseline_early (hl : Loaded db sourceKey source s)
    (hc : (s.pending db).Constraints)
    (hscan : (s.pending db).scanRuns.find? (fun x => x.id = scanId) = some scan)
    (hne : observed ≠ []) (h : firstFault faults [.completion, .turn 0] = some e) :
    Raises (completeInitialBaseline faults scanId sourceKey observed finishedAt) db s e s := by
  obtain ⟨column, rest, rfl⟩ := List.exists_cons_of_ne_nil hne
  refine raises_of_returns (hl.returns_getSource.2 ⟨hc, rfl, rfl⟩) ?_
  refine raises_of_returns (returns_getScan.2 ⟨hc, hscan, rfl⟩) ?_
  refine raises_of_returns (returns_select.2 ⟨hc, rfl, rfl⟩) ?_
  rcases firstFault_cons_eq_some.1 h with hcompletion | ⟨hcompletion, h⟩
  · exact raises_bind.2 (Or.inl (raises_checkpoint.2 ⟨hcompletion, rfl⟩))
  · refine raises_of_returns (returns_unfaulted hcompletion) ?_
    have hturn := (firstFault_cons_eq_some.1 h).resolve_right fun h => not_firstFault_nil h.2
    refine raises_bind.2 (Or.inl ?_)
    rw [recordBaseline]
    exact raises_bind.2 (Or.inl (raises_checkpoint.2 ⟨hturn, rfl⟩))

variable [Hashlib]

theorem Loaded.raises_drift_early (hl : Loaded db sourceKey source s)
    (hc : (s.pending db).Constraints)
    (hscan : (s.pending db).scanRuns.find? (fun x => x.id = scanId) = some scan)
    {channels : List AlertChannel} {changes : List SchemaChange}
    (h : faults .completion = some e) :
    Raises (completeDriftScan faults channels scanId sourceKey observed changes finishedAt) db s e
      s := by
  refine raises_of_returns (hl.returns_getSource.2 ⟨hc, rfl, rfl⟩) ?_
  refine raises_of_returns (returns_getScan.2 ⟨hc, hscan, rfl⟩) ?_
  refine raises_of_returns (returns_select.2 ⟨hc, rfl, rfl⟩) ?_
  exact raises_bind.2 (Or.inl (raises_checkpoint.2 ⟨h, rfl⟩))

end Early

/-- The exception of a scan that raises one before the completing method has
added its first row: the collector's or an empty snapshot's, or that of the
first step on the way there that raises. -/
def ScanRequest.earlyException (req : ScanRequest) (source : DataSourceModel) (db : DB) :
    Option PyException :=
  match req.faults .collect, req.collected with
  | some e, _ => some e
  | none, .error e => some e
  | none, .ok [] => some (.emptySchemaSnapshot req.sourceKey)
  | none, .ok (_ :: _) =>
    if db.baseline source.id = [] then
      firstFault req.faults [.loadExpected, .completion, .turn 0]
    else firstFault req.faults [.loadExpected, .loadDependencies, .compare, .completion]

section Body

variable [Hashlib]
variable {db : DB} {req : ScanRequest} {source : DataSourceModel} {e : PyException}
variable (hwf : db.WellFormed) (hsource : db.sourceOf? req.sourceKey = some source)

include hwf hsource

/-- **Raised early, nothing is written.** -/
theorem scanBody_raises_early (h : req.earlyException source db = some e) :
    Raises (scanBody req db.nextId) db (req.session source) e (req.session source) := by
  have hl : Loaded db req.sourceKey source (req.session source) := loaded_session hsource
  have hc : ((req.session source).pending db).Constraints :=
    constraints_addScanRun hwf.constraints source.id req.trigger req.startedAt
  have hscan : ((req.session source).pending db).scanRuns.find? (fun x => x.id = db.nextId) =
      some (req.scan source db) := find?_started hwf.linked.scanFresh
  unfold ScanRequest.earlyException at h
  unfold scanBody
  split at h
  · rename_i hcollect
    cases h
    exact raises_bind.2 (Or.inl (raises_checkpoint.2 ⟨hcollect, rfl⟩))
  · rename_i hcollect hcollected
    cases h
    refine raises_of_returns (returns_unfaulted hcollect) ?_
    exact raises_bind.2 (Or.inl (raises_ofExcept.2 ⟨hcollected, rfl⟩))
  · rename_i hcollect hcollected
    cases h
    refine raises_of_returns (returns_unfaulted hcollect) ?_
    refine raises_of_returns (returns_ofExcept.2 ⟨hcollected, rfl⟩) ?_
    rw [if_pos rfl]
    exact raises_raise.2 ⟨rfl, rfl⟩
  · rename_i column rest hcollect hcollected
    refine raises_of_returns (returns_unfaulted hcollect) ?_
    refine raises_of_returns (returns_ofExcept.2 ⟨hcollected, rfl⟩) ?_
    rw [if_neg (List.cons_ne_nil column rest)]
    have hload : Returns (loadExpectedColumns req.sourceKey) db (req.session source)
        (db.baseline source.id) (req.session source) :=
      hl.returns_loadExpectedColumns.2 ⟨hc, baseline?_eq hwf.linked source.id, rfl⟩
    by_cases hbase : db.baseline source.id = []
    · rw [if_pos hbase] at h
      rcases firstFault_cons_eq_some.1 h with hexpected | ⟨hexpected, h⟩
      · exact raises_bind.2 (Or.inl (raises_checkpoint.2 ⟨hexpected, rfl⟩))
      · refine raises_of_returns (returns_unfaulted hexpected) ?_
        refine raises_of_returns hload ?_
        rw [if_pos hbase]
        exact raises_bind.2
          (Or.inl (hl.raises_baseline_early hc hscan (List.cons_ne_nil _ _) h))
    · rw [if_neg hbase] at h
      rcases firstFault_cons_eq_some.1 h with hexpected | ⟨hexpected, h⟩
      · exact raises_bind.2 (Or.inl (raises_checkpoint.2 ⟨hexpected, rfl⟩))
      refine raises_of_returns (returns_unfaulted hexpected) ?_
      refine raises_of_returns hload ?_
      rw [if_neg hbase]
      rcases firstFault_cons_eq_some.1 h with hdependencies | ⟨hdependencies, h⟩
      · exact raises_bind.2 (Or.inl (raises_checkpoint.2 ⟨hdependencies, rfl⟩))
      refine raises_of_returns (returns_unfaulted hdependencies) ?_
      refine raises_of_returns (hl.returns_loadDependencyColumns.2 ⟨hc, rfl, rfl⟩) ?_
      rcases firstFault_cons_eq_some.1 h with hcompare | ⟨hcompare, h⟩
      · exact raises_bind.2 (Or.inl (raises_checkpoint.2 ⟨hcompare, rfl⟩))
      refine raises_of_returns (returns_unfaulted hcompare) ?_
      have hcompletion :=
        (firstFault_cons_eq_some.1 h).resolve_right fun h => not_firstFault_nil h.2
      exact raises_bind.2 (Or.inl (hl.raises_drift_early hc hscan hcompletion))

/-- **Not raised early, rows are pending** whatever the scan ends in. -/
theorem adds_scanBody (h : req.earlyException source db = none) :
    Adds (scanBody req db.nextId) db (req.session source) := by
  have hl : Loaded db req.sourceKey source (req.session source) := loaded_session hsource
  have hc : ((req.session source).pending db).Constraints :=
    constraints_addScanRun hwf.constraints source.id req.trigger req.startedAt
  have hscan : ((req.session source).pending db).scanRuns.find? (fun x => x.id = db.nextId) =
      some (req.scan source db) := find?_started hwf.linked.scanFresh
  have hload : Returns (loadExpectedColumns req.sourceKey) db (req.session source)
      (db.baseline source.id) (req.session source) :=
    hl.returns_loadExpectedColumns.2 ⟨hc, baseline?_eq hwf.linked source.id, rfl⟩
  unfold ScanRequest.earlyException at h
  unfold scanBody
  split at h
  · cases h
  · cases h
  · cases h
  · rename_i column rest hcollect hcollected
    refine Adds.after (returns_unfaulted hcollect) ?_
    refine Adds.after (returns_ofExcept.2 ⟨hcollected, rfl⟩) ?_
    rw [if_neg (List.cons_ne_nil column rest)]
    by_cases hbase : db.baseline source.id = []
    · rw [if_pos hbase] at h
      obtain ⟨hexpected, h⟩ := firstFault_cons_eq_none.1 h
      obtain ⟨hcompletion, h⟩ := firstFault_cons_eq_none.1 h
      refine Adds.after (returns_unfaulted hexpected) ?_
      refine Adds.after hload ?_
      rw [if_pos hbase]
      exact (hl.adds_completeInitialBaseline hc hscan hcompletion (firstFault_cons_eq_none.1 h).1
        (List.cons_ne_nil _ _)).bind fun _ => grows_pure
    · rw [if_neg hbase] at h
      obtain ⟨hexpected, h⟩ := firstFault_cons_eq_none.1 h
      obtain ⟨hdependencies, h⟩ := firstFault_cons_eq_none.1 h
      obtain ⟨hcompare, h⟩ := firstFault_cons_eq_none.1 h
      refine Adds.after (returns_unfaulted hexpected) ?_
      refine Adds.after hload ?_
      rw [if_neg hbase]
      refine Adds.after (returns_unfaulted hdependencies) ?_
      refine Adds.after (hl.returns_loadDependencyColumns.2 ⟨hc, rfl, rfl⟩) ?_
      refine Adds.after (returns_unfaulted hcompare) ?_
      exact (hl.adds_completeDriftScan hc hscan (firstFault_cons_eq_none.1 h).1
        (List.cons_ne_nil _ _)).bind fun _ => grows_pure

end Body

/-! ## The record of a failure -/

/-- Tables after a scan differ from those before by the record of its
failure: a FAILED scan of the source, finished, and a PENDING delivery of it
for each channel. -/
structure FailureRecorded (req : ScanRequest) (source : DataSourceModel) (db db' : DB) : Prop where
  scan : ∃ scan added, db'.scanRuns = db.scanRuns ++ [scan] ∧ scan.sourceId = source.id ∧
    scan.status = .failed ∧ scan.finishedAt = some req.failedAt ∧
    db'.alertDeliveries = db.alertDeliveries ++ added ∧
    added.map AlertDeliveryModel.channel = enabledChannels req.settings ∧
    ∀ delivery ∈ added, delivery.scanId = scan.id ∧ delivery.status = .pending
  sources : db'.sources = db.sources
  datasets : db'.datasets = db.datasets
  expectedColumns : db'.expectedColumns = db.expectedColumns
  observedColumns : db'.observedColumns = db.observedColumns
  schemaChanges : db'.schemaChanges = db.schemaChanges
  pipelines : db'.pipelines = db.pipelines
  lineageEdges : db'.lineageEdges = db.lineageEdges

section Recorded

variable {db db' : DB} {req : ScanRequest} {source : DataSourceModel} {e : PyException}

theorem FailureRecorded.filed (h : FailureRecorded req source db db') : db'.filed = db.filed := by
  rw [DB.filed, DB.filed, h.datasets, h.expectedColumns, h.observedColumns]

theorem not_failureRecorded_self : ¬ FailureRecorded req source db db := by
  intro h
  obtain ⟨scan, _, hscans, -⟩ := h.scan
  have hlength := congrArg List.length hscans
  simp at hlength

theorem failureRecorded_failed (hfresh : db.FreshScans) :
    FailureRecorded req source db (req.failed source e db) := by
  rw [failed_eq hfresh]
  refine ⟨⟨_, _, rfl, rfl, rfl, rfl, rfl, ?_, fun delivery hdelivery => ?_⟩, rfl, rfl, rfl, rfl, rfl,
    rfl, rfl⟩
  · have hidentity : (pendingDeliveries (db.nextId + 1) db.nextId
        (enabledChannels req.settings)).map (fun d => (d.scanId, d.channel)) = _ :=
      map_identity_pendingDeliveries (db.nextId + 1)
    simpa [Function.comp_def] using congrArg (List.map Prod.snd) hidentity
  · obtain ⟨i, hi, rfl⟩ := List.mem_mapIdx.1 hdelivery
    exact ⟨rfl, rfl⟩

variable [Hashlib]

/-- A failed scan that raised early leaves the record of its failure. -/
theorem postScans_of_early (hwf : db.WellFormed) (hsource : db.sourceOf? req.sourceKey = some source)
    (hearly : req.earlyException source db = some e) :
    scanResult req db = .error e ∧
      postScans req db = if e.scanCommits then req.failed source e db else db := by
  have hrun := scan_fails_of_body hwf.linked.scanFresh hwf.constraints hsource
    (scanBody_raises_early hwf hsource hearly) (failed_wellFormed hwf source e).constraints
  rw [scanResult, postScans, hrun]
  exact ⟨rfl, rfl⟩

/-- **One that raised later leaves rows,** or is rolled back. -/
theorem postScans_of_late (hwf : db.WellFormed) (hsource : db.sourceOf? req.sourceKey = some source)
    (hearly : req.earlyException source db = none) (hraise : scanResult req db = .error e) :
    e.scanCommits = false ∧ postScans req db = db ∨ db.filed < (postScans req db).filed := by
  have hc := hwf.constraints
  have hadds := adds_scanBody hwf hsource hearly
  rw [Adds] at hadds
  rcases returns_or_raises (scanBody req db.nextId) db (req.session source) with
    ⟨report, t, hbody⟩ | ⟨e', t, hbody⟩
  · rw [(scan_of_body hc hsource hbody).1] at hraise
    cases hraise
  · -- `fail_scan` takes none of the rows away that are pending
    have hgrows : Grows (scanFailed req db.nextId e') :=
      (grows_failScan _ _ _ _ _).bind fun _ => grows_raise
    have hrun : exec (runScan req) db Session.new = exec (scanFailed req db.nextId e') db t := by
      rw [exec_runScan hc hsource, exec_tryExcept, hbody]
    have hfiled := hgrows db t
    rw [hbody] at hadds
    rw [postScans, hrun]
    rw [scanResult, hrun] at hraise
    generalize exec (scanFailed req db.nextId e') db t = outcome at hraise hfiled ⊢
    obtain ⟨result, u⟩ := outcome
    cases hraise
    by_cases hcommits : e.scanCommits = true
    · right
      have hstart : ((req.session source).pending db).filed = db.filed := rfl
      simp only [scanPublish, hcommits, if_true]
      simp only at hfiled hadds
      omega
    · left
      have hrolled : e.scanCommits = false := eq_false_of_ne_true hcommits
      refine ⟨hrolled, ?_⟩
      simp only [scanPublish, hrolled, if_false, Bool.false_eq_true]

end Recorded

/-! ## The dispatch that follows -/

/-- `POST /api/v1/scans` to its end: a failure that is answered by 503 has
deliveries dispatched after the commit. -/
def requestScans [Hashlib] (env : Notifications) (now : Timestamp) (req : ScanRequest) (db : DB) :
    DB :=
  match scanResult req db with
  | .error e =>
    if e.sourceUnavailable then postSystemError env req.sourceKey now (postScans req db)
    else postScans req db
  | .ok _ => postScans req db

/-- A dispatch for a source has deliveries to attempt, and each passes. -/
def DB.Attempts (env : Notifications) (sourceKey : String) (now : Timestamp) (db : DB) : Prop :=
  ∃ scanId ∈ db.latestFailedScanId sourceKey, db.dispatchable scanId ≠ [] ∧
    ∀ id ∈ db.dispatchable scanId, db.Passes env now id

section Dispatched

variable {db : DB} {env : Notifications} {sourceKey : String} {now : Timestamp}

/-- A dispatch leaves the tables it does not attempt anything in. -/
theorem postSystemError_of_not_attempts (hc : db.Constraints) (hkeys : db.DeliveryKeys)
    (h : ¬ db.Attempts env sourceKey now) : postSystemError env sourceKey now db = db := by
  rcases hlatest : db.latestFailedScanId sourceKey with _ | scanId
  · exact postSystemError_of_none hc hlatest
  · rw [(systemError_eq_dispatch hc hlatest).2]
    rcases dispatch_cases env scanId now hc (nodup_dispatchable hkeys.nodup) with
      ⟨hall, -, hpost⟩ | ⟨before, stop, after, -, -, -, hpost, -⟩
    · have hnone : db.dispatchable scanId = [] := by
        by_contra hsome
        exact h ⟨scanId, hlatest, hsome, hall⟩
      rw [hpost, hnone]
      rfl
    · exact hpost

/-- **A dispatch that attempts something** leaves a delivery that was
PENDING with an outcome. -/
theorem exists_attempted (hc : db.Constraints) (hkeys : db.DeliveryKeys)
    (h : db.Attempts env sourceKey now) :
    ∃ f, KeepsIdentity f ∧
      postSystemError env sourceKey now db =
        { db with alertDeliveries := db.alertDeliveries.map f } ∧
      ∃ d ∈ db.alertDeliveries, d.status = .pending ∧ (f d).status ≠ .pending := by
  obtain ⟨scanId, hlatest, hsome, hpasses⟩ := h
  obtain ⟨id, rest, hids⟩ := List.exists_cons_of_ne_nil hsome
  have hmem : id ∈ db.dispatchable scanId := by
    rw [hids]
    exact List.mem_cons_self
  obtain ⟨d, hd, rfl, -, hstatus⟩ := mem_dispatchable.1 hmem
  obtain ⟨f, hf, hpost⟩ := countsAttempts_postSystemError hc hkeys env sourceKey now
  obtain ⟨h, hwritable, hsame⟩ :=
    written_of_latest hc hkeys hpasses hlatest hd hmem hf.identity hpost
  refine ⟨f, hf.identity, hpost, d, hd, hstatus, ?_⟩
  rw [hsame]
  exact h.status_written hwritable d

theorem filed_postSystemError : (postSystemError env sourceKey now db).filed = db.filed := by
  by_cases hc : db.Constraints
  · have honly : DeliveriesOnly db (postSystemError env sourceKey now db) :=
      deliveriesOnly_postSystemError hc sourceKey
    obtain ⟨f, -, hpost⟩ := honly
    rw [hpost]
    rfl
  · -- the first statement raises
    have hlatest : exec (latestFailedScanId sourceKey) db Session.new =
        (.error .sqlAlchemyError, Session.new) := by
      rw [latestFailedScanId, exec_select]
      exact if_neg hc
    unfold postSystemError dispatchSystemError
    simp only [AlertM.exec_bind, AlertM.exec_ofDb]
    rw [show AlertSession.new.session = Session.new from rfl, hlatest]
    rfl

end Dispatched

section Request

variable [Hashlib]
variable {db : DB} {env : Notifications} {now : Timestamp} {req : ScanRequest}
variable {source : DataSourceModel} {e : PyException}

/-- **An attempt of any delivery shows**: those from before are as they
were and the new ones PENDING, and neither holds of one attempted. -/
theorem not_failureRecorded_of_attempts (hwf : db.WellFormed) (hkeys : db.DeliveryKeys)
    (h : (req.failed source e db).Attempts env req.sourceKey now) :
    ¬ FailureRecorded req source db
      (postSystemError env req.sourceKey now (req.failed source e db)) := by
  intro hrecorded
  obtain ⟨f, -, hpost, d, hd, hbefore, hafter⟩ :=
    exists_attempted (failed_wellFormed hwf source e).constraints (deliveryKeys_failed hwf hkeys) h
  obtain ⟨scan, added, -, -, -, -, hdeliveries, -, hpending⟩ := hrecorded.scan
  rw [hpost, failed_eq hwf.linked.scanFresh] at hdeliveries
  rw [failed_eq hwf.linked.scanFresh] at hd
  simp only [List.map_append] at hdeliveries
  obtain ⟨hold, hnew⟩ := List.append_inj hdeliveries (List.length_map _)
  rcases List.mem_append.1 hd with hmem | hmem
  · have hsame : f d = d := List.map_inj_left.1 (hold.trans (List.map_id _).symm) d hmem
    rw [hsame] at hafter
    exact hafter hbefore
  · refine hafter (hpending (f d) ?_).2
    rw [← hnew]
    exact List.mem_map_of_mem hmem

/-- **A failed scan is recorded, and nothing else is left of it,** exactly
where it raised before its first row an exception the route commits; and it
is so to the end of the request where the dispatch after it leaves no
attempt. -/
theorem failure_recorded_iff (hwf : db.WellFormed) (hkeys : db.DeliveryKeys)
    (hsource : db.sourceOf? req.sourceKey = some source) (hraise : scanResult req db = .error e)
    (env : Notifications) (now : Timestamp) :
    (FailureRecorded req source db (postScans req db) ↔
      ∃ early, req.earlyException source db = some early ∧ early.scanCommits = true) ∧
    (FailureRecorded req source db (requestScans env now req db) ↔
      ∃ early, req.earlyException source db = some early ∧ early.scanCommits = true ∧
        ¬ (early.sourceUnavailable = true ∧
          (req.failed source early db).Attempts env req.sourceKey now)) := by
  cases hearly : req.earlyException source db with
  | some early =>
    obtain ⟨hresult, hpost⟩ := postScans_of_early hwf hsource hearly
    unfold requestScans
    simp only [hresult, hpost]
    by_cases hcommits : early.scanCommits = true
    · have hrecorded : FailureRecorded req source db (req.failed source early db) :=
        failureRecorded_failed hwf.linked.scanFresh
      simp only [hcommits, if_true]
      refine ⟨iff_of_true hrecorded ⟨early, rfl, hcommits⟩, ?_⟩
      by_cases hunavailable : early.sourceUnavailable = true
      · rw [if_pos hunavailable]
        by_cases hattempts : (req.failed source early db).Attempts env req.sourceKey now
        · refine iff_of_false (not_failureRecorded_of_attempts hwf hkeys hattempts) ?_
          rintro ⟨_, ⟨⟩, -, hnot⟩
          exact hnot ⟨hunavailable, hattempts⟩
        · rw [postSystemError_of_not_attempts (failed_wellFormed hwf source early).constraints
            (deliveryKeys_failed hwf hkeys) hattempts]
          exact iff_of_true hrecorded ⟨early, rfl, hcommits, fun h => hattempts h.2⟩
      · rw [if_neg hunavailable]
        exact iff_of_true hrecorded ⟨early, rfl, hcommits, fun h => hunavailable h.1⟩
    · -- no dispatch follows a rollback
      have hanswered : early.sourceUnavailable ≠ true :=
        fun h => hcommits (PyException.scanCommits_of_sourceUnavailable h)
      simp only [hcommits, hanswered, if_false, Bool.false_eq_true]
      refine ⟨iff_of_false not_failureRecorded_self ?_, iff_of_false not_failureRecorded_self ?_⟩
      · rintro ⟨_, ⟨⟩, h⟩
        exact hcommits h
      · rintro ⟨_, ⟨⟩, h, -⟩
        exact hcommits h
  | none =>
    have hnot : ∀ db' : DB, db'.filed = (postScans req db).filed →
        (e.scanCommits = false → db' = postScans req db) →
        ¬ FailureRecorded req source db db' := by
      intro db' hfiled hrolled hrecorded
      rcases postScans_of_late hwf hsource hearly hraise with ⟨hcommits, hsame⟩ | hmore
      · rw [hrolled hcommits, hsame] at hrecorded
        exact not_failureRecorded_self hrecorded
      · have hsame := hrecorded.filed
        omega
    refine ⟨iff_of_false (hnot _ rfl fun _ => rfl) (by rintro ⟨_, ⟨⟩, -⟩),
      iff_of_false (hnot _ ?_ fun hcommits => ?_) (by rintro ⟨_, ⟨⟩, -⟩)⟩
    · unfold requestScans
      simp only [hraise]
      split
      · exact filed_postSystemError
      · rfl
    · unfold requestScans
      simp only [hraise]
      refine if_neg fun h => ?_
      rw [PyException.scanCommits_of_sourceUnavailable h] at hcommits
      cases hcommits

end Request

section Sample

attribute [local instance] Hashlib.plain

/-- The sample's source cannot be reached. -/
def sampleUnreachable : ScanRequest :=
  { sampleLoss with collected := .error (.osError "ConnectionError") }

/-- In the sample the failure is recorded and its alert sent in the request. -/
theorem failure_recorded_iff_sample :
    (FailureRecorded sampleUnreachable sampleSource sampleTables
        (postScans sampleUnreachable sampleTables) ↔
      ∃ early, sampleUnreachable.earlyException sampleSource sampleTables = some early ∧
        early.scanCommits = true) ∧
    (FailureRecorded sampleUnreachable sampleSource sampleTables
        (requestScans sampleBothAccept 9 sampleUnreachable sampleTables) ↔
      ∃ early, sampleUnreachable.earlyException sampleSource sampleTables = some early ∧
        early.scanCommits = true ∧
        ¬ (early.sourceUnavailable = true ∧
          (sampleUnreachable.failed sampleSource early sampleTables).Attempts sampleBothAccept "crm"
            9)) := by
  have hraise : scanResult sampleUnreachable sampleTables = .error (.osError "ConnectionError") := by
    decide +kernel
  have hkeys : sampleTables.DeliveryKeys := ⟨by decide, by decide⟩
  exact failure_recorded_iff sampleTables_reachable.wellFormed hkeys rfl hraise sampleBothAccept 9

/-- **A scan fails and nothing says so**: in the sample a table that was not
there raises a `LookupError` in the loop, and the tables are as before. -/
theorem failure_unrecorded :
    sampleTables.Reachable (fun _ => True) ∧ sampleTables.sourceOf? "crm" = some sampleSource ∧
    scanResult (sampleScan sampleGrown) sampleTables =
      .error (.lookupError "baseline dataset not found: public.orders") ∧
    postScans (sampleScan sampleGrown) sampleTables = sampleTables ∧
    ¬ FailureRecorded (sampleScan sampleGrown) sampleSource sampleTables
      (postScans (sampleScan sampleGrown) sampleTables) := by
  have hpost : postScans (sampleScan sampleGrown) sampleTables = sampleTables := by decide +kernel
  have hresult : scanResult (sampleScan sampleGrown) sampleTables =
      .error (.lookupError "baseline dataset not found: public.orders") := by decide +kernel
  refine ⟨sampleTables_reachable.any, by decide, hresult, hpost, ?_⟩
  rw [hpost]
  exact not_failureRecorded_self

end Sample

end SchemaSentry
