import SchemaSentry.Application.ScanOutcome
/-!
# Schema Sentry — when a scan returns

The converse of `scanOutcome` for the scans that complete: where the tables
a scan would leave meet the constraints, and a drift scan's new differences
are in datasets there are, it returns and leaves them (`scan_baselines`,
`scan_drifts`). A flush on the way sees fewer rows than the last one, and
no others. `scan_fails` is the session of a scan that fails.
-/

namespace SchemaSentry

open Lib DbM

variable {db : DB} {s : Session} {faults : Faults}

/-! ## What a flush on the way sees -/

/-- The constraints do not look at the scans. -/
theorem constraints_updateScan {scanId : Uuid} {f : ScanRunModel → ScanRunModel}
    (h : (db.updateScan scanId f).Constraints) : db.Constraints := { h with }

theorem constraints_addScanRun (h : db.Constraints) (sourceId : Uuid) (trigger : ScanTrigger)
    (startedAt : Timestamp) : (db.addScanRun sourceId trigger startedAt).Constraints := { h with }

theorem constraints_of_addObservedColumns {rows : List ObservedColumnModel}
    (h : (db.addObservedColumns rows).Constraints) : db.Constraints :=
  { h with observedLengths := fun c hc => h.observedLengths c (List.mem_append_left _ hc) }

theorem constraints_of_addExpectedColumn {row : ExpectedColumnModel}
    (h : (db.addExpectedColumn row).Constraints) : db.Constraints :=
  { h with
    expectedColumnIdentity :=
      List.Nodup.sublist ((List.sublist_append_left _ _).map _) h.expectedColumnIdentity
    expectedLengths := fun c hc => h.expectedLengths c (List.mem_append_left _ hc) }

theorem constraints_of_addDataset {sourceId : Uuid} {ref : DatasetRef}
    (h : (db.addDataset sourceId ref).Constraints) : db.Constraints :=
  { h with
    datasetIdentity := List.Nodup.sublist ((List.sublist_append_left _ _).map _) h.datasetIdentity
    datasetLengths := fun d hd => h.datasetLengths d (List.mem_append_left _ hd) }

theorem constraints_of_withBaseline {sourceId : Uuid} {datasets : Dict DatasetRef DatasetModel}
    {observed : List ColumnDefinition}
    (h : (db.withBaseline sourceId datasets observed).Constraints) : db.Constraints := by
  induction observed generalizing db datasets with
  | nil => exact h
  | cons column rest ih =>
    rw [DB.withBaseline] at h
    split at h
    · exact constraints_of_addExpectedColumn (ih h)
    · exact constraints_of_addDataset (constraints_of_addExpectedColumn (ih h))

/-! ## Completing -/

theorem returns_noFaults {point : ScanPoint} :
    Returns (checkpoint noFaults point) db s () s :=
  returns_checkpoint.2 ⟨rfl, rfl⟩

/-- **The loop of `complete_initial_baseline` returns** where the rows it
leaves meet the constraints. -/
theorem exists_returns_recordBaseline {source : DataSourceModel} {n : ℕ}
    {datasets : Dict DatasetRef DatasetModel} {observed : List ColumnDefinition}
    (h : ((s.pending db).withBaseline source.id datasets observed).Constraints) :
    ∃ t, Returns (recordBaseline noFaults source n datasets observed) db s () t := by
  induction observed generalizing n datasets s with
  | nil => exact ⟨s, returns_pure.2 ⟨rfl, rfl⟩⟩
  | cons column rest ih =>
    simp only [DB.withBaseline] at h
    refine exists_returns_bind returns_noFaults ?_
    cases hget : Dict.get? column.dataset datasets with
    | some dataset =>
      rw [hget] at h
      exact exists_returns_bind returns_wrote (ih h)
    | none =>
      rw [hget] at h
      -- the dataset is flushed before its first column is added
      have hdataset : ((s.pending db).addDataset source.id column.dataset).Constraints :=
        constraints_of_addExpectedColumn (constraints_of_withBaseline h)
      have hstart : (s.pending db).Constraints := constraints_of_addDataset hdataset
      refine exists_returns_bind (returns_select.2 ⟨hstart, rfl, rfl⟩) ?_
      refine exists_returns_bind returns_wrote ?_
      refine exists_returns_bind (returns_flushed hdataset) ?_
      exact exists_returns_bind returns_wrote (ih h)

variable {sourceKey : String} {source : DataSourceModel}

theorem Loaded.exists_returns_completeInitialBaseline (hl : Loaded db sourceKey source s)
    {scanId : Uuid} {scan : ScanRunModel} {observed : List ColumnDefinition}
    {finishedAt : Timestamp}
    (hscan : (s.pending db).scanRuns.find? (fun x => x.id = scanId) = some scan)
    (hc : ((s.pending db).afterBaseline source scan observed finishedAt).Constraints) :
    ∃ t, Returns (completeInitialBaseline noFaults scanId sourceKey observed finishedAt) db s ()
      t := by
  have hloop : ((s.pending db).withBaseline source.id ((s.pending db).datasetsByRef source.id)
      observed).Constraints := constraints_of_addObservedColumns (constraints_updateScan hc)
  have hstart : (s.pending db).Constraints := constraints_of_withBaseline hloop
  obtain ⟨t, ht⟩ : ∃ t, Returns (recordBaseline noFaults source 0
      ((s.pending db).datasetsByRef source.id) observed) db s () t :=
    exists_returns_recordBaseline hloop
  have hpending := (returns_recordBaseline ht).2
  refine exists_returns_bind (hl.returns_getSource.2 ⟨hstart, rfl, rfl⟩) ?_
  refine exists_returns_bind (returns_getScan.2 ⟨hstart, hscan, rfl⟩) ?_
  refine exists_returns_bind (returns_select.2 ⟨hstart, rfl, rfl⟩) ?_
  refine exists_returns_bind returns_noFaults ?_
  refine exists_returns_bind ht ?_
  refine exists_returns_bind returns_noFaults ?_
  refine exists_returns_bind returns_wrote ?_
  refine exists_returns_bind returns_wrote ?_
  refine ⟨_, returns_flushed ?_⟩
  simp only [hpending]
  exact hc

variable [Hashlib] {changes : List SchemaChange}

/-- **Completing a drift scan returns** where its new differences are in
datasets there are and the rows it leaves meet the constraints. -/
theorem Loaded.exists_returns_completeDriftScan (hl : Loaded db sourceKey source s)
    {alertChannels : List AlertChannel} {scanId : Uuid} {scan : ScanRunModel}
    {observed : List ColumnDefinition} {finishedAt : Timestamp}
    (hscan : (s.pending db).scanRuns.find? (fun x => x.id = scanId) = some scan)
    (hin : InDatasets ((s.pending db).datasetsByRef source.id)
      (newChanges source.key ((s.pending db).openChanges source.id) changes))
    (hobserved :
      ((s.pending db).addObservedColumns (observed.map (observedRow scan.id))).Constraints)
    (hc : ((s.pending db).afterDrift alertChannels source scan observed changes
      finishedAt).Constraints) :
    ∃ t, Returns (completeDriftScan noFaults alertChannels scanId sourceKey observed changes
      finishedAt) db s () t := by
  obtain rfl := hl.key_eq
  have hstart : (s.pending db).Constraints := constraints_of_addObservedColumns hobserved
  refine exists_returns_bind (hl.returns_getSource.2 ⟨hstart, rfl, rfl⟩) ?_
  refine exists_returns_bind (returns_getScan.2 ⟨hstart, hscan, rfl⟩) ?_
  refine exists_returns_bind (returns_select.2 ⟨hstart, rfl, rfl⟩) ?_
  refine exists_returns_bind returns_noFaults ?_
  refine exists_returns_bind returns_wrote ?_
  refine exists_returns_bind (returns_select.2 ⟨hobserved, rfl, rfl⟩) ?_
  refine exists_returns_bind (returns_recordChanges.2 ⟨fun _ _ => rfl, hin, rfl, rfl⟩) ?_
  refine exists_returns_bind returns_noFaults ?_
  refine exists_returns_bind returns_wrote ?_
  by_cases halert : (newChanges source.key ((s.pending db).openChanges source.id) changes).any
      fun c => c.severity.alertable
  · rw [DB.afterDrift, if_pos halert] at hc
    rw [if_pos (by simpa [DriftProgress.after] using halert)]
    refine exists_returns_bind returns_wrote ?_
    refine exists_returns_bind returns_wrote ?_
    refine ⟨_, returns_flushed ?_⟩
    simpa [DriftProgress.after, DB.completed] using hc
  · rw [DB.afterDrift, if_neg halert] at hc
    rw [if_neg (by simpa [DriftProgress.after] using halert)]
    refine exists_returns_bind returns_wrote ?_
    refine ⟨_, returns_flushed ?_⟩
    simpa [DriftProgress.after, DB.completed] using hc

/-! ## The scan -/

variable {req : ScanRequest} {observed expected : List ColumnDefinition}

/-- A scan of a registered source is its `try` statement, in a session where
it is RUNNING. -/
theorem exec_runScan (hc : db.Constraints) (hsource : db.sourceOf? req.sourceKey = some source) :
    exec (runScan req) db Session.new =
      exec (tryExcept (scanBody req db.nextId) (scanFailed req db.nextId)) db
        (req.session source) := by
  have hcreate : Returns (createRunningScan req.sourceKey req.trigger req.startedAt) db Session.new
      db.nextId (req.session source) :=
    (returns_createRunningScan rfl).2 ⟨hc, source, hsource, rfl,
      constraints_addScanRun hc source.id req.trigger req.startedAt, rfl⟩
  rw [runScan, exec_bind, exec_tryKey]
  simp only [if_true]
  rw [exec_bind, hcreate]

/-- A scan whose `try` block returns. -/
theorem scan_of_body (hc : db.Constraints)
    (hsource : db.sourceOf? req.sourceKey = some source) {report : ScanReport} {t : Session}
    (h : Returns (scanBody req db.nextId) db (req.session source) report t) :
    scanResult req db = .ok report ∧ postScans req db = t.pending db := by
  have hrun : exec (runScan req) db Session.new = (.ok report, t) := by
    rw [exec_runScan hc hsource, exec_tryExcept, h]
  rw [scanResult, postScans, hrun]
  exact ⟨rfl, rfl⟩

/-- **A scan that finds no baseline makes one.** -/
theorem scan_baselines (hf : req.faults = noFaults) (hfresh : db.FreshScans)
    (hc : db.Constraints) (hsource : db.sourceOf? req.sourceKey = some source)
    (hcollected : req.collected = .ok observed) (hne : observed ≠ [])
    (hbase : db.baseline? source.id = .ok [])
    (hafter : (req.baselined source observed db).Constraints) :
    scanResult req db =
      .ok { scanId := db.nextId, sourceKey := req.sourceKey, trigger := req.trigger
            baselineCreated := true, observedCount := observed.length, changes := [] } ∧
      postScans req db = req.baselined source observed db := by
  have hl : Loaded db req.sourceKey source (req.session source) := loaded_session hsource
  have hstart : ((req.session source).pending db).Constraints :=
    constraints_addScanRun hc source.id req.trigger req.startedAt
  have hscan : ((req.session source).pending db).scanRuns.find? (fun x => x.id = db.nextId) =
      some (req.scan source db) := find?_started hfresh
  obtain ⟨t, ht⟩ := hl.exists_returns_completeInitialBaseline hscan hafter
  have hbaselined : t.pending db = req.baselined source observed db :=
    (hl.returns_completeInitialBaseline hscan ht).2
  rw [← hbaselined]
  refine scan_of_body hc hsource ?_
  rw [scanBody, hf]
  refine returns_bind.2 ⟨(), _, returns_noFaults, ?_⟩
  refine returns_bind.2 ⟨observed, _, returns_ofExcept.2 ⟨hcollected, rfl⟩, ?_⟩
  rw [if_neg hne]
  refine returns_bind.2 ⟨(), _, returns_noFaults, ?_⟩
  refine returns_bind.2 ⟨[], _, hl.returns_loadExpectedColumns.2 ⟨hstart, hbase, rfl⟩, ?_⟩
  rw [if_pos rfl]
  exact returns_bind.2 ⟨(), t, ht, returns_pure.2 ⟨rfl, rfl⟩⟩

/-- **A scan that finds a baseline records its differences**, where those it
would open are in datasets there are. -/
theorem scan_drifts (hf : req.faults = noFaults) (hfresh : db.FreshScans)
    (hc : db.Constraints) (hsource : db.sourceOf? req.sourceKey = some source)
    (hcollected : req.collected = .ok observed) (hne : observed ≠ [])
    (hbase : db.baseline? source.id = .ok expected) (hexpected : expected ≠ [])
    (hin : InDatasets (db.datasetsByRef source.id)
      (newChanges source.key (db.openChanges source.id)
        (db.driftChanges source expected observed)))
    (hobserved :
      (db.addObservedColumns (observed.map (observedRow db.nextId))).Constraints)
    (hafter : (req.drifted source expected observed db).Constraints) :
    scanResult req db =
      .ok { scanId := db.nextId, sourceKey := req.sourceKey, trigger := req.trigger
            baselineCreated := false, observedCount := observed.length
            changes := db.driftChanges source expected observed } ∧
      postScans req db = req.drifted source expected observed db := by
  have hl : Loaded db req.sourceKey source (req.session source) := loaded_session hsource
  have hstart : ((req.session source).pending db).Constraints :=
    constraints_addScanRun hc source.id req.trigger req.startedAt
  have hscan : ((req.session source).pending db).scanRuns.find? (fun x => x.id = db.nextId) =
      some (req.scan source db) := find?_started hfresh
  obtain ⟨t, ht⟩ := hl.exists_returns_completeDriftScan hscan hin { hobserved with } hafter
  have hdrifted : t.pending db = req.drifted source expected observed db :=
    (hl.returns_completeDriftScan hscan ht).2.2
  rw [← hdrifted]
  refine scan_of_body hc hsource ?_
  rw [scanBody, hf]
  refine returns_bind.2 ⟨(), _, returns_noFaults, ?_⟩
  refine returns_bind.2 ⟨observed, _, returns_ofExcept.2 ⟨hcollected, rfl⟩, ?_⟩
  rw [if_neg hne]
  refine returns_bind.2 ⟨(), _, returns_noFaults, ?_⟩
  refine returns_bind.2 ⟨expected, _, hl.returns_loadExpectedColumns.2 ⟨hstart, hbase, rfl⟩, ?_⟩
  rw [if_neg hexpected]
  refine returns_bind.2 ⟨(), _, returns_noFaults, ?_⟩
  refine returns_bind.2 ⟨_, _, hl.returns_loadDependencyColumns.2 ⟨hstart, rfl, rfl⟩, ?_⟩
  refine returns_bind.2 ⟨(), _, returns_noFaults, ?_⟩
  exact returns_bind.2 ⟨(), t, ht, returns_pure.2 ⟨rfl, rfl⟩⟩

/-! ## Failing -/

/-- The session a failing scan ends with. -/
def ScanRequest.failedSession (req : ScanRequest) (source : DataSourceModel) (scan : ScanRunModel)
    (e : PyException) : Session :=
  ⟨fun db => (req.started source db).failed (enabledChannels req.settings) scan e.typeName
    "schema collection failed" req.failedAt, [source]⟩

/-- **A scan that raises before it wrote anything records that it failed**
and raises the exception again. -/
theorem scan_fails_of_body (hfresh : db.FreshScans) (hc : db.Constraints)
    (hsource : db.sourceOf? req.sourceKey = some source) {e : PyException}
    (h : Raises (scanBody req db.nextId) db (req.session source) e (req.session source))
    (hafter : (req.failed source e db).Constraints) :
    exec (runScan req) db Session.new =
      (.error e, req.failedSession source (req.scan source db) e) := by
  have hstart : ((req.session source).pending db).Constraints :=
    constraints_addScanRun hc source.id req.trigger req.startedAt
  have hscan : ((req.session source).pending db).scanRuns.find? (fun x => x.id = db.nextId) =
      some (req.scan source db) := find?_started hfresh
  have hfail : Returns (failScan (enabledChannels req.settings) db.nextId e.typeName
      "schema collection failed" req.failedAt) db (req.session source) ()
      (req.failedSession source (req.scan source db) e) :=
    (returns_failScan hscan).2 ⟨hstart, hafter, rfl⟩
  rw [exec_runScan hc hsource, exec_tryExcept, h]
  simp only [scanFailed]
  rw [exec_bind, hfail]
  rfl

/-- **A scan whose collector raises, or finds nothing**, is such a scan. -/
theorem scan_fails (hf : req.faults = noFaults) (hfresh : db.FreshScans) (hc : db.Constraints)
    (hsource : db.sourceOf? req.sourceKey = some source) {e : PyException}
    (hcause : req.collected = .error e ∨
      req.collected = .ok [] ∧ e = .emptySchemaSnapshot req.sourceKey)
    (hafter : (req.failed source e db).Constraints) :
    exec (runScan req) db Session.new =
      (.error e, req.failedSession source (req.scan source db) e) := by
  refine scan_fails_of_body hfresh hc hsource ?_ hafter
  unfold scanBody
  rw [hf]
  refine raises_bind.2 (Or.inr ⟨(), _, returns_noFaults, ?_⟩)
  rcases hcause with hraised | ⟨hnone, rfl⟩
  · exact raises_bind.2 (Or.inl (raises_ofExcept.2 ⟨hraised, rfl⟩))
  · refine raises_bind.2 (Or.inr ⟨[], _, returns_ofExcept.2 ⟨hnone, rfl⟩, ?_⟩)
    rw [if_pos rfl]
    exact raises_raise.2 ⟨rfl, rfl⟩

end SchemaSentry
