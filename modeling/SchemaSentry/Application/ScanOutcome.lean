import SchemaSentry.Application.ScanService
import SchemaSentry.Store.ScanEffects
/-!
# Schema Sentry — what a scan can do

`scanOutcome`: a scan request run alone leaves no trace, or the record of
its failure, or the first baseline, or a drift scan's rows, and each of
these as one function of the tables it met.
-/

namespace SchemaSentry

open Lib DbM

variable [Hashlib]

/-- The scan a request creates in the tables. -/
def ScanRequest.scan (req : ScanRequest) (source : DataSourceModel) (db : DB) : ScanRunModel :=
  { id := db.nextId, sourceId := source.id, trigger := req.trigger, status := .running
    startedAt := req.startedAt }

/-- The tables with a request's scan RUNNING. -/
def ScanRequest.started (req : ScanRequest) (source : DataSourceModel) (db : DB) : DB :=
  db.addScanRun source.id req.trigger req.startedAt

/-- The tables with a request's scan FAILED. -/
def ScanRequest.failed (req : ScanRequest) (source : DataSourceModel) (e : PyException) (db : DB) :
    DB :=
  (req.started source db).failed (enabledChannels req.settings) (req.scan source db) e.typeName
    "schema collection failed" req.failedAt

/-- The tables with a request's scan COMPLETED and its observation the
baseline. -/
def ScanRequest.baselined (req : ScanRequest) (source : DataSourceModel)
    (observed : List ColumnDefinition) (db : DB) : DB :=
  (req.started source db).afterBaseline source (req.scan source db) observed req.finishedAt

/-- The differences a request's scan finds. -/
def DB.driftChanges (db : DB) (source : DataSourceModel) (expected observed : List ColumnDefinition) :
    List SchemaChange :=
  diffColumns expected observed (db.dependencies source.id)

/-- The tables with a request's scan COMPLETED and its differences
recorded. -/
def ScanRequest.drifted (req : ScanRequest) (source : DataSourceModel)
    (expected observed : List ColumnDefinition) (db : DB) : DB :=
  (req.started source db).afterDrift (enabledChannels req.settings) source (req.scan source db)
    observed (db.driftChanges source expected observed) req.finishedAt

/-- The source a request names. -/
def DB.sourceOf? (db : DB) (sourceKey : String) : Option DataSourceModel :=
  db.sources.find? fun x => x.key = sourceKey

/-- What a scan request run alone returns or raises and what it leaves
committed. -/
inductive ScanOutcome (req : ScanRequest) (db : DB) :
    Except PyException ScanReport → DB → Prop
  | untraced {e : PyException} : ScanOutcome req db (.error e) db
  | failed {source : DataSourceModel} {e : PyException} :
      db.sourceOf? req.sourceKey = some source →
      (req.collected = .error e ∧ e.scanCommits = true ∨
        req.collected = .ok [] ∧ e = .emptySchemaSnapshot req.sourceKey) →
      ScanOutcome req db (.error e) (req.failed source e db)
  | baselined {source : DataSourceModel} {observed : List ColumnDefinition} :
      db.sourceOf? req.sourceKey = some source →
      req.collected = .ok observed → observed ≠ [] → db.baseline? source.id = .ok [] →
      (req.baselined source observed db).Constraints →
      ScanOutcome req db
        (.ok { scanId := db.nextId, sourceKey := req.sourceKey, trigger := req.trigger
               baselineCreated := true, observedCount := observed.length, changes := [] })
        (req.baselined source observed db)
  | drifted {source : DataSourceModel} {expected observed : List ColumnDefinition} :
      db.sourceOf? req.sourceKey = some source →
      req.collected = .ok observed → observed ≠ [] →
      db.baseline? source.id = .ok expected → expected ≠ [] →
      InDatasets (db.datasetsByRef source.id)
        (newChanges source.key (db.openChanges source.id)
          (db.driftChanges source expected observed)) →
      (req.drifted source expected observed db).Constraints →
      ScanOutcome req db
        (.ok { scanId := db.nextId, sourceKey := req.sourceKey, trigger := req.trigger
               baselineCreated := false, observedCount := observed.length
               changes := db.driftChanges source expected observed })
        (req.drifted source expected observed db)

variable {req : ScanRequest} {db : DB} {source : DataSourceModel} {s t : Session}

/-- Scans have keys below the next one. -/
def DB.FreshScans (db : DB) : Prop := ∀ scan ∈ db.scanRuns, scan.id < db.nextId

omit [Hashlib] in
/-- The scan a request creates is found by its key. -/
theorem find?_started (h : db.FreshScans) :
    (req.started source db).scanRuns.find? (fun x => x.id = db.nextId) =
      some (req.scan source db) := by
  have hnone : db.scanRuns.find? (fun x => x.id = db.nextId) = none := by
    rw [List.find?_eq_none]
    intro scan hscan
    simpa using Nat.ne_of_lt (h scan hscan)
  simp [ScanRequest.started, DB.addScanRun, List.find?_append, hnone, ScanRequest.scan]

/-- The session in which the scan's steps begin. -/
def ScanRequest.session (req : ScanRequest) (source : DataSourceModel) : Session :=
  ⟨fun db => req.started source db, [source]⟩

omit [Hashlib] in
theorem loaded_session (h : db.sourceOf? req.sourceKey = some source) :
    Loaded db req.sourceKey source (req.session source) :=
  ⟨rfl, h⟩

/-- A `try` block that returns. -/
theorem scanBody_returns (hfresh : db.FreshScans) (hsource : db.sourceOf? req.sourceKey = some source)
    {report : ScanReport}
    (h : Returns (scanBody req db.nextId) db (req.session source) report t) :
    ScanOutcome req db (.ok report) (t.pending db) := by
  have hl : Loaded db req.sourceKey source (req.session source) := loaded_session hsource
  have hscan : ((req.session source).pending db).scanRuns.find? (fun x => x.id = db.nextId) =
      some (req.scan source db) := find?_started hfresh
  simp only [scanBody, returns_bind, returns_checkpoint, returns_ofExcept] at h
  obtain ⟨-, _, ⟨-, rfl⟩, observed, _, ⟨hcollected, rfl⟩, h⟩ := h
  by_cases hempty : observed = []
  · rw [if_pos hempty] at h
    exact (not_returns_raise h).elim
  rw [if_neg hempty] at h
  simp only [returns_bind, returns_checkpoint] at h
  obtain ⟨-, _, ⟨-, rfl⟩, expected, _, hload, h⟩ := h
  obtain ⟨-, hexpected, rfl⟩ := hl.returns_loadExpectedColumns.1 hload
  by_cases hnone : expected = []
  · subst hnone
    simp only [if_true, returns_bind, returns_pure] at h
    obtain ⟨_, _, h, rfl, rfl⟩ := h
    obtain ⟨hc, hpending⟩ := hl.returns_completeInitialBaseline hscan h
    rw [hpending] at hc ⊢
    exact .baselined hsource hcollected hempty hexpected hc
  · simp only [if_neg hnone, returns_bind, returns_checkpoint, returns_pure] at h
    obtain ⟨-, _, ⟨-, rfl⟩, dependencies, _, hload, -, _, ⟨-, rfl⟩, _, _, h, rfl, rfl⟩ := h
    obtain ⟨-, rfl, rfl⟩ := hl.returns_loadDependencyColumns.1 hload
    obtain ⟨hc, hin, hpending⟩ := hl.returns_completeDriftScan hscan h
    rw [hpending] at hc ⊢
    exact .drifted hsource hcollected hempty hexpected hnone hin hc

/-- A `try` block that raises: the collector's exception or an empty
snapshot's, with nothing written, or one after which nothing is committed. -/
theorem scanBody_raises (hf : req.faults = noFaults) (hfresh : db.FreshScans)
    (hsource : db.sourceOf? req.sourceKey = some source) {e : PyException}
    (h : Raises (scanBody req db.nextId) db (req.session source) e t) :
    ((req.collected = .error e ∨
        req.collected = .ok [] ∧ e = .emptySchemaSnapshot req.sourceKey) ∧
      t = req.session source) ∨ e.scanCommits = false := by
  have hl : Loaded db req.sourceKey source (req.session source) := loaded_session hsource
  have hscan : ((req.session source).pending db).scanRuns.find? (fun x => x.id = db.nextId) =
      some (req.scan source db) := find?_started hfresh
  simp only [scanBody, hf, raises_bind, raises_checkpoint, returns_checkpoint, raises_ofExcept,
    returns_ofExcept] at h
  rcases h with ⟨h, -⟩ | ⟨_, _, ⟨-, rfl⟩, h⟩
  · cases h
  rcases h with ⟨hcollected, rfl⟩ | ⟨observed, _, ⟨hcollected, rfl⟩, h⟩
  · exact Or.inl ⟨Or.inl hcollected, rfl⟩
  by_cases hempty : observed = []
  · rw [if_pos hempty] at h
    obtain ⟨rfl, rfl⟩ := raises_raise.1 h
    exact Or.inl ⟨Or.inr ⟨hempty ▸ hcollected, rfl⟩, rfl⟩
  rw [if_neg hempty] at h
  refine Or.inr ?_
  simp only [raises_bind, raises_checkpoint, returns_checkpoint] at h
  rcases h with ⟨h, -⟩ | ⟨_, _, ⟨-, rfl⟩, h⟩
  · cases h
  rcases h with h | ⟨expected, _, hload, h⟩
  · rcases hl.raises_loadExpectedColumns h with rfl | rfl <;> rfl
  obtain ⟨-, -, rfl⟩ := hl.returns_loadExpectedColumns.1 hload
  by_cases hnone : expected = []
  · simp only [if_pos hnone, raises_bind] at h
    rcases h with h | ⟨_, _, -, h⟩
    · rcases hl.raises_completeInitialBaseline h with rfl | ⟨message, rfl⟩ <;> rfl
    · exact (not_raises_pure h).elim
  · simp only [if_neg hnone, raises_bind, raises_checkpoint, returns_checkpoint] at h
    rcases h with ⟨h, -⟩ | ⟨_, _, ⟨-, rfl⟩, h⟩
    · cases h
    rcases h with h | ⟨dependencies, _, hload, h⟩
    · rw [hl.raises_loadDependencyColumns h]
      rfl
    obtain ⟨-, -, rfl⟩ := hl.returns_loadDependencyColumns.1 hload
    rcases h with ⟨h, -⟩ | ⟨_, _, ⟨-, rfl⟩, h⟩
    · cases h
    rcases h with h | ⟨_, _, -, h⟩
    · rcases hl.raises_completeDriftScan h with rfl | ⟨message, rfl⟩ <;> rfl
    · exact (not_raises_pure h).elim

/-- **What a scan can do.** -/
theorem scanOutcome (hf : req.faults = noFaults) (hfresh : db.FreshScans) :
    ScanOutcome req db (scanResult req db) (postScans req db) := by
  have hpublish : ∀ {r : Except PyException ScanReport} {t : Session},
      exec (runScan req) db Session.new = (r, t) →
      ScanOutcome req db r (scanPublish (r, t) db) →
      ScanOutcome req db (scanResult req db) (postScans req db) := by
    intro r t h hout
    rw [scanResult, postScans, h]
    exact hout
  have huntraced : ∀ {e : PyException} {t : Session}, e.scanCommits = false →
      ScanOutcome req db (.error e) (scanPublish (.error e, t) db) := by
    intro e t he
    simp only [scanPublish, he]
    exact .untraced
  have hrun : exec (runScan req) db Session.new =
      exec (createRunningScan req.sourceKey req.trigger req.startedAt >>= fun scanId =>
        tryExcept (scanBody req scanId) (scanFailed req scanId)) db Session.new := by
    rw [runScan, exec_bind, exec_tryKey]
    rfl
  rcases returns_or_raises (createRunningScan req.sourceKey req.trigger req.startedAt) db
      Session.new with ⟨scanId, u, hcreate⟩ | ⟨e, u, hcreate⟩
  · obtain ⟨-, source, hsource, rfl, -, rfl⟩ := (returns_createRunningScan rfl).1 hcreate
    have hscan : ((req.session source).pending db).scanRuns.find? (fun x => x.id = db.nextId) =
        some (req.scan source db) := find?_started hfresh
    have hbody : exec (runScan req) db Session.new =
        exec (tryExcept (scanBody req db.nextId) (scanFailed req db.nextId)) db
          (req.session source) := by
      rw [hrun, exec_bind, hcreate]
      rfl
    rcases returns_or_raises (scanBody req db.nextId) db (req.session source) with
      ⟨report, t, h⟩ | ⟨e, t, h⟩
    · refine hpublish (by rw [hbody, exec_tryExcept, h]) ?_
      exact scanBody_returns hfresh hsource h
    · have hfail : exec (runScan req) db Session.new =
          exec (scanFailed req db.nextId e) db t := by
        rw [hbody, exec_tryExcept, h]
      -- `fail_scan` may itself fail, and then nothing is committed
      rcases returns_or_raises (failScan (enabledChannels req.settings) db.nextId e.typeName
          "schema collection failed" req.failedAt) db t with ⟨_, v, hv⟩ | ⟨e', v, hv⟩
      · have hraise : exec (runScan req) db Session.new = (.error e, v) := by
          rw [hfail, scanFailed, exec_bind, hv]
          rfl
        rcases scanBody_raises hf hfresh hsource h with ⟨hcause, rfl⟩ | hnot
        · obtain ⟨-, -, rfl⟩ := (returns_failScan hscan).1 hv
          by_cases hcommits : e.scanCommits = true
          · refine hpublish hraise ?_
            simp only [scanPublish, hcommits, if_true]
            exact .failed hsource (hcause.imp_left fun hc => ⟨hc, hcommits⟩)
          · exact hpublish hraise (huntraced (by simpa using hcommits))
        · exact hpublish hraise (huntraced hnot)
      · have hraise : exec (runScan req) db Session.new = (.error e', v) := by
          rw [hfail, scanFailed, exec_bind, hv]
        refine hpublish hraise (huntraced ?_)
        rcases raises_failScan hv with rfl | ⟨message, rfl⟩ <;> rfl
  · have hraise : exec (runScan req) db Session.new = (.error e, u) := by
      rw [hrun, exec_bind, hcreate]
    refine hpublish hraise ?_
    rcases raises_createRunningScan hcreate with rfl | rfl
    · exact huntraced rfl
    · have hsame : scanPublish (.error e, Session.new) db = db := by
        simp [scanPublish, Session.new]
      rw [hsame]
      exact .untraced

end SchemaSentry
