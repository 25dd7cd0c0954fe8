import SchemaSentry.Store.Scans
/-!
# Schema Sentry — what the scan repository does

The effect of each repository method as a function of the tables: what a
method that returns leaves pending, and what one that raises raises.
-/

namespace SchemaSentry

open Lib DbM

variable {db : DB} {s t : Session} {e : PyException} {faults : Faults}

/-! ## Loading -/

theorem returns_identify {row a : DataSourceModel} (h : s.sources = []) :
    Returns (identify row) db s a t ↔ a = row ∧ t = { s with sources := [row] } := by
  simp [Returns, exec, identify, h, eq_comm]

theorem returns_identify_seen {row seen a : DataSourceModel} (h : s.sources = [seen])
    (hid : seen.id = row.id) : Returns (identify row) db s a t ↔ a = seen ∧ t = s := by
  simp [Returns, exec, identify, h, hid, eq_comm]

theorem not_raises_identify {row : DataSourceModel} : ¬ Raises (identify row) db s e t := by
  unfold Raises exec identify
  split <;> simp

/-- The source's row, loaded for the first time. -/
theorem returns_getSource {sourceKey : String} {source : DataSourceModel} (h : s.sources = []) :
    Returns (getSource sourceKey) db s source t ↔ (s.pending db).Constraints ∧
      (s.pending db).sources.find? (fun x => x.key = sourceKey) = some source ∧
      t = { s with sources := [source] } := by
  simp only [getSource, returns_bind, returns_select]
  constructor
  · rintro ⟨row, u, ⟨hc, rfl, rfl⟩, hrest⟩
    cases hrow : (u.pending db).sources.find? (fun x => x.key = sourceKey) with
    | none =>
      rw [hrow] at hrest
      exact (not_returns_raise hrest).elim
    | some row =>
      rw [hrow] at hrest
      obtain ⟨rfl, rfl⟩ := (returns_identify h).1 hrest
      exact ⟨hc, rfl, rfl⟩
  · rintro ⟨hc, hrow, rfl⟩
    refine ⟨_, s, ⟨hc, rfl, rfl⟩, ?_⟩
    rw [hrow]
    exact (returns_identify h).2 ⟨rfl, rfl⟩

/-- The session has loaded the source's row, and it is there still. -/
structure Loaded (db : DB) (sourceKey : String) (source : DataSourceModel) (s : Session) :
    Prop where
  sources : s.sources = [source]
  found : (s.pending db).sources.find? (fun x => x.key = sourceKey) = some source

variable {sourceKey : String} {source : DataSourceModel}

/-- The source's row, loaded again. -/
theorem Loaded.returns_getSource (h : Loaded db sourceKey source s) {a : DataSourceModel} :
    Returns (getSource sourceKey) db s a t ↔ (s.pending db).Constraints ∧ a = source ∧ t = s := by
  simp only [getSource, returns_bind, returns_select]
  constructor
  · rintro ⟨row, u, ⟨hc, rfl, rfl⟩, hrest⟩
    rw [h.found] at hrest
    obtain ⟨rfl, rfl⟩ := (returns_identify_seen h.sources rfl).1 hrest
    exact ⟨hc, rfl, rfl⟩
  · rintro ⟨hc, rfl, rfl⟩
    refine ⟨_, t, ⟨hc, rfl, rfl⟩, ?_⟩
    rw [h.found]
    exact (returns_identify_seen h.sources rfl).2 ⟨rfl, rfl⟩

theorem Loaded.raises_getSource (h : Loaded db sourceKey source s) :
    Raises (getSource sourceKey) db s e t ↔
      ¬ (s.pending db).Constraints ∧ e = .sqlAlchemyError ∧ t = s := by
  simp only [getSource, raises_bind, raises_select, returns_select]
  constructor
  · rintro (hfail | ⟨row, u, ⟨hc, rfl, rfl⟩, hrest⟩)
    · exact hfail
    · rw [h.found] at hrest
      exact (not_raises_identify hrest).elim
  · exact Or.inl

theorem returns_getScan {scanId : Uuid} {scan : ScanRunModel} :
    Returns (getScan scanId) db s scan t ↔ (s.pending db).Constraints ∧
      (s.pending db).scanRuns.find? (fun x => x.id = scanId) = some scan ∧ t = s := by
  simp only [getScan, returns_bind, returns_select]
  constructor
  · rintro ⟨row, u, ⟨hc, rfl, rfl⟩, hrest⟩
    cases hrow : (u.pending db).scanRuns.find? (fun x => x.id = scanId) with
    | none =>
      rw [hrow] at hrest
      exact (not_returns_raise hrest).elim
    | some row =>
      rw [hrow] at hrest
      obtain ⟨rfl, rfl⟩ := returns_pure.1 hrest
      exact ⟨hc, rfl, rfl⟩
  · rintro ⟨hc, hrow, rfl⟩
    refine ⟨_, t, ⟨hc, rfl, rfl⟩, ?_⟩
    rw [hrow]
    exact returns_pure.2 ⟨rfl, rfl⟩

theorem raises_getScan {scanId : Uuid} (h : Raises (getScan scanId) db s e t) :
    e = .sqlAlchemyError ∨ ∃ message, e = .lookupError message := by
  simp only [getScan, raises_bind, raises_select, returns_select] at h
  rcases h with ⟨-, rfl, -⟩ | ⟨row, u, ⟨-, rfl, rfl⟩, h⟩
  · exact Or.inl rfl
  · cases hrow : (u.pending db).scanRuns.find? (fun x => x.id = scanId) with
    | none =>
      rw [hrow] at h
      exact Or.inr ⟨_, (raises_raise.1 h).1⟩
    | some row =>
      rw [hrow] at h
      exact (not_raises_pure h).elim

theorem returns_checkpoint {point : ScanPoint} {u : Unit} :
    Returns (checkpoint faults point) db s u t ↔ faults point = none ∧ t = s := by
  unfold checkpoint
  cases faults point with
  | none => simp [returns_pure]
  | some e => simp [not_returns_raise]

theorem raises_checkpoint {point : ScanPoint} :
    Raises (checkpoint faults point) db s e t ↔ faults point = some e ∧ t = s := by
  unfold checkpoint
  cases faults point with
  | none => simp [not_raises_pure]
  | some e' => simp [raises_raise, eq_comm]

/-- The baseline of a source, read from its rows. -/
def DB.baseline? (db : DB) (sourceId : Uuid) : Except PyException (List ColumnDefinition) :=
  (db.expectedRows sourceId).mapM fun row => row.1.toColumn row.2

theorem Loaded.returns_loadExpectedColumns (h : Loaded db sourceKey source s)
    {expected : List ColumnDefinition} :
    Returns (loadExpectedColumns sourceKey) db s expected t ↔ (s.pending db).Constraints ∧
      (s.pending db).baseline? source.id = .ok expected ∧ t = s := by
  simp only [loadExpectedColumns, returns_bind, h.returns_getSource, returns_select,
    returns_ofExcept]
  constructor
  · rintro ⟨a, u, ⟨hc, rfl, rfl⟩, rows, w, ⟨-, rfl, rfl⟩, hrows, rfl⟩
    exact ⟨hc, hrows, rfl⟩
  · rintro ⟨hc, hrows, rfl⟩
    exact ⟨source, t, ⟨hc, rfl, rfl⟩, _, t, ⟨hc, rfl, rfl⟩, hrows, rfl⟩

theorem optionalKwarg_error {key : String} {kwargs : JsonObject}
    (h : optionalKwarg key kwargs = .error e) : e = kwargsError := by
  unfold optionalKwarg at h
  split at h <;> cases h
  rfl

/-- Reading a type from a row raises a `TypeError` at most. -/
theorem ofKwargs_error {kwargs : JsonObject} (h : CanonicalType.ofKwargs kwargs = .error e) :
    e = kwargsError := by
  unfold CanonicalType.ofKwargs at h
  split at h
  · split at h
    · simp only [except_bind_error] at h
      rcases h with h | ⟨_, -, h | ⟨_, -, h | ⟨_, -, h⟩⟩⟩
      · exact optionalKwarg_error h
      · exact optionalKwarg_error h
      · exact optionalKwarg_error h
      · cases h
    · cases h
      rfl
  · cases h
    rfl

theorem optionalKwarg_optionalInt {key : String} {kwargs : JsonObject} {n : Option ℤ}
    (h : Dict.get? key kwargs = some (optionalInt n)) : optionalKwarg key kwargs = .ok n := by
  unfold optionalKwarg
  rw [h]
  cases n <;> rfl

/-- **A type is read back from its dictionary.** -/
@[simp] theorem ofKwargs_toCanonicalDict (type : CanonicalType) :
    CanonicalType.ofKwargs type.toCanonicalDict = .ok type := by
  have hkeys : ∀ key ∈ Dict.keys type.toCanonicalDict,
      key ∈ ["name", "length", "precision", "scale"] := fun _ h => h
  have hname : Dict.get? "name" type.toCanonicalDict = some (.str type.name) := rfl
  rw [CanonicalType.ofKwargs, if_pos hkeys, hname]
  simp only
  have hlength : optionalKwarg "length" type.toCanonicalDict = .ok type.length :=
    optionalKwarg_optionalInt rfl
  have hprecision : optionalKwarg "precision" type.toCanonicalDict = .ok type.precision :=
    optionalKwarg_optionalInt rfl
  have hscale : optionalKwarg "scale" type.toCanonicalDict = .ok type.scale :=
    optionalKwarg_optionalInt rfl
  rw [hlength, hprecision, hscale]
  rfl

/-- Loading the baseline raises nothing the scan's request commits. -/
theorem Loaded.raises_loadExpectedColumns (h : Loaded db sourceKey source s)
    (hr : Raises (loadExpectedColumns sourceKey) db s e t) :
    e = .sqlAlchemyError ∨ e = kwargsError := by
  simp only [loadExpectedColumns, raises_bind, h.raises_getSource, h.returns_getSource,
    raises_select, returns_select, raises_ofExcept] at hr
  rcases hr with ⟨-, rfl, -⟩ | ⟨_, _, ⟨-, rfl, rfl⟩, ⟨-, rfl, -⟩ | ⟨rows, _, ⟨-, rfl, rfl⟩, hr, -⟩⟩
  · exact Or.inl rfl
  · exact Or.inl rfl
  · obtain ⟨row, -, hrow⟩ := mapM_error hr
    unfold ExpectedColumnModel.toColumn at hrow
    rcases except_bind_error.1 hrow with hrow | ⟨_, -, hrow⟩
    · exact Or.inr (ofKwargs_error hrow)
    · cases hrow

theorem Loaded.returns_loadDependencyColumns (h : Loaded db sourceKey source s)
    {dependencies : List ColumnRef} :
    Returns (loadDependencyColumns sourceKey) db s dependencies t ↔
      (s.pending db).Constraints ∧ dependencies = (s.pending db).dependencies source.id ∧
      t = s := by
  simp only [loadDependencyColumns, returns_bind, h.returns_getSource, returns_select]
  constructor
  · rintro ⟨a, u, ⟨hc, rfl, rfl⟩, -, hdeps, rfl⟩
    exact ⟨hc, hdeps, rfl⟩
  · rintro ⟨hc, hdeps, rfl⟩
    exact ⟨source, t, ⟨hc, rfl, rfl⟩, hc, hdeps, rfl⟩

theorem Loaded.raises_loadDependencyColumns (h : Loaded db sourceKey source s)
    (hr : Raises (loadDependencyColumns sourceKey) db s e t) : e = .sqlAlchemyError := by
  simp only [loadDependencyColumns, raises_bind, h.raises_getSource, h.returns_getSource,
    raises_select] at hr
  rcases hr with ⟨-, rfl, -⟩ | ⟨_, _, -, -, rfl, -⟩ <;> rfl

/-! ## Creating -/

/-- The tables with the new RUNNING scan. -/
theorem returns_createRunningScan {trigger : ScanTrigger} {startedAt : Timestamp} {scanId : Uuid}
    (h : s.sources = []) :
    Returns (createRunningScan sourceKey trigger startedAt) db s scanId t ↔
      (s.pending db).Constraints ∧ ∃ source,
        (s.pending db).sources.find? (fun x => x.key = sourceKey) = some source ∧
        scanId = (s.pending db).nextId ∧
        ((s.pending db).addScanRun source.id trigger startedAt).Constraints ∧
        t = ⟨fun db => (s.pending db).addScanRun source.id trigger startedAt, [source]⟩ := by
  simp only [createRunningScan, returns_bind, returns_getSource h, returns_lockSource,
    returns_select, returns_write, returns_flush, returns_pure]
  constructor
  · rintro ⟨source, u, ⟨hc, hfound, rfl⟩, -, -, rfl, id, -, ⟨-, rfl, rfl⟩, -, -, rfl, -, -,
      ⟨hflush, rfl⟩, rfl, rfl⟩
    exact ⟨hc, source, hfound, rfl, hflush, rfl⟩
  · rintro ⟨hc, source, hfound, rfl, hflush, rfl⟩
    exact ⟨source, _, ⟨hc, hfound, rfl⟩, (), _, rfl, _, _, ⟨hc, rfl, rfl⟩, (), _, rfl, (), _,
      ⟨hflush, rfl⟩, rfl, rfl⟩

theorem raises_createRunningScan {trigger : ScanTrigger} {startedAt : Timestamp}
    (h : Raises (createRunningScan sourceKey trigger startedAt) db s e t) :
    e = .sqlAlchemyError ∨ t = s := by
  simp only [createRunningScan, getSource, raises_bind, returns_bind, raises_select,
    returns_select, not_raises_lockSource, not_raises_write, raises_flush, not_raises_pure,
    false_or, and_false, exists_false, or_false] at h
  rcases h with (⟨-, rfl, -⟩ | ⟨row, u, ⟨-, rfl, rfl⟩, h⟩) | ⟨_, _, -, _, _, -, h⟩
  · exact Or.inl rfl
  · cases hrow : (u.pending db).sources.find? (fun x => x.key = sourceKey) with
    | none =>
      rw [hrow] at h
      exact Or.inr (raises_raise.1 h).2
    | some row =>
      rw [hrow] at h
      exact (not_raises_identify h).elim
  · rcases h with ⟨-, rfl, -⟩ | ⟨_, _, -, _, _, -, -, rfl, -⟩ <;> exact Or.inl rfl

/-! ## The first baseline -/

/-- The tables after the loop of `complete_initial_baseline`. -/
def DB.withBaseline (sourceId : Uuid) :
    Dict DatasetRef DatasetModel → List ColumnDefinition → DB → DB
  | _, [], db => db
  | datasets, column :: rest, db =>
    match Dict.get? column.dataset datasets with
    | some dataset =>
      DB.withBaseline sourceId datasets rest (db.addExpectedColumn (expectedRow dataset.id column))
    | none =>
      DB.withBaseline sourceId
        (Dict.insert column.dataset
          ⟨db.nextId, sourceId, column.dataset.schema, column.dataset.table⟩ datasets) rest
        ((db.addDataset sourceId column.dataset).addExpectedColumn (expectedRow db.nextId column))

theorem returns_recordBaseline {n : ℕ} {datasets : Dict DatasetRef DatasetModel}
    {observed : List ColumnDefinition} {u : Unit}
    (h : Returns (recordBaseline faults source n datasets observed) db s u t) :
    t.sources = s.sources ∧
      t.pending db = (s.pending db).withBaseline source.id datasets observed := by
  induction observed generalizing n datasets s with
  | nil =>
    obtain ⟨-, rfl⟩ := returns_pure.1 h
    exact ⟨rfl, rfl⟩
  | cons column rest ih =>
    rw [recordBaseline, returns_bind] at h
    obtain ⟨_, v, hcheck, h⟩ := h
    obtain ⟨-, rfl⟩ := returns_checkpoint.1 hcheck
    cases hget : Dict.get? column.dataset datasets with
    | some dataset =>
      simp only [hget, returns_bind, returns_write] at h
      obtain ⟨-, w, rfl, h⟩ := h
      obtain ⟨hsources, hpending⟩ := ih h
      exact ⟨hsources, by rw [hpending, DB.withBaseline, hget]⟩
    | none =>
      simp only [hget, returns_bind, returns_write, returns_select, returns_flush] at h
      obtain ⟨_, _, ⟨-, rfl, rfl⟩, _, _, rfl, _, _, ⟨-, rfl⟩, _, _, rfl, h⟩ := h
      obtain ⟨hsources, hpending⟩ := ih h
      exact ⟨hsources, by rw [hpending, DB.withBaseline, hget]⟩

/-- Without faults the loop fails on the database's account only. -/
theorem raises_recordBaseline {n : ℕ} {datasets : Dict DatasetRef DatasetModel}
    {observed : List ColumnDefinition}
    (h : Raises (recordBaseline noFaults source n datasets observed) db s e t) :
    e = .sqlAlchemyError := by
  induction observed generalizing n datasets s with
  | nil => exact (not_raises_pure h).elim
  | cons column rest ih =>
    rw [recordBaseline, raises_bind] at h
    rcases h with hcheck | ⟨_, v, hcheck, h⟩
    · cases (raises_checkpoint.1 hcheck).1
    obtain ⟨-, rfl⟩ := returns_checkpoint.1 hcheck
    cases hget : Dict.get? column.dataset datasets with
    | some dataset =>
      simp only [hget, raises_bind, not_raises_write, false_or] at h
      obtain ⟨-, w, -, h⟩ := h
      exact ih h
    | none =>
      simp only [hget, raises_bind, not_raises_write, false_or, raises_select, raises_flush] at h
      rcases h with ⟨-, rfl, -⟩ | ⟨_, _, -, _, _, -, ⟨-, rfl, -⟩ | ⟨_, _, -, _, _, -, h⟩⟩
      · rfl
      · rfl
      · exact ih h

/-- The tables with a scan completed. -/
def DB.completed (scan : ScanRunModel) (finishedAt : Timestamp) (db : DB) : DB :=
  db.updateScan scan.id fun x =>
    { x with
      status := .completed
      finishedAt := some finishedAt
      durationMs := some (durationMs scan.startedAt finishedAt) }

/-- The tables after `complete_initial_baseline`. -/
def DB.afterBaseline (source : DataSourceModel) (scan : ScanRunModel)
    (observed : List ColumnDefinition) (finishedAt : Timestamp) (db : DB) : DB :=
  ((db.withBaseline source.id (db.datasetsByRef source.id) observed).addObservedColumns
    (observed.map (observedRow scan.id))).completed scan finishedAt

theorem Loaded.returns_completeInitialBaseline (hl : Loaded db sourceKey source s)
    {scanId : Uuid} {scan : ScanRunModel} {observed : List ColumnDefinition}
    {finishedAt : Timestamp} {u : Unit}
    (hscan : (s.pending db).scanRuns.find? (fun x => x.id = scanId) = some scan)
    (h : Returns (completeInitialBaseline faults scanId sourceKey observed finishedAt) db s u t) :
    (t.pending db).Constraints ∧
      t.pending db = (s.pending db).afterBaseline source scan observed finishedAt := by
  simp only [completeInitialBaseline, returns_bind, hl.returns_getSource, returns_getScan,
    returns_select, returns_checkpoint, persistObservations, completeScan, returns_write,
    returns_flush] at h
  obtain ⟨_, _, ⟨-, rfl, rfl⟩, scan', _, ⟨-, heq, rfl⟩, _, _, ⟨-, rfl, rfl⟩, -, _, ⟨-, rfl⟩,
    _, v, hloop, -, _, ⟨-, rfl⟩, -, _, rfl, -, _, rfl, hflush, rfl⟩ := h
  have hpending := (returns_recordBaseline hloop).2
  rw [hscan] at heq
  cases heq
  refine ⟨hflush, ?_⟩
  simp only [hpending]
  rfl

theorem Loaded.raises_completeInitialBaseline (hl : Loaded db sourceKey source s)
    {scanId : Uuid} {observed : List ColumnDefinition} {finishedAt : Timestamp}
    (h : Raises (completeInitialBaseline noFaults scanId sourceKey observed finishedAt) db s e t) :
    e = .sqlAlchemyError ∨ ∃ message, e = .lookupError message := by
  simp only [completeInitialBaseline, raises_bind, hl.returns_getSource, hl.raises_getSource,
    returns_select, raises_select, returns_checkpoint, raises_checkpoint, persistObservations,
    completeScan, not_raises_write, returns_write, raises_flush, false_or] at h
  rcases h with ⟨-, rfl, -⟩ | ⟨_, _, ⟨-, rfl, rfl⟩, h⟩
  · exact Or.inl rfl
  rcases h with h | ⟨_, _, -, h⟩
  · exact raises_getScan h
  rcases h with ⟨-, rfl, -⟩ | ⟨_, _, -, h⟩
  · exact Or.inl rfl
  rcases h with ⟨h, -⟩ | ⟨_, _, -, h⟩
  · cases h
  rcases h with h | ⟨_, _, -, h⟩
  · exact Or.inl (raises_recordBaseline h)
  rcases h with ⟨h, -⟩ | ⟨_, _, -, h⟩
  · cases h
  obtain ⟨-, _, -, -, _, -, -, rfl, -⟩ := h
  exact Or.inl rfl

/-! ## A drift scan -/

section Drift

variable [Hashlib]

/-- The changes that are not OPEN already. -/
def newChanges (sourceKey : String) (openChanges : Dict String SchemaChangeModel)
    (changes : List SchemaChange) : List SchemaChange :=
  changes.filter fun c => changeFingerprint sourceKey c ∉ Dict.keys openChanges

/-- The rows of changes, but for their keys, in the datasets they are in. -/
def changeRows (scan : ScanRunModel) (source : DataSourceModel) (sourceKey : String)
    (datasets : Dict DatasetRef DatasetModel) (changes : List SchemaChange) :
    List SchemaChangeModel :=
  changes.filterMap fun c => (Dict.get? c.dataset datasets).map fun dataset =>
    changeRow scan.id source dataset.id (changeFingerprint sourceKey c) c

/-- The tables with new change rows. -/
def DB.addSchemaChanges (rows : List SchemaChangeModel) (db : DB) : DB :=
  rows.foldl (fun db row => db.addSchemaChange row) db

/-- Every change is in a dataset there is. -/
def InDatasets (datasets : Dict DatasetRef DatasetModel) (changes : List SchemaChange) : Prop :=
  ∀ c ∈ changes, c.dataset ∈ Dict.keys datasets

variable {scan : ScanRunModel} {datasets : Dict DatasetRef DatasetModel}
variable {openChanges : Dict String SchemaChangeModel} {changes : List SchemaChange}

/-- What the loop of `complete_drift_scan` has gathered at its end. -/
def DriftProgress.after (sourceKey : String) (openChanges : Dict String SchemaChangeModel)
    (progress : DriftProgress) (changes : List SchemaChange) : DriftProgress :=
  { activeFingerprints :=
      (changes.map (changeFingerprint sourceKey)).reverse ++ progress.activeFingerprints
    hasNewAlertableChange := progress.hasNewAlertableChange ||
      (newChanges sourceKey openChanges changes).any fun c => c.severity.alertable }

/-- **The loop of `complete_drift_scan` returns** where every change that is
not OPEN already is in a dataset there is, and then those changes have
their rows. -/
theorem returns_recordChanges {n : ℕ} {progress final : DriftProgress} :
    Returns (recordChanges faults scan source sourceKey datasets openChanges n progress changes)
        db s final t ↔
      (∀ i < changes.length, faults (.turn (n + i)) = none) ∧
      InDatasets datasets (newChanges sourceKey openChanges changes) ∧
      final = progress.after sourceKey openChanges changes ∧
      t = ⟨fun db => (s.pending db).addSchemaChanges
        (changeRows scan source sourceKey datasets (newChanges sourceKey openChanges changes)),
        s.sources⟩ := by
  induction changes generalizing n progress s with
  | nil =>
    simp only [recordChanges, returns_pure]
    simp [newChanges, InDatasets, DriftProgress.after, DB.addSchemaChanges, changeRows]
  | cons c rest ih =>
    have hturns : (∀ i < (c :: rest).length, faults (.turn (n + i)) = none) ↔
        faults (.turn n) = none ∧ ∀ i < rest.length, faults (.turn (n + 1 + i)) = none := by
      constructor
      · intro h
        refine ⟨by simpa using h 0 (by simp), fun i hi => ?_⟩
        rw [show n + 1 + i = n + (i + 1) by omega]
        exact h (i + 1) (by simpa using hi)
      · rintro ⟨hzero, hsucc⟩ i hi
        rcases i with _ | i
        · simpa using hzero
        · rw [show n + (i + 1) = n + 1 + i by omega]
          exact hsucc i (by simpa using hi)
    rw [hturns]
    simp only [recordChanges, returns_bind, returns_checkpoint]
    by_cases hopen : changeFingerprint sourceKey c ∈ Dict.keys openChanges
    · have hnew : newChanges sourceKey openChanges (c :: rest) =
          newChanges sourceKey openChanges rest := by
        simp [newChanges, hopen]
      simp only [hopen, if_true, ih, hnew]
      simp [DriftProgress.after, hnew, and_assoc]
    · have hnew : newChanges sourceKey openChanges (c :: rest) =
          c :: newChanges sourceKey openChanges rest := by
        simp [newChanges, hopen]
      simp only [hopen, if_false, hnew]
      cases hget : Dict.get? c.dataset datasets with
      | none =>
        have hnot : c.dataset ∉ Dict.keys datasets := Dict.get?_eq_none_iff.1 hget
        simp [not_returns_raise, InDatasets, hnot]
      | some dataset =>
        have hin : c.dataset ∈ Dict.keys datasets := by
          by_contra hnot
          rw [Dict.get?_eq_none_iff.2 hnot] at hget
          cases hget
        simp only [returns_bind, returns_write, ih]
        simp [DriftProgress.after, hnew, InDatasets, hin, changeRows, hget, DB.addSchemaChanges,
          and_assoc, Bool.or_assoc]

/-- Without faults the loop raises nothing the scan's request commits. -/
theorem raises_recordChanges {n : ℕ} {progress : DriftProgress}
    (h : Raises (recordChanges noFaults scan source sourceKey datasets openChanges n progress
      changes) db s e t) : ∃ message, e = .lookupError message := by
  induction changes generalizing n progress s with
  | nil => exact (not_raises_pure h).elim
  | cons c rest ih =>
    rw [recordChanges, raises_bind] at h
    rcases h with hcheck | ⟨_, v, hcheck, h⟩
    · cases (raises_checkpoint.1 hcheck).1
    by_cases hopen : changeFingerprint sourceKey c ∈ Dict.keys openChanges
    · simp only [hopen, if_true] at h
      exact ih h
    · simp only [hopen, if_false] at h
      cases hget : Dict.get? c.dataset datasets with
      | none =>
        rw [hget] at h
        exact ⟨_, (raises_raise.1 h).1⟩
      | some dataset =>
        simp only [hget, raises_bind, not_raises_write, false_or] at h
        obtain ⟨-, w, -, h⟩ := h
        exact ih h

/-- The tables after `complete_drift_scan`. -/
def DB.afterDrift (alertChannels : List AlertChannel) (source : DataSourceModel)
    (scan : ScanRunModel) (observed : List ColumnDefinition) (changes : List SchemaChange)
    (finishedAt : Timestamp) (db : DB) : DB :=
  let openChanges := db.openChanges source.id
  let news := newChanges source.key openChanges changes
  let recorded := (db.addObservedColumns (observed.map (observedRow scan.id))).addSchemaChanges
    (changeRows scan source source.key (db.datasetsByRef source.id) news)
  let resolved := recorded.resolveAbsent openChanges
    (changes.map (changeFingerprint source.key)).reverse finishedAt
  let alerted := if news.any fun c => c.severity.alertable then
    resolved.addDeliveries scan.id alertChannels else resolved
  alerted.completed scan finishedAt

omit [Hashlib] in
@[simp] theorem openChanges_addObservedColumns (rows : List ObservedColumnModel) (sourceId : Uuid) :
    (db.addObservedColumns rows).openChanges sourceId = db.openChanges sourceId := rfl

omit [Hashlib] in
theorem Loaded.key_eq (hl : Loaded db sourceKey source s) : source.key = sourceKey := by
  simpa using List.find?_some hl.found

theorem Loaded.returns_completeDriftScan (hl : Loaded db sourceKey source s)
    {alertChannels : List AlertChannel} {scanId : Uuid} {observed : List ColumnDefinition}
    {finishedAt : Timestamp} {u : Unit}
    (hscan : (s.pending db).scanRuns.find? (fun x => x.id = scanId) = some scan)
    (h : Returns (completeDriftScan faults alertChannels scanId sourceKey observed changes
      finishedAt) db s u t) :
    (t.pending db).Constraints ∧
      InDatasets ((s.pending db).datasetsByRef source.id)
        (newChanges source.key ((s.pending db).openChanges source.id) changes) ∧
      t.pending db =
        (s.pending db).afterDrift alertChannels source scan observed changes finishedAt := by
  obtain rfl := hl.key_eq
  simp only [completeDriftScan, returns_bind, hl.returns_getSource, returns_getScan,
    returns_select, returns_checkpoint, persistObservations, completeScan, returns_write,
    returns_recordChanges] at h
  obtain ⟨_, _, ⟨-, rfl, rfl⟩, scan', _, ⟨-, heq, rfl⟩, _, _, ⟨-, rfl, rfl⟩, -, _, ⟨-, rfl⟩,
    -, _, rfl, _, _, ⟨-, rfl, rfl⟩, _, _, ⟨-, hin, rfl, rfl⟩, -, _, ⟨-, rfl⟩, -, _, rfl, h⟩ := h
  rw [hscan] at heq
  cases heq
  split at h
  · rename_i halert
    simp only [createPendingDeliveries, returns_bind, returns_write, returns_flush] at h
    obtain ⟨-, _, rfl, -, _, rfl, hflush, rfl⟩ := h
    refine ⟨hflush, hin, ?_⟩
    rw [DB.afterDrift, if_pos (by simpa [DriftProgress.after] using halert)]
    simp [DriftProgress.after, DB.completed]
  · rename_i halert
    simp only [returns_bind, returns_write, returns_flush] at h
    obtain ⟨-, _, rfl, hflush, rfl⟩ := h
    refine ⟨hflush, hin, ?_⟩
    rw [DB.afterDrift, if_neg (by simpa [DriftProgress.after] using halert)]
    simp [DriftProgress.after, DB.completed]

/-- Without faults completing a drift scan fails on the database's account
or for want of a dataset. -/
theorem Loaded.raises_completeDriftScan (hl : Loaded db sourceKey source s)
    {alertChannels : List AlertChannel} {scanId : Uuid} {observed : List ColumnDefinition}
    {finishedAt : Timestamp}
    (h : Raises (completeDriftScan noFaults alertChannels scanId sourceKey observed changes
      finishedAt) db s e t) : e = .sqlAlchemyError ∨ ∃ message, e = .lookupError message := by
  simp only [completeDriftScan, raises_bind, hl.returns_getSource, hl.raises_getSource,
    returns_select, raises_select, returns_checkpoint, raises_checkpoint, persistObservations,
    completeScan, not_raises_write, returns_write, false_or] at h
  rcases h with ⟨-, rfl, -⟩ | ⟨_, _, ⟨-, rfl, rfl⟩, h⟩
  · exact Or.inl rfl
  rcases h with h | ⟨_, _, -, h⟩
  · exact raises_getScan h
  rcases h with ⟨-, rfl, -⟩ | ⟨_, _, -, h⟩
  · exact Or.inl rfl
  rcases h with ⟨h, -⟩ | ⟨_, _, -, h⟩
  · cases h
  obtain ⟨_, _, -, h⟩ := h
  rcases h with ⟨-, rfl, -⟩ | ⟨_, _, -, h⟩
  · exact Or.inl rfl
  rcases h with h | ⟨_, _, -, h⟩
  · exact Or.inr (raises_recordChanges h)
  rcases h with ⟨h, -⟩ | ⟨_, _, -, h⟩
  · cases h
  obtain ⟨_, _, -, h⟩ := h
  split at h
  · simp only [createPendingDeliveries, raises_bind, not_raises_write, false_or,
      raises_flush] at h
    obtain ⟨-, _, -, -, _, -, -, rfl, -⟩ := h
    exact Or.inl rfl
  · simp only [raises_bind, not_raises_write, false_or, raises_flush] at h
    obtain ⟨-, _, -, -, rfl, -⟩ := h
    exact Or.inl rfl

end Drift

/-! ## Failing -/

/-- The tables after `fail_scan`. -/
def DB.failed (alertChannels : List AlertChannel) (scan : ScanRunModel)
    (errorCode errorMessage : String) (finishedAt : Timestamp) (db : DB) : DB :=
  (db.updateScan scan.id fun x =>
    { x with
      status := .failed
      finishedAt := some finishedAt
      durationMs := some (durationMs scan.startedAt finishedAt)
      errorCode := some errorCode
      errorMessage := some errorMessage }).addDeliveries scan.id alertChannels

theorem returns_failScan {alertChannels : List AlertChannel} {scanId : Uuid}
    {scan : ScanRunModel} {errorCode errorMessage : String} {finishedAt : Timestamp} {u : Unit}
    (hscan : (s.pending db).scanRuns.find? (fun x => x.id = scanId) = some scan) :
    Returns (failScan alertChannels scanId errorCode errorMessage finishedAt) db s u t ↔
      (s.pending db).Constraints ∧
      ((s.pending db).failed alertChannels scan errorCode errorMessage finishedAt).Constraints ∧
      t = ⟨fun db =>
        (s.pending db).failed alertChannels scan errorCode errorMessage finishedAt, s.sources⟩ := by
  simp only [failScan, returns_bind, returns_getScan, createPendingDeliveries, returns_write,
    returns_flush]
  constructor
  · rintro ⟨scan', _, ⟨hc, heq, rfl⟩, -, _, rfl, -, _, rfl, hflush, rfl⟩
    rw [hscan] at heq
    cases heq
    exact ⟨hc, hflush, rfl⟩
  · rintro ⟨hc, hflush, rfl⟩
    exact ⟨scan, s, ⟨hc, hscan, rfl⟩, (), _, rfl, (), _, rfl, hflush, rfl⟩

theorem raises_failScan {alertChannels : List AlertChannel} {scanId : Uuid}
    {errorCode errorMessage : String} {finishedAt : Timestamp}
    (h : Raises (failScan alertChannels scanId errorCode errorMessage finishedAt) db s e t) :
    e = .sqlAlchemyError ∨ ∃ message, e = .lookupError message := by
  simp only [failScan, raises_bind, createPendingDeliveries, not_raises_write, returns_write,
    raises_flush, false_or] at h
  rcases h with h | ⟨_, _, -, -, _, -, -, _, -, -, rfl, -⟩
  · exact raises_getScan h
  · exact Or.inl rfl

end SchemaSentry
