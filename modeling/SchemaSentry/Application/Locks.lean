import SchemaSentry.Application.ScanOutcome
import SchemaSentry.Application.AcceptOutcome
import SchemaSentry.Lib.KeyLock
/-!
# Schema Sentry — which locks a transaction takes

A scan tries for its source's key, reads the source and locks its row as
the scan it inserts refers to it; an acceptance reads its change and locks
the source's row. Neither takes a lock after that.
-/

namespace SchemaSentry

open Lib DbM

/-! ## Statements only -/

section Statements

variable {faults : Faults} {sourceKey : String}

theorem plain_checkpoint (point : ScanPoint) : Plain (checkpoint faults point) := by
  unfold checkpoint
  split
  · exact plain_pure
  · exact plain_raise

theorem plain_getSource : Plain (getSource sourceKey) := by
  refine (plain_select _).bind fun row => ?_
  rcases row with _ | source
  · exact plain_raise
  · exact plain_identify source

theorem plain_getScan (scanId : Uuid) : Plain (getScan scanId) := by
  refine (plain_select _).bind fun row => ?_
  rcases row with _ | scan
  · exact plain_raise
  · exact plain_pure

theorem plain_loadExpectedColumns : Plain (loadExpectedColumns sourceKey) :=
  plain_getSource.bind fun _ => (plain_select _).bind fun _ => plain_ofExcept _

theorem plain_loadDependencyColumns : Plain (loadDependencyColumns sourceKey) :=
  plain_getSource.bind fun _ => plain_select _

theorem plain_recordBaseline {source : DataSourceModel} {n : ℕ}
    {datasets : Dict DatasetRef DatasetModel} {observed : List ColumnDefinition} :
    Plain (recordBaseline faults source n datasets observed) := by
  induction observed generalizing n datasets with
  | nil => exact plain_pure
  | cons column rest ih =>
    refine (plain_checkpoint _).bind fun _ => ?_
    rcases Dict.get? column.dataset datasets with _ | dataset
    · refine (plain_select _).bind fun _ => (plain_write _).bind fun _ => ?_
      exact (plain_select _).bind fun _ => (plain_write _).bind fun _ => ih
    · exact (plain_write _).bind fun _ => ih

theorem plain_completeInitialBaseline {scanId : Uuid} {observed : List ColumnDefinition}
    {finishedAt : Timestamp} :
    Plain (completeInitialBaseline faults scanId sourceKey observed finishedAt) := by
  refine plain_getSource.bind fun _ => (plain_getScan _).bind fun _ => ?_
  refine (plain_select _).bind fun _ => (plain_checkpoint _).bind fun _ => ?_
  refine plain_recordBaseline.bind fun _ => (plain_checkpoint _).bind fun _ => ?_
  exact (plain_write _).bind fun _ => (plain_write _).bind fun _ => plain_select _

theorem plain_failScan {channels : List AlertChannel} {scanId : Uuid}
    {errorCode errorMessage : String} {finishedAt : Timestamp} :
    Plain (failScan channels scanId errorCode errorMessage finishedAt) := by
  refine (plain_getScan _).bind fun _ => (plain_write _).bind fun _ => ?_
  exact (plain_write _).bind fun _ => plain_select _

end Statements

section Scans

variable [Hashlib] {faults : Faults} {sourceKey : String} {req : ScanRequest}

theorem plain_recordChanges {scan : ScanRunModel} {source : DataSourceModel}
    {datasets : Dict DatasetRef DatasetModel} {openChanges : Dict String SchemaChangeModel}
    {n : ℕ} {progress : DriftProgress} {changes : List SchemaChange} :
    Plain (recordChanges faults scan source sourceKey datasets openChanges n progress changes) := by
  induction changes generalizing n progress with
  | nil => exact plain_pure
  | cons change rest ih =>
    refine (plain_checkpoint _).bind fun _ => ?_
    by_cases hopen : changeFingerprint sourceKey change ∈ Dict.keys openChanges
    · simp only [if_pos hopen]
      exact ih
    · simp only [if_neg hopen]
      rcases Dict.get? change.dataset datasets with _ | dataset
      · exact plain_raise
      · exact (plain_write _).bind fun _ => ih

theorem plain_completeDriftScan {channels : List AlertChannel} {scanId : Uuid}
    {observed : List ColumnDefinition} {changes : List SchemaChange} {finishedAt : Timestamp} :
    Plain (completeDriftScan faults channels scanId sourceKey observed changes finishedAt) := by
  refine plain_getSource.bind fun _ => (plain_getScan _).bind fun _ => ?_
  refine (plain_select _).bind fun _ => (plain_checkpoint _).bind fun _ => ?_
  refine (plain_write _).bind fun _ => (plain_select _).bind fun _ => ?_
  refine plain_recordChanges.bind fun progress => (plain_checkpoint _).bind fun _ => ?_
  refine (plain_write _).bind fun _ => ?_
  have hend : ∀ scan : ScanRunModel, Plain (do completeScan scan finishedAt; flush) :=
    fun _ => (plain_write _).bind fun _ => plain_select _
  split
  · exact (plain_write _).bind fun _ => hend _
  · exact hend _

theorem plain_scanBody (scanId : Uuid) : Plain (scanBody req scanId) := by
  refine (plain_checkpoint _).bind fun _ => (plain_ofExcept _).bind fun observed => ?_
  split
  · exact plain_raise
  · refine (plain_checkpoint _).bind fun _ => plain_loadExpectedColumns.bind fun expected => ?_
    split
    · exact plain_completeInitialBaseline.bind fun _ => plain_pure
    · refine (plain_checkpoint _).bind fun _ => plain_loadDependencyColumns.bind fun _ => ?_
      refine (plain_checkpoint _).bind fun _ => ?_
      exact plain_completeDriftScan.bind fun _ => plain_pure

omit [Hashlib] in
theorem plain_scanFailed (scanId : Uuid) (e : PyException) : Plain (scanFailed req scanId e) :=
  plain_failScan.bind fun _ => plain_raise

/-! ## A scan's transaction -/

/-- What a scan has loaded once it has read its source. -/
def Session.loaded (source : DataSourceModel) : Session := ⟨id, [source]⟩

/-- `create_running_scan` once it has the source's row. -/
def insertScan (req : ScanRequest) (source : DataSourceModel) : DbM Uuid := do
  let scanId ← select fun db => db.nextId
  write (DB.addScanRun source.id req.trigger req.startedAt)
  flush
  pure scanId

/-- What a scan does once it has its source's row. -/
def scanRest (req : ScanRequest) (source : DataSourceModel) : DbM ScanReport := do
  let scanId ← insertScan req source
  tryExcept (scanBody req scanId) (scanFailed req scanId)

/-- What a scan with the key in hand goes on to do when it has read its
source. -/
def scanAhead (req : ScanRequest) (db : DB) :
    Tx DB Uuid String (Except PyException ScanReport × Session) :=
  if db.Constraints then
    match db.sourceOf? req.sourceKey with
    | none => .ret (.error (.sourceNotFound req.sourceKey), Session.new)
    | some source => .lock source.id .keyShare (scanRest req source (Session.loaded source))
  else .ret (.error .sqlAlchemyError, Session.new)

theorem plain_scanRest (source : DataSourceModel) : Plain (scanRest req source) := by
  have hinsert : Plain (insertScan req source) := by
    refine (plain_select _).bind fun scanId => (plain_write _).bind fun _ => ?_
    exact (plain_select _).bind fun _ => plain_pure
  refine hinsert.bind fun scanId => ?_
  exact (plain_scanBody scanId).tryExcept fun e => plain_scanFailed scanId e

/-- How a scan ends that does not get its source's key. -/
def refusal (sourceKey : String) : Except PyException ScanReport × Session :=
  (.error (.scanAlreadyRunning sourceKey), Session.new)

theorem runScan_eq (req : ScanRequest) : runScan req Session.new =
    .tryLock req.sourceKey fun acquired =>
      if acquired then .read (scanAhead req) else .ret (refusal req.sourceKey) := by
  have hlocked : (createRunningScan req.sourceKey req.trigger req.startedAt >>= fun scanId =>
      tryExcept (scanBody req scanId) (scanFailed req scanId)) Session.new =
        .read (scanAhead req) := by
    refine congrArg Tx.read (funext fun db => ?_)
    unfold scanAhead DB.sourceOf?
    have hpending : Session.new.pending db = db := rfl
    simp only [hpending]
    by_cases hc : db.Constraints
    · simp only [if_pos hc]
      generalize (db.sources.find? fun source => decide (source.key = req.sourceKey)) = found
      rcases found with _ | source
      · rfl
      · rfl
    · simp only [if_neg hc]
      rfl
  refine congrArg (Tx.tryLock req.sourceKey) (funext fun acquired => ?_)
  rcases acquired with _ | _
  · rfl
  · exact hlocked

/-- **A scan does everything under its source's key**, or is refused. -/
theorem underKey_runScan (req : ScanRequest) :
    (runScan req Session.new).UnderKey req.sourceKey (refusal req.sourceKey) := by
  refine ⟨_, runScan_eq req, rfl, fun db => ?_⟩
  unfold scanAhead
  split
  · split
    · trivial
    · exact (plain_scanRest _ _).unkeyed
  · trivial

omit [Hashlib] in
/-- A refused scan leaves nothing. -/
theorem scanPublish_refusal (db : DB) : scanPublish (refusal sourceKey) db = db := rfl

end Scans

/-! ## An acceptance's transaction -/

/-- `acceptance_transaction` once it has the source's row. -/
def lockedAcceptance (change : SchemaChangeModel) :
    DbM (Option (DataSourceModel × SchemaChangeModel)) := do
  let source ← select fun db => db.sources.find? fun s => s.id = change.sourceId
  match source with
  | none => pure none
  | some row =>
    let source ← identify row
    pure (some (source, change))

/-- What an acceptance does once it has the source's row. -/
def acceptRest (req : AcceptRequest) (change : SchemaChangeModel) : DbM AcceptanceResult := do
  let locked ← lockedAcceptance change
  match locked with
  | none => raise (.changeNotFound req.changeId)
  | some (source, change) =>
    if source.baselineVersion ≠ req.baselineVersion then
      raise (.baselineVersionConflict req.baselineVersion source.baselineVersion)
    else
      let version ← applyAcceptance source change req.acceptedAt
      pure { changeId := req.changeId, baselineVersion := version }

/-- What an acceptance goes on to do when it has read its change. -/
def acceptAhead (req : AcceptRequest) (db : DB) :
    Tx DB Uuid String (Except PyException AcceptanceResult × Session) :=
  if db.Constraints then
    match db.openChange? req.changeId with
    | none => .ret (.error (.changeNotFound req.changeId), Session.new)
    | some change => .lock change.sourceId .update (acceptRest req change Session.new)
  else .ret (.error .sqlAlchemyError, Session.new)

theorem accept_eq (req : AcceptRequest) : accept req Session.new = .read (acceptAhead req) := by
  refine congrArg Tx.read (funext fun db => ?_)
  unfold acceptAhead
  have hpending : Session.new.pending db = db := rfl
  simp only [hpending]
  by_cases hc : db.Constraints
  · simp only [if_pos hc]
    generalize db.openChange? req.changeId = found
    rcases found with _ | change
    · rfl
    · rfl
  · simp only [if_neg hc]
    rfl

theorem plain_applyToBaseline (change : SchemaChangeModel) : Plain (applyToBaseline change) := by
  refine (plain_select _).bind fun expected => ?_
  rcases change.changeType with _ | _ | _ | _ | _
  · rcases change.afterJson with _ | after
    · exact plain_raise
    · rcases expected with _ | column
      · exact (plain_ofExcept _).bind fun _ => plain_write _
      · exact plain_pure
  · rcases expected with _ | column
    · exact plain_raise
    · exact plain_write _
  all_goals
    rcases expected with _ | column
    · exact plain_raise
    · rcases change.afterJson with _ | after
      · exact plain_raise
      · exact (plain_ofExcept _).bind fun _ => plain_write _

theorem plain_acceptRest (req : AcceptRequest) (change : SchemaChangeModel) :
    Plain (acceptRest req change) := by
  have hlocked : Plain (lockedAcceptance change) := by
    refine (plain_select _).bind fun source => ?_
    rcases source with _ | row
    · exact plain_pure
    · exact (plain_identify row).bind fun _ => plain_pure
  refine hlocked.bind fun locked => ?_
  rcases locked with _ | ⟨source, change⟩
  · exact plain_raise
  · simp only
    split
    · exact plain_raise
    · refine Plain.bind ?_ fun _ => plain_pure
      refine (plain_applyToBaseline change).bind fun _ => (plain_write _).bind fun _ => ?_
      exact (plain_write _).bind fun _ => (plain_select _).bind fun _ => plain_pure

section Accepts

variable {db : DB} {s t : Session} {e : PyException} {change : SchemaChangeModel}

theorem returns_lockedAcceptance {locked : Option (DataSourceModel × SchemaChangeModel)}
    (h : Returns (lockedAcceptance change) db Session.new locked t) :
    (locked = none ∧ t = Session.new) ∨ ∃ source, locked = some (source, change) ∧
      t = ⟨id, [source]⟩ ∧ db.sources.find? (fun s => s.id = change.sourceId) = some source := by
  simp only [lockedAcceptance, returns_bind, returns_select] at h
  obtain ⟨_, _, ⟨-, rfl, rfl⟩, h⟩ := h
  simp only [Session.new, id] at h
  cases hsource : db.sources.find? (fun s => s.id = change.sourceId) with
  | none =>
    simp only [hsource, returns_pure] at h
    exact Or.inl h
  | some source =>
    simp only [hsource, returns_bind, returns_pure] at h
    obtain ⟨row, _, hid, rfl, rfl⟩ := h
    obtain ⟨rfl, rfl⟩ := (returns_identify rfl).1 hid
    exact Or.inr ⟨row, rfl, rfl, rfl⟩

theorem raises_lockedAcceptance (h : Raises (lockedAcceptance change) db s e t) :
    e = .sqlAlchemyError := by
  simp only [lockedAcceptance, raises_bind, raises_select, returns_select] at h
  rcases h with ⟨-, rfl, -⟩ | ⟨source, _, -, h⟩
  · rfl
  · cases source with
    | none => exact (not_raises_pure h).elim
    | some source =>
      simp only [raises_bind, not_raises_identify, not_raises_pure, false_or, and_false,
        exists_false] at h

/-- **An acceptance that has its source's row** meets the version it names
and applies the change it has read, or leaves nothing. -/
theorem acceptRest_cases (req : AcceptRequest) (change : SchemaChangeModel) (db : DB) :
    (∃ source applied t, db.sources.find? (fun s => s.id = change.sourceId) = some source ∧
      source.baselineVersion = req.baselineVersion ∧ AppliesTo change db applied ∧
      exec (acceptRest req change) db Session.new = (.ok
        { changeId := req.changeId, baselineVersion := source.baselineVersion + 1 }, t)) ∨
    ∃ e t, exec (acceptRest req change) db Session.new = (.error e, t) ∧
      ∀ db', acceptPublish (.error e, t) db' = db' := by
  have hquiet : ∀ {e : PyException} {t : Session}, e.acceptCommits = false →
      ∀ db', acceptPublish (.error e, t) db' = db' := by
    intro e t he db'
    simp only [acceptPublish, he]
    rfl
  rcases returns_or_raises (acceptRest req change) db Session.new with ⟨result, t, h⟩ | ⟨e, t, h⟩
  · left
    have hexec := h
    obtain ⟨locked, u, hlocked, h⟩ := returns_bind.1 h
    rcases returns_lockedAcceptance hlocked with ⟨rfl, rfl⟩ | ⟨source, rfl, rfl, hsource⟩
    · exact (not_returns_raise h).elim
    · simp only at h
      split at h
      · exact (not_returns_raise h).elim
      · rename_i hversion
        simp only [returns_bind, returns_pure] at h
        obtain ⟨version, _, happly, rfl, rfl⟩ := h
        obtain ⟨rfl, applied, hto, -, -⟩ := returns_applyAcceptance happly
        exact ⟨source, applied, _, hsource, not_not.1 hversion, hto, hexec⟩
  · refine Or.inr ⟨e, t, h, ?_⟩
    rcases raises_bind.1 h with h | ⟨locked, u, hlocked, h⟩
    · rw [raises_lockedAcceptance h]
      exact hquiet rfl
    · rcases returns_lockedAcceptance hlocked with ⟨rfl, rfl⟩ | ⟨source, rfl, rfl, hsource⟩
      · obtain ⟨rfl, rfl⟩ := raises_raise.1 h
        exact fun _ => rfl
      · simp only at h
        split at h
        · obtain ⟨rfl, rfl⟩ := raises_raise.1 h
          exact fun _ => rfl
        · simp only [raises_bind, not_raises_pure, and_false, exists_false, or_false] at h
          exact hquiet (raises_applyAcceptance h)

/-- An acceptance returns with the version it names raised by one, or
leaves nothing. -/
theorem accept_cases (req : AcceptRequest) (db : DB) :
    (∃ t, exec (accept req) db Session.new = (.ok
        { changeId := req.changeId, baselineVersion := req.baselineVersion + 1 }, t)) ∨
    ∃ e t, exec (accept req) db Session.new = (.error e, t) ∧
      ∀ db', acceptPublish (.error e, t) db' = db' := by
  have hexec : exec (accept req) db Session.new = (acceptAhead req db).run db := by
    rw [exec, accept_eq, Tx.run_read]
  rw [hexec, acceptAhead]
  split
  · split
    · exact Or.inr ⟨_, _, rfl, fun _ => rfl⟩
    · rename_i change _
      rcases acceptRest_cases req change db with ⟨source, _, t, -, hversion, -, h⟩ | h
      · rw [hversion] at h
        exact Or.inl ⟨t, h⟩
      · exact Or.inr h
  · exact Or.inr ⟨_, _, rfl, fun _ => rfl⟩

end Accepts

end SchemaSentry
