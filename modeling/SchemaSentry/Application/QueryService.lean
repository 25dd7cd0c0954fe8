import SchemaSentry.Lib.Rows
import SchemaSentry.Store.ScanQueries
/-!
# Schema Sentry — the scan query service

`ScanQueryService` over `ScanQueryRepository`: the scan started last with
what is OPEN in its source, any scan with what it found, and the scans of
late. Each is put together statement by statement (`toPersisted`), and
alone it is what the tables hold (`DB.persistedScan`).
-/

namespace SchemaSentry

open Lib DbM

structure PersistedDelivery where
  id : Uuid
  channel : AlertChannel
  status : AlertStatus
  attemptCount : ℕ
  providerMessageId : Option String
  lastError : Option String
  nextRetryAt : Option Timestamp
  sentAt : Option Timestamp
  deriving DecidableEq

structure PersistedScan where
  id : Uuid
  sourceKey : String
  currentBaselineVersion : ℤ
  trigger : ScanTrigger
  status : ScanStatus
  startedAt : Timestamp
  finishedAt : Option Timestamp
  durationMs : Option ℤ
  errorCode : Option String
  errorMessage : Option String
  changes : List PersistedChange
  deliveries : List PersistedDelivery := []
  deriving DecidableEq

/-! ## The repository -/

/-- One delivery of `_to_persisted`. -/
def persistedDelivery (d : AlertDeliveryModel) : PersistedDelivery :=
  { id := d.id, channel := d.channel, status := d.status, attemptCount := d.attemptCount
    providerMessageId := d.providerMessageId, lastError := d.lastError
    nextRetryAt := d.nextRetryAt, sentAt := d.sentAt }

/-- `AlertChannel`'s values, which its column holds. -/
def AlertChannel.value : AlertChannel → String
  | .slack => "SLACK"
  | .email => "EMAIL"

/-- The deliveries of `_to_persisted`. -/
def DB.persistedDeliveries (db : DB) (scanId : Uuid) : List PersistedDelivery :=
  ((db.alertDeliveries.filter fun d => d.scanId = scanId).insertionSort
    fun a b => a.channel.value ≤ b.channel.value).map persistedDelivery

/-- `_to_persisted` of rows that have been read. -/
def persisted (scan : ScanRunModel) (source : DataSourceModel) (changes : List PersistedChange)
    (deliveries : List PersistedDelivery) : PersistedScan :=
  { id := scan.id, sourceKey := source.key, currentBaselineVersion := source.baselineVersion
    trigger := scan.trigger, status := scan.status, startedAt := scan.startedAt
    finishedAt := scan.finishedAt, durationMs := scan.durationMs, errorCode := scan.errorCode
    errorMessage := scan.errorMessage, changes := changes, deliveries := deliveries }

def toPersisted (scan : ScanRunModel) (currentOpenChanges : Bool) : DbM PersistedScan := do
  let source ← select fun db => db.sources.find? fun s => s.id = scan.sourceId
  match source with
  | none => raise (.lookupError s!"scan source not found: {scan.sourceId}")
  | some source =>
    let changeRows ← select fun db => db.persistedRows scan currentOpenChanges
    let edges ← select DB.lineage
    let deliveries ← select fun db => db.persistedDeliveries scan.id
    pure (persisted scan source (changeRows.map (persistedChange (LineageGraph.ofEdges edges)))
      deliveries)

/-- The scans, the one started last first. -/
def DB.scansByStart (db : DB) : List ScanRunModel :=
  db.scanRuns.insertionSort fun a b => b.startedAt ≤ a.startedAt

def latestScan : DbM (Option PersistedScan) := do
  let scan ← select fun db => db.scansByStart.head?
  match scan with
  | none => pure none
  | some scan =>
    let shown ← toPersisted scan true
    pure (some shown)

def getPersistedScan (scanId : Uuid) : DbM (Option PersistedScan) := do
  let scan ← select fun db => db.scanRuns.find? fun s => s.id = scanId
  match scan with
  | none => pure none
  | some scan =>
    let shown ← toPersisted scan false
    pure (some shown)

/-- `_to_persisted` of one scan after another. -/
def allPersisted : List ScanRunModel → DbM (List PersistedScan)
  | [] => pure []
  | scan :: rest => do
    let shown ← toPersisted scan false
    let others ← allPersisted rest
    pure (shown :: others)

/-! ## The service -/

/-- `ScanQueryService.recent` and the repository's. -/
def recentScans (limit : ℤ) : DbM (List PersistedScan) :=
  if 1 ≤ limit ∧ limit ≤ 50 then do
    let scans ← select fun db => db.scansByStart.take limit.toNat
    allPersisted scans
  else raise (.valueError "recent scan limit must be between 1 and 50")

/-- What `latest` returns or raises in a committed state. -/
def latestResult (db : DB) : Except PyException (Option PersistedScan) :=
  (exec latestScan db Session.new).1

/-- What `get` returns or raises in a committed state. -/
def getResult (scanId : Uuid) (db : DB) : Except PyException (Option PersistedScan) :=
  (exec (getPersistedScan scanId) db Session.new).1

/-- What `recent` returns or raises in a committed state. -/
def recentResult (limit : ℤ) (db : DB) : Except PyException (List PersistedScan) :=
  (exec (recentScans limit) db Session.new).1

/-! ## What they return -/

variable {db : DB} {scan : ScanRunModel} {source : DataSourceModel}

/-- What a scan shows of the tables. -/
def DB.persistedScan (db : DB) (scan : ScanRunModel) (source : DataSourceModel)
    (currentOpenChanges : Bool) : PersistedScan :=
  persisted scan source (db.persistedChanges scan currentOpenChanges)
    (db.persistedDeliveries scan.id)

/-- Every scan has its source. -/
def DB.ScansOwned (db : DB) : Prop :=
  ∀ scan ∈ db.scanRuns, ∃ source ∈ db.sources, source.id = scan.sourceId

theorem exec_toPersisted (hc : db.Constraints)
    (hsource : (db.sources.find? fun s => s.id = scan.sourceId) = some source)
    (currentOpenChanges : Bool) : exec (toPersisted scan currentOpenChanges) db Session.new =
      (.ok (db.persistedScan scan source currentOpenChanges), Session.new) := by
  have hpending : Session.new.pending db = db := rfl
  unfold toPersisted
  simp only [exec_bind, exec_select, hpending, if_pos hc, hsource]
  rfl

/-- A scan is got with what it found. -/
theorem getResult_eq (hc : db.Constraints)
    (hscan : (db.scanRuns.find? fun s => s.id = scan.id) = some scan)
    (hsource : (db.sources.find? fun s => s.id = scan.sourceId) = some source) :
    getResult scan.id db = .ok (some (db.persistedScan scan source false)) := by
  have hpending : Session.new.pending db = db := rfl
  unfold getResult getPersistedScan
  simp only [exec_bind, exec_select, hpending, if_pos hc, hscan, exec_toPersisted hc hsource]
  rfl

/-- The scan started last is shown with what is OPEN in its source. -/
theorem latestResult_eq (hc : db.Constraints) (hscan : db.scansByStart.head? = some scan)
    (hsource : (db.sources.find? fun s => s.id = scan.sourceId) = some source) :
    latestResult db = .ok (some (db.persistedScan scan source true)) := by
  have hpending : Session.new.pending db = db := rfl
  unfold latestResult latestScan
  simp only [exec_bind, exec_select, hpending, if_pos hc, hscan, exec_toPersisted hc hsource]
  rfl

/-- Each of the scans of late is shown as it is got. -/
theorem exec_allPersisted (hc : db.Constraints) (hids : (db.scanRuns.map ScanRunModel.id).Nodup)
    (hsids : (db.sources.map DataSourceModel.id).Nodup) (howned : db.ScansOwned)
    (scans : List ScanRunModel) (hscans : ∀ scan ∈ scans, scan ∈ db.scanRuns) :
    ∃ shown, exec (allPersisted scans) db Session.new = (.ok shown, Session.new) ∧
      List.Forall₂ (fun scan p => getResult scan.id db = .ok (some p)) scans shown := by
  induction scans with
  | nil => exact ⟨[], rfl, .nil⟩
  | cons scan rest ih =>
    obtain ⟨shown, hshown, hall⟩ := ih fun s hs => hscans s (List.mem_cons_of_mem _ hs)
    have hscan := hscans scan List.mem_cons_self
    obtain ⟨source, hsource, hid⟩ := howned scan hscan
    have hfound := (find?_eq_some_of_nodup hsids).2 ⟨hsource, hid⟩
    refine ⟨db.persistedScan scan source false :: shown, ?_, .cons ?_ hall⟩
    · simp only [allPersisted, exec_bind, exec_toPersisted hc hfound, hshown]
      rfl
    · exact getResult_eq hc ((find?_eq_some_of_nodup hids).2 ⟨hscan, rfl⟩) hfound

/-- **The scans of late** are those started last, at most as many as asked
for, each as it is got. -/
theorem recentResult_eq (hc : db.Constraints) (hids : (db.scanRuns.map ScanRunModel.id).Nodup)
    (hsids : (db.sources.map DataSourceModel.id).Nodup) (howned : db.ScansOwned) {limit : ℤ}
    (hlimit : 1 ≤ limit ∧ limit ≤ 50) :
    ∃ shown, recentResult limit db = .ok shown ∧
      List.Forall₂ (fun scan p => getResult scan.id db = .ok (some p))
        (db.scansByStart.take limit.toNat) shown := by
  have hpending : Session.new.pending db = db := rfl
  obtain ⟨shown, hshown, hall⟩ := exec_allPersisted hc hids hsids howned
    (db.scansByStart.take limit.toNat) fun scan hscan => by
      have hmem := List.mem_of_mem_take hscan
      rwa [DB.scansByStart, List.mem_insertionSort] at hmem
  refine ⟨shown, ?_, hall⟩
  unfold recentResult recentScans
  rw [if_pos hlimit]
  simp only [exec_bind, exec_select, hpending, if_pos hc, hshown]

end SchemaSentry
