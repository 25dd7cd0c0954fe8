import SchemaSentry.Application.ScanReturns
import SchemaSentry.System.Outbox
import SchemaSentry.System.Retries
/-!
# Schema Sentry — the alert of a failed scan

Scan requests of one source that fail, each in three steps: `run_scan` under
the source's lock, the commit that frees it, and `dispatch_system_error`,
which looks a scan up again. `own_attempted` says when every request has its
own scan's deliveries attempted; `other_attempted` is a run in which one has
another's.
-/

namespace SchemaSentry

open Lib DbM

/-! ## The routes -/

/-- The exceptions `POST /api/v1/scans` answers by 503, after a commit and a
dispatch. -/
def PyException.sourceUnavailable : PyException → Bool
  | .psycopgError _ => true
  | .osError _ => true
  | .emptySchemaSnapshot _ => true
  | _ => false

theorem PyException.scanCommits_of_sourceUnavailable {e : PyException}
    (h : e.sourceUnavailable = true) : e.scanCommits = true := by
  unfold PyException.sourceUnavailable at h
  split at h
  · rfl
  · rfl
  · rfl
  · cases h

/-- Where a request is: not begun; with its scan run under the lock; with
its scan committed; ended with nothing to alert; or ended, with the
deliveries of its scan that were PENDING before its dispatch and the
messages this handed out. -/
inductive RoutePhase where
  | idle
  | ran (outcome : Except PyException ScanReport × Session)
  | recorded (scan : ScanRunModel)
  | closed
  | alerted (scan : ScanRunModel) (pending : List Uuid) (handed : List Handed)

/-- The tables committed, where each request is, and which one holds the
source's advisory lock. -/
structure Routes where
  db : DB
  phase : ℕ → RoutePhase
  holder : Option ℕ

/-- No request has begun. -/
def Routes.start (db : DB) : Routes := ⟨db, fun _ => .idle, none⟩

/-- No request is between its beginning and its end. -/
def Routes.Quiet (w : Routes) : Prop :=
  ∀ i, (∀ outcome, w.phase i ≠ .ran outcome) ∧ ∀ scan, w.phase i ≠ .recorded scan

/-- The scan a transaction has added. -/
def addedScan (before after : DB) : Option ScanRunModel :=
  after.scanRuns.find? fun scan => scan.id ∉ before.scanRuns.map ScanRunModel.id

/-- What `dispatch_system_error`, run alone, hands to the notifiers. -/
def handedBySystemError (env : Notifications) (sourceKey : String) (now : Timestamp) (db : DB) :
    List Handed :=
  (AlertM.exec (dispatchSystemError env sourceKey now) db AlertSession.new).2.handed

/-- A step of one of the requests. -/
inductive RouteStep where
  | run (i : ℕ)
  | commit (i : ℕ)
  | dispatch (i : ℕ) (now : Timestamp)

section Steps

variable [Hashlib]

/-- `run_scan` finds the lock free or raises `ScanAlreadyRunning`; the commit
frees it; the dispatch is for the source. -/
def RouteStep.apply (reqs : ℕ → ScanRequest) (env : Notifications) : RouteStep → Routes → Routes
  | .run i, w =>
    match w.phase i, w.holder with
    | .idle, none =>
      { w with
        phase := Function.update w.phase i (.ran (exec (runScan (reqs i)) w.db Session.new))
        holder := some i }
    | .idle, some _ => { w with phase := Function.update w.phase i .closed }
    | _, _ => w
  | .commit i, w =>
    match w.phase i with
    | .ran outcome =>
      let after := scanPublish outcome w.db
      let next := match outcome.1, addedScan w.db after with
        | .error e, some scan => if e.sourceUnavailable then .recorded scan else .closed
        | _, _ => .closed
      { db := after, phase := Function.update w.phase i next, holder := none }
    | _ => w
  | .dispatch i now, w =>
    match w.phase i with
    | .recorded scan =>
      { w with
        db := postSystemError env (reqs i).sourceKey now w.db
        phase := Function.update w.phase i (.alerted scan (w.db.dispatchable scan.id)
          (handedBySystemError env (reqs i).sourceKey now w.db)) }
    | _ => w

end Steps

/-- A request of the source whose collector raises, or finds nothing. -/
structure ScanRequest.Fails (sourceKey : String) (req : ScanRequest) : Prop where
  key : req.sourceKey = sourceKey
  regular : req.faults = noFaults
  cause : (∃ e, req.collected = .error e ∧ e.sourceUnavailable = true) ∨ req.collected = .ok []

/-- Every channel has a notifier, which returns or raises
`DeliveryFailure`. -/
def Notifications.Answers (env : Notifications) : Prop :=
  ∀ channel, ∃ notifier ∈ env.notifiers channel, ∀ message, (notifier message).Writable

/-- A request whose own scan has deliveries to be attempted looks its scan
up while every other FAILED scan of the source began before it. -/
def LooksUpOwn (w : Routes) : RouteStep → Prop
  | .dispatch i _ => ∀ scan, w.phase i = .recorded scan → w.db.dispatchable scan.id ≠ [] →
      ∀ other ∈ w.db.scanRuns, other.status = .failed → other.sourceId = scan.sourceId →
        other.id ≠ scan.id → other.startedAt < scan.startedAt
  | _ => True

/-- The scan a request has recorded and is to dispatch. -/
def RoutePhase.recorded? : RoutePhase → Option ScanRunModel
  | .recorded scan => some scan
  | _ => none

theorem RoutePhase.recorded?_eq_some {phase : RoutePhase} {scan : ScanRunModel} :
    scan ∈ phase.recorded? ↔ phase = .recorded scan := by
  cases phase <;> simp [RoutePhase.recorded?, eq_comm]

instance (w : Routes) (step : RouteStep) : Decidable (LooksUpOwn w step) :=
  match step with
  | .dispatch i _ =>
    decidable_of_iff (∀ scan ∈ (w.phase i).recorded?, w.db.dispatchable scan.id ≠ [] →
      ∀ other ∈ w.db.scanRuns, other.status = .failed → other.sourceId = scan.sourceId →
        other.id ≠ scan.id → other.startedAt < scan.startedAt)
      (forall_congr' fun _ => imp_congr_left RoutePhase.recorded?_eq_some)
  | .run _ => inferInstanceAs (Decidable True)
  | .commit _ => inferInstanceAs (Decidable True)

/-! ## Looking a scan up -/

variable {db : DB} {env : Notifications} {now : Timestamp} {sourceKey : String}
variable {source : DataSourceModel} {scan : ScanRunModel}

/-- **The scan looked up is the FAILED one of the source that began last.** -/
theorem latestFailedScanId_eq (hscans : (db.scanRuns.map ScanRunModel.id).Nodup)
    (hkeys : (db.sources.map DataSourceModel.key).Nodup)
    (hsource : db.sourceOf? sourceKey = some source) (hscan : scan ∈ db.scanRuns)
    (hfailed : scan.status = .failed) (hsid : scan.sourceId = source.id)
    (hlast : ∀ other ∈ db.scanRuns, other.status = .failed → other.sourceId = scan.sourceId →
      other.id ≠ scan.id → other.startedAt < scan.startedAt) :
    db.latestFailedScanId sourceKey = some scan.id := by
  obtain ⟨hmem, hkey⟩ := mem_of_sourceOf? hsource
  have hfirst : ((db.scanRuns.filter fun scan => scan.status = .failed ∧
      ∃ source ∈ db.sources, source.id = scan.sourceId ∧ source.key = sourceKey).insertionSort
        fun a b => b.startedAt ≤ a.startedAt).head? = some scan := by
    refine head?_sort_of_greatest ?_ fun other hother => ?_
    · rw [List.mem_filter, decide_eq_true_eq]
      exact ⟨hscan, hfailed, source, hmem, hsid.symm, hkey⟩
    · rw [List.mem_filter, decide_eq_true_eq] at hother
      obtain ⟨hother, hstatus, s, hs, hid, hskey⟩ := hother
      obtain rfl : s = source := eq_of_nodup_map hkeys hs hmem (hskey.trans hkey.symm)
      by_cases heq : other.id = scan.id
      · exact Or.inl (eq_of_nodup_map hscans hother hscan heq)
      · exact Or.inr (hlast other hother hstatus (hid.symm.trans hsid.symm) heq)
  unfold DB.latestFailedScanId
  rw [List.head?_map, hfirst]
  rfl

/-! ## What a dispatch leaves -/

/-- The keys of the deliveries are given out, each once. -/
structure DB.DeliveryKeys (db : DB) : Prop where
  nodup : (db.alertDeliveries.map AlertDeliveryModel.id).Nodup
  fresh : ∀ d ∈ db.alertDeliveries, d.id < db.nextId

/-- A rewriting that leaves a delivery alone or counts attempts of which it
knows the outcome. -/
structure CountsAttempts (f : AlertDeliveryModel → AlertDeliveryModel) : Prop where
  identity : KeepsIdentity f
  counts : ∀ d, f d = d ∨ (f d).status ≠ .pending ∧ d.attemptCount < (f d).attemptCount

theorem countsAttempts_refl (db : DB) :
    ∃ f, CountsAttempts f ∧ db = { db with alertDeliveries := db.alertDeliveries.map f } :=
  ⟨id, ⟨⟨fun _ => rfl, fun _ => rfl, fun _ => rfl⟩, fun _ => Or.inl rfl⟩, by rw [List.map_id]⟩

theorem Handed.status_written {h : Handed} (hw : h.outcome.Writable) (d : AlertDeliveryModel) :
    (h.written d).status ≠ .pending := by
  unfold Handed.written
  rcases hout : h.outcome with receipt | error | className
  · exact fun heq => nomatch heq
  · exact fun heq => nomatch heq
  · rw [hout] at hw
    exact hw.elim

/-- What a session leaves that has written the outcomes of messages. -/
theorem countsAttempts_afterAll {s : AlertSession} {hs : List Handed}
    (hw : ∀ h ∈ hs, h.outcome.Writable) :
    ∃ f, CountsAttempts f ∧ (s.afterAll hs).session.pending db =
      { s.session.pending db with
        alertDeliveries := (s.session.pending db).alertDeliveries.map f } := by
  induction hs generalizing s with
  | nil => exact countsAttempts_refl _
  | cons h rest ih =>
    obtain ⟨f, hf, heq⟩ := ih (s := s.after h) fun x hx => hw x (List.mem_cons_of_mem _ hx)
    have hfirst : (s.after h).session.pending db =
        (s.session.pending db).updateDelivery h.deliveryId h.written := rfl
    refine ⟨fun d => f (if d.id = h.deliveryId then h.written d else d),
      ⟨hf.identity.comp (h.keepsIdentity_written.only h.deliveryId), fun d => ?_⟩, ?_⟩
    · by_cases hd : d.id = h.deliveryId
      · right
        rw [if_pos hd]
        have hone : d.attemptCount < (h.written d).attemptCount := by
          rw [Handed.attemptCount_written]
          exact Nat.lt_succ_self _
        rcases hf.counts (h.written d) with hsame | ⟨hstatus, hmore⟩
        · rw [hsame]
          exact ⟨h.status_written (hw h List.mem_cons_self) d, hone⟩
        · exact ⟨hstatus, hone.trans hmore⟩
      · rw [if_neg hd]
        exact hf.counts d
    · show ((s.after h).afterAll rest).session.pending db = _
      rw [heq, hfirst]
      simp only [DB.updateDelivery, List.map_map]
      rfl

theorem countsAttempts_postDispatchScan (hc : db.Constraints) (hkeys : db.DeliveryKeys)
    (env : Notifications) (scanId : Uuid) (now : Timestamp) :
    ∃ f, CountsAttempts f ∧ postDispatchScan env scanId now db =
      { db with alertDeliveries := db.alertDeliveries.map f } := by
  rcases dispatch_cases env scanId now hc (nodup_dispatchable hkeys.nodup) with
    ⟨hall, -, hpost⟩ | ⟨before, stop, after, -, -, -, hpost, -⟩
  · rw [hpost]
    refine countsAttempts_afterAll (s := AlertSession.new) fun h hh => ?_
    obtain ⟨hmem, hhand⟩ := deliveryIds_hands h hh
    obtain ⟨h', hhand', hw⟩ := hall h.deliveryId hmem
    obtain rfl : h = h' := Option.some.inj (hhand.symm.trans hhand')
    exact hw
  · rw [hpost]
    exact countsAttempts_refl db

/-- The dispatch for a source without a FAILED scan leaves the tables. -/
theorem postSystemError_of_none (hc : db.Constraints)
    (hnone : db.latestFailedScanId sourceKey = none) :
    postSystemError env sourceKey now db = db := by
  unfold postSystemError scopePublish
  rw [exec_dispatchSystemError env sourceKey now hc, hnone]
  rfl

/-- **The dispatch for a source is that of the scan it looks up.** -/
theorem systemError_eq_dispatch {scanId : Uuid} (hc : db.Constraints)
    (hlatest : db.latestFailedScanId sourceKey = some scanId) :
    handedBySystemError env sourceKey now db = handedByDispatch env scanId now db ∧
      postSystemError env sourceKey now db = postDispatchScan env scanId now db := by
  unfold handedBySystemError handedByDispatch postSystemError postDispatchScan
  rw [exec_dispatchSystemError env sourceKey now hc, hlatest, exec_dispatchScan env scanId now hc]
  exact ⟨rfl, rfl⟩

theorem countsAttempts_postSystemError (hc : db.Constraints) (hkeys : db.DeliveryKeys)
    (env : Notifications) (sourceKey : String) (now : Timestamp) :
    ∃ f, CountsAttempts f ∧ postSystemError env sourceKey now db =
      { db with alertDeliveries := db.alertDeliveries.map f } := by
  rcases hlatest : db.latestFailedScanId sourceKey with _ | scanId
  · rw [postSystemError_of_none hc hlatest]
    exact countsAttempts_refl db
  · rw [(systemError_eq_dispatch hc hlatest).2]
    exact countsAttempts_postDispatchScan hc hkeys env scanId now

theorem mem_delivery? (hkeys : db.DeliveryKeys) {d : AlertDeliveryModel}
    (hd : d ∈ db.alertDeliveries) : db.delivery? d.id = some d :=
  (find?_eq_some_of_nodup hkeys.nodup).2 ⟨hd, rfl⟩

/-- A delivery of an own scan before its dispatch, or after an attempt. -/
def AlertDeliveryModel.Settled (d : AlertDeliveryModel) : Prop :=
  d.Untried ∨ d.status ≠ .pending ∧ 1 ≤ d.attemptCount

theorem CountsAttempts.settled {f : AlertDeliveryModel → AlertDeliveryModel}
    (hf : CountsAttempts f) {d : AlertDeliveryModel} (hd : d.Settled) : (f d).Settled := by
  rcases hf.counts d with hsame | ⟨hstatus, hmore⟩
  · rwa [hsame]
  · exact Or.inr ⟨hstatus, by omega⟩

theorem CountsAttempts.le {f : AlertDeliveryModel → AlertDeliveryModel} (hf : CountsAttempts f)
    (d : AlertDeliveryModel) : d.attemptCount ≤ (f d).attemptCount := by
  rcases hf.counts d with hsame | ⟨-, hmore⟩
  · rw [hsame]
  · exact Nat.le_of_lt hmore

/-- Rewritten deliveries keep their keys. -/
theorem DB.DeliveryKeys.map {f : AlertDeliveryModel → AlertDeliveryModel} (h : db.DeliveryKeys)
    (hf : KeepsIdentity f) : { db with alertDeliveries := db.alertDeliveries.map f }.DeliveryKeys := by
  refine ⟨nodup_map_map hf.id h.nodup, fun d hd => ?_⟩
  obtain ⟨d', hd', rfl⟩ := List.mem_map.1 hd
  rw [hf.id]
  exact h.fresh d' hd'

section Dispatch

variable [Hashlib]

/-- A scan's PENDING delivery that is untried passes its attempt. -/
theorem passes_of_untried (hwf : db.WellFormed) (hkeys : db.DeliveryKeys) (henv : env.Answers)
    (hscan : scan ∈ db.scanRuns) (hsource : source ∈ db.sources)
    (hsid : source.id = scan.sourceId) {d : AlertDeliveryModel} (hd : d ∈ db.alertDeliveries)
    (hdscan : d.scanId = scan.id) (huntried : d.Untried) : db.Passes env now d.id := by
  obtain ⟨context, hcontext, -⟩ := exists_scanContext hwf hscan hsource hsid
  obtain ⟨notifier, hconf, hwritable⟩ := henv d.channel
  obtain ⟨-, hcount, hdue⟩ := huntried
  have hready : Ready env now db d.id d context notifier := by
    refine ⟨mem_delivery? hkeys hd, ?_, fun t ht => ?_, ?_, hconf⟩
    · rw [hcount]
      decide
    · rw [hdue] at ht
      cases ht
    · rw [hdscan]
      exact hcontext
  exact ⟨_, hand?_eq_some_iff.2 ⟨d, context, notifier, hready, rfl⟩, hwritable _⟩

omit [Hashlib] in
/-- What a dispatch hands out and leaves, where each of the deliveries of
the scan it looks up passes. -/
theorem dispatch_latest {scanId : Uuid} (hc : db.Constraints) (hkeys : db.DeliveryKeys)
    (hpasses : ∀ id ∈ db.dispatchable scanId, db.Passes env now id)
    (hlatest : db.latestFailedScanId sourceKey = some scanId) :
    handedBySystemError env sourceKey now db =
        (db.dispatchable scanId).filterMap (db.hand? env now) ∧
      postSystemError env sourceKey now db = (AlertSession.new.afterAll
        ((db.dispatchable scanId).filterMap (db.hand? env now))).session.pending db := by
  rw [(systemError_eq_dispatch hc hlatest).1, (systemError_eq_dispatch hc hlatest).2]
  rcases dispatch_cases env scanId now hc (nodup_dispatchable hkeys.nodup) with
    ⟨-, hhands, hpost⟩ | ⟨before, id, after, hsplit, -, hid, -⟩
  · exact ⟨hhands, hpost⟩
  · refine absurd (hpasses id ?_) hid
    rw [hsplit]
    exact List.mem_append_right _ List.mem_cons_self

omit [Hashlib] in
/-- **Such a dispatch writes each listed delivery's attempt.** -/
theorem written_of_latest {scanId : Uuid} (hc : db.Constraints) (hkeys : db.DeliveryKeys)
    (hpasses : ∀ id ∈ db.dispatchable scanId, db.Passes env now id)
    (hlatest : db.latestFailedScanId sourceKey = some scanId) {d : AlertDeliveryModel}
    (hd : d ∈ db.alertDeliveries) (hid : d.id ∈ db.dispatchable scanId)
    {f : AlertDeliveryModel → AlertDeliveryModel} (hf : KeepsIdentity f)
    (hpost : postSystemError env sourceKey now db =
      { db with alertDeliveries := db.alertDeliveries.map f }) :
    ∃ h : Handed, h.outcome.Writable ∧ f d = h.written d := by
  obtain ⟨-, hafter⟩ := dispatch_latest hc hkeys hpasses hlatest
  obtain ⟨h, hhand, hwritable⟩ := hpasses d.id hid
  have hmem : h ∈ (db.dispatchable scanId).filterMap (db.hand? env now) :=
    List.mem_filterMap.2 ⟨d.id, hid, hhand⟩
  have hwritten : (postSystemError env sourceKey now db).delivery? d.id = some (h.written d) := by
    rw [hafter, ← deliveryId_of_hand? hhand,
      delivery?_afterAll (nodup_hands (nodup_dispatchable hkeys.nodup)) hmem,
      deliveryId_of_hand? hhand]
    show (db.delivery? d.id).map h.written = _
    rw [mem_delivery? hkeys hd]
    rfl
  have hrow : (postSystemError env sourceKey now db).delivery? d.id = some (f d) := by
    rw [hpost, ← hf.id d]
    exact mem_delivery? (hkeys.map hf) (List.mem_map_of_mem hd)
  exact ⟨h, hwritable, Option.some.inj (hrow.symm.trans hwritten)⟩

/-- **A dispatch that looks the scan up hands out its deliveries and counts
an attempt for each.** -/
theorem dispatch_own (hwf : db.WellFormed) (hkeys : db.DeliveryKeys) (henv : env.Answers)
    (hscan : scan ∈ db.scanRuns) (hsource : source ∈ db.sources)
    (hsid : source.id = scan.sourceId)
    (hsettled : ∀ d ∈ db.alertDeliveries, d.scanId = scan.id → d.Settled)
    (hlatest : db.latestFailedScanId sourceKey = some scan.id) :
    (∀ id ∈ db.dispatchable scan.id,
      ∃ h ∈ handedBySystemError env sourceKey now db, h.deliveryId = id) ∧
    ∀ d ∈ (postSystemError env sourceKey now db).alertDeliveries, d.scanId = scan.id →
      1 ≤ d.attemptCount := by
  have hc := hwf.constraints
  have hpasses : ∀ id ∈ db.dispatchable scan.id, db.Passes env now id := by
    intro id hid
    obtain ⟨d, hd, rfl, hdscan, hstatus⟩ := mem_dispatchable.1 hid
    rcases hsettled d hd hdscan with huntried | ⟨hnot, -⟩
    · exact passes_of_untried hwf hkeys henv hscan hsource hsid hd hdscan huntried
    · exact absurd hstatus hnot
  obtain ⟨hhands, -⟩ := dispatch_latest hc hkeys hpasses hlatest
  obtain ⟨f, hf, hpost⟩ := countsAttempts_postSystemError hc hkeys env sourceKey now
  refine ⟨fun id hid => ?_, fun d' hd' hdscan => ?_⟩
  · obtain ⟨h, hhand, -⟩ := hpasses id hid
    rw [hhands]
    exact ⟨h, List.mem_filterMap.2 ⟨id, hid, hhand⟩, deliveryId_of_hand? hhand⟩
  · rw [hpost] at hd'
    obtain ⟨d, hd, rfl⟩ := List.mem_map.1 hd'
    rw [hf.identity.scanId] at hdscan
    rcases hsettled d hd hdscan with huntried | ⟨-, hcount⟩
    · -- the delivery was listed, so its message was handed out and counted
      have hid : d.id ∈ db.dispatchable scan.id :=
        mem_dispatchable.2 ⟨d, hd, rfl, hdscan, huntried.1⟩
      obtain ⟨h, -, hsame⟩ := written_of_latest hc hkeys hpasses hlatest hd hid hf.identity hpost
      rw [hsame, Handed.attemptCount_written]
      omega
    · exact hcount.trans (hf.le d)

end Dispatch

/-! ## What a failed scan adds -/

theorem map_id_pendingDeliveries (next scanId : Uuid) (channels : List AlertChannel) :
    (pendingDeliveries next scanId channels).map AlertDeliveryModel.id =
      List.range' next channels.length := by
  induction channels generalizing next with
  | nil => rfl
  | cons channel channels ih =>
    rw [List.length_cons, List.range'_succ, ← ih (next + 1), pendingDeliveries, List.mapIdx_cons,
      List.map_cons]
    simp [pendingDeliveries, Nat.add_assoc, Nat.add_comm 1]

theorem untried_of_mem_pendingDeliveries {next scanId : Uuid} {channels : List AlertChannel}
    {d : AlertDeliveryModel} (h : d ∈ pendingDeliveries next scanId channels) : d.Untried := by
  obtain ⟨i, hi, rfl⟩ := List.mem_mapIdx.1 h
  exact ⟨rfl, rfl, rfl⟩

section Failed

variable [Hashlib] {req : ScanRequest} {e : PyException}

/-- The deliveries of a failed scan have keys of their own. -/
theorem deliveryKeys_failed (hwf : db.WellFormed) (h : db.DeliveryKeys) :
    (req.failed source e db).DeliveryKeys := by
  rw [failed_eq hwf.linked.scanFresh]
  have hnew : ∀ d ∈ pendingDeliveries (db.nextId + 1) db.nextId (enabledChannels req.settings),
      db.nextId + 1 ≤ d.id ∧ d.id < db.nextId + 1 + (enabledChannels req.settings).length := by
    intro d hd
    have hid := List.mem_map_of_mem (f := AlertDeliveryModel.id) hd
    rw [map_id_pendingDeliveries, List.mem_range'_1] at hid
    exact hid
  refine ⟨nodup_map_append h.nodup ?_ h.fresh fun d hd => ?_, fun d hd => ?_⟩
  · rw [map_id_pendingDeliveries]
    exact List.nodup_range'
  · exact (Nat.le_succ _).trans (hnew d hd).1
  · rcases List.mem_append.1 hd with hold | hadded
    · exact (h.fresh d hold).trans (lt_next 0 (enabledChannels req.settings).length)
    · exact (hnew d hadded).2

/-- The scan a failing request adds is its failed one. -/
theorem addedScan_failed (hwf : db.WellFormed) :
    addedScan db (req.failed source e db) = some (req.failedScan source e db) := by
  have hnew : db.nextId ∉ db.scanRuns.map ScanRunModel.id := by
    intro hmem
    obtain ⟨scan, hscan, hid⟩ := List.mem_map.1 hmem
    exact Nat.lt_irrefl _ (hid ▸ hwf.linked.scanFresh scan hscan)
  have hold : db.scanRuns.find? (fun scan => scan.id ∉ db.scanRuns.map ScanRunModel.id) = none := by
    refine List.find?_eq_none.2 fun scan hscan => ?_
    have hmem : scan.id ∈ db.scanRuns.map ScanRunModel.id := List.mem_map_of_mem hscan
    simpa using hmem
  rw [failed_eq hwf.linked.scanFresh]
  unfold addedScan
  simp only [List.find?_append, hold, Option.none_or]
  rw [List.find?_singleton, if_pos]
  simpa [ScanRequest.failedScan, ScanRequest.scan] using hnew

end Failed

/-! ## Sound routes -/

/-- A FAILED scan of the source the requests have recorded. -/
structure RecordedScan (start : DB) (source : DataSourceModel) (db : DB) (scan : ScanRunModel) :
    Prop where
  mem : scan ∈ db.scanRuns
  failed : scan.status = .failed
  source : scan.sourceId = source.id
  new : start.nextId ≤ scan.id

section Run

variable [Hashlib] {reqs : ℕ → ScanRequest} {start db' : DB} {w : Routes}

/-- What holds of a request where it is. -/
def RoutePhase.Holds (req : ScanRequest) (start : DB) (source : DataSourceModel) (db : DB) :
    RoutePhase → Prop
  | .idle => True
  | .ran outcome => ∃ e, e.sourceUnavailable = true ∧
      outcome = (.error e, req.failedSession source (req.scan source db) e)
  | .recorded scan => RecordedScan start source db scan
  | .closed => True
  | .alerted scan pending handed => RecordedScan start source db scan ∧
      (∀ id ∈ pending, ∃ h ∈ handed, h.deliveryId = id) ∧
      ∀ d ∈ db.alertDeliveries, d.scanId = scan.id → 1 ≤ d.attemptCount

/-- A request in this phase has recorded the scan. -/
def RoutePhase.Records (phase : RoutePhase) (scan : ScanRunModel) : Prop :=
  phase = .recorded scan ∨ ∃ pending handed, phase = .alerted scan pending handed

/-- What holds all along of the requests of a source. -/
structure Routes.Sound (reqs : ℕ → ScanRequest) (sourceKey : String) (source : DataSourceModel)
    (start : DB) (w : Routes) : Prop where
  wellFormed : w.db.WellFormed
  keys : w.db.DeliveryKeys
  sourced : w.db.sourceOf? sourceKey = some source
  next : start.nextId ≤ w.db.nextId
  settled : ∀ d ∈ w.db.alertDeliveries, start.nextId ≤ d.scanId → d.Settled
  holds : ∀ i, (w.phase i).Holds (reqs i) start source w.db
  held : ∀ i outcome, w.phase i = .ran outcome → w.holder = some i
  all : ∀ scan ∈ w.db.scanRuns, scan ∈ start.scanRuns ∨ ∃ i, (w.phase i).Records scan

theorem Routes.sound_start (hwf : start.WellFormed) (hkeys : start.DeliveryKeys)
    (hsource : start.sourceOf? sourceKey = some source) :
    (Routes.start start).Sound reqs sourceKey source start := by
  refine ⟨hwf, hkeys, hsource, Nat.le_refl _, fun d hd hnew => ?_, fun _ => trivial,
    fun _ _ hran => (nomatch hran), fun scan hscan => Or.inl hscan⟩
  exact absurd (hwf.linked.deliveryFresh d hd) (Nat.not_lt.2 hnew)

omit [Hashlib] in
theorem RecordedScan.mono (h : RecordedScan start source db scan)
    (hruns : ∀ scan ∈ db.scanRuns, scan ∈ db'.scanRuns) : RecordedScan start source db' scan :=
  ⟨hruns scan h.mem, h.failed, h.source, h.new⟩

/-- The tables another request leaves: every scan is kept, and no scan there
was has a delivery with fewer attempts. -/
structure KeepsAttempts (db db' : DB) : Prop where
  scans : ∀ scan ∈ db.scanRuns, scan ∈ db'.scanRuns
  counts : ∀ d' ∈ db'.alertDeliveries, ∀ scan ∈ db.scanRuns, d'.scanId = scan.id →
    ∃ d ∈ db.alertDeliveries, d.scanId = scan.id ∧ d.attemptCount ≤ d'.attemptCount

omit [Hashlib] in
theorem keepsAttempts_refl (db : DB) : KeepsAttempts db db :=
  ⟨fun _ hs => hs, fun d hd _ _ hdscan => ⟨d, hd, hdscan, Nat.le_refl _⟩⟩

omit [Hashlib] in
/-- What holds of a request holds after another's step. -/
theorem RoutePhase.Holds.kept {req : ScanRequest} {phase : RoutePhase}
    (h : phase.Holds req start source db) (hkeeps : KeepsAttempts db db')
    (hran : ∀ outcome, phase = .ran outcome → db'.nextId = db.nextId) :
    phase.Holds req start source db' := by
  rcases phase with _ | outcome | scan | _ | ⟨scan, pending, handed⟩
  · trivial
  · have hnext := hran outcome rfl
    obtain ⟨e, he, rfl⟩ := h
    refine ⟨e, he, ?_⟩
    unfold ScanRequest.scan
    rw [hnext]
  · exact h.mono hkeeps.scans
  · trivial
  · obtain ⟨hrec, hhanded, hcounted⟩ := h
    refine ⟨hrec.mono hkeeps.scans, hhanded, fun d' hd' hdscan => ?_⟩
    obtain ⟨d, hd, hdscan', hle⟩ := hkeeps.counts d' hd' scan hrec.mem hdscan
    exact (hcounted d hd hdscan').trans hle

/-- **One request's step keeps the routes sound** where the phase it takes
holds and it undoes nothing of the others. -/
theorem Routes.Sound.replace (h : w.Sound reqs sourceKey source start) {i : ℕ}
    {phase : RoutePhase} {holder : Option ℕ} (hwf : db'.WellFormed) (hkeys : db'.DeliveryKeys)
    (hsources : db'.sources = w.db.sources) (hnext : w.db.nextId ≤ db'.nextId)
    (hsettled : ∀ d ∈ db'.alertDeliveries, start.nextId ≤ d.scanId → d.Settled)
    (hkeeps : KeepsAttempts w.db db') (hphase : phase.Holds (reqs i) start source db')
    (hheld : ∀ outcome, phase = .ran outcome → holder = some i)
    (hothers : ∀ j ≠ i, ∀ outcome, w.phase j = .ran outcome →
      holder = some j ∧ db'.nextId = w.db.nextId)
    (hadded : ∀ scan ∈ db'.scanRuns, scan ∈ w.db.scanRuns ∨ phase.Records scan)
    (hrecords : ∀ scan, (w.phase i).Records scan → phase.Records scan) :
    (Routes.mk db' (Function.update w.phase i phase) holder).Sound reqs sourceKey source start := by
  have hsourced : db'.sourceOf? sourceKey = some source := by
    unfold DB.sourceOf?
    rw [hsources]
    exact h.sourced
  refine ⟨hwf, hkeys, hsourced, h.next.trans hnext, hsettled, fun j => ?_, fun j outcome hran => ?_,
    fun scan hscan => ?_⟩
  · by_cases hj : j = i
    · subst hj
      simpa only [Function.update_self] using hphase
    · simp only [Function.update_of_ne hj]
      exact (h.holds j).kept hkeeps fun outcome hran => (hothers j hj outcome hran).2
  · by_cases hj : j = i
    · subst hj
      simp only [Function.update_self] at hran
      exact hheld outcome hran
    · simp only [Function.update_of_ne hj] at hran
      exact (hothers j hj outcome hran).1
  · rcases hadded scan hscan with hold | hnew
    · rcases h.all scan hold with hstart | ⟨j, hj⟩
      · exact Or.inl hstart
      · by_cases hji : j = i
        · subst hji
          exact Or.inr ⟨j, by simpa only [Function.update_self] using hrecords scan hj⟩
        · exact Or.inr ⟨j, by simpa only [Function.update_of_ne hji] using hj⟩
    · exact Or.inr ⟨i, by simpa only [Function.update_self] using hnew⟩

omit [Hashlib] in
theorem RoutePhase.not_records_idle : ¬ RoutePhase.idle.Records scan := by
  rintro (heq | ⟨_, _, heq⟩)
  · cases heq
  · cases heq

omit [Hashlib] in
theorem RoutePhase.not_records_ran {outcome : Except PyException ScanReport × Session} :
    ¬ (RoutePhase.ran outcome).Records scan := by
  rintro (heq | ⟨_, _, heq⟩)
  · cases heq
  · cases heq

/-- `run_scan` keeps the routes sound. -/
theorem Routes.Sound.run (h : w.Sound reqs sourceKey source start)
    (hreqs : ∀ i, (reqs i).Fails sourceKey) (env : Notifications) (i : ℕ) :
    ((RouteStep.run i).apply reqs env w).Sound reqs sourceKey source start := by
  have hfails := hreqs i
  have hwf := h.wellFormed
  simp only [RouteStep.apply]
  rcases hphase : w.phase i with _ | outcome | scan | _ | ⟨scan, pending, handed⟩
  case idle =>
    have hno : ∀ {phase : RoutePhase} scan, (w.phase i).Records scan → phase.Records scan := by
      intro phase scan hrec
      rw [hphase] at hrec
      exact (RoutePhase.not_records_idle hrec).elim
    rcases hholder : w.holder with _ | holder
    · have hsource : w.db.sourceOf? (reqs i).sourceKey = some source := hfails.key ▸ h.sourced
      obtain ⟨e, he, hcause⟩ : ∃ e, e.sourceUnavailable = true ∧ ((reqs i).collected = .error e ∨
          (reqs i).collected = .ok [] ∧ e = .emptySchemaSnapshot (reqs i).sourceKey) := by
        rcases hfails.cause with ⟨e, hcollected, he⟩ | hnone
        · exact ⟨e, he, Or.inl hcollected⟩
        · exact ⟨_, rfl, Or.inr ⟨hnone, rfl⟩⟩
      have hrun := scan_fails hfails.regular hwf.linked.scanFresh hwf.constraints hsource hcause
        (failed_wellFormed hwf source e).constraints
      refine h.replace hwf h.keys rfl (Nat.le_refl _) h.settled (keepsAttempts_refl _)
        ⟨e, he, hrun⟩ (fun _ _ => rfl) (fun j _ outcome hran => ?_) (fun _ hs => Or.inl hs) hno
      have hj := h.held j outcome hran
      rw [hholder] at hj
      cases hj
    · refine h.replace hwf h.keys rfl (Nat.le_refl _) h.settled (keepsAttempts_refl _) trivial
        (fun _ hran => (nomatch hran)) (fun j _ outcome hran => ?_) (fun _ hs => Or.inl hs) hno
      exact ⟨hholder ▸ h.held j outcome hran, rfl⟩
  all_goals exact h

omit [Hashlib] in
/-- A failing scan's commit. -/
theorem scanPublish_failedSession {req : ScanRequest} {e : PyException}
    (he : e.sourceUnavailable = true) :
    scanPublish (.error e, req.failedSession source (req.scan source db) e) db =
      req.failed source e db := by
  unfold scanPublish
  simp only [PyException.scanCommits_of_sourceUnavailable he, if_true]
  rfl

/-- The commit keeps the routes sound. -/
theorem Routes.Sound.commit (h : w.Sound reqs sourceKey source start) (env : Notifications)
    (i : ℕ) : ((RouteStep.commit i).apply reqs env w).Sound reqs sourceKey source start := by
  have hwf := h.wellFormed
  have hfresh := hwf.linked.scanFresh
  simp only [RouteStep.apply]
  rcases hphase : w.phase i with _ | outcome | scan | _ | ⟨scan, pending, handed⟩
  case ran =>
    have hholder := h.held i outcome hphase
    have hran := h.holds i
    rw [hphase] at hran
    obtain ⟨e, he, rfl⟩ := hran
    have hwf' : ((reqs i).failed source e w.db).WellFormed := failed_wellFormed hwf source e
    have hkeys' : ((reqs i).failed source e w.db).DeliveryKeys := deliveryKeys_failed hwf h.keys
    simp only [scanPublish_failedSession he, addedScan_failed hwf, he, if_true]
    rw [failed_eq hfresh] at hwf' hkeys' ⊢
    refine h.replace hwf' hkeys' rfl ?_ (fun d hd hnew => ?_)
      ⟨fun s hs => List.mem_append_left _ hs, fun d hd s hs hdscan => ?_⟩
      ⟨List.mem_append_right _ List.mem_cons_self, rfl, rfl, h.next⟩
      (fun _ hran => (nomatch hran)) (fun j hj outcome hran => ?_) (fun s hs => ?_)
      (fun s hrec => ?_)
    · exact Nat.le_of_lt (lt_next 0 (enabledChannels (reqs i).settings).length)
    · rcases List.mem_append.1 hd with hold | hadded
      · exact h.settled d hold hnew
      · exact Or.inl (untried_of_mem_pendingDeliveries hadded)
    · rcases List.mem_append.1 hd with hold | hadded
      · exact ⟨d, hold, hdscan, Nat.le_refl _⟩
      · -- the new deliveries are of the new scan
        have hlt := hfresh s hs
        rw [← hdscan, mem_pendingDeliveries hadded] at hlt
        exact absurd hlt (Nat.lt_irrefl _)
    · -- the lock was held by this request alone
      exact absurd (Option.some.inj ((h.held j outcome hran).symm.trans hholder)) hj
    · rcases List.mem_append.1 hs with hold | hadded
      · exact Or.inl hold
      · rw [List.mem_singleton.1 hadded]
        exact Or.inr (Or.inl rfl)
    · rw [hphase] at hrec
      exact (RoutePhase.not_records_ran hrec).elim
  all_goals exact h

/-- What a dispatch does for the scan of the request that makes it, where
this looks it up or has nothing left to be attempted. -/
theorem Routes.Sound.dispatched (h : w.Sound reqs sourceKey source start) (henv : env.Answers)
    {i : ℕ} (hphase : w.phase i = .recorded scan) (hown : LooksUpOwn w (.dispatch i now)) :
    RecordedScan start source w.db scan ∧
    (∀ id ∈ w.db.dispatchable scan.id,
      ∃ x ∈ handedBySystemError env sourceKey now w.db, x.deliveryId = id) ∧
    ∀ d ∈ (postSystemError env sourceKey now w.db).alertDeliveries, d.scanId = scan.id →
      1 ≤ d.attemptCount := by
  have hwf := h.wellFormed
  have hc := hwf.constraints
  have hrec : RecordedScan start source w.db scan := by
    have hi := h.holds i
    rwa [hphase] at hi
  have hsettled : ∀ d ∈ w.db.alertDeliveries, d.scanId = scan.id → d.Settled :=
    fun d hd hdscan => h.settled d hd (hdscan ▸ hrec.new)
  refine ⟨hrec, ?_⟩
  by_cases hnone : w.db.dispatchable scan.id = []
  · obtain ⟨f, hf, hpost⟩ := countsAttempts_postSystemError hc h.keys env sourceKey now
    refine ⟨fun id hid => ?_, fun d' hd' hdscan => ?_⟩
    · rw [hnone] at hid
      cases hid
    · rw [hpost] at hd'
      obtain ⟨d, hd, rfl⟩ := List.mem_map.1 hd'
      rw [hf.identity.scanId] at hdscan
      rcases hsettled d hd hdscan with huntried | ⟨-, hcount⟩
      · have hid := mem_dispatchable.2 ⟨d, hd, rfl, hdscan, huntried.1⟩
        rw [hnone] at hid
        cases hid
      · exact hcount.trans (hf.le d)
  · exact dispatch_own hwf h.keys henv hrec.mem (mem_of_sourceOf? h.sourced).1 hrec.source.symm
      hsettled (latestFailedScanId_eq hwf.linked.scanIds hc.sourceKey h.sourced hrec.mem
        hrec.failed hrec.source (hown scan hphase hnone))

/-- A dispatch that looks up its own scan keeps the routes sound. -/
theorem Routes.Sound.dispatch (h : w.Sound reqs sourceKey source start)
    (hreqs : ∀ i, (reqs i).Fails sourceKey) (henv : env.Answers) (i : ℕ)
    (hown : LooksUpOwn w (.dispatch i now)) :
    ((RouteStep.dispatch i now).apply reqs env w).Sound reqs sourceKey source start := by
  have hwf := h.wellFormed
  simp only [RouteStep.apply]
  rcases hphase : w.phase i with _ | outcome | scan | _ | ⟨scan, pending, handed⟩
  case recorded =>
    obtain ⟨hrec, hhanded, hcounted⟩ := h.dispatched henv hphase hown
    obtain ⟨f, hf, hpost⟩ :=
      countsAttempts_postSystemError hwf.constraints h.keys env sourceKey now
    have honly : DeliveriesOnly w.db
        { w.db with alertDeliveries := w.db.alertDeliveries.map f } := ⟨f, hf.identity, rfl⟩
    rw [(hreqs i).key]
    rw [hpost] at hcounted ⊢
    refine h.replace (honly.wellFormed hwf) (h.keys.map hf.identity) rfl (Nat.le_refl _)
      (fun d' hd' hnew => ?_) ⟨fun _ hs => hs, fun d' hd' s _ hdscan => ?_⟩
      ⟨hrec.mono fun _ hs => hs, hhanded, hcounted⟩ (fun _ hran => (nomatch hran))
      (fun j _ outcome hran => ⟨h.held j outcome hran, rfl⟩) (fun _ hs => Or.inl hs)
      fun s hs => ?_
    · obtain ⟨d, hd, rfl⟩ := List.mem_map.1 hd'
      rw [hf.identity.scanId] at hnew
      exact hf.settled (h.settled d hd hnew)
    · obtain ⟨d, hd, rfl⟩ := List.mem_map.1 hd'
      rw [hf.identity.scanId] at hdscan
      exact ⟨d, hd, hdscan, hf.le d⟩
    · rcases hs with heq | ⟨_, _, heq⟩
      · obtain rfl : scan = s := RoutePhase.recorded.inj (hphase.symm.trans heq)
        exact Or.inr ⟨_, _, rfl⟩
      · rw [hphase] at heq
        cases heq
  all_goals exact h

/-- **Every step keeps the routes sound.** -/
theorem Routes.Sound.apply (h : w.Sound reqs sourceKey source start)
    (hreqs : ∀ i, (reqs i).Fails sourceKey) (henv : env.Answers) {step : RouteStep}
    (hown : LooksUpOwn w step) : (step.apply reqs env w).Sound reqs sourceKey source start := by
  rcases step with i | i | ⟨i, now⟩
  · exact h.run hreqs env i
  · exact h.commit env i
  · exact h.dispatch hreqs henv i hown

/-! ## Every failed scan's alert -/

/-- **Every failed scan gets its own attempt**: a request that has ended
handed out the deliveries that its own scan had PENDING, and when no request
is under way none of the FAILED scans recorded has a delivery never
attempted. -/
structure OwnAttempted (start : DB) (w : Routes) : Prop where
  handed : ∀ i scan pending handed, w.phase i = .alerted scan pending handed →
    scan ∈ w.db.scanRuns ∧ scan.status = .failed ∧ ∀ id ∈ pending, ∃ h ∈ handed, h.deliveryId = id
  settled : w.Quiet → ∀ scan ∈ w.db.scanRuns, scan ∉ start.scanRuns → scan.status = .failed →
    ∀ d ∈ w.db.alertDeliveries, d.scanId = scan.id → 1 ≤ d.attemptCount

/-- **Each request's dispatch attempts its own scan's deliveries** in every
run in which each looks its scan up before a later one is recorded. -/
theorem own_attempted (hwf : start.WellFormed) (hkeys : start.DeliveryKeys)
    (hsource : start.sourceOf? sourceKey = some source) (hreqs : ∀ i, (reqs i).Fails sourceKey)
    (henv : env.Answers)
    (hpath : Lib.Path (RouteStep.apply reqs env) LooksUpOwn (Routes.start start) w) :
    OwnAttempted start w := by
  have hsound : w.Sound reqs sourceKey source start :=
    hpath.invariant (Routes.sound_start hwf hkeys hsource) fun _ _ hs hown =>
      hs.apply hreqs henv hown
  refine ⟨fun i scan pending handed hphase => ?_, fun hquiet scan hscan hnew _ d hd hdscan => ?_⟩
  · have hi := hsound.holds i
    rw [hphase] at hi
    exact ⟨hi.1.mem, hi.1.failed, hi.2.1⟩
  · rcases hsound.all scan hscan with hold | ⟨i, hrecorded | ⟨pending, handed, hphase⟩⟩
    · exact absurd hold hnew
    · exact absurd hrecorded ((hquiet i).2 scan)
    · have hi := hsound.holds i
      rw [hphase] at hi
      exact hi.2.2 d hd hdscan

end Run

section Sample

attribute [local instance] Hashlib.plain

/-- Failing requests, each beginning after the one before it. -/
def sampleFailures (i : ℕ) : ScanRequest := sampleFailure i

theorem sampleFailures_fails (i : ℕ) : (sampleFailures i).Fails "crm" :=
  ⟨rfl, rfl, Or.inl ⟨_, rfl, rfl⟩⟩

theorem sampleBothAccept_answers : sampleBothAccept.Answers :=
  fun _ => ⟨_, rfl, fun _ => by decide⟩

/-- Scans commit in the order in which they began. -/
def CommitsInOrder (reqs : ℕ → ScanRequest) (w : Routes) : RouteStep → Prop
  | .commit i => ∀ scan ∈ w.db.scanRuns, scan.startedAt < (reqs i).startedAt
  | _ => True

/-- Two requests, the second one's scan under way while the first one looks
its own up. -/
def sampleInTurn : Routes :=
  [.run 0, .commit 0, .run 1, .dispatch 0 5, .commit 1, .dispatch 1 6].foldl
    (fun w (step : RouteStep) => step.apply sampleFailures sampleBothAccept w)
    (Routes.start sampleStart)

theorem own_attempted_sample : OwnAttempted sampleStart sampleInTurn ∧
    sampleInTurn.db.alertDeliveries.map (fun d => (d.scanId, d.status, d.attemptCount)) =
      [(1, .sent, 1), (1, .sent, 1), (4, .sent, 1), (4, .sent, 1)] :=
  ⟨own_attempted sampleStart_initial.wellFormed ⟨by decide, by decide⟩ rfl
    sampleFailures_fails sampleBothAccept_answers (Lib.Path.of_along _ (by decide +kernel)),
    by decide +kernel⟩

/-- The deliveries a request's dispatch was to attempt and did not. -/
def RoutePhase.missed : RoutePhase → List Uuid
  | .alerted _ pending handed => pending.filter fun id => id ∉ handed.map Handed.deliveryId
  | _ => []

/-- Two requests fail, the second between the first one's commit and its
dispatch. -/
def sampleMissed : Routes :=
  [.run 0, .commit 0, .run 1, .commit 1, .dispatch 0 5, .dispatch 1 6].foldl
    (fun w (step : RouteStep) => step.apply sampleFailures sampleBothAccept w)
    (Routes.start sampleStart)

/-- No request misses a delivery of its own scan. -/
theorem OwnAttempted.missed_eq_nil {start : DB} {w : Routes} (h : OwnAttempted start w) (i : ℕ) :
    (w.phase i).missed = [] := by
  rcases hphase : w.phase i with _ | outcome | scan | _ | ⟨scan, pending, handed⟩
  case alerted =>
    obtain ⟨-, -, hall⟩ := h.handed i scan pending handed hphase
    refine List.filter_eq_nil_iff.2 fun id hid => ?_
    obtain ⟨x, hx, rfl⟩ := hall id hid
    have hmem : x.deliveryId ∈ handed.map Handed.deliveryId := List.mem_map_of_mem hx
    simpa using hmem
  all_goals rfl

theorem sampleMissed_path : Lib.Path (RouteStep.apply sampleFailures sampleBothAccept)
    (CommitsInOrder sampleFailures) (Routes.start sampleStart) sampleMissed := by
  refine Lib.Path.of_along _ ⟨True.intro, ?_, True.intro, ?_, True.intro, True.intro, True.intro⟩
  · show ∀ scan ∈ (_ : DB).scanRuns, _
    decide +kernel
  · show ∀ scan ∈ (_ : DB).scanRuns, _
    decide +kernel

/-- **A request looks up another's scan**: the later scan's deliveries are
handed out, and the earlier one's are not. -/
theorem other_attempted : ¬ ∀ w, Lib.Path (RouteStep.apply sampleFailures sampleBothAccept)
    (CommitsInOrder sampleFailures) (Routes.start sampleStart) w → OwnAttempted sampleStart w := by
  intro h
  have hnone := (h sampleMissed sampleMissed_path).missed_eq_nil 0
  have hmissed : (sampleMissed.phase 0).missed = [2, 3] := by decide +kernel
  rw [hmissed] at hnone
  cases hnone

end Sample

end SchemaSentry
