import SchemaSentry.Api.Routes
import SchemaSentry.System.FailedScans
import SchemaSentry.System.Isolation
import SchemaSentry.System.Views
/-!
# Schema Sentry — what a request comes to

`Handled` lists all a request can come to in sound tables: it is told off
or told what is there, or its scan has completed, or its scan's failure is
recorded, or its change accepted, or its delivery attempted. What the
replies say of the tables is read off it.
-/

namespace SchemaSentry

open Lib DbM

/-! ## What a request asks for -/

/-- The source a request has scanned. -/
def HttpRequest.source? : HttpRequest → Option String
  | .runScan sourceKey => some sourceKey
  | .scanAction sourceKey => some (sourceKey.getD "game")
  | _ => none

/-- The acceptance a request asks for. -/
def HttpRequest.acceptance? (m : Moment) : HttpRequest → Option AcceptRequest
  | .acceptChange changeId baselineVersion => some ⟨changeId, baselineVersion, m.acceptedAt⟩
  | .acceptAction changeId baselineVersion => some ⟨changeId, baselineVersion, m.acceptedAt⟩
  | _ => none

/-- The delivery a request has retried. -/
def HttpRequest.delivery? : HttpRequest → Option Uuid
  | .retryDelivery deliveryId => some deliveryId
  | _ => none

/-- A request that may change the tables. -/
def HttpRequest.changes : HttpRequest → Bool
  | .runScan _ => true
  | .acceptChange _ _ => true
  | .retryDelivery _ => true
  | .scanAction _ => true
  | .acceptAction _ _ => true
  | _ => false

/-- A collector raises no exception of the service's own. -/
def PyException.isService : PyException → Bool
  | .scanAlreadyRunning _ => true
  | .sourceNotFound _ => true
  | .emptySchemaSnapshot _ => true
  | .httpException _ => true
  | _ => false

def Moment.Regular (m : Moment) : Prop :=
  ∀ e, m.collected = .error e → e.isService = false

/-- The change list of a reply is that of the tables. -/
def Body.Shows (db : DB) (body : Body) : Prop :=
  ∀ shown, body = .changeList shown → ∃ scan message kind,
    latestResult db = .ok scan ∧ shown = panel scan (some message) kind

/-- All a request can come to. -/
inductive Handled [Hashlib] (s : ServerSettings) (m : Moment) (req : HttpRequest) (db : DB) :
    Answer → Prop
  | told {status : ℕ} {body : Body} : (req.changes = true → status ≠ 200) → status ≠ 201 →
      status ≠ 503 → body.Shows db → Handled s m req db (.only status body db)
  | scanned {sourceKey : String} {report : ScanReport} {body : Body} :
      req.source? = some sourceKey →
      scanResult (m.scanRequest s sourceKey) db = .ok report →
      (req.isAction = false → body = .scan (ScanResponse.fromReport report)) →
      body.Shows (postScans (m.scanRequest s sourceKey) db) →
      Handled s m req db
        { reply := ⟨if req.isAction then 200 else 201, body⟩
          db := postScans (m.scanRequest s sourceKey) db, queued := [report.scanId] }
  | recorded {sourceKey : String} {source : DataSourceModel} {e : PyException} {body : Body} :
      req.source? = some sourceKey → db.sourceOf? sourceKey = some source →
      postScans (m.scanRequest s sourceKey) db = (m.scanRequest s sourceKey).failed source e db →
      body.Shows (afterFailure s m sourceKey db) →
      Handled s m req db (.only 503 body (afterFailure s m sourceKey db))
  | accepted {accept : AcceptRequest} {result : AcceptanceResult} {body : Body} :
      req.acceptance? m = some accept → acceptResult accept db = .ok result →
      body.Shows (postAccept accept db) → Handled s m req db (.only 200 body (postAccept accept db))
  | retried {deliveryId : Uuid} {result : DeliveryResult} :
      req.delivery? = some deliveryId →
      retryResult (s.notifications m.transport) deliveryId m.now db = .ok result →
      Handled s m req db (.only 200 (.delivery result)
        (postRetry (s.notifications m.transport) deliveryId m.now db))

section Scans

variable [Hashlib]
variable {db : DB} {req : ScanRequest} {e : PyException}

/-- A source that is not registered is not found. -/
theorem scan_unknown (hc : db.Constraints) (hnone : db.sourceOf? req.sourceKey = none) :
    scanResult req db = .error (.sourceNotFound req.sourceKey) ∧ postScans req db = db := by
  have hpending : Session.new.pending db = db := rfl
  have hrun : exec (runScan req) db Session.new =
      (.error (.sourceNotFound req.sourceKey), Session.new) := by
    rw [DB.sourceOf?] at hnone
    rw [runScan, exec_bind, exec_tryKey]
    simp only [if_true, createRunningScan, getSource, exec_bind, exec_select, hpending, if_pos hc,
      hnone, exec_raise]
  rw [scanResult, postScans, hrun]
  exact ⟨rfl, rfl⟩

omit [Hashlib] in
/-- The record of a failure is not nothing. -/
theorem failed_ne (hfresh : db.FreshScans) (source : DataSourceModel) :
    req.failed source e db ≠ db := fun heq =>
  not_failureRecorded_self (heq ▸ failureRecorded_failed hfresh)

/-- **A scan that fails** has its failure recorded where its source is
unavailable, and leaves no trace otherwise. -/
theorem scan_told (hwf : db.WellFormed) (hf : req.faults = noFaults)
    (hcollector : ∀ e, req.collected = .error e → e.isService = false)
    (h : scanResult req db = .error e) :
    (e.sourceUnavailable = true ∧ ∃ source, db.sourceOf? req.sourceKey = some source ∧
      postScans req db = req.failed source e db) ∨
    (e.scanCommits = false ∨ e = .sourceNotFound req.sourceKey) ∧ postScans req db = db := by
  rcases hsource : db.sourceOf? req.sourceKey with _ | source
  · obtain ⟨hresult, hpost⟩ := scan_unknown hwf.constraints hsource
    rw [hresult] at h
    cases h
    exact Or.inr ⟨Or.inr rfl, hpost⟩
  · have hout : ScanOutcome req db (scanResult req db) (postScans req db) :=
      scanOutcome hf hwf.linked.scanFresh
    rw [h] at hout
    have hfresh := hwf.linked.scanFresh
    rcases hcase : req.earlyException source db with _ | e'
    · -- rows of a failed scan's result would be more than its record has
      rcases postScans_of_late hwf hsource hcase h with ⟨hnot, hpost⟩ | hmore
      · exact Or.inr ⟨Or.inl hnot, hpost⟩
      · generalize postScans req db = after at hout hmore
        rcases hout with _ | @⟨source', _, -, -⟩
        · exact absurd hmore (Nat.lt_irrefl _)
        · rw [(failureRecorded_failed hfresh : FailureRecorded req source' db _).filed] at hmore
          exact absurd hmore (Nat.lt_irrefl _)
    · obtain ⟨hresult, hpost⟩ := postScans_of_early hwf hsource hcase
      rw [h] at hresult
      cases hresult
      by_cases hcommits : e.scanCommits = true
      · rw [if_pos hcommits] at hpost
        refine Or.inl ⟨?_, source, rfl, hpost⟩
        rw [hpost] at hout
        generalize hafter : req.failed source e db = after at hout
        rcases hout with _ | ⟨-, ⟨hraised, -⟩ | ⟨-, rfl⟩⟩
        · exact absurd hafter (failed_ne hfresh source)
        · have hservice := hcollector e hraised
          cases e with
          | osError | psycopgError => rfl
          | scanAlreadyRunning | sourceNotFound | emptySchemaSnapshot | httpException =>
            exact Bool.noConfusion hservice
          | _ => exact Bool.noConfusion hcommits
        · rfl
      · rw [if_neg hcommits] at hpost
        exact Or.inr ⟨Or.inl (eq_false_of_ne_true hcommits), hpost⟩

end Scans

/-! ## Retries -/

section Retries

variable {db : DB} {env : Notifications} {now : Timestamp} {id : Uuid}

/-- The exceptions a retry is answered for, and those that are none of a
response's. -/
def AlertException.Told (e : AlertException) : Prop := ∀ code, e ≠ .raised (.httpException code)

/-- A message that is no result has raised what is no response. -/
theorem result_error {h : Handed} {e : AlertException} (herror : h.result = .error e) :
    e = .raised .sqlAlchemyError ∨ ∃ className, e = .raised (.other className) := by
  unfold Handed.result at herror
  split at herror
  · split at herror
    · cases herror
    · cases herror
      exact Or.inl rfl
  · cases herror
  · cases herror
    exact Or.inr ⟨_, rfl⟩

/-- Well-formed tables' scans are read where they are there. -/
theorem scanContext_read [Hashlib] (hwf : db.WellFormed) (scanId : Uuid) :
    ∃ context, db.scanContext? scanId = .ok context := by
  unfold DB.scanContext?
  rcases db.scanWithSource? scanId with _ | ⟨scan, source⟩
  · exact ⟨none, rfl⟩
  · have hok : ∀ pair ∈ db.alertRows scanId, ∃ change, db.alertChange? pair = .ok change :=
      fun pair hpair => exists_alertChange hwf (mem_alertRows.1 hpair).1 pair.2
    obtain ⟨changes, hchanges, -⟩ := mapM_ok hok
    simp only [hchanges]
    exact ⟨_, rfl⟩

/-- A delivery that is not there is not found. -/
theorem retry_missing (hc : db.Constraints) (hrow : db.delivery? id = none) :
    AlertM.exec (retry env id now) db AlertSession.new = (.error (.deliveryNotFound id), .new) := by
  have hpending : AlertSession.new.session.pending db = db := rfl
  have hcs : (AlertSession.new.session.pending db).Constraints := hc
  unfold retry attempt
  simp only [AlertM.exec_bind, AlertM.exec_ofDb]
  rw [exec_lockDelivery hcs, hpending, hrow]
  rfl

variable {row : AlertDeliveryModel}

/-- A delivery with its attempts made is not attempted again. -/
theorem retry_exhausted (hc : db.Constraints) (hrow : db.delivery? id = some row)
    (hspent : maxAttempts ≤ row.attemptCount) :
    AlertM.exec (retry env id now) db AlertSession.new =
      (.error (.maxAttemptsExceeded id), .new) := by
  have hpending : AlertSession.new.session.pending db = db := rfl
  have hcs : (AlertSession.new.session.pending db).Constraints := hc
  have hrecord : maxAttempts ≤ row.toRecord.attemptCount := hspent
  unfold retry attempt
  simp only [AlertM.exec_bind, AlertM.exec_ofDb]
  rw [exec_lockDelivery hcs, hpending, hrow]
  simp only [Option.map_some, if_pos hrecord]
  rfl

/-- One whose time has not come is not attempted yet. -/
theorem retry_early (hc : db.Constraints) (hrow : db.delivery? id = some row)
    (hleft : row.attemptCount < maxAttempts) {t : Timestamp} (ht : t ∈ row.nextRetryAt)
    (hlt : now < t) :
    AlertM.exec (retry env id now) db AlertSession.new = (.error (.retryNotDue t), .new) := by
  have hpending : AlertSession.new.session.pending db = db := rfl
  have hcs : (AlertSession.new.session.pending db).Constraints := hc
  have hrecord : ¬ maxAttempts ≤ row.toRecord.attemptCount := Nat.not_le.2 hleft
  have hdue : (row.toRecord.nextRetryAt.filter fun t => now < t) = some t := by
    rw [Option.filter_eq_some_iff]
    exact ⟨ht, by simpa using hlt⟩
  unfold retry attempt
  simp only [AlertM.exec_bind, AlertM.exec_ofDb]
  rw [exec_lockDelivery hcs, hpending, hrow]
  simp only [Option.map_some, if_neg hrecord, hdue]
  rfl

/-- A refused attempt in well-formed tables. -/
theorem retry_refused [Hashlib] (hwf : db.WellFormed) (hnone : db.hand? env now id = none) :
    ∃ e, e.Told ∧ AlertM.exec (retry env id now) db AlertSession.new = (.error e, .new) := by
  have hc := hwf.constraints
  rcases hrow : db.delivery? id with _ | row
  · exact ⟨_, fun _ => AlertException.noConfusion, retry_missing hc hrow⟩
  by_cases hleft : row.attemptCount < maxAttempts
  · by_cases hdue : ∃ t ∈ row.nextRetryAt, now < t
    · obtain ⟨t, ht, hlt⟩ := hdue
      exact ⟨_, fun _ => AlertException.noConfusion, retry_early hc hrow hleft ht hlt⟩
    · have hpending : AlertSession.new.session.pending db = db := rfl
      have hcs : (AlertSession.new.session.pending db).Constraints := hc
      have hrecord : ¬ maxAttempts ≤ row.toRecord.attemptCount := Nat.not_le.2 hleft
      have hdue' : (row.toRecord.nextRetryAt.filter fun t => now < t) = none := by
        rw [Option.filter_eq_none_iff]
        exact fun t ht hlt => hdue ⟨t, ht, by simpa using hlt⟩
      unfold retry attempt
      simp only [AlertM.exec_bind, AlertM.exec_ofDb]
      rw [exec_lockDelivery hcs, hpending, hrow]
      simp only [Option.map_some, if_neg hrecord, hdue', AlertM.exec_bind, AlertM.exec_ofDb]
      rw [exec_getScanContext hcs, hpending]
      obtain ⟨context, hcontext⟩ := scanContext_read hwf row.toRecord.scanId
      simp only [hcontext]
      rcases context with _ | context
      · exact ⟨_, fun _ => AlertException.noConfusion, rfl⟩
      · rcases hconf : env.notifiers row.toRecord.channel with _ | notifier
        · exact ⟨_, fun _ => AlertException.noConfusion, rfl⟩
        · -- nothing stands in the way of such an attempt
          have hready : Ready env now db id row context notifier :=
            ⟨hrow, hleft, fun t ht => not_lt.1 fun hlt => hdue ⟨t, ht, hlt⟩, hcontext, hconf⟩
          have hhand := hand?_eq_some_iff.2 ⟨row, context, notifier, hready, rfl⟩
          rw [hnone] at hhand
          cases hhand
  · exact ⟨_, fun _ => AlertException.noConfusion, retry_exhausted hc hrow (Nat.not_lt.1 hleft)⟩

/-- **A retry that does not return leaves the tables**, and is answered as
what it is. -/
theorem retry_told [Hashlib] (hwf : db.WellFormed) {e : AlertException}
    (h : retryResult env id now db = .error e) : e.Told ∧ postRetry env id now db = db := by
  have hcs : (AlertSession.new.session.pending db).Constraints := hwf.constraints
  rcases exec_attempt (s := AlertSession.new) env now id hcs with ⟨handed, -, hexec⟩ | ⟨hnone, -⟩
  · have hrun : AlertM.exec (retry env id now) db AlertSession.new =
        (handed.result, AlertSession.new.after handed) := hexec
    unfold retryResult at h
    unfold postRetry
    rw [hrun] at h ⊢
    simp only at h
    rw [h]
    rcases result_error h with rfl | ⟨className, rfl⟩
    · exact ⟨fun code hcode => (nomatch hcode), rfl⟩
    · exact ⟨fun code hcode => (nomatch hcode), rfl⟩
  · obtain ⟨e', htold, hrun⟩ := retry_refused hwf hnone
    unfold retryResult at h
    unfold postRetry
    rw [hrun] at h ⊢
    cases h
    refine ⟨htold, ?_⟩
    unfold retryPublish
    simp only
    split
    · rfl
    · rfl

end Retries

/-! ## Replies -/

section Handled

variable [Hashlib]
variable {s : ServerSettings} {m : Moment} {l : Ledger}

/-- The status of a reply to an exception no route has one for. -/
def PyException.statusCode : PyException → ℕ
  | .httpException code => code
  | _ => 500

omit [Hashlib] in
theorem raised_eq (e : PyException) (db : DB) : Answer.raised e db = .only e.statusCode .none db := by
  cases e with
  | httpException => rfl
  | _ => rfl

omit [Hashlib] in
theorem shows_of_ne {db : DB} {body : Body} (h : ∀ shown, body ≠ .changeList shown) :
    body.Shows db := fun shown heq => absurd heq (h shown)

/-- The latest scan of sound tables is shown, if there is one. -/
theorem Ledger.Sound.latest (h : l.Sound) : ∃ scan, latestResult l.db = .ok scan := by
  have hc := h.wellFormed.constraints
  rcases hscans : l.db.scansByStart with _ | ⟨scan, rest⟩
  · refine ⟨none, ?_⟩
    have hpending : Session.new.pending l.db = l.db := rfl
    unfold latestResult latestScan
    simp only [exec_bind, exec_select, hpending, if_pos hc, hscans]
    rfl
  · have hscan : scan ∈ l.db.scanRuns := by
      have hmem : scan ∈ l.db.scansByStart := hscans ▸ List.mem_cons_self
      rwa [DB.scansByStart, List.mem_insertionSort] at hmem
    obtain ⟨source, hsource, hid⟩ := h.owned scan hscan
    have hhead : l.db.scansByStart.head? = some scan := by rw [hscans]; rfl
    exact ⟨_, latestResult_eq hc hhead
      ((find?_eq_some_of_nodup h.wellFormed.linked.sourceIds).2 ⟨hsource, hid⟩)⟩

/-- Any scan asked for in sound tables is got, if it is there. -/
theorem Ledger.Sound.got (h : l.Sound) (scanId : Uuid) :
    ∃ shown, SchemaSentry.getResult scanId l.db = .ok shown := by
  by_cases hthere : ∃ scan ∈ l.db.scanRuns, scan.id = scanId
  · obtain ⟨scan, hscan, rfl⟩ := hthere
    obtain ⟨source, -, -, hgot⟩ := h.getResult hscan
    exact ⟨_, hgot⟩
  · refine ⟨none, ?_⟩
    have hpending : Session.new.pending l.db = l.db := rfl
    have hnone : (l.db.scanRuns.find? fun scan => scan.id = scanId) = none := by
      rw [List.find?_eq_none]
      intro scan hscan hid
      exact hthere ⟨scan, hscan, by simpa using hid⟩
    unfold SchemaSentry.getResult getPersistedScan
    simp only [exec_bind, exec_select, hpending, if_pos h.wellFormed.constraints, hnone]
    rfl

/-- The scans of late of sound tables are shown. -/
theorem Ledger.Sound.recent (h : l.Sound) : ∃ shown, recentResult 5 l.db = .ok shown := by
  have hlimit : (1 : ℤ) ≤ 5 ∧ (5 : ℤ) ≤ 50 := by omega
  obtain ⟨shown, hshown, -⟩ := recentResult_eq h.wellFormed.constraints
    h.wellFormed.linked.scanIds h.wellFormed.linked.sourceIds h.owned hlimit
  exact ⟨shown, hshown⟩

/-- The change list of sound tables is rendered. -/
theorem Ledger.Sound.renders (h : l.Sound) (status : ℕ) (message kind : String) (db : DB)
    (queued : List Uuid) : ∃ body, body.Shows l.db ∧
      renderChangeList status message kind l.db db queued =
        { reply := ⟨status, body⟩, db := l.db, queued := queued } := by
  obtain ⟨scan, hlatest⟩ := h.latest
  refine ⟨.changeList (panel scan (some message) kind), fun shown heq => ?_, ?_⟩
  · cases heq
    exact ⟨scan, message, kind, hlatest, rfl⟩
  · unfold renderChangeList
    rw [hlatest]

omit [Hashlib] in
/-- Who is no operator is told so, or the texts cannot be compared. -/
theorem status_of_requireOperator {headers : Headers} {e : PyException}
    (h : requireOperator s headers = .error e) : e.statusCode ∈ [401, 500] := by
  have hcompared : ∀ key e', compareDigest key s.apiKey = .error e' →
      e'.statusCode ∈ [401, 500] := by
    intro key e' hcompare
    unfold compareDigest at hcompare
    split at hcompare
    · cases hcompare
    · cases hcompare
      exact List.mem_cons_of_mem _ List.mem_cons_self
  unfold requireOperator at h
  split at h
  · cases h
  · simp only at h
    generalize (if s.trustProxyAuth then given headers.authenticatedUser else none) = user? at h
    rcases hkey : given headers.apiKey with _ | key
    · rw [hkey] at h
      rcases user? with _ | user
      · cases h
        exact List.mem_cons_self
      · cases h
    · rw [hkey] at h
      simp only at h
      rcases hcompare : compareDigest key s.apiKey with e' | matched
      · rw [hcompare] at h
        cases h
        exact hcompared key _ hcompare
      · rw [hcompare] at h
        rcases matched with _ | _
        · rcases user? with _ | user
          · cases h
            exact List.mem_cons_self
          · cases h
        · cases h

omit [Hashlib] in
theorem status_of_urlsplit {url : String} {e : PyException} (h : urlsplit url = .error e) :
    e.statusCode = 500 := by
  unfold urlsplit at h
  simp only at h
  split at h
  · split at h
    · cases h
      rfl
    · cases h
  · cases h

omit [Hashlib] in
/-- Another origin is told so, or an address cannot be taken apart. -/
theorem status_of_requireSameOrigin {headers : Headers} {identity : OperatorIdentity}
    {e : PyException} (h : requireSameOrigin s headers identity = .error e) :
    e.statusCode ∈ [403, 500] := by
  unfold requireSameOrigin at h
  rcases hurl : headers.suppliedUrl with _ | url
  · rw [hurl] at h
    simp only at h
    split at h
    · cases h
    · cases h
      exact List.mem_cons_self
  · rw [hurl] at h
    simp only at h
    rcases hsupplied : urlsplit url with e' | supplied
    · rw [hsupplied] at h
      cases h
      rw [status_of_urlsplit hsupplied]
      exact List.mem_cons_of_mem _ List.mem_cons_self
    · rcases hexpected : urlsplit s.dashboardBaseUrl with e' | expected
      · rw [hsupplied, hexpected] at h
        cases h
        rw [status_of_urlsplit hexpected]
        exact List.mem_cons_of_mem _ List.mem_cons_self
      · rw [hsupplied, hexpected] at h
        replace h : (if supplied = expected then Except.ok ()
          else .error (PyException.httpException 403)) = .error e := h
        split at h
        · cases h
        · cases h
          exact List.mem_cons_self

omit [Hashlib] in
/-- **What stops a request has one of four statuses.** -/
theorem status_of_stopped {headers : Headers} {req : HttpRequest} {e : PyException}
    (h : stopped? s headers req = some e) : e.statusCode ∈ [401, 403, 422, 500] := by
  unfold stopped? at h
  split at h
  · rcases hoperator : requireOperator s headers with e' | identity
    · rw [hoperator] at h
      cases h
      have hstatus := status_of_requireOperator hoperator
      simp only [List.mem_cons, List.not_mem_nil, or_false] at hstatus ⊢
      omega
    · rw [hoperator] at h
      simp only at h
      split at h
      · cases h
        simp [PyException.statusCode]
      · split at h
        · rcases horigin : requireSameOrigin s headers identity with e' | _
          · rw [horigin] at h
            cases h
            have hstatus := status_of_requireSameOrigin horigin
            simp only [List.mem_cons, List.not_mem_nil, or_false] at hstatus ⊢
            omega
          · rw [horigin] at h
            cases h
        · cases h
  · cases h

variable {sourceKey : String} {req : HttpRequest}

/-- What is no exception of a route's is told by its status. -/
theorem told_raised {db : DB} {e : PyException} (he : e.statusCode ∈ [401, 403, 422, 500]) :
    Handled s m req db (.raised e db) := by
  simp only [List.mem_cons, List.not_mem_nil, or_false] at he
  rw [raised_eq]
  refine .told (fun _ => ?_) ?_ ?_ (shows_of_ne fun _ => Body.noConfusion)
  all_goals omega

omit [Hashlib] in
theorem statusCode_of_scanCommits {e : PyException} (h : e.scanCommits = false) :
    e.statusCode = 500 := by
  cases e with
  | httpException => cases h
  | _ => rfl

omit [Hashlib] in
theorem statusCode_of_acceptCommits {e : PyException} (h : e.acceptCommits = false) :
    e.statusCode = 500 := by
  cases e with
  | httpException => cases h
  | _ => rfl

/-- The tables after a failure's dispatch are a ledger's. -/
theorem Ledger.Sound.afterFailure (h : l.Sound) :
    ∃ l' : Ledger, l'.Sound ∧ l'.db = SchemaSentry.afterFailure s m sourceKey l.db := by
  have hscanned : (Request.apply (.edit (.scan (m.scanRequest s sourceKey))) l).Sound :=
    h.apply ⟨rfl, fun _ _ _ _ => trivial⟩
  have hdispatched : (Request.apply (.systemError (s.notifications m.transport) sourceKey m.now)
    (Request.apply (.edit (.scan (m.scanRequest s sourceKey))) l)).Sound := hscanned.apply trivial
  refine ⟨_, hdispatched, ?_⟩
  simp only [Request.apply, SchemaSentry.afterFailure]

/-- A scan asked for through the API. -/
theorem handled_runScan (hsound : l.Sound) (hm : m.Regular) :
    Handled s m (.runScan sourceKey) l.db (runScanRoute s m sourceKey l.db) := by
  have hwf := hsound.wellFormed
  have hcollector : ∀ e, (m.scanRequest s sourceKey).collected = .error e → e.isService = false := hm
  unfold runScanRoute
  rcases hresult : scanResult (m.scanRequest s sourceKey) l.db with e | report
  · rcases scan_told hwf rfl hcollector hresult with ⟨hunavailable, source, hsource, hpost⟩ | ⟨he, hpost⟩
    · have hrecorded : Handled s m (.runScan sourceKey) l.db
          (.only 503 (.detail "source database unavailable") (afterFailure s m sourceKey l.db)) :=
        .recorded rfl hsource hpost (shows_of_ne fun _ => Body.noConfusion)
      cases e with
      | psycopgError | osError | emptySchemaSnapshot => exact hrecorded
      | _ => cases hunavailable
    · simp only [hpost]
      rcases he with hrolled | rfl
      · have htold : Handled s m (.runScan sourceKey) l.db (.raised e l.db) :=
          told_raised (by rw [statusCode_of_scanCommits hrolled]; simp)
        cases e with
        | scanAlreadyRunning | sourceNotFound | psycopgError | osError | emptySchemaSnapshot =>
          cases hrolled
        | _ => exact htold
      · exact .told (fun _ => by decide) (by decide) (by decide)
          (shows_of_ne fun _ => Body.noConfusion)
  · exact .scanned rfl hresult (fun _ => rfl) (shows_of_ne fun _ => Body.noConfusion)

/-- A scan asked for from the dashboard. -/
theorem handled_scanAction (hsound : l.Sound) (hm : m.Regular) (key : Option String) :
    Handled s m (.scanAction key) l.db (scanAction s m (key.getD "game") l.db) := by
  have hwf := hsound.wellFormed
  have hcollector : ∀ e, (m.scanRequest s (key.getD "game")).collected = .error e →
      e.isService = false := hm
  unfold scanAction
  rcases hresult : scanResult (m.scanRequest s (key.getD "game")) l.db with e | report
  · rcases scan_told hwf rfl hcollector hresult with ⟨hunavailable, source, hsource, hpost⟩ | ⟨he, hpost⟩
    · obtain ⟨l', hsound', hdb⟩ := hsound.afterFailure (s := s) (m := m)
      have hrecorded : Handled s m (.scanAction key) l.db (renderChangeList 503
          "Source database is unavailable. The failure was recorded." "error"
          (afterFailure s m (key.getD "game") l.db) (afterFailure s m (key.getD "game") l.db) []) := by
        rw [← hdb]
        obtain ⟨body, hshows, hrender⟩ := hsound'.renders 503
          "Source database is unavailable. The failure was recorded." "error" l'.db []
        rw [hrender]
        rw [hdb] at hshows ⊢
        exact .recorded rfl hsource hpost hshows
      cases e with
      | psycopgError | osError | emptySchemaSnapshot => exact hrecorded
      | _ => cases hunavailable
    · simp only [hpost]
      rcases he with hrolled | rfl
      · have htold : Handled s m (.scanAction key) l.db (.raised e l.db) :=
          told_raised (by rw [statusCode_of_scanCommits hrolled]; simp)
        cases e with
        | scanAlreadyRunning | sourceNotFound | psycopgError | osError | emptySchemaSnapshot =>
          cases hrolled
        | _ => exact htold
      · obtain ⟨body, hshows, hrender⟩ := hsound.renders 404
          ("Source '" ++ key.getD "game" ++ "' is not registered.") "error" l.db []
        rw [hrender]
        exact .told (fun _ => by decide) (by decide) (by decide) hshows
  · have hscanned : (Request.apply (.edit (.scan (m.scanRequest s (key.getD "game")))) l).Sound :=
      hsound.apply ⟨rfl, fun _ _ _ _ => trivial⟩
    obtain ⟨body, hshows, hrender⟩ := hscanned.renders 200
      ("Scan " ++ toString report.scanId ++ " completed.") "success"
      (postScans (m.scanRequest s (key.getD "game")) l.db) [report.scanId]
    refine Eq.mpr (congrArg _ hrender) ?_
    exact .scanned rfl hresult (fun h => (nomatch h)) hshows

/-- A change accepted through the API. -/
theorem handled_acceptChange (changeId : Uuid) (baselineVersion : ℤ) :
    Handled s m (.acceptChange changeId baselineVersion) l.db
      (acceptChangeRoute m changeId baselineVersion l.db) := by
  have hout := acceptOutcome ⟨changeId, baselineVersion, m.acceptedAt⟩ l.db
  unfold acceptChangeRoute
  simp only
  rcases hresult : acceptResult ⟨changeId, baselineVersion, m.acceptedAt⟩ l.db with e | result
  · rw [hresult] at hout
    generalize postAccept ⟨changeId, baselineVersion, m.acceptedAt⟩ l.db = after at hout
    rcases hout with _ | _ | hfailed
    · exact .told (fun _ => by decide) (by decide) (by decide)
        (shows_of_ne fun _ => Body.noConfusion)
    · exact .told (fun _ => by decide) (by decide) (by decide)
        (shows_of_ne fun _ => Body.noConfusion)
    · have htold : Handled s m (.acceptChange changeId baselineVersion) l.db (.raised e l.db) :=
        told_raised (by rw [statusCode_of_acceptCommits hfailed]; simp)
      cases e with
      | baselineVersionConflict | changeNotFound => cases hfailed
      | _ => exact htold
  · exact .accepted rfl hresult (shows_of_ne fun _ => Body.noConfusion)

/-- A change accepted from the dashboard. -/
theorem handled_acceptAction (hsound : l.Sound) (changeId : Uuid) (baselineVersion : ℤ) :
    Handled s m (.acceptAction changeId baselineVersion) l.db
      (acceptAction m changeId baselineVersion l.db) := by
  have hout := acceptOutcome ⟨changeId, baselineVersion, m.acceptedAt⟩ l.db
  unfold acceptAction
  simp only
  rcases hresult : acceptResult ⟨changeId, baselineVersion, m.acceptedAt⟩ l.db with e | result
  · rw [hresult] at hout
    generalize postAccept ⟨changeId, baselineVersion, m.acceptedAt⟩ l.db = after at hout
    rcases hout with _ | _ | hfailed
    · obtain ⟨body, hshows, hrender⟩ := hsound.renders 404
        "This schema change no longer exists. Refresh the page." "error" l.db []
      simp only [hrender]
      exact .told (fun _ => by decide) (by decide) (by decide) hshows
    · rename_i source _ _ _
      obtain ⟨body, hshows, hrender⟩ := hsound.renders 409
        ("Baseline changed to version " ++ toString source.baselineVersion ++
          ". Refresh the page before accepting.") "warning" l.db []
      simp only [hrender]
      exact .told (fun _ => by decide) (by decide) (by decide) hshows
    · have htold : Handled s m (.acceptAction changeId baselineVersion) l.db (.raised e l.db) :=
        told_raised (by rw [statusCode_of_acceptCommits hfailed]; simp)
      cases e with
      | baselineVersionConflict | changeNotFound => cases hfailed
      | _ => exact htold
  · have haccepted : (Request.apply (.edit (.accept ⟨changeId, baselineVersion, m.acceptedAt⟩))
      l).Sound := hsound.apply trivial
    obtain ⟨body, hshows, hrender⟩ := haccepted.renders 200
      ("Accepted as baseline version " ++ toString result.baselineVersion ++ ".") "success" l.db []
    refine Eq.mpr (congrArg _ hrender) ?_
    exact .accepted rfl hresult hshows

/-- A pipeline validated. -/
theorem handled_validate (hsound : l.Sound) (pipelineKey : String) :
    Handled s m (.validatePipeline pipelineKey) l.db (validatePipelineRoute pipelineKey l.db) := by
  have hc := hsound.wellFormed.constraints
  unfold validatePipelineRoute
  by_cases hk : ∃ p ∈ l.db.pipelines, p.key = pipelineKey
  · rw [validateResult_eq hc hk]
    refine .told (fun h => Bool.noConfusion h) ?_ ?_ (shows_of_ne fun _ => Body.noConfusion)
    all_goals split <;> decide
  · rw [validateResult_unknown hc hk]
    exact .told (fun h => Bool.noConfusion h) (by decide) (by decide)
      (shows_of_ne fun _ => Body.noConfusion)

/-- A delivery retried. -/
theorem handled_retry (hsound : l.Sound) (deliveryId : Uuid) :
    Handled s m (.retryDelivery deliveryId) l.db (retryDeliveryRoute s m deliveryId l.db) := by
  unfold retryDeliveryRoute
  simp only
  rcases hresult : retryResult (s.notifications m.transport) deliveryId m.now l.db with e | result
  · obtain ⟨htold, hpost⟩ := retry_told hsound.wellFormed hresult
    rw [hpost]
    rcases e with _ | _ | _ | _ | e
    · exact .told (fun _ => by decide) (by decide) (by decide)
        (shows_of_ne fun _ => Body.noConfusion)
    · exact .told (fun _ => by decide) (by decide) (by decide)
        (shows_of_ne fun _ => Body.noConfusion)
    · exact .told (fun _ => by decide) (by decide) (by decide)
        (shows_of_ne fun _ => Body.noConfusion)
    · exact .told (fun _ => by decide) (by decide) (by decide)
        (shows_of_ne fun _ => Body.noConfusion)
    · refine told_raised ?_
      cases e with
      | httpException code => exact absurd rfl (htold code)
      | _ => simp [PyException.statusCode]
  · exact .retried rfl hresult

/-- A request for a scan's details. -/
theorem handled_detail {shown : Option PersistedScan} (hreq : req.changes = false) (db : DB) :
    Handled s m req db (detailReply (.ok shown) db) := by
  have hnot : req.changes = true → ∀ status : ℕ, status ≠ 200 := fun h => by
    rw [hreq] at h
    cases h
  rcases shown with _ | shown
  · exact .told (fun h => hnot h _) (by decide) (by decide) (shows_of_ne fun _ => Body.noConfusion)
  · exact .told (fun h => hnot h _) (by decide) (by decide) (shows_of_ne fun _ => Body.noConfusion)

/-- The dashboard's page. -/
theorem handled_dashboard (hsound : l.Sound) :
    Handled s m .dashboard l.db (dashboardRoute l.db) := by
  obtain ⟨scan, hlatest⟩ := hsound.latest
  obtain ⟨recent, hrecent⟩ := hsound.recent
  unfold dashboardRoute
  rw [hlatest, hrecent]
  exact .told (fun h => Bool.noConfusion h) (by decide) (by decide)
    (shows_of_ne fun _ => Body.noConfusion)

/-- **What a request comes to** in sound tables. -/
theorem handled (hsound : l.Sound) (hm : m.Regular) (headers : Headers) (req : HttpRequest) :
    Handled s m req l.db (handle s m headers req l.db) := by
  unfold handle
  rcases hstopped : stopped? s headers req with _ | e
  · cases req with
    | runScan sourceKey => exact handled_runScan hsound hm
    | latestScan =>
      obtain ⟨shown, hshown⟩ := hsound.latest
      simp only [serve, hshown]
      exact handled_detail rfl l.db
    | getScan scanId =>
      obtain ⟨shown, hshown⟩ := hsound.got scanId
      simp only [serve, hshown]
      exact handled_detail rfl l.db
    | acceptChange changeId baselineVersion => exact handled_acceptChange _ _
    | validatePipeline pipelineKey => exact handled_validate hsound _
    | retryDelivery deliveryId => exact handled_retry hsound _
    | dashboard => exact handled_dashboard hsound
    | scanAction key => exact handled_scanAction hsound hm key
    | acceptAction changeId baselineVersion => exact handled_acceptAction hsound _ _
  · exact told_raised (status_of_stopped hstopped)

end Handled

end SchemaSentry
