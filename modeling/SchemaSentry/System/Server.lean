import SchemaSentry.System.Replies
/-!
# Schema Sentry — the server

Requests, background dispatches, catalog syncs and restarts in whatever
order, each run alone. What the server does to the tables a ledger's
requests do (`Served.follows`), so that its tables are sound in every state
it reaches and its replies say what has been done (`Honest`).
-/

namespace SchemaSentry

open Lib DbM

/-! ## Events -/

/-- The tables of a server and the scans whose dispatch is still to come. -/
structure Served where
  db : DB
  queue : List Uuid

inductive ServerEvent where
  | request (headers : Headers) (req : HttpRequest) (m : Moment)
  | background (scanId : Uuid) (m : Moment)
  | sync (document : Option CatalogConfig)
  | restart

section Server

variable [Hashlib]

/-- What is committed and what waits after an event. A dispatch that waits
in a server that restarts is never made. -/
def ServerEvent.apply (s : ServerSettings) : ServerEvent → Served → Served
  | .request headers req m, w =>
    { db := (handle s m headers req w.db).db
      queue := w.queue ++ (handle s m headers req w.db).queued }
  | .background scanId m, w =>
    if scanId ∈ w.queue then
      { db := postDispatchScan (s.notifications m.transport) scanId m.now w.db
        queue := w.queue.erase scanId }
    else w
  | .sync document, w => { w with db := syncCatalog document w.db }
  | .restart, w => { w with queue := [] }

omit [Hashlib] in
/-- The collectors of an event raise nothing of the service's own. -/
def ServerEvent.Regular : ServerEvent → Prop
  | .request _ _ m => m.Regular
  | _ => True

/-- The states a server reaches from registered sources. -/
def Served.Reachable (s : ServerSettings) (w : Served) : Prop :=
  ∃ start : DB, start.Initial ∧
    Lib.Path (ServerEvent.apply s) (fun _ e => e.Regular) ⟨start, []⟩ w

variable {s : ServerSettings} {m : Moment} {l : Ledger} {w : Served}

/-! ## The ledger behind it -/

/-- What a request comes to a ledger's requests come to. -/
theorem Handled.follows {req : HttpRequest} {a : Answer} (h : Handled s m req l.db a) :
    ∃ l', Lib.Path Request.apply (fun _ r => r.Regular) l l' ∧ l'.db = a.db := by
  cases h with
  | told => exact ⟨l, .refl, rfl⟩
  | @scanned sourceKey =>
    have hregular : (Request.edit (.scan (m.scanRequest s sourceKey))).Regular :=
      ⟨rfl, fun _ _ _ _ => trivial⟩
    exact ⟨_, Lib.Path.refl.tail hregular, rfl⟩
  | @recorded sourceKey =>
    have hregular : (Request.edit (.scan (m.scanRequest s sourceKey))).Regular :=
      ⟨rfl, fun _ _ _ _ => trivial⟩
    have hdispatch : (Request.systemError (s.notifications m.transport) sourceKey m.now).Regular :=
      trivial
    have hscanned : Lib.Path Request.apply (fun _ r => r.Regular) l _ :=
      Lib.Path.refl.tail hregular
    refine ⟨_, hscanned.tail hdispatch, ?_⟩
    simp only [Request.apply, Answer.only, afterFailure]
  | @accepted accept =>
    have hregular : (Request.edit (.accept accept)).Regular := trivial
    exact ⟨_, Lib.Path.refl.tail hregular, rfl⟩
  | @retried deliveryId =>
    have hregular : (Request.retry (s.notifications m.transport) deliveryId m.now).Regular := trivial
    exact ⟨_, Lib.Path.refl.tail hregular, rfl⟩

/-- An event of a server with sound tables is followed by a ledger's. -/
theorem follows_event (hsound : l.Sound) (hdb : l.db = w.db) {e : ServerEvent}
    (he : e.Regular) : ∃ l', Lib.Path Request.apply (fun _ r => r.Regular) l l' ∧
      l'.db = (e.apply s w).db := by
  cases e with
  | request headers req m =>
    have hhandled : Handled s m req l.db (handle s m headers req l.db) := handled hsound he headers req
    obtain ⟨l', hpath, hafter⟩ := hhandled.follows
    rw [hdb] at hafter
    exact ⟨l', hpath, hafter⟩
  | background scanId m =>
    by_cases hqueued : scanId ∈ w.queue
    · have hregular : (Request.dispatch (s.notifications m.transport) scanId m.now).Regular := trivial
      refine ⟨_, Lib.Path.refl.tail hregular, ?_⟩
      simp only [Request.apply, ServerEvent.apply, if_pos hqueued, hdb]
    · refine ⟨l, .refl, ?_⟩
      simp only [ServerEvent.apply, if_neg hqueued, hdb]
  | sync document =>
    have hregular : (Request.edit (.sync document)).Regular := trivial
    refine ⟨_, Lib.Path.refl.tail hregular, ?_⟩
    simp only [Request.apply, ServerEvent.apply, Op.apply, hdb]
  | restart => exact ⟨l, .refl, hdb⟩

/-- **A server's runs are a ledger's**, so far as the tables go. -/
theorem Served.Reachable.follows (h : w.Reachable s) :
    ∃ start l, start.Initial ∧
      Lib.Path Request.apply (fun _ r => r.Regular) ⟨start, []⟩ l ∧ l.Sound ∧
      l.db = w.db := by
  obtain ⟨start, hinit, hpath⟩ := h
  have hstart : (Ledger.mk start []).Sound := sound_of_initial hinit
  obtain ⟨l, hledger, hsound, hdb⟩ := hpath.follow
    (f := Request.apply) (F := fun _ r => r.Regular) (R := fun (w : Served) (l : Ledger) => l.Sound ∧ l.db = w.db) ⟨hstart, rfl⟩
    fun w e l hrel he => by
      obtain ⟨l', hpath', hdb'⟩ := follows_event (s := s) hrel.1 hrel.2 he
      exact ⟨l', hpath', hpath'.invariant hrel.1 fun _ _ hs hr => hs.apply hr, hdb'⟩
  exact ⟨start, l, hinit, hledger, hsound, hdb⟩

/-! ## What replies say -/

omit [Hashlib] in
/-- A scan of a source has been added that completed, its deliveries still
to be attempted. -/
def Completed (sourceKey : String) (scanId : Uuid) (db db' : DB) : Prop :=
  ∃ source scan ds, db.sourceOf? sourceKey = some source ∧ scan.id = scanId ∧
    scan.sourceId = source.id ∧ scan.status = .completed ∧ db'.scanRuns = db.scanRuns ++ [scan] ∧
    db'.alertDeliveries = db.alertDeliveries ++ ds ∧
    ∀ d ∈ ds, d.scanId = scanId ∧ d.status = .pending

omit [Hashlib] in
/-- A scan of a source has been added that failed, with a delivery for each
channel, and nothing else but attempts at deliveries has been made. -/
def FailureKept (sourceKey : String) (channels : List AlertChannel) (db db' : DB) : Prop :=
  ∃ source scan ds, db.sourceOf? sourceKey = some source ∧ scan.sourceId = source.id ∧
    scan.status = .failed ∧ ds.map AlertDeliveryModel.channel = channels ∧
    (∀ d ∈ ds, d.scanId = scan.id) ∧
    DeliveriesAttempted
      { db with
        scanRuns := db.scanRuns ++ [scan]
        alertDeliveries := db.alertDeliveries ++ ds
        nextId := db'.nextId } db'

omit [Hashlib] in
/-- An OPEN change has been accepted and its source's version raised. -/
def ChangeAccepted (req : AcceptRequest) (db db' : DB) : Prop :=
  ∃ change ∈ db.schemaChanges, change.id = req.changeId ∧ change.state = .open ∧
    change.accept req.acceptedAt ∈ db'.schemaChanges ∧
    ∃ source ∈ db.sources, source.id = change.sourceId ∧
      source.baselineVersion = req.baselineVersion ∧
      { source with baselineVersion := source.baselineVersion + 1 } ∈ db'.sources

omit [Hashlib] in
/-- A delivery has been attempted once more, and nothing else done. -/
def DeliveryAttempted (deliveryId : Uuid) (result : DeliveryResult) (db db' : DB) : Prop :=
  ∃ d ∈ db.alertDeliveries, d.id = deliveryId ∧ ∃ d' ∈ db'.alertDeliveries, d'.id = deliveryId ∧
    result.attemptCount = d.attemptCount + 1 ∧ d'.attemptCount = d.attemptCount + 1 ∧
    (result.success = true ↔ d'.status = .sent) ∧
    db' = { db with alertDeliveries := db'.alertDeliveries }

/-- **What a reply says has been done is what has been done.** -/
structure Honest (s : ServerSettings) (m : Moment) (req : HttpRequest) (db : DB) (a : Answer) :
    Prop where
  unchanged : req.changes = false ∨ a.reply.status ∉ [200, 201, 503] → a.db = db ∧ a.queued = []
  completed : ∀ sourceKey, req.source? = some sourceKey → a.reply.status ∈ [200, 201] →
    ∃ scanId, a.queued = [scanId] ∧ Completed sourceKey scanId db a.db
  failed : a.reply.status = 503 → a.queued = [] ∧ ∃ sourceKey, req.source? = some sourceKey ∧
    FailureKept sourceKey (enabledChannels s.alerts) db a.db
  accepted : ∀ accept, req.acceptance? m = some accept → a.reply.status = 200 →
    a.queued = [] ∧ ChangeAccepted accept db a.db
  retried : ∀ deliveryId, req.delivery? = some deliveryId → a.reply.status = 200 →
    a.queued = [] ∧ ∃ result, a.reply.body = .delivery result ∧
      DeliveryAttempted deliveryId result db a.db
  created : a.reply.status = 201 → ∃ response, a.reply.body = .scan response ∧
    a.queued = [response.scanId]
  shown : a.reply.body.Shows a.db
  answered : req.needsOperator = false → a.reply.status ∈ [200, 404]

omit [Hashlib] in
theorem changes_of_source? {req : HttpRequest} {sourceKey : String}
    (h : req.source? = some sourceKey) : req.changes = true ∧ (∀ m, req.acceptance? m = none) ∧
      req.delivery? = none := by
  cases req with
  | runScan | scanAction => exact ⟨rfl, fun _ => rfl, rfl⟩
  | _ => cases h

omit [Hashlib] in
theorem changes_of_acceptance? {req : HttpRequest} {accept : AcceptRequest}
    (h : req.acceptance? m = some accept) : req.changes = true ∧ req.source? = none ∧
      req.delivery? = none := by
  cases req with
  | acceptChange | acceptAction => exact ⟨rfl, rfl, rfl⟩
  | _ => cases h

omit [Hashlib] in
theorem changes_of_delivery? {req : HttpRequest} {deliveryId : Uuid}
    (h : req.delivery? = some deliveryId) : req.changes = true ∧ req.source? = none ∧
      ∀ m, req.acceptance? m = none := by
  cases req with
  | retryDelivery => exact ⟨rfl, rfl, fun _ => rfl⟩
  | _ => cases h

/-- A scan that returns has completed. -/
theorem completed_of_ok {db : DB} (hwf : db.WellFormed) {req : ScanRequest}
    (hf : req.faults = noFaults) {report : ScanReport} (h : scanResult req db = .ok report) :
    Completed req.sourceKey report.scanId db (postScans req db) := by
  have heff := scanEffect hwf hf
  rw [h] at heff
  generalize postScans req db = after at heff
  rcases heff with _ | _ | ⟨hsource, -, -, -, -⟩ | ⟨hsource, -, -, -, hin, -⟩
  · rename_i source observed
    have hadded : ScanAdded req source db (req.baselined source observed db) _ [] id [] :=
      exists_scanAdded_baselined hwf observed
    exact ⟨source, _, [], hsource, rfl, rfl, rfl, hadded.runs, hadded.deliveries,
      fun _ h => (nomatch h)⟩
  · rename_i source observed
    have hadded : ScanAdded req source db
        (req.drifted source (db.baseline source.id) observed db) _ _ _ _ :=
      scanAdded_drifted hwf hin
    refine ⟨source, _, _, hsource, rfl, rfl, rfl, hadded.runs, hadded.deliveries, fun d hd => ?_⟩
    split at hd
    · obtain ⟨i, hi, rfl⟩ := List.mem_mapIdx.1 hd
      exact ⟨rfl, rfl⟩
    · cases hd

/-- A failure recorded and dispatched. -/
theorem failureKept_of_failed {db : DB} (hwf : db.WellFormed) {sourceKey : String}
    {source : DataSourceModel} {e : PyException} (hsource : db.sourceOf? sourceKey = some source)
    (hpost : postScans (m.scanRequest s sourceKey) db =
      (m.scanRequest s sourceKey).failed source e db) :
    FailureKept sourceKey (enabledChannels s.alerts) db (afterFailure s m sourceKey db) := by
  have hwf' : ((m.scanRequest s sourceKey).failed source e db).WellFormed :=
    failed_wellFormed hwf source e
  have hc := hwf'.constraints
  have hattempted : DeliveriesAttempted ((m.scanRequest s sourceKey).failed source e db)
      (afterFailure s m sourceKey db) := by
    unfold afterFailure
    rw [hpost]
    exact deliveriesAttempted_systemError hc sourceKey
  refine ⟨source, (m.scanRequest s sourceKey).failedScan source e db, _, hsource, rfl, rfl,
    channels_pendingDeliveries (db.nextId + 1) db.nextId _, fun d hd => mem_pendingDeliveries hd, ?_⟩
  obtain ⟨f, hf, hattempts, heq⟩ := hattempted
  refine ⟨f, hf, hattempts, ?_⟩
  have hnext : (afterFailure s m sourceKey db).nextId =
      db.nextId + 1 + (enabledChannels s.alerts).length := by
    rw [heq, failed_eq hwf.linked.scanFresh]
    rfl
  rw [hnext]
  rw [heq, failed_eq hwf.linked.scanFresh]
  rfl

/-- An acceptance that returns has accepted. -/
theorem changeAccepted_of_ok {db : DB} (hwf : db.WellFormed) {req : AcceptRequest}
    {result : AcceptanceResult} (h : acceptResult req db = .ok result) :
    ChangeAccepted req db (postAccept req db) := by
  have heff := acceptEffect hwf req
  rw [h] at heff
  generalize postAccept req db = after at heff
  rcases heff with _ | @⟨change, source, dataset, c, rows, hmem, hid, hopen, hrec, hversion, -, -⟩
  rw [accepted_eq]
  refine ⟨change, hmem, hid, hopen, ?_, source, hrec.source_mem, hrec.source_id, hversion, ?_⟩
  · refine List.mem_map.2 ⟨change, hmem, ?_⟩
    rw [closeRow, if_pos rfl]
  · refine List.mem_map.2 ⟨source, hrec.source_mem, ?_⟩
    rw [raiseVersion, if_pos rfl]

/-- A retry that returns has attempted the delivery. -/
theorem deliveryAttempted_of_ok {db : DB} (hwf : db.WellFormed) {env : Notifications}
    {deliveryId : Uuid} {now : Timestamp} {result : DeliveryResult}
    (h : retryResult env deliveryId now db = .ok result) :
    DeliveryAttempted deliveryId result db (postRetry env deliveryId now db) := by
  have hcs : (AlertSession.new.session.pending db).Constraints := hwf.constraints
  rcases exec_attempt env now deliveryId hcs with ⟨handed, hhand, hexec⟩ | ⟨-, e, hexec⟩
  · have hrun : AlertM.exec (retry env deliveryId now) db AlertSession.new =
        (handed.result, AlertSession.new.after handed) := hexec
    obtain ⟨row, context, notifier, hready, rfl⟩ := exists_ready_of_hand? hhand
    have hrow : row ∈ db.alertDeliveries := List.mem_of_find?_eq_some hready.found
    have hid : row.id = deliveryId := delivery?_id hready.found
    unfold retryResult at h
    unfold postRetry
    rw [hrun] at h ⊢
    simp only at h
    rw [h]
    have hafter : retryPublish (Except.ok result, AlertSession.new.after
        (row.hand now env context notifier)) db = db.updateDelivery row.id
          (row.hand now env context notifier).written := rfl
    rw [hafter]
    refine ⟨row, hrow, hid, (row.hand now env context notifier).written row, ?_, ?_, ?_⟩
    · refine List.mem_map.2 ⟨row, hrow, ?_⟩
      rw [if_pos rfl]
    · rw [(Handed.keepsIdentity_written _).id, hid]
    · unfold Handed.result at h
      unfold Handed.written
      simp only [AlertDeliveryModel.hand] at h ⊢
      generalize notifier (buildAlertMessage context env.dashboardBaseUrl) = outcome at h ⊢
      rcases outcome with receipt | text | className
      · simp only at h
        split at h
        · cases h
          exact ⟨rfl, rfl, iff_of_true rfl rfl, rfl⟩
        · cases h
      · cases h
        exact ⟨rfl, rfl, iff_of_false Bool.noConfusion AlertStatus.noConfusion, rfl⟩
      · cases h
  · have hrun : AlertM.exec (retry env deliveryId now) db AlertSession.new =
        (.error e, AlertSession.new) := hexec
    unfold retryResult at h
    rw [hrun] at h
    cases h

/-- The requests that ask for no operator are answered by 200 or 404. -/
theorem answered (hsound : l.Sound) (headers : Headers) {req : HttpRequest}
    (h : req.needsOperator = false) : (handle s m headers req l.db).reply.status ∈ [200, 404] := by
  have hnone : stopped? s headers req = none := by
    unfold stopped?
    rw [h]
    rfl
  unfold handle
  rw [hnone]
  cases req with
  | latestScan =>
    obtain ⟨shown, hshown⟩ := hsound.latest
    simp only [serve, hshown]
    rcases shown with _ | shown
    · exact List.mem_cons_of_mem _ List.mem_cons_self
    · exact List.mem_cons_self
  | getScan scanId =>
    obtain ⟨shown, hshown⟩ := hsound.got scanId
    simp only [serve, hshown]
    rcases shown with _ | shown
    · exact List.mem_cons_of_mem _ List.mem_cons_self
    · exact List.mem_cons_self
  | dashboard =>
    obtain ⟨scan, hlatest⟩ := hsound.latest
    obtain ⟨recent, hrecent⟩ := hsound.recent
    simp only [serve, dashboardRoute, hlatest, hrecent]
    exact List.mem_cons_self
  | _ => cases h

/-- **What a request comes to its reply says.** -/
theorem Handled.honest {req : HttpRequest} {a : Answer} (hwf : l.db.WellFormed)
    (h : Handled s m req l.db a)
    (hanswered : req.needsOperator = false → a.reply.status ∈ [200, 404]) :
    Honest s m req l.db a := by
  cases h with
  | @told status body hchanges hcreated hfailed hshows =>
    have hnot : req.changes = true → status ∉ [200, 201] := fun hreq hmem => by
      simp only [List.mem_cons, List.not_mem_nil, or_false] at hmem
      exact hmem.elim (hchanges hreq) hcreated
    refine ⟨fun _ => ⟨rfl, rfl⟩, fun _ hreq hmem => ?_, fun h => absurd h hfailed,
      fun _ hreq h => ?_, fun _ hreq h => ?_, fun h => absurd h hcreated, hshows, hanswered⟩
    · exact absurd hmem (hnot (changes_of_source? hreq).1)
    · exact absurd h (hchanges (changes_of_acceptance? hreq).1)
    · exact absurd h (hchanges (changes_of_delivery? hreq).1)
  | @scanned sourceKey report body hreq hresult hbody hshows =>
    obtain ⟨hchanges, hacceptance, hdelivery⟩ := changes_of_source? hreq
    have hstatus : (if req.isAction then 200 else 201) ∈ [200, 201, 503] := by
      split <;> simp
    have hcompleted : Completed sourceKey report.scanId l.db _ := completed_of_ok hwf rfl hresult
    generalize postScans (m.scanRequest s sourceKey) l.db = after at hcompleted hshows hanswered ⊢
    refine ⟨fun h => ?_, fun _ hreq' _ => ?_, fun h => ?_, fun _ h _ => ?_, fun _ h _ => ?_,
      fun h => ?_, hshows, hanswered⟩
    · rcases h with h | h
      · rw [hchanges] at h
        cases h
      · exact absurd hstatus h
    · rw [hreq] at hreq'
      cases hreq'
      exact ⟨report.scanId, rfl, hcompleted⟩
    · simp only at h
      split at h
      · cases h
      · cases h
    · rw [hacceptance m] at h
      cases h
    · rw [hdelivery] at h
      cases h
    · simp only at h
      split at h
      · cases h
      · rename_i haction
        exact ⟨_, hbody (eq_false_of_ne_true haction), rfl⟩
  | @recorded sourceKey source e body hreq hsource hpost hshows =>
    obtain ⟨hchanges, hacceptance, hdelivery⟩ := changes_of_source? hreq
    have hkept := failureKept_of_failed hwf hsource hpost
    generalize afterFailure s m sourceKey l.db = after at hkept hshows hanswered ⊢
    refine ⟨fun h => ?_, fun _ _ h => ?_, fun _ => ⟨rfl, sourceKey, hreq, hkept⟩,
      fun _ _ h => ?_, fun _ _ h => ?_, fun h => ?_, hshows, hanswered⟩
    · rcases h with h | h
      · rw [hchanges] at h
        cases h
      · exact absurd (by decide : 503 ∈ [200, 201, 503]) h
    · exact absurd h (by decide : 503 ∉ [200, 201])
    all_goals cases h
  | @accepted accept result body hreq hresult hshows =>
    obtain ⟨hchanges, hsource, hdelivery⟩ := changes_of_acceptance? hreq
    have haccepted := changeAccepted_of_ok hwf hresult
    generalize postAccept accept l.db = after at haccepted hshows hanswered ⊢
    refine ⟨fun h => ?_, fun _ h _ => ?_, fun h => ?_, fun _ hreq' _ => ?_, fun _ h _ => ?_,
      fun h => ?_, hshows, hanswered⟩
    · rcases h with h | h
      · rw [hchanges] at h
        cases h
      · exact absurd (by decide : 200 ∈ [200, 201, 503]) h
    · rw [hsource] at h
      cases h
    · cases h
    · rw [hreq] at hreq'
      cases hreq'
      exact ⟨rfl, haccepted⟩
    · rw [hdelivery] at h
      cases h
    · cases h
  | @retried deliveryId result hreq hresult =>
    obtain ⟨hchanges, hsource, hacceptance⟩ := changes_of_delivery? hreq
    have hattempted := deliveryAttempted_of_ok hwf hresult
    generalize postRetry (s.notifications m.transport) deliveryId m.now l.db = after
      at hattempted hanswered ⊢
    refine ⟨fun h => ?_, fun _ h _ => ?_, fun h => ?_, fun _ h _ => ?_, fun _ hreq' _ => ?_,
      fun h => ?_, shows_of_ne fun _ => Body.noConfusion, hanswered⟩
    · rcases h with h | h
      · rw [hchanges] at h
        cases h
      · exact absurd (by decide : 200 ∈ [200, 201, 503]) h
    · rw [hsource] at h
      cases h
    · cases h
    · rw [hacceptance m] at h
      cases h
    · rw [hreq] at hreq'
      cases hreq'
      exact ⟨rfl, result, rfl, hattempted⟩
    · cases h

/-- **No reply lies**, in whatever state the server is. -/
theorem replies_honest (hreach : w.Reachable s) (hm : m.Regular) (headers : Headers)
    (req : HttpRequest) : Honest s m req w.db (handle s m headers req w.db) := by
  obtain ⟨-, l, -, -, hsound, hdb⟩ := hreach.follows
  have hhonest : Honest s m req l.db (handle s m headers req l.db) :=
    (handled hsound hm headers req).honest hsound.wellFormed (answered hsound headers)
  rwa [hdb] at hhonest

end Server

section Sample

attribute [local instance] Hashlib.plain

/-- A server in production that sends email. -/
def sampleServer : ServerSettings :=
  { environment := .production, apiKey := "s3cret", trustProxyAuth := true
    alerts := { emailTo := ["ops"] }, dashboardBaseUrl := "https://sentry.example/"
    authProtected := by decide }

/-- A network that takes whatever it is given. -/
def sampleNetwork : Transport :=
  { post := fun _ _ => .answered none, sendMail := fun _ _ _ => .sent [], messageId := "<1@crm>" }

/-- A source that cannot be reached. -/
def sampleMoment : Moment :=
  { collected := .error (.osError "ConnectionRefusedError"), startedAt := 1, now := 2
    transport := sampleNetwork }

/-- A moment at which the collector finds some columns. -/
def sampleFound (observed : List ColumnDefinition) : Moment :=
  { collected := .ok observed, transport := sampleNetwork }

def sampleHeaders : Headers := { apiKey := some "s3cret" }

theorem sampleMoment_regular : sampleMoment.Regular := by
  intro e he
  cases he
  rfl

theorem replies_honest_sample : Honest sampleServer sampleMoment (.runScan "crm") sampleStart
    (handle sampleServer sampleMoment sampleHeaders (.runScan "crm") sampleStart) := by
  have hreach : Served.Reachable sampleServer ⟨sampleStart, []⟩ := ⟨_, sampleStart_initial, .refl⟩
  have h := replies_honest hreach sampleMoment_regular sampleHeaders (.runScan "crm")
  exact h

end Sample

end SchemaSentry
