import SchemaSentry.System.Orderly
/-!
# Schema Sentry — no alert is stuck

On a network that answers and with a clock that moves, a server that does
not restart has every PENDING delivery's scan waiting for its dispatch
(`Attended`), so that none is PENDING once what waits has been dispatched, in
whatever order and whatever else is asked of the server meanwhile.
-/

namespace SchemaSentry

open Lib DbM

/-! ## Attended servers -/

section Attended

variable [Hashlib]
variable {s : ServerSettings} {w : Served} {m : Moment} {l : Ledger}

/-- The events of a server that does not restart, on a network that answers
and with a clock that moves. -/
def ServerEvent.Prompt (s : ServerSettings) : ServerEvent → Served → Prop
  | .request _ req m, w => m.Regular ∧ m.transport.Answers s.smtp s.alerts ∧
      ∀ sourceKey, req.source? = some sourceKey →
        ∀ scan ∈ w.db.scanRuns, scan.startedAt < m.startedAt
  | .background _ m, _ => m.transport.Answers s.smtp s.alerts
  | .sync _, _ => True
  | .restart, _ => False

/-- Every PENDING delivery's scan waits for its dispatch. -/
structure Attended (s : ServerSettings) (w : Served) : Prop where
  sound : w.Sound
  orderly : Orderly s w.db
  queued : ∀ d ∈ w.db.alertDeliveries, d.status = .pending → d.scanId ∈ w.queue

omit [Hashlib] in
theorem ServerEvent.Prompt.regular {e : ServerEvent} (h : e.Prompt s w) : e.Regular := by
  rcases e with _ | _ | _ | _
  · exact h.1
  · trivial
  · trivial
  · exact h.elim

omit [Hashlib] in
/-- What is PENDING after attempts was so before, and none of theirs. -/
theorem Delivered.pending {db db' : DB} {env : Notifications} {now : Timestamp} {hs : List Handed}
    (h : Delivered env now db db' hs) {d : AlertDeliveryModel} (hd : d ∈ db'.alertDeliveries)
    (hpending : d.status = .pending) : d ∈ db.alertDeliveries ∧ ∀ h ∈ hs, h.deliveryId ≠ d.id := by
  obtain ⟨d', hd', ⟨rfl, hnone⟩ | ⟨handed, hh, -, rfl⟩⟩ := h.rows d hd
  · exact ⟨hd', hnone⟩
  · exact absurd hpending (handed.status_written (h.each handed hh).2 d')

/-- **A dispatch leaves none of its scan's deliveries PENDING.** -/
theorem dispatch_settles {transport : Transport} {now : Timestamp} (hsound : l.Sound)
    (horderly : Orderly s l.db) (hanswers : transport.Answers s.smtp s.alerts) {scanId : Uuid}
    {d : AlertDeliveryModel}
    (hd : d ∈ (postDispatchScan (s.notifications transport) scanId now l.db).alertDeliveries)
    (hpending : d.status = .pending) : d ∈ l.db.alertDeliveries ∧ d.scanId ≠ scanId := by
  obtain ⟨hs, hdelivered, hall⟩ : ∃ hs, Delivered (s.notifications transport) now l.db _ hs ∧ _ :=
    delivered_dispatch hsound.wellFormed.constraints horderly.keys scanId
  obtain ⟨hmem, hnone⟩ := hdelivered.pending hd hpending
  refine ⟨hmem, fun hscan => ?_⟩
  have hpasses : ∀ id ∈ l.db.dispatchable scanId, l.db.Passes (s.notifications transport) now id := by
    intro id hid
    obtain ⟨d', hd', rfl, -, hpending'⟩ := mem_dispatchable.1 hid
    obtain ⟨hleft, hdue⟩ : d'.attemptCount < maxAttempts ∧ ∀ t ∈ d'.nextRetryAt, t ≤ now :=
      horderly.pending hd' hpending'
    exact horderly.passes hsound hanswers hd' hleft hdue
  obtain ⟨h, hh, hid⟩ := hall hpasses d.id (mem_dispatchable.2 ⟨d, hmem, rfl, hscan, hpending⟩)
  exact hnone h hh hid

/-- A failure recorded and dispatched leaves none of its deliveries
PENDING. -/
theorem failure_settles {sourceKey : String} {source : DataSourceModel} {e : PyException}
    (hsound : l.Sound) (horderly : Orderly s l.db)
    (hanswers : m.transport.Answers s.smtp s.alerts)
    (hlater : ∀ scan ∈ l.db.scanRuns, scan.startedAt < m.startedAt)
    (hsource : l.db.sourceOf? sourceKey = some source)
    (hpost : postScans (m.scanRequest s sourceKey) l.db =
      (m.scanRequest s sourceKey).failed source e l.db) {d : AlertDeliveryModel}
    (hd : d ∈ (afterFailure s m sourceKey l.db).alertDeliveries) (hpending : d.status = .pending) :
    d ∈ l.db.alertDeliveries := by
  have hfresh := hsound.wellFormed.linked.scanFresh
  have hfiled : Filed (enabledChannels s.alerts)
      ((m.scanRequest s sourceKey).failedScan source e l.db) l.db
      ((m.scanRequest s sourceKey).failed source e l.db) :=
    @filed_failed l.db (m.scanRequest s sourceKey) hfresh source e
  have hregular : (Request.edit (.scan (m.scanRequest s sourceKey))).Regular :=
    ⟨rfl, fun _ _ _ _ => trivial⟩
  have hscanned := hsound.apply hregular
  have hdb : (Request.apply (.edit (.scan (m.scanRequest s sourceKey))) l).db =
      (m.scanRequest s sourceKey).failed source e l.db := hpost
  generalize Request.apply (.edit (.scan (m.scanRequest s sourceKey))) l = l' at hscanned hdb
  have horderly' : Orderly s l'.db := by
    rw [hdb]
    exact horderly.filed hfiled
  -- the scan just recorded is the FAILED one that began last
  have hlatest : l'.db.latestFailedScanId sourceKey =
      some ((m.scanRequest s sourceKey).failedScan source e l.db).id := by
    have hlinked := hscanned.wellFormed.linked
    have hkeys := hscanned.wellFormed.constraints.sourceKey
    have hsource' : l'.db.sourceOf? sourceKey = some source := by
      rw [DB.sourceOf?, hdb, hfiled.sources]
      exact hsource
    refine latestFailedScanId_eq hlinked.scanIds hkeys hsource' ?_ rfl rfl ?_
    · rw [hdb, hfiled.runs]
      exact List.mem_append_right _ List.mem_cons_self
    · intro other hother _ _ hne
      rw [hdb, hfiled.runs] at hother
      rcases List.mem_append.1 hother with hold | hnew
      · exact hlater other hold
      · exact absurd (congrArg ScanRunModel.id (List.mem_singleton.1 hnew)) hne
  have hafter : afterFailure s m sourceKey l.db = postDispatchScan (s.notifications m.transport)
      ((m.scanRequest s sourceKey).failedScan source e l.db).id m.now l'.db := by
    unfold afterFailure
    rw [hpost, ← hdb]
    exact (systemError_eq_dispatch hscanned.wellFormed.constraints hlatest).2
  rw [hafter] at hd
  obtain ⟨hmem, hne⟩ := dispatch_settles hscanned horderly' hanswers hd hpending
  obtain ⟨n, cs, -, -, hdeliveries, -⟩ := hfiled.deliveries
  rw [hdb, hdeliveries] at hmem
  rcases List.mem_append.1 hmem with hold | hnew
  · exact hold
  · exact absurd (mem_pendingDeliveries hnew) hne

/-- What is PENDING after a request waits for its scan's dispatch. -/
theorem Attended.handled {req : HttpRequest} {a : Answer} {queue : List Uuid} (hsound : l.Sound)
    (horderly : Orderly s l.db)
    (hqueued : ∀ d ∈ l.db.alertDeliveries, d.status = .pending → d.scanId ∈ queue)
    (hanswers : m.transport.Answers s.smtp s.alerts)
    (hlater : ∀ sourceKey, req.source? = some sourceKey →
      ∀ scan ∈ l.db.scanRuns, scan.startedAt < m.startedAt)
    (h : Handled s m req l.db a) {d : AlertDeliveryModel} (hd : d ∈ a.db.alertDeliveries)
    (hpending : d.status = .pending) : d.scanId ∈ queue ++ a.queued := by
  have hwf := hsound.wellFormed
  have hold : d ∈ l.db.alertDeliveries → d.scanId ∈ queue ++ a.queued :=
    fun hd => List.mem_append_left _ (hqueued d hd hpending)
  cases h with
  | told => exact hold hd
  | @scanned sourceKey report body hreq hresult =>
    obtain ⟨scan, hid, hfiled⟩ := filed_of_ok hwf rfl hresult
    obtain ⟨n, cs, -, -, hdeliveries, -⟩ := hfiled.deliveries
    simp only at hd
    rw [hdeliveries] at hd
    rcases List.mem_append.1 hd with hd | hnew
    · exact hold hd
    · rw [mem_pendingDeliveries hnew, hid]
      exact List.mem_append_right _ List.mem_cons_self
  | @recorded sourceKey source e body hreq hsource hpost =>
    exact hold (failure_settles hsound horderly hanswers (hlater sourceKey hreq) hsource hpost hd
      hpending)
  | @accepted accept result body =>
    have heff := acceptEffect hwf accept
    generalize acceptResult accept l.db = outcome at heff
    generalize postAccept accept l.db = after at heff hd
    rcases heff with _ | _
    · exact hold hd
    · exact hold hd
  | @retried deliveryId result =>
    obtain ⟨hs, hdelivered⟩ : ∃ hs, Delivered (s.notifications m.transport) m.now l.db _ hs :=
      delivered_retry hwf.constraints deliveryId
    exact hold (hdelivered.pending hd hpending).1

/-- **Each event keeps a server so.** -/
theorem Attended.apply (h : Attended s w) {e : ServerEvent} (he : e.Prompt s w) :
    Attended s (e.apply s w) := by
  refine ⟨h.sound.apply he.regular, h.orderly.apply h.sound he.regular, fun d hd hpending => ?_⟩
  obtain ⟨⟨l, hsound, hdb⟩, horderly, hqueued⟩ := h
  obtain ⟨db, queue⟩ := w
  cases hdb
  cases e with
  | request headers req m =>
    obtain ⟨hm, hanswers, hlater⟩ := he
    exact Attended.handled hsound horderly hqueued hanswers hlater
      (SchemaSentry.handled hsound hm headers req) hd hpending
  | background scanId m =>
    by_cases hmem : scanId ∈ queue
    · have hstep : (ServerEvent.background scanId m).apply s ⟨l.db, queue⟩ =
          { db := postDispatchScan (s.notifications m.transport) scanId m.now l.db
            queue := queue.erase scanId } := if_pos hmem
      rw [hstep] at hd ⊢
      obtain ⟨hold, hne⟩ := dispatch_settles hsound horderly he hd hpending
      exact (List.mem_erase_of_ne hne).2 (hqueued d hold hpending)
    · have hstep : (ServerEvent.background scanId m).apply s ⟨l.db, queue⟩ = ⟨l.db, queue⟩ :=
        if_neg hmem
      rw [hstep] at hd ⊢
      exact hqueued d hd hpending
  | sync document =>
    -- a synchronization writes neither deliveries nor scans
    rcases syncCatalog_cases document l.db with heq | ⟨pipelines, edges, next, -, heq, -, -⟩
    · simp only [ServerEvent.apply, heq] at hd ⊢
      exact hqueued d hd hpending
    · simp only [ServerEvent.apply, heq] at hd ⊢
      exact hqueued d hd hpending
  | restart => exact he.elim

/-- **What waits may be dispatched in any order**, and then nothing waits. -/
theorem Attended.drained {order : List (Uuid × Moment)} (h : Attended s w)
    (hperm : (order.map Prod.fst).Perm w.queue)
    (hanswers : ∀ turn ∈ order, turn.2.transport.Answers s.smtp s.alerts) :
    Attended s (order.foldl (fun w turn => (ServerEvent.background turn.1 turn.2).apply s w) w) ∧
      (order.foldl (fun w turn =>
        (ServerEvent.background turn.1 turn.2).apply s w) w).queue = [] := by
  induction order generalizing w with
  | nil => exact ⟨h, hperm.nil_eq.symm⟩
  | cons turn rest ih =>
    obtain ⟨hmem, hrest⟩ := List.cons_perm_iff_perm_erase.1 hperm
    have hstep : ((ServerEvent.background turn.1 turn.2).apply s w).queue = w.queue.erase turn.1 := by
      simp only [ServerEvent.apply, if_pos hmem]
    have hattended : Attended s ((ServerEvent.background turn.1 turn.2).apply s w) :=
      h.apply (hanswers turn List.mem_cons_self)
    refine ih hattended ?_ fun turn' hturn => hanswers turn' (List.mem_cons_of_mem _ hturn)
    rw [hstep]
    exact hrest

/-- **No alert is stuck.** Whatever a server that does not restart has been
asked, each delivery is PENDING only while its scan's dispatch waits, and
otherwise has been attempted, and no row says more of a failure than the
notifiers' texts; so once nothing waits, each has been attempted. -/
theorem no_alert_stuck {start : DB} (hinit : start.Initial)
    (hlines : ∀ source ∈ start.sources, severalLines source.key.toList = false)
    (hpath : Lib.Path (ServerEvent.apply s) (fun w e => e.Prompt s w) ⟨start, []⟩ w) :
    (∀ d ∈ w.db.alertDeliveries,
      (d.status = .pending ∧ d.attemptCount = 0 ∧ d.scanId ∈ w.queue ∨
        d.status ≠ .pending ∧ 1 ≤ d.attemptCount) ∧
      ∀ text ∈ d.lastError, text ∈ deliveryFailures) ∧
    ∀ order : List (Uuid × Moment), (order.map Prod.fst).Perm w.queue →
      (∀ turn ∈ order, turn.2.transport.Answers s.smtp s.alerts) →
      ∀ d ∈ (order.foldl (fun w turn =>
        (ServerEvent.background turn.1 turn.2).apply s w) w).db.alertDeliveries,
        d.status ≠ .pending ∧ 1 ≤ d.attemptCount := by
  have hstart : Attended s ⟨start, []⟩ := by
    refine ⟨⟨_, sound_of_initial hinit, rfl⟩, hinit.orderly hlines, fun d hd => ?_⟩
    have hnone : start.alertDeliveries = [] := by
      rw [hinit.rest]
    rw [hnone] at hd
    cases hd
  have hattended : Attended s w := hpath.invariant hstart fun _ _ hs he => hs.apply he
  refine ⟨fun d hd => ⟨?_, hattended.orderly.reported d hd⟩, fun order hperm hanswers => ?_⟩
  · rcases hattended.orderly.settled d hd with ⟨hpending, hcount, -⟩ | hattempted
    · exact Or.inl ⟨hpending, hcount, hattended.queued d hd hpending⟩
    · exact Or.inr hattempted
  · obtain ⟨hafter, hempty⟩ := hattended.drained hperm hanswers
    intro d hd
    rcases hafter.orderly.settled d hd with ⟨hpending, -, -⟩ | hattempted
    · have hwaits := hafter.queued d hd hpending
      rw [hempty] at hwaits
      cases hwaits
    · exact hattempted

end Attended

section Sample

attribute [local instance] Hashlib.plain

/-- The requests for a first scan, and for one that misses a column. -/
def sampleFirst : ServerEvent :=
  .request sampleHeaders (.runScan "crm") (sampleFound
    [sampleColumn "users" "id" "integer" false, sampleColumn "mart" "id" "integer" false])

def sampleSecond : ServerEvent :=
  .request sampleHeaders (.runScan "crm")
    { sampleFound [sampleColumn "mart" "id" "integer" false] with startedAt := 1 }

/-- A server whose second scan's alert waits for its dispatch. -/
def sampleWaiting : Served :=
  sampleSecond.apply sampleServer (sampleFirst.apply sampleServer ⟨sampleStart, []⟩)

theorem sampleWaiting_path : Lib.Path (ServerEvent.apply sampleServer)
    (fun w e => e.Prompt sampleServer w) ⟨sampleStart, []⟩ sampleWaiting := by
  have hfirst : sampleFirst.Prompt sampleServer ⟨sampleStart, []⟩ :=
    ⟨fun _ h => (nomatch h), sampleNetwork_answers, fun _ _ _ h => (nomatch h)⟩
  have hlater : ∀ scan ∈ (sampleFirst.apply sampleServer ⟨sampleStart, []⟩).db.scanRuns,
      scan.startedAt < 1 := by decide +kernel
  have hsecond : sampleSecond.Prompt sampleServer (sampleFirst.apply sampleServer ⟨sampleStart, []⟩) :=
    ⟨fun _ h => (nomatch h), sampleNetwork_answers, fun _ _ => hlater⟩
  have hpath : Lib.Path (ServerEvent.apply sampleServer) (fun w e => e.Prompt sampleServer w)
      ⟨sampleStart, []⟩ (sampleFirst.apply sampleServer ⟨sampleStart, []⟩) :=
    Lib.Path.refl.tail hfirst
  exact hpath.tail hsecond

/-- The second scan's dispatch, and then the first's. -/
def sampleTurns : List (Uuid × Moment) := [(4, sampleMoment), (1, sampleMoment)]

/-- In the sample an alert waits, and is attempted once what waits has been
dispatched. -/
theorem no_alert_stuck_sample :
    (∃ d ∈ sampleWaiting.db.alertDeliveries, d.status = .pending ∧ d.scanId = 4) ∧
    ∀ d ∈ (sampleTurns.foldl (fun w turn =>
      (ServerEvent.background turn.1 turn.2).apply sampleServer w) sampleWaiting).db.alertDeliveries,
      d.status ≠ .pending ∧ 1 ≤ d.attemptCount := by
  have hqueue : sampleWaiting.queue = [1, 4] := by decide +kernel
  have hpending : ∃ d ∈ sampleWaiting.db.alertDeliveries, d.status = .pending ∧ d.scanId = 4 := by
    decide +kernel
  obtain ⟨-, hdrained⟩ := no_alert_stuck sampleStart_initial sampleStart_lines sampleWaiting_path
  refine ⟨hpending, hdrained sampleTurns ?_ fun turn hturn => ?_⟩
  · rw [hqueue]
    exact List.Perm.swap 1 4 []
  · simp only [sampleTurns, List.mem_cons, List.not_mem_nil, or_false] at hturn
    rcases hturn with rfl | rfl
    · exact sampleNetwork_answers
    · exact sampleNetwork_answers

end Sample

end SchemaSentry
