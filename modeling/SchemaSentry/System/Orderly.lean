import SchemaSentry.System.Access
import SchemaSentry.System.SystemErrors
/-!
# Schema Sentry — deliveries in order

What a dispatch and a retry write of the deliveries (`Delivered`), what a
scan files (`Filed`), and what holds of the deliveries in every state a
server reaches (`Orderly`), whatever the network does and however often the
server restarts. A retry's answer is read off the delivery's row
(`retry_answered`).
-/

namespace SchemaSentry

open Lib DbM

/-! ## What is written of deliveries -/

section Delivered

variable {db db' : DB} {env : Notifications} {now : Timestamp}

/-- The tables with the outcomes of messages written, one for each of some
deliveries. -/
structure Delivered (env : Notifications) (now : Timestamp) (db db' : DB) (hs : List Handed) :
    Prop where
  each : ∀ h ∈ hs, db.hand? env now h.deliveryId = some h ∧ h.outcome.Writable
  only : DeliveriesOnly db db'
  rows : ∀ d' ∈ db'.alertDeliveries, ∃ d ∈ db.alertDeliveries,
    (d' = d ∧ ∀ h ∈ hs, h.deliveryId ≠ d.id) ∨ ∃ h ∈ hs, h.deliveryId = d.id ∧ d' = h.written d

theorem delivered_nil (db : DB) : Delivered env now db db [] :=
  ⟨fun _ h => (nomatch h), deliveriesOnly_refl db,
    fun d hd => ⟨d, hd, Or.inl ⟨rfl, fun _ h => (nomatch h)⟩⟩⟩

/-- Where each row of a session that has written messages comes from. -/
theorem rows_afterAll {a : AlertSession} {hs : List Handed}
    (hnodup : (hs.map Handed.deliveryId).Nodup) {d' : AlertDeliveryModel}
    (hd' : d' ∈ ((a.afterAll hs).session.pending db).alertDeliveries) :
    ∃ d ∈ (a.session.pending db).alertDeliveries,
      (d' = d ∧ ∀ h ∈ hs, h.deliveryId ≠ d.id) ∨
        ∃ h ∈ hs, h.deliveryId = d.id ∧ d' = h.written d := by
  induction hs generalizing a with
  | nil => exact ⟨d', hd', Or.inl ⟨rfl, fun _ h => (nomatch h)⟩⟩
  | cons h rest ih =>
    obtain ⟨hnew, hrest⟩ := List.nodup_cons.1 hnodup
    obtain ⟨x, hx, hcase⟩ := ih (a := a.after h) hrest hd'
    have hx' : x ∈ ((a.session.pending db).updateDelivery h.deliveryId h.written).alertDeliveries :=
      hx
    obtain ⟨d, hd, hdx⟩ := List.mem_map.1 hx'
    refine ⟨d, hd, ?_⟩
    by_cases hid : d.id = h.deliveryId
    · -- no other message is this delivery's
      rw [if_pos hid] at hdx
      subst hdx
      rcases hcase with ⟨heq, -⟩ | ⟨h', hmem, hid', -⟩
      · exact Or.inr ⟨h, List.mem_cons_self, hid.symm, heq⟩
      · rw [h.keepsIdentity_written.id, hid] at hid'
        exact absurd (List.mem_map.2 ⟨h', hmem, hid'⟩) hnew
    · rw [if_neg hid] at hdx
      subst hdx
      rcases hcase with ⟨heq, hnone⟩ | ⟨h', hmem, hid', heq⟩
      · refine Or.inl ⟨heq, fun y hy => ?_⟩
        rcases List.mem_cons.1 hy with rfl | hy
        · exact fun h => hid h.symm
        · exact hnone y hy
      · exact Or.inr ⟨h', List.mem_cons_of_mem _ hmem, hid', heq⟩

theorem delivered_afterAll {hs : List Handed} (hnodup : (hs.map Handed.deliveryId).Nodup)
    (heach : ∀ h ∈ hs, db.hand? env now h.deliveryId = some h ∧ h.outcome.Writable) :
    Delivered env now db ((AlertSession.new.afterAll hs).session.pending db) hs :=
  ⟨heach, deliveriesOnly_afterAll hs, fun _ hd => rows_afterAll hnodup hd⟩

/-- **A dispatch writes the outcome of each listed delivery's message**, or
one of them does not pass and nothing is written. -/
theorem delivered_dispatch (hc : db.Constraints) (hkeys : db.DeliveryKeys) (scanId : Uuid) :
    ∃ hs, Delivered env now db (postDispatchScan env scanId now db) hs ∧
      ((∀ id ∈ db.dispatchable scanId, db.Passes env now id) →
        ∀ id ∈ db.dispatchable scanId, ∃ h ∈ hs, h.deliveryId = id) := by
  have hnodup : (db.dispatchable scanId).Nodup := nodup_dispatchable hkeys.nodup
  rcases dispatch_cases env scanId now hc hnodup with ⟨hall, -, hpost⟩ |
    ⟨before, id, after, hsplit, -, hstop, hpost, -⟩
  · rw [hpost]
    refine ⟨_, delivered_afterAll (nodup_hands hnodup) fun h hh => ?_, fun _ id hid => ?_⟩
    · obtain ⟨hmem, hhand⟩ := deliveryIds_hands h hh
      obtain ⟨h', hhand', hw⟩ := hall h.deliveryId hmem
      obtain rfl : h = h' := Option.some.inj (hhand.symm.trans hhand')
      exact ⟨hhand, hw⟩
    · obtain ⟨h, hhand, -⟩ := hall id hid
      exact ⟨h, List.mem_filterMap.2 ⟨id, hid, hhand⟩, deliveryId_of_hand? hhand⟩
  · rw [hpost]
    refine ⟨[], delivered_nil db, fun hall => absurd (hall id ?_) hstop⟩
    rw [hsplit]
    exact List.mem_append_right _ List.mem_cons_self

/-- A retry writes the outcome of its delivery's message, or nothing. -/
theorem delivered_retry (hc : db.Constraints) (deliveryId : Uuid) :
    ∃ hs, Delivered env now db (postRetry env deliveryId now db) hs := by
  have hcs : (AlertSession.new.session.pending db).Constraints := hc
  unfold postRetry retry
  rcases exec_attempt env now deliveryId hcs with ⟨handed, hhand, hexec⟩ | ⟨-, e, hexec⟩
  · rw [hexec]
    have hhand' : db.hand? env now handed.deliveryId = some handed := by
      rw [deliveryId_of_hand? hhand]
      exact hhand
    rcases hresult : handed.result with e | r
    · rcases result_error hresult with rfl | ⟨className, rfl⟩
      · exact ⟨[], delivered_nil db⟩
      · exact ⟨[], delivered_nil db⟩
    · have hw : handed.outcome.Writable := Handed.exists_result_ok_iff.1 ⟨r, hresult⟩
      have hone : ([handed].map Handed.deliveryId).Nodup := List.nodup_singleton _
      refine ⟨[handed], delivered_afterAll hone fun h hh => ?_⟩
      rw [List.mem_singleton.1 hh]
      exact ⟨hhand', hw⟩
  · rw [hexec]
    have hsame : retryPublish
        ((.error e : Except AlertException DeliveryResult), AlertSession.new) db = db := by
      unfold retryPublish
      simp only
      split
      · rfl
      · rfl
    rw [hsame]
    exact ⟨[], delivered_nil db⟩

end Delivered

/-! ## What a scan files -/

section Filed

variable [Hashlib]
variable {db db' : DB} {req : ScanRequest} {scan : ScanRunModel} {channels : List AlertChannel}

omit [Hashlib] in
/-- A scan's row has been added, with new deliveries through some of the
channels. -/
structure Filed (channels : List AlertChannel) (scan : ScanRunModel) (db db' : DB) : Prop where
  runs : db'.scanRuns = db.scanRuns ++ [scan]
  sources : db'.sources = db.sources
  deliveries : ∃ n cs, cs ⊆ channels ∧ db.nextId ≤ n ∧
    db'.alertDeliveries = db.alertDeliveries ++ pendingDeliveries n scan.id cs ∧
    n + cs.length ≤ db'.nextId

omit [Hashlib] in
theorem filed_failed (hfresh : db.FreshScans) (source : DataSourceModel) (e : PyException) :
    Filed (enabledChannels req.settings) (req.failedScan source e db) db
      (req.failed source e db) := by
  rw [failed_eq hfresh]
  exact ⟨rfl, rfl, _, _, fun _ h => h, Nat.le_succ _, rfl, Nat.le_refl _⟩

/-- A scan that returns has filed its row. -/
theorem filed_of_ok (hwf : db.WellFormed) (hf : req.faults = noFaults) {report : ScanReport}
    (h : scanResult req db = .ok report) :
    ∃ scan, scan.id = report.scanId ∧
      Filed (enabledChannels req.settings) scan db (postScans req db) := by
  have heff := scanEffect hwf hf
  rw [h] at heff
  generalize postScans req db = after at heff
  rcases heff with _ | _ | ⟨-, -, -, -, -⟩ | ⟨-, -, -, -, -, -⟩
  · rename_i source observed
    obtain ⟨next, added, rows, hrows, heq⟩ := baselined_eq hwf req source observed
    have hnext : db.nextId + 1 ≤ next := hrows.next_le
    rw [heq]
    refine ⟨req.completedScan source db, rfl, rfl, rfl, db.nextId, [], fun _ h => (nomatch h),
      Nat.le_refl _, (List.append_nil _).symm, ?_⟩
    exact (Nat.le_succ _).trans hnext
  · rename_i source observed
    rw [drifted_eq hwf]
    refine ⟨req.completedScan source db, rfl, rfl, rfl, ?_⟩
    by_cases hopens : db.opensAlertable source (db.baseline source.id) observed = true
    · simp only [hopens, if_true]
      exact ⟨_, _, fun _ h => h, (Nat.le_succ _).trans (Nat.le_add_right _ _), rfl, Nat.le_refl _⟩
    · simp only [hopens]
      exact ⟨_, [], fun _ h => (nomatch h), (Nat.le_succ _).trans (Nat.le_add_right _ _), rfl,
        Nat.le_refl _⟩

end Filed

/-! ## Deliveries in order -/

section Orderly

variable {db db' : DB} {s : ServerSettings} {transport : Transport} {now : Timestamp}

/-- Deliveries in order: they have keys of their own, each a scan and a
channel configured, each is untried or has been attempted, and what a row
says of a failure is one of the notifiers' texts. -/
structure Orderly (s : ServerSettings) (db : DB) : Prop where
  keys : db.DeliveryKeys
  settled : ∀ d ∈ db.alertDeliveries, d.Settled
  owned : ∀ d ∈ db.alertDeliveries, ∃ scan ∈ db.scanRuns, scan.id = d.scanId
  configured : ∀ d ∈ db.alertDeliveries, d.channel ∈ enabledChannels s.alerts
  reported : ∀ d ∈ db.alertDeliveries, ∀ text ∈ d.lastError, text ∈ deliveryFailures
  lines : ∀ source ∈ db.sources, severalLines source.key.toList = false

theorem DB.Initial.orderly (h : db.Initial)
    (hlines : ∀ source ∈ db.sources, severalLines source.key.toList = false) : Orderly s db := by
  have hnone : db.alertDeliveries = [] := by
    rw [h.rest]
  refine ⟨⟨?_, ?_⟩, ?_, ?_, ?_, ?_, hlines⟩
  all_goals
    rw [hnone]
    simp

/-- A scan's deliveries keep them in order. -/
theorem Orderly.filed (h : Orderly s db) {scan : ScanRunModel}
    (hfiled : Filed (enabledChannels s.alerts) scan db db') : Orderly s db' := by
  obtain ⟨hruns, hsources, n, cs, hcs, hn, hdeliveries, hle⟩ := hfiled
  have hnext : db.nextId ≤ db'.nextId := hn.trans ((Nat.le_add_right _ _).trans hle)
  have hnew : ∀ d ∈ pendingDeliveries n scan.id cs, n ≤ d.id ∧ d.id < n + cs.length := by
    intro d hd
    have hid := List.mem_map_of_mem (f := AlertDeliveryModel.id) hd
    rw [map_id_pendingDeliveries, List.mem_range'_1] at hid
    exact hid
  have hmem : ∀ d ∈ db'.alertDeliveries, d ∈ db.alertDeliveries ∨
      d ∈ pendingDeliveries n scan.id cs := by
    intro d hd
    rw [hdeliveries] at hd
    exact List.mem_append.1 hd
  refine ⟨⟨?_, fun d hd => ?_⟩, fun d hd => ?_, fun d hd => ?_, fun d hd => ?_, fun d hd => ?_, ?_⟩
  · rw [hdeliveries]
    refine nodup_map_append h.keys.nodup ?_ h.keys.fresh fun d hd => hn.trans (hnew d hd).1
    rw [map_id_pendingDeliveries]
    exact List.nodup_range'
  · rcases hmem d hd with hd | hd
    · exact (h.keys.fresh d hd).trans_le hnext
    · exact (hnew d hd).2.trans_le hle
  · rcases hmem d hd with hd | hd
    · exact h.settled d hd
    · exact Or.inl (untried_of_mem_pendingDeliveries hd)
  · rw [hruns]
    rcases hmem d hd with hd | hd
    · obtain ⟨run, hrun, hid⟩ := h.owned d hd
      exact ⟨run, List.mem_append_left _ hrun, hid⟩
    · exact ⟨scan, List.mem_append_right _ List.mem_cons_self, (mem_pendingDeliveries hd).symm⟩
  · rcases hmem d hd with hd | hd
    · exact h.configured d hd
    · obtain ⟨i, hi, rfl⟩ := List.mem_mapIdx.1 hd
      exact hcs (List.getElem_mem hi)
  · rcases hmem d hd with hd | hd
    · exact h.reported d hd
    · obtain ⟨i, hi, rfl⟩ := List.mem_mapIdx.1 hd
      exact fun text htext => (nomatch htext)
  · rw [hsources]
    exact h.lines

/-- What an attempt writes of a failure is one of the notifiers' texts. -/
theorem lastError_written {h : Handed} {id : Uuid} (hw : h.outcome.Writable)
    (hhand : db.hand? (s.notifications transport) now id = some h) (d : AlertDeliveryModel) :
    ∀ text ∈ (h.written d).lastError, text ∈ deliveryFailures := by
  obtain ⟨row, context, notifier, hready, rfl⟩ := exists_ready_of_hand? hhand
  intro text htext
  unfold Handed.written at htext
  rcases hout : (row.hand now (s.notifications transport) context notifier).outcome with
    receipt | error | className
  · rw [hout] at htext
    cases htext
  · rw [hout] at htext
    cases htext
    exact mem_deliveryFailures hready.configured hout
  · rw [hout] at hw
    exact hw.elim

/-- Attempts keep them in order. -/
theorem Orderly.delivered (h : Orderly s db) {hs : List Handed}
    (hd : Delivered (s.notifications transport) now db db' hs) : Orderly s db' := by
  obtain ⟨f, hf, heq⟩ := hd.only
  have hmem : ∀ d' ∈ db'.alertDeliveries, ∃ d ∈ db.alertDeliveries, f d = d' := by
    intro d' hd'
    rw [heq] at hd'
    exact List.mem_map.1 hd'
  refine ⟨?_, fun d' hd' => ?_, fun d' hd' => ?_, fun d' hd' => ?_, fun d' hd' => ?_, ?_⟩
  · rw [heq]
    exact h.keys.map hf
  · obtain ⟨d, hmem, ⟨rfl, -⟩ | ⟨handed, hh, -, rfl⟩⟩ := hd.rows d' hd'
    · exact h.settled d' hmem
    · refine Or.inr ⟨handed.status_written (hd.each handed hh).2 d, ?_⟩
      rw [Handed.attemptCount_written]
      exact Nat.le_add_left _ _
  · obtain ⟨d, hd, rfl⟩ := hmem d' hd'
    rw [hf.scanId, heq]
    exact h.owned d hd
  · obtain ⟨d, hd, rfl⟩ := hmem d' hd'
    rw [hf.channel]
    exact h.configured d hd
  · obtain ⟨d, hmem, ⟨rfl, -⟩ | ⟨handed, hh, -, rfl⟩⟩ := hd.rows d' hd'
    · exact h.reported d' hmem
    · obtain ⟨hhand, hw⟩ := hd.each handed hh
      exact lastError_written hw hhand d
  · rw [heq]
    exact h.lines

/-- Nothing else touches them. -/
theorem Orderly.keep (h : Orderly s db) (hdeliveries : db'.alertDeliveries = db.alertDeliveries)
    (hscans : db'.scanRuns = db.scanRuns) (hnext : db.nextId ≤ db'.nextId)
    (hsources : db'.sources.map DataSourceModel.key = db.sources.map DataSourceModel.key) :
    Orderly s db' := by
  refine ⟨⟨?_, fun d hd => ?_⟩, ?_, ?_, ?_, ?_, fun source hsource => ?_⟩
  · rw [hdeliveries]
    exact h.keys.nodup
  · rw [hdeliveries] at hd
    exact (h.keys.fresh d hd).trans_le hnext
  · rw [hdeliveries]
    exact h.settled
  · rw [hdeliveries, hscans]
    exact h.owned
  · rw [hdeliveries]
    exact h.configured
  · rw [hdeliveries]
    exact h.reported
  · have hkey := List.mem_map_of_mem (f := DataSourceModel.key) hsource
    rw [hsources] at hkey
    obtain ⟨x, hx, heq⟩ := List.mem_map.1 hkey
    rw [← heq]
    exact h.lines x hx

/-- A scan's context names the source. -/
theorem sourceKey_of_scanContext? {scanId : Uuid} {context : ScanAlertContext}
    (h : db.scanContext? scanId = .ok (some context)) :
    ∃ source ∈ db.sources, source.key = context.sourceKey := by
  unfold DB.scanContext? at h
  rcases hfound : db.scanWithSource? scanId with _ | ⟨scan, source⟩
  · rw [hfound] at h
    cases h
  · rw [hfound] at h
    obtain ⟨changes, -, hcontext⟩ := except_bind_ok.1 h
    cases hcontext
    unfold DB.scanWithSource? at hfound
    obtain ⟨run, -, hfound⟩ := Option.bind_eq_some_iff.1 hfound
    obtain ⟨x, hx, heq⟩ := Option.map_eq_some_iff.1 hfound
    cases heq
    exact ⟨source, List.mem_of_find?_eq_some hx, rfl⟩

/-- **A delivery with attempts left whose time has come passes** on a network
that answers. -/
theorem Orderly.passes [Hashlib] {l : Ledger} (h : Orderly s l.db) (hsound : l.Sound)
    (hanswers : transport.Answers s.smtp s.alerts) {d : AlertDeliveryModel}
    (hd : d ∈ l.db.alertDeliveries) (hleft : d.attemptCount < maxAttempts)
    (hdue : ∀ t ∈ d.nextRetryAt, t ≤ now) :
    l.db.Passes (s.notifications transport) now d.id := by
  obtain ⟨scan, hscan, hid⟩ := h.owned d hd
  obtain ⟨source, hsource, hsid⟩ := hsound.owned scan hscan
  obtain ⟨context, hcontext, -⟩ := exists_scanContext hsound.wellFormed hscan hsource hsid
  have hsome : ((s.notifications transport).notifiers d.channel).isSome :=
    notifiers_isSome_iff.2 (h.configured d hd)
  obtain ⟨notifier, hconf⟩ := Option.isSome_iff_exists.1 hsome
  rw [hid] at hcontext
  have hready : Ready (s.notifications transport) now l.db d.id d context notifier :=
    ⟨mem_delivery? h.keys hd, hleft, hdue, hcontext, hconf⟩
  refine ⟨_, hand?_eq_some_iff.2 ⟨d, context, notifier, hready, rfl⟩, ?_⟩
  obtain ⟨named, hnamed, hkey⟩ := sourceKey_of_scanContext? hcontext
  have hline : severalLines context.sourceKey.toList = false := hkey ▸ h.lines named hnamed
  exact writable_of_answers hanswers hconf (severalLines_subject hline)

/-- A PENDING delivery has its attempts left and waits for no time. -/
theorem Orderly.pending (h : Orderly s db) {d : AlertDeliveryModel} (hd : d ∈ db.alertDeliveries)
    (hpending : d.status = .pending) :
    d.attemptCount < maxAttempts ∧ ∀ t ∈ d.nextRetryAt, t ≤ now := by
  obtain ⟨-, hcount, hnext⟩ := (h.settled d hd).resolve_right fun h => h.1 hpending
  rw [hcount, hnext]
  exact ⟨by decide, fun t ht => (nomatch ht)⟩

end Orderly

/-! ## Runs of a server -/

section Runs

variable [Hashlib]
variable {s : ServerSettings} {w : Served} {m : Moment} {l : Ledger}

omit [Hashlib] in
theorem delivered_systemError {db : DB} {env : Notifications} {now : Timestamp}
    (hc : db.Constraints) (hkeys : db.DeliveryKeys) (sourceKey : String) :
    ∃ hs, Delivered env now db (postSystemError env sourceKey now db) hs := by
  rcases hlatest : db.latestFailedScanId sourceKey with _ | scanId
  · rw [postSystemError_of_none hc hlatest]
    exact ⟨[], delivered_nil db⟩
  · rw [(systemError_eq_dispatch hc hlatest).2]
    obtain ⟨hs, hdelivered, -⟩ :
        ∃ hs, Delivered env now db (postDispatchScan env scanId now db) hs ∧ _ :=
      delivered_dispatch hc hkeys scanId
    exact ⟨hs, hdelivered⟩

/-- A request keeps the deliveries in order. -/
theorem Orderly.handled {req : HttpRequest} {a : Answer} (h : Orderly s l.db) (hsound : l.Sound)
    (hhandled : Handled s m req l.db a) : Orderly s a.db := by
  have hwf := hsound.wellFormed
  cases hhandled with
  | told => exact h
  | @scanned sourceKey report body hreq hresult =>
    obtain ⟨scan, -, hfiled⟩ := filed_of_ok hwf rfl hresult
    exact h.filed hfiled
  | @recorded sourceKey source e body hreq hsource hpost =>
    have hfiled : Filed (enabledChannels s.alerts)
        ((m.scanRequest s sourceKey).failedScan source e l.db) l.db
        ((m.scanRequest s sourceKey).failed source e l.db) :=
      @filed_failed l.db (m.scanRequest s sourceKey) hwf.linked.scanFresh source e
    have hwf' : ((m.scanRequest s sourceKey).failed source e l.db).WellFormed :=
      failed_wellFormed hwf source e
    have horderly := h.filed hfiled
    obtain ⟨hs, hdelivered⟩ : ∃ hs, Delivered (s.notifications m.transport) m.now _
        (postSystemError (s.notifications m.transport) sourceKey m.now
          ((m.scanRequest s sourceKey).failed source e l.db)) hs :=
      delivered_systemError hwf'.constraints horderly.keys sourceKey
    rw [← hpost] at hdelivered horderly
    exact horderly.delivered hdelivered
  | @accepted accept result body =>
    have heff := acceptEffect hwf accept
    generalize acceptResult accept l.db = outcome at heff
    generalize postAccept accept l.db = after at heff
    rcases heff with _ | @⟨change, source, dataset, c, rows, -, -, -, -, -, -, -⟩
    · exact h
    · refine h.keep rfl rfl (Nat.le_refl _) ?_
      rw [accepted_eq]
      show (l.db.sources.map (raiseVersion source)).map DataSourceModel.key = _
      rw [List.map_map]
      exact List.map_congr_left fun x _ => key_raiseVersion source x
  | @retried deliveryId result =>
    obtain ⟨hs, hdelivered⟩ : ∃ hs, Delivered (s.notifications m.transport) m.now l.db _ hs :=
      delivered_retry hwf.constraints deliveryId
    exact h.delivered hdelivered

/-- **Every event keeps the deliveries in order.** -/
theorem Orderly.apply (h : Orderly s w.db) (hsound : w.Sound) {e : ServerEvent} (he : e.Regular) :
    Orderly s (e.apply s w).db := by
  obtain ⟨l, hsound, hdb⟩ := hsound
  obtain ⟨db, queue⟩ := w
  cases hdb
  cases e with
  | request headers req m => exact h.handled hsound (SchemaSentry.handled hsound he headers req)
  | background scanId m =>
    by_cases hmem : scanId ∈ queue
    · have hstep : (ServerEvent.background scanId m).apply s ⟨l.db, queue⟩ =
          { db := postDispatchScan (s.notifications m.transport) scanId m.now l.db
            queue := queue.erase scanId } := if_pos hmem
      rw [hstep]
      obtain ⟨hs, hdelivered, -⟩ : ∃ hs, Delivered (s.notifications m.transport) m.now l.db
          (postDispatchScan (s.notifications m.transport) scanId m.now l.db) hs ∧ _ :=
        delivered_dispatch hsound.wellFormed.constraints h.keys scanId
      exact h.delivered hdelivered
    · have hstep : (ServerEvent.background scanId m).apply s ⟨l.db, queue⟩ = ⟨l.db, queue⟩ :=
        if_neg hmem
      rw [hstep]
      exact h
  | sync document =>
    rcases syncCatalog_cases document l.db with heq | ⟨pipelines, edges, next, hnext, heq, -, -⟩
    · simp only [ServerEvent.apply, heq]
      exact h
    · simp only [ServerEvent.apply, heq]
      exact h.keep rfl rfl hnext rfl
  | restart => exact h

/-! ## Retries -/

/-- What `POST /api/v1/alerts/{delivery_id}/retry` answers for a row: an
attempt where there are attempts left, the time has come and the network
answers, and otherwise what is in the way, the tables left as they are. -/
structure RetryAnswered (s : ServerSettings) (m : Moment) (deliveryId : Uuid) (db : DB)
    (a : Answer) : Prop where
  missing : (∀ d ∈ db.alertDeliveries, d.id ≠ deliveryId) → a.reply.status = 404 ∧ a.db = db
  refused : ∀ d ∈ db.alertDeliveries, d.id = deliveryId →
    (maxAttempts ≤ d.attemptCount ∨ ∃ t ∈ d.nextRetryAt, m.now < t) →
      a.reply.status = 409 ∧ a.db = db
  attempted : m.transport.Answers s.smtp s.alerts → ∀ d ∈ db.alertDeliveries,
    d.id = deliveryId → d.attemptCount < maxAttempts → (∀ t ∈ d.nextRetryAt, t ≤ m.now) →
      a.reply.status = 200 ∧
        ∃ result, a.reply.body = .delivery result ∧ DeliveryAttempted deliveryId result db a.db

/-- **A retry's answer is read off the delivery's row**, in whatever state
the server is and however often it has restarted. -/
theorem retry_answered {start : DB} (hinit : start.Initial)
    (hlines : ∀ source ∈ start.sources, severalLines source.key.toList = false)
    (hpath : Lib.Path (ServerEvent.apply s) (fun _ e => e.Regular) ⟨start, []⟩ w)
    {headers : Headers} (hoperator : ∃ identity, requireOperator s headers = .ok identity)
    (m : Moment) (deliveryId : Uuid) :
    RetryAnswered s m deliveryId w.db (handle s m headers (.retryDelivery deliveryId) w.db) := by
  have hstart : Served.Sound ⟨start, []⟩ ∧ Orderly s start :=
    ⟨⟨_, sound_of_initial hinit, rfl⟩, hinit.orderly hlines⟩
  obtain ⟨⟨l, hsound, hdb⟩, horderly⟩ : w.Sound ∧ Orderly s w.db :=
    hpath.invariant (P := fun w => w.Sound ∧ Orderly s w.db) hstart fun _ _ hs he =>
      ⟨hs.1.apply he, hs.2.apply hs.1 he⟩
  rw [← hdb] at horderly ⊢
  have hc := hsound.wellFormed.constraints
  have hnone : stopped? s headers (.retryDelivery deliveryId) = none := by
    obtain ⟨identity, hidentity⟩ := hoperator
    exact (stopped?_eq_none rfl).2 ⟨identity, hidentity, trivial, fun h => (nomatch h)⟩
  have hserve : handle s m headers (.retryDelivery deliveryId) l.db =
      retryDeliveryRoute s m deliveryId l.db := by
    unfold handle
    rw [hnone]
    rfl
  rw [hserve]
  refine ⟨fun hmissing => ?_, fun d hd hid hwhy => ?_, fun hanswers d hd hid hleft hdue => ?_⟩
  · have hfound : l.db.delivery? deliveryId = none :=
      List.find?_eq_none.2 fun d hd => by simpa using hmissing d hd
    unfold retryDeliveryRoute retryResult postRetry
    simp only
    rw [retry_missing hc hfound]
    exact ⟨rfl, rfl⟩
  · subst hid
    have hfound := mem_delivery? horderly.keys hd
    unfold retryDeliveryRoute retryResult postRetry
    simp only
    by_cases hspent : maxAttempts ≤ d.attemptCount
    · rw [retry_exhausted hc hfound hspent]
      exact ⟨rfl, rfl⟩
    · obtain ⟨t, ht, hlt⟩ := hwhy.resolve_left hspent
      rw [retry_early hc hfound (Nat.not_le.1 hspent) ht hlt]
      exact ⟨rfl, rfl⟩
  · subst hid
    have hpasses : l.db.Passes (s.notifications m.transport) m.now d.id :=
      horderly.passes hsound hanswers hd hleft hdue
    have hcs : (AlertSession.new.session.pending l.db).Constraints := hc
    obtain ⟨handed, result, -, hexec⟩ := exec_attempt_passes hcs hpasses
    have hresult : retryResult (s.notifications m.transport) d.id m.now l.db = .ok result := by
      unfold retryResult retry
      rw [hexec]
    have hattempted := deliveryAttempted_of_ok hsound.wellFormed hresult
    unfold retryDeliveryRoute
    simp only [hresult]
    exact ⟨rfl, result, rfl, hattempted⟩

end Runs

section Sample

attribute [local instance] Hashlib.plain

/-- The server once its source could not be reached. -/
def sampleUnreached : Served :=
  (ServerEvent.request sampleHeaders (.runScan "crm") sampleMoment).apply sampleServer
    ⟨sampleStart, []⟩

theorem sampleStart_lines :
    ∀ source ∈ sampleStart.sources, severalLines source.key.toList = false := by decide

theorem sampleNetwork_answers :
    sampleNetwork.Answers sampleServer.smtp sampleServer.alerts := by
  refine ⟨⟨fun _ _ _ h => (nomatch h), fun _ _ _ _ h => (nomatch h), by decide, by decide⟩,
    fun _ _ _ h => (nomatch h), by decide⟩

/-- In the sample the alert that was sent is retried, and attempted again. -/
theorem retry_answered_sample :
    (handle sampleServer sampleMoment sampleHeaders (.retryDelivery 2)
      sampleUnreached.db).reply.status = 200 ∧
    ∃ result, DeliveryAttempted 2 result sampleUnreached.db
      (handle sampleServer sampleMoment sampleHeaders (.retryDelivery 2) sampleUnreached.db).db := by
  have hregular : (ServerEvent.request sampleHeaders (.runScan "crm") sampleMoment).Regular :=
    sampleMoment_regular
  have hpath : Lib.Path (ServerEvent.apply sampleServer) (fun _ e => e.Regular) ⟨sampleStart, []⟩
      sampleUnreached := Lib.Path.refl.tail hregular
  obtain ⟨d, hd, hid, hleft, hdue⟩ : ∃ d ∈ sampleUnreached.db.alertDeliveries, d.id = 2 ∧
      d.attemptCount < maxAttempts ∧ ∀ t ∈ d.nextRetryAt, t ≤ sampleMoment.now := by
    decide +kernel
  have hoperator : ∃ identity, requireOperator sampleServer sampleHeaders = .ok identity := ⟨_, rfl⟩
  have hanswered := retry_answered sampleStart_initial sampleStart_lines hpath hoperator
    sampleMoment 2
  obtain ⟨hstatus, result, -, hattempted⟩ :=
    hanswered.attempted sampleNetwork_answers d hd hid hleft hdue
  exact ⟨hstatus, result, hattempted⟩

end Sample

end SchemaSentry
