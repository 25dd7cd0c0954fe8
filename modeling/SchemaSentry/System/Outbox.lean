import SchemaSentry.System.Dispatch
/-!
# Schema Sentry — the alert outbox

Scans, acceptances, syncs and deliveries one after another, with a note of
what each scan opened and of the channels it found configured. `Noted`
says what the tables keep of a note through all that comes after;
`outbox_exact` reads the deliveries and the alert's context off it.
-/

namespace SchemaSentry

open Lib DbM

/-! ## Requests -/

/-- A request that changes the metadata or has alerts delivered. -/
inductive Request where
  | edit (op : Op)
  | dispatch (env : Notifications) (scanId : Uuid) (now : Timestamp)
  | systemError (env : Notifications) (sourceKey : String) (now : Timestamp)
  | retry (env : Notifications) (deliveryId : Uuid) (now : Timestamp)

/-- `NotificationDispatcher.dispatch_system_error`, run alone: what is
committed after it. -/
def postSystemError (env : Notifications) (sourceKey : String) (now : Timestamp) (db : DB) : DB :=
  scopePublish (AlertM.exec (dispatchSystemError env sourceKey now) db AlertSession.new) db

/-- `POST /api/v1/alerts/{delivery_id}/retry`, run alone: what is committed
after it. -/
def postRetry (env : Notifications) (deliveryId : Uuid) (now : Timestamp) (db : DB) : DB :=
  retryPublish (AlertM.exec (retry env deliveryId now) db AlertSession.new) db

/-- What is noted of a scan as it ends: the channels configured and the
change rows it has inserted. -/
structure ScanNote where
  scanId : Uuid
  channels : List AlertChannel
  opened : List SchemaChangeModel

/-- The note of the scan a request has added, if it has. -/
def scanNotes (req : ScanRequest) (before after : DB) : List ScanNote :=
  (after.scanRuns.filter fun scan => scan.id ∉ before.scanRuns.map ScanRunModel.id).map fun scan =>
    { scanId := scan.id
      channels := enabledChannels req.settings
      opened := after.schemaChanges.filter fun c =>
        c.id ∉ before.schemaChanges.map SchemaChangeModel.id }

/-- The tables and the notes of the scans so far. -/
structure Ledger where
  db : DB
  notes : List ScanNote

section Requests

variable [Hashlib]

def Request.apply : Request → Ledger → Ledger
  | .edit (.scan req), l =>
    { db := postScans req l.db, notes := l.notes ++ scanNotes req l.db (postScans req l.db) }
  | .edit op, l => { l with db := op.apply l.db }
  | .dispatch env scanId now, l => { l with db := postDispatchScan env scanId now l.db }
  | .systemError env sourceKey now, l => { l with db := postSystemError env sourceKey now l.db }
  | .retry env deliveryId now, l => { l with db := postRetry env deliveryId now l.db }

/-- A scan's steps raise nothing on their own account. -/
def Request.Regular : Request → Prop
  | .edit op => op.Regular fun _ => True
  | _ => True

end Requests

/-! ## Deliveries change deliveries -/

/-- The tables with their deliveries rewritten. -/
def DeliveriesOnly (db db' : DB) : Prop :=
  ∃ f, KeepsIdentity f ∧ db' = { db with alertDeliveries := db.alertDeliveries.map f }

variable {db : DB} {env : Notifications} {now : Timestamp} {s : AlertSession}

theorem deliveriesOnly_refl (db : DB) : DeliveriesOnly db db :=
  ⟨id, ⟨fun _ => rfl, fun _ => rfl, fun _ => rfl⟩, by rw [List.map_id]⟩

/-- A session after messages has rewritten deliveries. -/
theorem deliveriesOnly_afterAll (hs : List Handed) :
    DeliveriesOnly (s.session.pending db) ((s.afterAll hs).session.pending db) := by
  induction hs generalizing s with
  | nil => exact deliveriesOnly_refl _
  | cons h rest ih =>
    obtain ⟨f, hf, heq⟩ := ih (s := s.after h)
    refine ⟨_, hf.comp (h.keepsIdentity_written.only h.deliveryId), heq.trans ?_⟩
    have hpending : (s.after h).session.pending db =
        (s.session.pending db).updateDelivery h.deliveryId h.written := rfl
    rw [hpending]
    simp only [DB.updateDelivery, List.map_map]
    rfl

/-- What a list of attempts that ends well leaves in the session. -/
theorem exists_afterAll {ids : List Uuid} (hc : (s.session.pending db).Constraints)
    {results : List DeliveryResult} {t : AlertSession}
    (h : AlertM.exec (attemptAll env now ids) db s = (.ok results, t)) :
    ∃ hs, t = s.afterAll hs := by
  induction ids generalizing s results with
  | nil =>
    cases h
    exact ⟨[], rfl⟩
  | cons id rest ih =>
    rw [attemptAll, AlertM.exec_bind] at h
    rcases exec_attempt env now id hc with ⟨handed, -, hexec⟩ | ⟨-, e, hexec⟩
    · have hc' : ((s.after handed).session.pending db).Constraints :=
        constraints_updateDelivery hc handed.keepsIdentity_written
      rw [hexec] at h
      rcases hr : handed.result with e | r
      · rw [hr] at h
        cases h
      · rw [hr] at h
        simp only [AlertM.exec_bind] at h
        rcases hrest : AlertM.exec (attemptAll env now rest) db (s.after handed) with ⟨e | rs, u⟩
        · rw [hrest] at h
          cases h
        · rw [hrest] at h
          cases h
          obtain ⟨hs, rfl⟩ := ih hc' hrest
          exact ⟨handed :: hs, rfl⟩
    · rw [hexec] at h
      cases h

theorem deliveriesOnly_attemptAll {ids : List Uuid} (hc : db.Constraints) :
    DeliveriesOnly db
      (scopePublish (AlertM.exec (attemptAll env now ids) db AlertSession.new) db) := by
  rcases hexec : AlertM.exec (attemptAll env now ids) db AlertSession.new with ⟨e | results, t⟩
  · exact deliveriesOnly_refl db
  · obtain ⟨hs, rfl⟩ := exists_afterAll (s := AlertSession.new) hc hexec
    exact deliveriesOnly_afterAll hs

theorem deliveriesOnly_postDispatchScan (hc : db.Constraints) (scanId : Uuid) :
    DeliveriesOnly db (postDispatchScan env scanId now db) := by
  unfold postDispatchScan
  rw [exec_dispatchScan env scanId now hc]
  exact deliveriesOnly_attemptAll hc

/-- What the dispatch after a source failure does, run alone. -/
theorem exec_dispatchSystemError (env : Notifications) (sourceKey : String) (now : Timestamp)
    (hc : db.Constraints) :
    AlertM.exec (dispatchSystemError env sourceKey now) db AlertSession.new =
      match db.latestFailedScanId sourceKey with
      | none => (.ok [], AlertSession.new)
      | some scanId => AlertM.exec (attemptAll env now (db.dispatchable scanId)) db
          AlertSession.new := by
  have hlatest : exec (latestFailedScanId sourceKey) db Session.new =
      (.ok (db.latestFailedScanId sourceKey), Session.new) := exec_select_ok hc _
  unfold dispatchSystemError
  simp only [AlertM.exec_bind, AlertM.exec_ofDb]
  rw [show AlertSession.new.session = Session.new from rfl, hlatest]
  rcases db.latestFailedScanId sourceKey with _ | scanId
  · rfl
  · exact exec_dispatchScan env scanId now hc

theorem deliveriesOnly_postSystemError (hc : db.Constraints) (sourceKey : String) :
    DeliveriesOnly db (postSystemError env sourceKey now db) := by
  unfold postSystemError
  rw [exec_dispatchSystemError env sourceKey now hc]
  rcases db.latestFailedScanId sourceKey with _ | scanId
  · exact deliveriesOnly_refl db
  · exact deliveriesOnly_attemptAll hc

theorem deliveriesOnly_postRetry (hc : db.Constraints) (deliveryId : Uuid) :
    DeliveriesOnly db (postRetry env deliveryId now db) := by
  unfold postRetry retry
  rcases exec_attempt (s := AlertSession.new) env now deliveryId hc with ⟨handed, -, hexec⟩ |
    ⟨-, e, hexec⟩
  · rw [hexec]
    unfold retryPublish
    have hone : DeliveriesOnly db ((AlertSession.new.after handed).session.pending db) :=
      deliveriesOnly_afterAll [handed]
    rcases handed.result with e | r
    · simp only
      split
      · exact hone
      · exact deliveriesOnly_refl db
    · exact hone
  · rw [hexec]
    unfold retryPublish
    simp only
    split
    · exact deliveriesOnly_refl db
    · exact deliveriesOnly_refl db

section Kept

variable [Hashlib]

/-- Rewritten deliveries keep the tables well-formed. -/
theorem DeliveriesOnly.wellFormed {db' : DB} (h : DeliveriesOnly db db') (hwf : db.WellFormed) :
    db'.WellFormed := by
  obtain ⟨f, hf, rfl⟩ := h
  refine ⟨constraints_mapDeliveries hwf.constraints hf,
    { hwf.linked with deliveryFresh := fun d hd => ?_ }, ⟨hwf.lineage.pipelineIds,
      hwf.lineage.edgePipeline, hwf.lineage.edgeUpstream, hwf.lineage.edgeDownstream⟩,
    fun row hrow => ?_⟩
  · obtain ⟨d', hd', rfl⟩ := List.mem_map.1 hd
    rw [hf.scanId]
    exact hwf.linked.deliveryFresh d' hd'
  · obtain ⟨source, dataset, c, hrec⟩ := hwf.recorded row hrow
    exact ⟨source, dataset, c, { hrec with }⟩

end Kept

/-! ## What the tables keep of a note -/

/-- A change row as it was when it was opened. -/
def SchemaChangeModel.asOpened (c : SchemaChangeModel) : SchemaChangeModel :=
  { c with state := .open, acceptedAt := none, resolvedAt := none }

/-- A scan is alerted where it failed or opened an alertable change. -/
def ScanNote.Alerted (note : ScanNote) (scan : ScanRunModel) : Prop :=
  scan.status = .failed ∨ ∃ c ∈ note.opened, c.severity.alertable = true

instance (note : ScanNote) (scan : ScanRunModel) : Decidable (note.Alerted scan) :=
  inferInstanceAs (Decidable (_ ∨ ∃ c ∈ _, _))

/-- The channels of a scan's deliveries. -/
def DB.deliveryChannels (db : DB) (scanId : Uuid) : List AlertChannel :=
  (db.alertDeliveries.filter fun d => d.scanId = scanId).map AlertDeliveryModel.channel

/-- A scan's change rows as they were opened. -/
def DB.openedBy (db : DB) (scanId : Uuid) : List SchemaChangeModel :=
  (db.schemaChanges.filter fun c => c.scanId = scanId).map SchemaChangeModel.asOpened

/-- The tables have the scan noted, its deliveries and its rows. -/
structure Noted (db : DB) (note : ScanNote) : Prop where
  scan : ∃ scan ∈ db.scanRuns, scan.id = note.scanId ∧
    db.deliveryChannels note.scanId = if note.Alerted scan then note.channels else []
  rows : db.openedBy note.scanId = note.opened
  channels : note.channels.Nodup
  lt : note.scanId < db.nextId

/-- What came before is kept. -/
structure KeepsNotes (db db' : DB) : Prop where
  scans : ∀ scan ∈ db.scanRuns, scan ∈ db'.scanRuns
  channels : ∀ id < db.nextId, db'.deliveryChannels id = db.deliveryChannels id
  rows : ∀ id < db.nextId, db'.openedBy id = db.openedBy id
  next : db.nextId ≤ db'.nextId

variable {db' : DB} {note : ScanNote}

theorem Noted.kept (h : Noted db note) (hkeeps : KeepsNotes db db') : Noted db' note := by
  obtain ⟨scan, hscan, hid, hchannels⟩ := h.scan
  refine ⟨⟨scan, hkeeps.scans scan hscan, hid, ?_⟩, ?_, h.channels, h.lt.trans_le hkeeps.next⟩
  · rw [hkeeps.channels _ h.lt, hchannels]
  · rw [hkeeps.rows _ h.lt, h.rows]

theorem asOpened_closeRow (change : SchemaChangeModel) (acceptedAt : Timestamp)
    (c : SchemaChangeModel) : (closeRow change acceptedAt c).asOpened = c.asOpened := by
  unfold closeRow
  split
  · rfl
  · rfl

theorem asOpened_settle (source : DataSourceModel) (active : List String)
    (resolvedAt : Timestamp) (c : SchemaChangeModel) :
    (settle source active resolvedAt c).asOpened = c.asOpened := by
  unfold settle
  split
  · rfl
  · rfl

theorem channels_pendingDeliveries (next scanId : Uuid) (channels : List AlertChannel) :
    (pendingDeliveries next scanId channels).map AlertDeliveryModel.channel = channels := by
  have hpairs : ((pendingDeliveries next scanId channels).map fun d =>
      (d.scanId, d.channel)).map Prod.snd = (channels.map fun channel =>
        (scanId, channel)).map Prod.snd := by rw [map_identity_pendingDeliveries]
  rw [List.map_map, List.map_map] at hpairs
  exact hpairs.trans (List.map_id _)

/-- Rewritten deliveries keep what came before. -/
theorem DeliveriesOnly.keepsNotes (h : DeliveriesOnly db db') : KeepsNotes db db' := by
  obtain ⟨f, hf, rfl⟩ := h
  exact ⟨fun _ hscan => hscan, fun _ _ => map_filter_map hf.scanId hf.channel, fun _ _ => rfl,
    Nat.le_refl _⟩

/-! ## Sound ledgers -/

section Sound

variable [Hashlib] {l : Ledger}

/-- What holds all along: every scan is noted, and every note kept. -/
structure Ledger.Sound (l : Ledger) : Prop where
  wellFormed : l.db.WellFormed
  noted : ∀ note ∈ l.notes, Noted l.db note
  all : ∀ scan ∈ l.db.scanRuns, ∃ note ∈ l.notes, note.scanId = scan.id
  owned : ∀ scan ∈ l.db.scanRuns, ∃ source ∈ l.db.sources, source.id = scan.sourceId
  rowScan : ∀ c ∈ l.db.schemaChanges, c.scanId < l.db.nextId

theorem sound_of_initial (h : db.Initial) : (Ledger.mk db []).Sound := by
  refine ⟨h.wellFormed, fun note hnote => (nomatch hnote), ?_, ?_, ?_⟩
  all_goals
    rw [h.rest]
    exact fun x hx => (nomatch hx)

/-- A request that adds no scan keeps a ledger sound. -/
theorem Ledger.Sound.keep (h : l.Sound) (hwf : db'.WellFormed) (hkeeps : KeepsNotes l.db db')
    (hruns : db'.scanRuns = l.db.scanRuns)
    (hsources : ∀ source ∈ l.db.sources, ∃ source' ∈ db'.sources, source'.id = source.id)
    (hrows : ∀ c' ∈ db'.schemaChanges, ∃ c ∈ l.db.schemaChanges, c'.scanId = c.scanId) :
    (Ledger.mk db' l.notes).Sound := by
  refine ⟨hwf, fun note hnote => (h.noted note hnote).kept hkeeps, ?_, ?_, ?_⟩
  · show ∀ scan ∈ db'.scanRuns, _
    rw [hruns]
    exact h.all
  · show ∀ scan ∈ db'.scanRuns, _
    rw [hruns]
    intro scan hscan
    obtain ⟨source, hsource, hid⟩ := h.owned scan hscan
    obtain ⟨source', hsource', hid'⟩ := hsources source hsource
    exact ⟨source', hsource', hid'.trans hid⟩
  · intro c' hc'
    obtain ⟨c, hc, heq⟩ := hrows c' hc'
    rw [heq]
    exact (h.rowScan c hc).trans_le hkeeps.next

/-- A request that adds a scan keeps a ledger sound, where its note is
kept. -/
theorem Ledger.Sound.add (h : l.Sound) (hwf : db'.WellFormed) (hkeeps : KeepsNotes l.db db')
    {scan : ScanRunModel} {notes : List ScanNote} (hnotes : notes = [note])
    (hruns : db'.scanRuns = l.db.scanRuns ++ [scan]) (hscan : note.scanId = scan.id)
    (hsource : ∃ source ∈ l.db.sources, source.id = scan.sourceId)
    (hsources : db'.sources = l.db.sources)
    (hrows : ∀ c' ∈ db'.schemaChanges, c'.scanId = l.db.nextId ∨
      ∃ c ∈ l.db.schemaChanges, c'.scanId = c.scanId)
    (hnext : l.db.nextId < db'.nextId) (hnoted : Noted db' note) :
    (Ledger.mk db' (l.notes ++ notes)).Sound := by
  subst hnotes
  refine ⟨hwf, fun other hother => ?_, fun other hother => ?_, fun other hother => ?_,
    fun c' hc' => ?_⟩
  · rcases List.mem_append.1 hother with hold | hnew
    · exact (h.noted other hold).kept hkeeps
    · rw [List.mem_singleton.1 hnew]
      exact hnoted
  · have hother' : other ∈ l.db.scanRuns ++ [scan] := hruns ▸ hother
    rcases List.mem_append.1 hother' with hold | hnew
    · obtain ⟨n, hn, hid⟩ := h.all other hold
      exact ⟨n, List.mem_append_left _ hn, hid⟩
    · rw [List.mem_singleton.1 hnew]
      exact ⟨note, List.mem_append_right _ List.mem_cons_self, hscan⟩
  · have hother' : other ∈ l.db.scanRuns ++ [scan] := hruns ▸ hother
    show ∃ source ∈ db'.sources, _
    rw [hsources]
    rcases List.mem_append.1 hother' with hold | hnew
    · exact h.owned other hold
    · rw [List.mem_singleton.1 hnew]
      exact hsource
  · show c'.scanId < db'.nextId
    rcases hrows c' hc' with heq | ⟨c, hc, heq⟩
    · rw [heq]
      exact hnext
    · rw [heq]
      exact (h.rowScan c hc).trans hnext

/-- The note of a scan's row just added. -/
theorem scanNotes_eq (hwf : db.WellFormed) {req : ScanRequest} {scan : ScanRunModel}
    {g : SchemaChangeModel → SchemaChangeModel} {rows : List SchemaChangeModel}
    (hruns : db'.scanRuns = db.scanRuns ++ [scan]) (hid : scan.id = db.nextId)
    (hchanges : db'.schemaChanges = db.schemaChanges.map g ++ rows) (hg : ∀ c, (g c).id = c.id)
    (hrows : ∀ row ∈ rows, db.nextId ≤ row.id) :
    scanNotes req db db' = [{ scanId := db.nextId, channels := enabledChannels req.settings
                              opened := rows }] := by
  have hscans : (db'.scanRuns.filter fun scan =>
      scan.id ∉ db.scanRuns.map ScanRunModel.id) = [scan] := by
    have hnew : ∀ y ∈ [scan], ∀ x ∈ db.scanRuns, y.id ≠ x.id := by
      intro y hy x hx heq
      rw [List.mem_singleton.1 hy, hid] at heq
      exact Nat.lt_irrefl _ (heq ▸ hwf.linked.scanFresh x hx)
    have hfilter := filter_not_mem_append (g := id) (fun _ => rfl) hnew
    rw [List.map_id] at hfilter
    rw [hruns]
    exact hfilter
  have hopened : (db'.schemaChanges.filter fun c =>
      c.id ∉ db.schemaChanges.map SchemaChangeModel.id) = rows := by
    rw [hchanges]
    refine filter_not_mem_append hg fun y hy x hx heq => ?_
    exact absurd (hwf.linked.changeFresh x hx) (Nat.not_lt.2 (heq ▸ hrows y hy))
  unfold scanNotes
  rw [hscans, hopened, List.map_singleton, hid]

/-- A scan's row is added, with its deliveries and the rows it opens, and
the rows there were are kept but for how they ended. -/
structure ScanAdded (req : ScanRequest) (source : DataSourceModel) (db db' : DB)
    (scan : ScanRunModel) (ds : List AlertDeliveryModel) (g : SchemaChangeModel → SchemaChangeModel)
    (rows : List SchemaChangeModel) : Prop where
  runs : db'.scanRuns = db.scanRuns ++ [scan]
  deliveries : db'.alertDeliveries = db.alertDeliveries ++ ds
  changes : db'.schemaChanges = db.schemaChanges.map g ++ rows
  sources : db'.sources = db.sources
  next : db.nextId < db'.nextId
  scanId : scan.id = db.nextId
  source : scan.sourceId = source.id
  owner : ∀ d ∈ ds, d.scanId = db.nextId
  channels : ds.map AlertDeliveryModel.channel =
    if ScanNote.Alerted ⟨db.nextId, enabledChannels req.settings, rows⟩ scan then
      enabledChannels req.settings
    else []
  kept : ∀ c, (g c).id = c.id ∧ (g c).scanId = c.scanId ∧ (g c).asOpened = c.asOpened
  opened : ∀ row ∈ rows, db.nextId ≤ row.id ∧ row.scanId = db.nextId ∧ row.asOpened = row

variable {req : ScanRequest} {source : DataSourceModel} {scan : ScanRunModel}
variable {ds : List AlertDeliveryModel} {g : SchemaChangeModel → SchemaChangeModel}
variable {rows : List SchemaChangeModel}

omit [Hashlib] in
theorem ScanAdded.keepsNotes (h : ScanAdded req source db db' scan ds g rows) :
    KeepsNotes db db' := by
  refine ⟨fun s hs => ?_, fun id hid => ?_, fun id hid => ?_, Nat.le_of_lt h.next⟩
  · rw [h.runs]
    exact List.mem_append_left _ hs
  · unfold DB.deliveryChannels
    rw [h.deliveries, filter_append_of_ne fun d hd heq => ?_]
    rw [h.owner d hd] at heq
    exact Nat.lt_irrefl _ (heq ▸ hid)
  · unfold DB.openedBy
    rw [h.changes, filter_append_of_ne fun c hc heq => ?_]
    · exact map_filter_map (fun c => (h.kept c).2.1) fun c => (h.kept c).2.2
    · rw [(h.opened c hc).2.1] at heq
      exact Nat.lt_irrefl _ (heq ▸ hid)

/-- **A scan's note is kept with the rest.** -/
theorem Ledger.Sound.scanned (hl : l.Sound) (hwf : db'.WellFormed) (hsource : source ∈ l.db.sources)
    (h : ScanAdded req source l.db db' scan ds g rows) :
    (Ledger.mk db' (l.notes ++ scanNotes req l.db db')).Sound := by
  have hnote : scanNotes req l.db db' = [⟨l.db.nextId, enabledChannels req.settings, rows⟩] :=
    scanNotes_eq hl.wellFormed h.runs h.scanId h.changes (fun c => (h.kept c).1)
      fun row hrow => (h.opened row hrow).1
  refine hl.add hwf h.keepsNotes hnote h.runs h.scanId.symm ⟨source, hsource, h.source.symm⟩
    h.sources (fun c' hc' => ?_) h.next ⟨⟨scan, ?_, h.scanId, ?_⟩, ?_, nodup_enabledChannels _, h.next⟩
  · rw [h.changes] at hc'
    rcases List.mem_append.1 hc' with hold | hnew
    · obtain ⟨c, hc, rfl⟩ := List.mem_map.1 hold
      exact Or.inr ⟨c, hc, (h.kept c).2.1⟩
    · exact Or.inl (h.opened c' hnew).2.1
  · rw [h.runs]
    exact List.mem_append_right _ List.mem_cons_self
  · unfold DB.deliveryChannels
    rw [h.deliveries, filter_append_of_new (fun d hd heq => ?_) h.owner, h.channels]
    exact Nat.lt_irrefl _ (heq ▸ hl.wellFormed.linked.deliveryFresh d hd)
  · unfold DB.openedBy
    rw [h.changes, filter_append_of_new (fun c hc heq => ?_) fun c hc => (h.opened c hc).2.1]
    · exact (List.map_congr_left fun c hc => (h.opened c hc).2.2).trans (List.map_id _)
    · obtain ⟨c', hc', rfl⟩ := List.mem_map.1 hc
      rw [(h.kept c').2.1] at heq
      exact Nat.lt_irrefl _ (heq ▸ hl.rowScan c' hc')

omit [Hashlib] in
theorem scanAdded_failed (hfresh : db.FreshScans) (e : PyException) :
    ScanAdded req source db (req.failed source e db) (req.failedScan source e db)
      (pendingDeliveries (db.nextId + 1) db.nextId (enabledChannels req.settings)) id [] := by
  rw [failed_eq hfresh]
  refine ⟨rfl, rfl, by simp, rfl, ?_, rfl, rfl, fun d hd => mem_pendingDeliveries hd, ?_,
    fun _ => ⟨rfl, rfl, rfl⟩, fun _ h => (nomatch h)⟩
  · exact Nat.lt_of_lt_of_le (Nat.lt_succ_self _) (Nat.le_add_right _ _)
  · have halerted : ScanNote.Alerted ⟨db.nextId, enabledChannels req.settings, []⟩
        (req.failedScan source e db) := Or.inl rfl
    rw [channels_pendingDeliveries, if_pos halerted]

theorem exists_scanAdded_baselined (hwf : db.WellFormed) (observed : List ColumnDefinition) :
    ScanAdded req source db (req.baselined source observed db) (req.completedScan source db)
      [] id [] := by
  obtain ⟨next, added, rows, hrows, heq⟩ := baselined_eq hwf req source observed
  have hnext : db.nextId + 1 ≤ next := hrows.next_le
  rw [heq]
  refine ⟨rfl, (List.append_nil _).symm, by simp, rfl, hnext, rfl, rfl, fun _ h => (nomatch h), ?_,
    fun _ => ⟨rfl, rfl, rfl⟩, fun _ h => (nomatch h)⟩
  rw [if_neg]
  · rfl
  · rintro (hstatus | ⟨c, hc, -⟩)
    · cases hstatus
    · cases hc

/-- The rows opened are alertable where the differences are. -/
theorem opensAlertable_iff (hwf : db.WellFormed) {expected observed : List ColumnDefinition}
    (hin : InDatasets (db.datasetsByRef source.id) (db.opened source expected observed)) :
    (∃ c ∈ req.openedRows source expected observed db, c.severity.alertable = true) ↔
      db.opensAlertable source expected observed = true := by
  unfold DB.opensAlertable
  rw [List.any_eq_true]
  constructor
  · rintro ⟨row, hrow, halert⟩
    obtain ⟨c, hc, d, -, -, -, -, heq⟩ := mem_openedRows hwf hrow
    rw [heq] at halert
    exact ⟨c, hc, halert⟩
  · rintro ⟨c, hc, halert⟩
    obtain ⟨d, hd, hs, href⟩ := (mem_keys_datasetsByRef hwf.constraints).1 (hin c hc)
    obtain ⟨id, hrow⟩ : ∃ id, openedRow db.nextId source d c id ∈
        req.openedRows source expected observed db := exists_openedRow hwf hc hd hs href
    exact ⟨_, hrow, halert⟩

theorem scanAdded_drifted (hwf : db.WellFormed) {expected observed : List ColumnDefinition}
    (hin : InDatasets (db.datasetsByRef source.id) (db.opened source expected observed)) :
    ScanAdded req source db (req.drifted source expected observed db)
      (req.completedScan source db)
      (if db.opensAlertable source expected observed then
        pendingDeliveries (db.nextId + 1 + (req.openedRows source expected observed db).length)
          db.nextId (enabledChannels req.settings)
      else [])
      (settle source (db.activeFingerprints source expected observed) req.finishedAt)
      (req.openedRows source expected observed db) := by
  rw [drifted_eq hwf]
  refine ⟨rfl, rfl, rfl, rfl, ?_, rfl, rfl, fun d hd => ?_, ?_, fun c => ⟨id_settle c, ?_,
    asOpened_settle source _ _ c⟩, fun row hrow => ?_⟩
  · exact Nat.lt_of_lt_of_le (Nat.lt_succ_self _)
      ((Nat.le_add_right _ _).trans (Nat.le_add_right _ _))
  · split at hd
    · exact mem_pendingDeliveries hd
    · cases hd
  · by_cases halert : db.opensAlertable source expected observed = true
    · have halerted : ScanNote.Alerted ⟨db.nextId, enabledChannels req.settings,
          req.openedRows source expected observed db⟩ (req.completedScan source db) :=
        Or.inr ((opensAlertable_iff hwf hin).2 halert)
      rw [if_pos halert, channels_pendingDeliveries, if_pos halerted]
    · rw [if_neg halert, if_neg]
      · rfl
      · rintro (hstatus | hsome)
        · cases hstatus
        · exact halert ((opensAlertable_iff hwf hin).1 hsome)
  · unfold settle
    split
    · rfl
    · rfl
  · obtain ⟨c, -, d, -, -, -, hlt, heq⟩ := mem_openedRows hwf hrow
    refine ⟨Nat.le_of_lt hlt, ?_, ?_⟩
    · rw [heq]
      rfl
    · rw [heq]
      rfl

/-- A scan keeps a ledger sound. -/
theorem Ledger.Sound.scanRequest (h : l.Sound) (hf : req.faults = noFaults) :
    (Request.apply (.edit (.scan req)) l).Sound := by
  have hwf := h.wellFormed
  have hwf' : (postScans req l.db).WellFormed := scan_wellFormed hwf hf
  have heff := scanEffect hwf hf
  simp only [Request.apply]
  generalize scanResult req l.db = result at heff
  generalize postScans req l.db = after at heff hwf'
  rcases heff with _ | ⟨hsource⟩ | ⟨hsource⟩ | ⟨hsource, -, -, -, hin, -⟩
  · have hnone : scanNotes req l.db l.db = [] := by
      have hold : (l.db.scanRuns.filter fun scan =>
          scan.id ∉ l.db.scanRuns.map ScanRunModel.id) = [] := by
        refine List.filter_eq_nil_iff.2 fun scan hscan => ?_
        have hmem : scan.id ∈ l.db.scanRuns.map ScanRunModel.id := List.mem_map_of_mem hscan
        simpa using hmem
      unfold scanNotes
      rw [hold, List.map_nil]
    rw [hnone, List.append_nil]
    exact h
  · exact h.scanned hwf' (mem_of_sourceOf? hsource).1 (scanAdded_failed hwf.linked.scanFresh _)
  · exact h.scanned hwf' (mem_of_sourceOf? hsource).1 (exists_scanAdded_baselined hwf _)
  · exact h.scanned hwf' (mem_of_sourceOf? hsource).1 (scanAdded_drifted hwf hin)

/-- Rewritten deliveries keep a ledger sound. -/
theorem Ledger.Sound.delivered (h : l.Sound) (hds : DeliveriesOnly l.db db') :
    (Ledger.mk db' l.notes).Sound := by
  have hwf' := hds.wellFormed h.wellFormed
  have hkeeps := hds.keepsNotes
  obtain ⟨f, -, rfl⟩ := hds
  exact h.keep hwf' hkeeps rfl (fun source hs => ⟨source, hs, rfl⟩) fun c hc => ⟨c, hc, rfl⟩

/-- An acceptance keeps a ledger sound. -/
theorem Ledger.Sound.accept (h : l.Sound) (req : AcceptRequest) :
    (Ledger.mk (postAccept req l.db) l.notes).Sound := by
  have hwf' : (postAccept req l.db).WellFormed := accept_wellFormed h.wellFormed req
  have heff := acceptEffect h.wellFormed req
  generalize acceptResult req l.db = result at heff
  generalize postAccept req l.db = after at heff hwf'
  rcases heff with _ | @⟨change, source, dataset, c, rows, -, -, -, -, -, -, -⟩
  · exact h
  · have hscan : ∀ c, (closeRow change req.acceptedAt c).scanId = c.scanId := by
      intro c
      unfold closeRow
      split
      · rfl
      · rfl
    rw [accepted_eq] at hwf' ⊢
    refine h.keep hwf' ⟨fun _ hs => hs, fun _ _ => rfl, fun _ _ => ?_, Nat.le_refl _⟩ rfl
      (fun s hs => ⟨raiseVersion source s, List.mem_map_of_mem hs, id_raiseVersion source s⟩)
      fun c' hc' => ?_
    · exact map_filter_map hscan (asOpened_closeRow change req.acceptedAt)
    · obtain ⟨c, hc, rfl⟩ := List.mem_map.1 hc'
      exact ⟨c, hc, hscan c⟩

/-- Another catalog keeps a ledger sound. -/
theorem Ledger.Sound.withCatalog (h : l.Sound) {pipelines : List PipelineModel}
    {edges : List LineageEdgeModel} {next : Uuid} (hnext : l.db.nextId ≤ next)
    (hwf' : (l.db.withCatalog pipelines edges next).WellFormed) :
    (Ledger.mk (l.db.withCatalog pipelines edges next) l.notes).Sound :=
  h.keep hwf' ⟨fun _ hs => hs, fun _ _ => rfl, fun _ _ => rfl, hnext⟩ rfl
    (fun source hs => ⟨source, hs, rfl⟩) fun c hc => ⟨c, hc, rfl⟩

/-- **Every request keeps a ledger sound.** -/
theorem Ledger.Sound.apply (h : l.Sound) {r : Request} (hr : r.Regular) : (r.apply l).Sound := by
  have hc := h.wellFormed.constraints
  rcases r with op | ⟨env, scanId, now⟩ | ⟨env, sourceKey, now⟩ | ⟨env, deliveryId, now⟩
  · have hwf' : (op.apply l.db).WellFormed := h.wellFormed.apply hr
    rcases op with req | req | document | ⟨pipelines, edges⟩
    · exact h.scanRequest hr.1
    · exact h.accept req
    · simp only [Request.apply, Op.apply] at hwf' ⊢
      rcases syncCatalog_cases document l.db with heq | ⟨_, _, _, hnext, heq, -, -⟩
      · rw [heq]
        exact h
      · rw [heq] at hwf' ⊢
        exact h.withCatalog hnext hwf'
    · simp only [Request.apply, Op.apply, DB.relink] at hwf' ⊢
      split at hwf'
      · rename_i hlinked
        rw [if_pos hlinked]
        exact h.withCatalog (Nat.le_refl _) hwf'
      · rename_i hlinked
        rw [if_neg hlinked]
        exact h
  · exact h.delivered (deliveriesOnly_postDispatchScan hc scanId)
  · exact h.delivered (deliveriesOnly_postSystemError hc sourceKey)
  · exact h.delivered (deliveriesOnly_postRetry hc deliveryId)

/-! ## The outbox -/

/-- The context's changes are the alertable rows opened, each once, in the
words the alert has for them. -/
def Lists (db : DB) (opened : List SchemaChangeModel) (changes : List AlertChangeContext) : Prop :=
  ∃ rows, rows.Perm (opened.filter fun c => c.severity.alertable) ∧
    List.Forall₂ (fun row change => ∃ dataset ∈ db.datasets, dataset.id = row.datasetId ∧
      db.alertChange? (row, dataset) = .ok change) rows changes

/-- **The outbox is exact**: a scan has one delivery a channel configured
when it ran if it failed or opened an alertable change, and none otherwise,
and the context read for its alert lists the alertable changes it opened. -/
def OutboxExact (l : Ledger) : Prop :=
  ∀ scan ∈ l.db.scanRuns, (∃ note ∈ l.notes, note.scanId = scan.id) ∧
    ∀ note ∈ l.notes, note.scanId = scan.id →
      (∀ channel, (l.db.alertDeliveries.filter fun d => d.scanId = scan.id ∧
        d.channel = channel).length =
          if channel ∈ note.channels ∧ note.Alerted scan then 1 else 0) ∧
      (note.opened.map SchemaChangeModel.id).Nodup ∧
      ∃ context, exec (getScanContext scan.id) l.db Session.new =
          (.ok (some context), Session.new) ∧
        Lists l.db note.opened context.changes

omit [Hashlib] in
/-- The text of a type that was written as one. -/
theorem exists_renderType (column : Option ColumnDefinition) :
    ∃ text, renderType (column.map ColumnDefinition.toCanonicalDict) = .ok text := by
  rcases column with _ | column
  · exact ⟨none, rfl⟩
  · have hget : Dict.get? "data_type" column.toCanonicalDict =
        some (.obj column.dataType.toCanonicalDict) := rfl
    refine ⟨some column.dataType.render, ?_⟩
    unfold renderType
    simp only [Option.map_some, Option.bind_some, hget, ofKwargs_toCanonicalDict]
    rfl

/-- Every change row can be put into an alert. -/
theorem exists_alertChange (hwf : db.WellFormed) {row : SchemaChangeModel}
    (hrow : row ∈ db.schemaChanges) (dataset : DatasetModel) :
    ∃ change, db.alertChange? (row, dataset) = .ok change := by
  obtain ⟨_, _, c, hrec⟩ := hwf.recorded row hrow
  obtain ⟨before, hbefore⟩ := exists_renderType c.before
  obtain ⟨after, hafter⟩ := exists_renderType c.after
  rw [← hrec.before] at hbefore
  rw [← hrec.after] at hafter
  unfold DB.alertChange?
  simp only [hbefore, hafter]
  exact ⟨_, rfl⟩

omit [Hashlib] in
theorem mem_alertRows {scanId : Uuid} {pair : SchemaChangeModel × DatasetModel} :
    pair ∈ db.alertRows scanId ↔ pair.1 ∈ db.schemaChanges ∧ pair.2 ∈ db.datasets ∧
      pair.2.id = pair.1.datasetId ∧ pair.1.scanId = scanId ∧ pair.1.severity ≠ .info := by
  simp only [DB.alertRows, List.mem_insertionSort, List.mem_flatMap, List.mem_map,
    List.mem_filter, decide_eq_true_eq]
  constructor
  · rintro ⟨c, hc, d, ⟨hd, hid, hscan, hsev⟩, rfl⟩
    exact ⟨hc, hd, hid, hscan, hsev⟩
  · rintro ⟨hc, hd, hid, hscan, hsev⟩
    exact ⟨_, hc, _, ⟨hd, hid, hscan, hsev⟩, rfl⟩

/-- **An alert's rows are its scan's rows that are not rated INFO**, each in
its one dataset. -/
theorem perm_alertRows (hwf : db.WellFormed) (scanId : Uuid) :
    ((db.alertRows scanId).map Prod.fst).Perm
      (db.schemaChanges.filter fun c => c.scanId = scanId ∧ c.severity ≠ .info) := by
  have hone : ∀ cs : List SchemaChangeModel, (∀ c ∈ cs, c ∈ db.schemaChanges) →
      (cs.flatMap fun c => (db.datasets.filter fun d => d.id = c.datasetId ∧
        c.scanId = scanId ∧ c.severity ≠ .info).map fun d => (c, d)).map Prod.fst =
          cs.filter fun c => c.scanId = scanId ∧ c.severity ≠ .info := by
    intro cs hcs
    induction cs with
    | nil => rfl
    | cons c rest ih =>
      rw [List.flatMap_cons, List.map_append, ih fun x hx => hcs x (List.mem_cons_of_mem _ hx)]
      obtain ⟨_, d, _, hrec⟩ := hwf.recorded c (hcs c List.mem_cons_self)
      by_cases hp : c.scanId = scanId ∧ c.severity ≠ .info
      · have hfilter : (db.datasets.filter fun d => d.id = c.datasetId ∧
            c.scanId = scanId ∧ c.severity ≠ .info) = [d] := by
          rw [← filter_eq_singleton_of_nodup hwf.linked.datasetIds hrec.dataset_mem,
            hrec.dataset_id]
          refine List.filter_congr fun x _ => ?_
          simp only [hp.1, hp.2, ne_eq, not_false_eq_true, and_self, and_true]
        rw [hfilter, List.filter_cons_of_pos (by simpa using hp)]
        rfl
      · have hfilter : (db.datasets.filter fun d => d.id = c.datasetId ∧
            c.scanId = scanId ∧ c.severity ≠ .info) = [] :=
          List.filter_eq_nil_iff.2 fun x _ hx => hp (of_decide_eq_true hx).2
        rw [hfilter, List.filter_cons_of_neg (by simpa using hp)]
        rfl
  rw [← hone db.schemaChanges fun c hc => hc]
  exact (List.perm_insertionSort _ _).map _

omit [Hashlib] in
theorem alertable_iff (severity : Severity) : severity.alertable = true ↔ severity ≠ .info := by
  rcases severity with _ | _ | _
  · decide
  · decide
  · decide

/-- **A scan's context is read** where the scan has its source. -/
theorem exists_scanContext (hwf : db.WellFormed) {scan : ScanRunModel}
    (hscan : scan ∈ db.scanRuns) {source : DataSourceModel} (hsource : source ∈ db.sources)
    (hsid : source.id = scan.sourceId) :
    ∃ context, db.scanContext? scan.id = .ok (some context) ∧
      List.Forall₂ (fun pair change => db.alertChange? pair = .ok change) (db.alertRows scan.id)
        context.changes := by
  have hfound : db.scanWithSource? scan.id = some (scan, source) := by
    have hfind : (db.scanRuns.find? fun s => s.id = scan.id) = some scan :=
      (find?_eq_some_of_nodup hwf.linked.scanIds).2 ⟨hscan, rfl⟩
    have hfind' : (db.sources.find? fun s => s.id = scan.sourceId) = some source :=
      (find?_eq_some_of_nodup hwf.linked.sourceIds).2 ⟨hsource, hsid⟩
    unfold DB.scanWithSource?
    rw [hfind, Option.bind_some, hfind', Option.map_some]
  have hok : ∀ pair ∈ db.alertRows scan.id, ∃ change, db.alertChange? pair = .ok change :=
    fun pair hpair => exists_alertChange hwf (mem_alertRows.1 hpair).1 pair.2
  obtain ⟨changes, hchanges, hall⟩ := mapM_ok hok
  refine ⟨{ scanId := scan.id
            sourceKey := source.key
            errorCode := if scan.status = .failed then scan.errorCode else none
            changes := changes }, ?_, hall⟩
  unfold DB.scanContext?
  rw [hfound]
  simp only [hchanges]
  rfl

/-- **The alert of a scan lists what the scan opened.** -/
theorem Noted.lists (hwf : db.WellFormed) (h : Noted db note)
    (howned : ∀ scan ∈ db.scanRuns, ∃ source ∈ db.sources, source.id = scan.sourceId) :
    ∃ context, db.scanContext? note.scanId = .ok (some context) ∧
      Lists db note.opened context.changes := by
  obtain ⟨scan, hscan, hid, -⟩ := h.scan
  obtain ⟨source, hsource, hsid⟩ := howned scan hscan
  obtain ⟨context, hcontext, hall⟩ := exists_scanContext hwf hscan hsource hsid
  rw [hid] at hcontext hall
  refine ⟨context, hcontext, (db.alertRows note.scanId).map fun pair => pair.1.asOpened, ?_, ?_⟩
  · have hopened : (note.opened.filter fun c => c.severity.alertable) =
        (db.schemaChanges.filter fun c => c.scanId = note.scanId ∧ c.severity ≠ .info).map
          SchemaChangeModel.asOpened := by
      rw [← h.rows, DB.openedBy, List.filter_map, List.filter_filter]
      congr 1
      refine List.filter_congr fun c _ => ?_
      have halert := alertable_iff c.severity
      simp only [Function.comp, SchemaChangeModel.asOpened, ne_eq, Bool.decide_and] at halert ⊢
      rw [Bool.and_comm]
      congr 1
      rw [Bool.eq_iff_iff, halert, decide_eq_true_eq]
    rw [hopened]
    have hperm := (perm_alertRows hwf note.scanId).map SchemaChangeModel.asOpened
    rw [List.map_map] at hperm
    exact hperm
  · rw [List.forall₂_map_left_iff]
    have hboth := (List.forall₂_and_left _ _).2 ⟨fun pair hpair => mem_alertRows.1 hpair, hall⟩
    refine hboth.imp fun pair change hpair => ?_
    obtain ⟨⟨-, hd, hdid, -, -⟩, hchange⟩ := hpair
    exact ⟨pair.2, hd, hdid, hchange⟩

omit [Hashlib] in
/-- A scan's deliveries through a channel are counted among the channels. -/
theorem length_deliveries (scanId : Uuid) (channel : AlertChannel) :
    (db.alertDeliveries.filter fun d => d.scanId = scanId ∧ d.channel = channel).length =
      (db.deliveryChannels scanId).count channel := by
  unfold DB.deliveryChannels
  rw [List.count, List.countP_map, List.countP_eq_length_filter, List.filter_filter]
  congr 1
  refine List.filter_congr fun d _ => ?_
  rw [Bool.decide_and, Bool.and_comm]
  rfl

/-- **The outbox is exact in every reachable state**, whatever scans,
acceptances, syncs and deliveries have come in whatever order. -/
theorem outbox_exact (hinit : db.Initial)
    (hpath : Lib.Path Request.apply (fun _ r => r.Regular) ⟨db, []⟩ l) : OutboxExact l := by
  have hsound : l.Sound :=
    hpath.invariant (sound_of_initial hinit) fun _ _ hs hr => hs.apply hr
  intro scan hscan
  refine ⟨hsound.all scan hscan, fun note hnote hid => ?_⟩
  have hnoted := hsound.noted note hnote
  obtain ⟨scan', hscan', hid', hchannels⟩ := hnoted.scan
  obtain rfl : scan' = scan :=
    eq_of_nodup_map hsound.wellFormed.linked.scanIds hscan' hscan (hid'.trans hid)
  refine ⟨fun channel => ?_, ?_, ?_⟩
  · rw [length_deliveries, ← hid, hchannels]
    by_cases halerted : note.Alerted scan'
    · rw [if_pos halerted, hnoted.channels.count]
      simp only [halerted, and_true]
    · rw [if_neg halerted, if_neg fun h => halerted h.2]
      rfl
  · rw [← hnoted.rows, DB.openedBy, List.map_map]
    exact hsound.wellFormed.linked.changeIds.sublist (List.filter_sublist.map _)
  · have hc : (Session.new.pending l.db).Constraints := hsound.wellFormed.constraints
    rw [exec_getScanContext hc, ← hid]
    obtain ⟨context, hcontext, hlists⟩ := hnoted.lists hsound.wellFormed hsound.owned
    exact ⟨context, congrArg (·, Session.new) hcontext, hlists⟩

end Sound

section Sample

attribute [local instance] Hashlib.plain

/-- The first scan, the sync and the scan that misses a column. -/
def sampleShown : Ledger :=
  [Request.edit (.scan (sampleScan [sampleColumn "users" "id" "integer" false,
    sampleColumn "mart" "id" "integer" false])), .edit (.sync (some sampleCatalog)),
    .edit (.scan sampleLoss)].foldl (fun l r => r.apply l) ⟨sampleStart, []⟩

theorem sampleShown_path :
    Lib.Path Request.apply (fun _ r => r.Regular) ⟨sampleStart, []⟩ sampleShown := by
  refine Lib.Path.of_events _ fun r hr _ => ?_
  simp only [List.mem_cons, List.not_mem_nil, or_false] at hr
  rcases hr with rfl | rfl | rfl
  · exact ⟨rfl, fun _ _ _ _ => trivial⟩
  · trivial
  · exact ⟨rfl, fun _ _ _ _ => trivial⟩

/-- The alert of the scan that misses a column is dispatched. -/
def sampleLedger : Ledger := Request.apply (.dispatch sampleBothAccept 5 5) sampleShown

theorem outbox_exact_sample : OutboxExact sampleLedger ∧
    ∃ note ∈ sampleLedger.notes, ∃ c ∈ note.opened, c.severity.alertable = true := by
  have hdispatch : (Request.dispatch sampleBothAccept 5 5).Regular := trivial
  exact ⟨outbox_exact sampleStart_initial (sampleShown_path.tail hdispatch), by decide +kernel⟩

end Sample

end SchemaSentry
