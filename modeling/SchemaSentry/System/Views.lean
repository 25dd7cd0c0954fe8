import SchemaSentry.Application.QueryService
import SchemaSentry.System.Outbox
import SchemaSentry.System.Releases
/-!
# Schema Sentry — what the scan queries go on showing

A scan that has been shown is shown so ever after: whatever scans,
acceptances, syncs and deliveries come, its record, the changes it found
and the deliveries it asked for are the same, in the same order. What can
differ of a change is that it is not OPEN any more and which DAGs the
catalog now has it affect, and a delivery differs only by further attempts
(`history_kept`).
-/

namespace SchemaSentry

open Lib DbM

/-! ## What comes after -/

/-- A change shown later: the same but for its state, which leaves OPEN
once, and the DAGs. -/
structure PersistedChange.Precedes (c c' : PersistedChange) : Prop where
  same : { c' with state := c.state, affectedDags := c.affectedDags } = c
  state : c'.state = c.state ∨ c.state = .open

/-- A delivery shown later: as it was, or attempted again. -/
structure PersistedDelivery.Precedes (d d' : PersistedDelivery) : Prop where
  id : d'.id = d.id
  channel : d'.channel = d.channel
  attempted : d' = d ∨ d.attemptCount < d'.attemptCount

/-- A scan shown later: the same record, changes and deliveries. -/
structure PersistedScan.Precedes (p p' : PersistedScan) : Prop where
  same : { p' with
    currentBaselineVersion := p.currentBaselineVersion
    changes := p.changes
    deliveries := p.deliveries } = p
  version : p.currentBaselineVersion ≤ p'.currentBaselineVersion
  changes : List.Forall₂ PersistedChange.Precedes p.changes p'.changes
  deliveries : List.Forall₂ PersistedDelivery.Precedes p.deliveries p'.deliveries

/-! ## Attempts -/

/-- A rewriting of deliveries that leaves one as it is or attempts it. -/
def Attempts (f : AlertDeliveryModel → AlertDeliveryModel) : Prop :=
  ∀ d, f d = d ∨ d.attemptCount < (f d).attemptCount

theorem Attempts.comp {f g : AlertDeliveryModel → AlertDeliveryModel} (hf : Attempts f)
    (hg : Attempts g) : Attempts fun d => f (g d) := by
  intro d
  rcases hg d with hsame | hmore
  · simp only [hsame]
    exact hf d
  · right
    show d.attemptCount < (f (g d)).attemptCount
    rcases hf (g d) with hsame | hmore'
    · rw [hsame]
      exact hmore
    · omega

theorem Attempts.only {f : AlertDeliveryModel → AlertDeliveryModel} (hf : Attempts f) (id : Uuid) :
    Attempts fun d => if d.id = id then f d else d := by
  intro d
  by_cases h : d.id = id
  · simp only [if_pos h]
    exact hf d
  · exact Or.inl (if_neg h)

/-- What is written of a message is one attempt more. -/
theorem attempts_written (h : Handed) : Attempts h.written := by
  intro d
  right
  unfold Handed.written
  rcases h.outcome with _ | _ | _
  all_goals
    show d.attemptCount < d.attemptCount + 1
    omega

/-- The tables with deliveries attempted. -/
def DeliveriesAttempted (s t : DB) : Prop :=
  ∃ f, KeepsIdentity f ∧ Attempts f ∧ t = { s with alertDeliveries := s.alertDeliveries.map f }

variable {db : DB} {env : Notifications} {now : Timestamp} {a : AlertSession}

theorem deliveriesAttempted_refl (db : DB) : DeliveriesAttempted db db :=
  ⟨id, ⟨fun _ => rfl, fun _ => rfl, fun _ => rfl⟩, fun _ => Or.inl rfl, by rw [List.map_id]⟩

/-- A session after messages has attempted deliveries. -/
theorem deliveriesAttempted_afterAll (hs : List Handed) :
    DeliveriesAttempted (a.session.pending db) ((a.afterAll hs).session.pending db) := by
  induction hs generalizing a with
  | nil => exact deliveriesAttempted_refl _
  | cons h rest ih =>
    obtain ⟨f, hf, hattempts, heq⟩ := ih (a := a.after h)
    refine ⟨_, hf.comp (h.keepsIdentity_written.only h.deliveryId),
      hattempts.comp ((attempts_written h).only h.deliveryId), heq.trans ?_⟩
    have hpending : (a.after h).session.pending db =
        (a.session.pending db).updateDelivery h.deliveryId h.written := rfl
    rw [hpending]
    simp only [DB.updateDelivery, List.map_map]
    rfl

theorem deliveriesAttempted_attemptAll {ids : List Uuid} (hc : db.Constraints) :
    DeliveriesAttempted db
      (scopePublish (AlertM.exec (attemptAll env now ids) db AlertSession.new) db) := by
  rcases hexec : AlertM.exec (attemptAll env now ids) db AlertSession.new with ⟨e | results, t⟩
  · exact deliveriesAttempted_refl db
  · obtain ⟨hs, rfl⟩ := exists_afterAll (s := AlertSession.new) hc hexec
    exact deliveriesAttempted_afterAll hs

theorem deliveriesAttempted_dispatch (hc : db.Constraints) (scanId : Uuid) :
    DeliveriesAttempted db (postDispatchScan env scanId now db) := by
  unfold postDispatchScan
  rw [exec_dispatchScan env scanId now hc]
  exact deliveriesAttempted_attemptAll hc

theorem deliveriesAttempted_systemError (hc : db.Constraints) (sourceKey : String) :
    DeliveriesAttempted db (postSystemError env sourceKey now db) := by
  unfold postSystemError
  rw [exec_dispatchSystemError env sourceKey now hc]
  rcases db.latestFailedScanId sourceKey with _ | scanId
  · exact deliveriesAttempted_refl db
  · exact deliveriesAttempted_attemptAll hc

theorem deliveriesAttempted_retry (hc : db.Constraints) (deliveryId : Uuid) :
    DeliveriesAttempted db (postRetry env deliveryId now db) := by
  unfold postRetry retry
  rcases exec_attempt (s := AlertSession.new) env now deliveryId hc with ⟨handed, -, hexec⟩ |
    ⟨-, e, hexec⟩
  · rw [hexec]
    unfold retryPublish
    have hone : DeliveriesAttempted db ((AlertSession.new.after handed).session.pending db) :=
      deliveriesAttempted_afterAll [handed]
    rcases handed.result with e | r
    · simp only
      split
      · exact hone
      · exact deliveriesAttempted_refl db
    · exact hone
  · rw [hexec]
    unfold retryPublish
    simp only
    split
    · exact deliveriesAttempted_refl db
    · exact deliveriesAttempted_refl db

/-! ## What requests keep of a scan -/

/-- A delivery's row later. -/
def AlertDeliveryModel.Precedes (d d' : AlertDeliveryModel) : Prop :=
  d'.id = d.id ∧ d'.channel = d.channel ∧ (d' = d ∨ d.attemptCount < d'.attemptCount)

/-- The deliveries of a scan. -/
def DB.deliveriesOf (db : DB) (scanId : Uuid) : List AlertDeliveryModel :=
  db.alertDeliveries.filter fun d => d.scanId = scanId

/-- What later tables keep of the scans of earlier ones. -/
structure Archived (s t : DB) : Prop where
  notes : KeepsNotes s t
  sources : ∀ x ∈ s.sources, ∃ y ∈ t.sources,
    y.id = x.id ∧ y.key = x.key ∧ x.baselineVersion ≤ y.baselineVersion
  datasets : ∀ d ∈ s.datasets, d ∈ t.datasets
  rows : ∀ c ∈ s.schemaChanges, c ∈ t.schemaChanges ∨
    c.state = .open ∧ ∃ c' ∈ t.schemaChanges, c'.id = c.id ∧ c'.state ≠ .open
  deliveries : ∀ id < s.nextId,
    List.Forall₂ AlertDeliveryModel.Precedes (s.deliveriesOf id) (t.deliveriesOf id)

namespace Archived

variable {s t u : DB}

theorem refl (s : DB) : Archived s s := by
  refine ⟨⟨fun _ h => h, fun _ _ => rfl, fun _ _ => rfl, Nat.le_refl _⟩,
    fun x hx => ⟨x, hx, rfl, rfl, le_refl _⟩, fun _ h => h, fun _ h => Or.inl h, fun id _ => ?_⟩
  exact List.forall₂_same.2 fun d _ => ⟨rfl, rfl, Or.inl rfl⟩

theorem trans (h : Archived s t) (h' : Archived t u) : Archived s u := by
  refine ⟨⟨fun scan hs => h'.notes.scans scan (h.notes.scans scan hs), fun id hid => ?_,
    fun id hid => ?_, h.notes.next.trans h'.notes.next⟩, fun x hx => ?_,
    fun d hd => h'.datasets d (h.datasets d hd), fun c hc => ?_, fun id hid => ?_⟩
  · exact (h'.notes.channels id (hid.trans_le h.notes.next)).trans (h.notes.channels id hid)
  · exact (h'.notes.rows id (hid.trans_le h.notes.next)).trans (h.notes.rows id hid)
  · obtain ⟨y, hy, hid, hkey, hle⟩ := h.sources x hx
    obtain ⟨z, hz, hid', hkey', hle'⟩ := h'.sources y hy
    exact ⟨z, hz, hid'.trans hid, hkey'.trans hkey, hle.trans hle'⟩
  · rcases h.rows c hc with hkept | ⟨hopen, c', hc', hid, hclosed⟩
    · exact h'.rows c hkept
    · rcases h'.rows c' hc' with hkept | ⟨hopen', -⟩
      · exact Or.inr ⟨hopen, c', hkept, hid, hclosed⟩
      · exact absurd hopen' hclosed
  · have htrans : ∀ d d' d'' : AlertDeliveryModel, d.Precedes d' → d'.Precedes d'' →
        d.Precedes d'' := by
      rintro d d' d'' ⟨hid, hch, hcase⟩ ⟨hid', hch', hcase'⟩
      refine ⟨hid'.trans hid, hch'.trans hch, ?_⟩
      rcases hcase with rfl | hmore
      · exact hcase'
      · rcases hcase' with rfl | hmore'
        · exact Or.inr hmore
        · exact Or.inr (hmore.trans hmore')
    have hfirst := h.deliveries id hid
    have hsecond := h'.deliveries id (hid.trans_le h.notes.next)
    generalize t.deliveriesOf id = ds at hfirst hsecond
    generalize u.deliveriesOf id = ds' at hsecond
    generalize s.deliveriesOf id = ds₀ at hfirst
    induction hfirst generalizing ds' with
    | nil =>
      cases hsecond
      exact .nil
    | cons hd _ ih =>
      obtain _ | ⟨hd', hrest⟩ := hsecond
      exact .cons (htrans _ _ _ hd hd') (ih _ hrest)

end Archived

/-- Attempts keep what is archived. -/
theorem DeliveriesAttempted.archived {s t : DB} (h : DeliveriesAttempted s t) : Archived s t := by
  obtain ⟨f, hf, hattempts, rfl⟩ := h
  have honly : DeliveriesOnly s { s with alertDeliveries := s.alertDeliveries.map f } :=
    ⟨f, hf, rfl⟩
  refine ⟨honly.keepsNotes, fun x hx => ⟨x, hx, rfl, rfl, le_refl _⟩, fun _ h => h,
    fun _ h => Or.inl h, fun id _ => ?_⟩
  unfold DB.deliveriesOf
  simp only [List.filter_map, Function.comp_def, hf.scanId]
  rw [List.forall₂_map_right_iff]
  exact List.forall₂_same.2 fun d _ => ⟨hf.id d, hf.channel d, hattempts d⟩

section Requests

variable [Hashlib]

/-- What a request makes of the rows it finds, as one case or the other. -/
theorem RowsKept.cases {op : Op} (h : RowsKept op db) {c : SchemaChangeModel}
    (hc : c ∈ db.schemaChanges) : c ∈ (op.apply db).schemaChanges ∨
      c.state = .open ∧ ∃ c' ∈ (op.apply db).schemaChanges, c'.id = c.id ∧ c'.state ≠ .open := by
  by_cases hcloses : c.state = .open ∧ op.Closes c db
  · exact Or.inr ⟨hcloses.1, h.closed c hc hcloses.1 hcloses.2⟩
  · exact Or.inl (h.kept c hc hcloses)

omit [Hashlib] in
/-- A scan added keeps what is archived. -/
theorem ScanAdded.archived {req : ScanRequest} {source : DataSourceModel} {db' : DB}
    {scan : ScanRunModel} {ds : List AlertDeliveryModel}
    {g : SchemaChangeModel → SchemaChangeModel} {rows : List SchemaChangeModel}
    (h : ScanAdded req source db db' scan ds g rows)
    (hdatasets : ∀ d ∈ db.datasets, d ∈ db'.datasets)
    (hrows : ∀ c ∈ db.schemaChanges, c ∈ db'.schemaChanges ∨
      c.state = .open ∧ ∃ c' ∈ db'.schemaChanges, c'.id = c.id ∧ c'.state ≠ .open) :
    Archived db db' := by
  refine ⟨h.keepsNotes, fun x hx => ?_, hdatasets, hrows, fun id hid => ?_⟩
  · rw [h.sources]
    exact ⟨x, hx, rfl, rfl, le_refl _⟩
  · have hnew : ∀ d ∈ ds, d.scanId ≠ id := by
      intro d hd heq
      rw [h.owner d hd] at heq
      exact Nat.lt_irrefl _ (heq ▸ hid)
    unfold DB.deliveriesOf
    rw [h.deliveries, filter_append_of_ne hnew]
    exact List.forall₂_same.2 fun d _ => ⟨rfl, rfl, Or.inl rfl⟩

/-- **Requests keep what is archived.** -/
theorem archived_op (hwf : db.WellFormed) {op : Op} (hop : op.Regular fun _ => True) :
    Archived db (op.apply db) := by
  have hdatasets := (graphKept hwf hop).datasets
  have hrows : ∀ c ∈ db.schemaChanges, _ := fun c hc => (rowsKept hwf hop).cases hc
  cases op with
  | scan req =>
    have heff := scanEffect hwf hop.1
    simp only [Op.apply] at hdatasets hrows ⊢
    generalize scanResult req db = result at heff
    generalize postScans req db = after at heff hdatasets hrows
    rcases heff with _ | _ | _ | ⟨-, -, -, -, hin, -⟩
    · exact .refl db
    · exact (scanAdded_failed hwf.linked.scanFresh _).archived hdatasets hrows
    · exact (exists_scanAdded_baselined hwf _).archived hdatasets hrows
    · exact (scanAdded_drifted hwf hin).archived hdatasets hrows
  | accept req =>
    have heff := acceptEffect hwf req
    simp only [Op.apply] at hdatasets hrows ⊢
    generalize acceptResult req db = result at heff
    generalize postAccept req db = after at heff hdatasets hrows
    rcases heff with _ | @⟨change, source, dataset, c, rows, -, -, -, hrec, -, -, -⟩
    · exact .refl db
    · have hscan : ∀ c, (closeRow change req.acceptedAt c).scanId = c.scanId := by
        intro c
        unfold closeRow
        split <;> rfl
      rw [accepted_eq] at hdatasets hrows ⊢
      refine ⟨⟨fun _ hs => hs, fun _ _ => rfl, fun _ _ => ?_, Nat.le_refl _⟩, fun x hx => ?_,
        hdatasets, hrows, fun id _ => ?_⟩
      · exact map_filter_map hscan (asOpened_closeRow change req.acceptedAt)
      · refine ⟨_, List.mem_map_of_mem hx, id_raiseVersion source x, key_raiseVersion source x, ?_⟩
        unfold raiseVersion
        split
        · rename_i hid
          obtain rfl := eq_of_nodup_map hwf.linked.sourceIds hx hrec.source_mem hid
          simp
        · exact le_refl _
      · exact List.forall₂_same.2 fun d _ => ⟨rfl, rfl, Or.inl rfl⟩
  | sync document =>
    simp only [Op.apply] at hdatasets hrows ⊢
    rcases syncCatalog_cases document db with heq | ⟨_, _, _, hnext, heq, -, -⟩
    · rw [heq]
      exact .refl db
    · rw [heq] at hdatasets hrows ⊢
      refine ⟨⟨fun _ hs => hs, fun _ _ => rfl, fun _ _ => rfl, hnext⟩,
        fun x hx => ⟨x, hx, rfl, rfl, le_refl _⟩, hdatasets, hrows, fun id _ => ?_⟩
      exact List.forall₂_same.2 fun d _ => ⟨rfl, rfl, Or.inl rfl⟩
  | relink pipelines edges =>
    simp only [Op.apply, DB.relink] at hdatasets hrows ⊢
    split
    · refine ⟨⟨fun _ hs => hs, fun _ _ => rfl, fun _ _ => rfl, Nat.le_refl _⟩,
        fun x hx => ⟨x, hx, rfl, rfl, le_refl _⟩, fun _ h => h, fun _ h => Or.inl h, fun id _ => ?_⟩
      exact List.forall₂_same.2 fun d _ => ⟨rfl, rfl, Or.inl rfl⟩
    · exact .refl db

theorem archived_request {l : Ledger} (hwf : l.db.WellFormed) {r : Request} (hr : r.Regular) :
    Archived l.db (r.apply l).db := by
  have hc := hwf.constraints
  rcases r with op | ⟨env, scanId, now⟩ | ⟨env, sourceKey, now⟩ | ⟨env, deliveryId, now⟩
  · have hkept : Archived l.db (op.apply l.db) := archived_op hwf hr
    cases op with
    | scan | accept | sync | relink => exact hkept
  · exact (deliveriesAttempted_dispatch hc scanId).archived
  · exact (deliveriesAttempted_systemError hc sourceKey).archived
  · exact (deliveriesAttempted_retry hc deliveryId).archived

/-- **Runs keep what is archived.** -/
theorem archived_run {l l' : Ledger} (hsound : l.Sound)
    (hpath : Lib.Path Request.apply (fun _ r => r.Regular) l l') :
    l'.Sound ∧ Archived l.db l'.db :=
  hpath.invariant (P := fun m => m.Sound ∧ Archived l.db m.db) ⟨hsound, .refl _⟩
    fun _ _ hm hr => ⟨hm.1.apply hr, hm.2.trans (archived_request hm.1.wellFormed hr)⟩

end Requests

/-! ## What is shown -/

section Shown

variable [Hashlib] {s t : DB} {scan : ScanRunModel}

omit [Hashlib] in
/-- A scan's change rows with their datasets, before they are sorted. -/
theorem persistedRows_eq (db : DB) (scan : ScanRunModel) : db.persistedRows scan false =
    ((db.schemaChanges.filter fun c => c.scanId = scan.id).flatMap fun c =>
      (db.datasets.filter fun d => d.id = c.datasetId).map fun d => (c, d)).insertionSort
        fun a b => persistedSortKey a ≤ persistedSortKey b := by
  unfold DB.persistedRows
  congr 1
  induction db.schemaChanges with
  | nil => rfl
  | cons c rest ih =>
    rw [List.flatMap_cons, ih]
    by_cases h : c.scanId = scan.id
    · rw [List.filter_cons_of_pos (by simpa using h), List.flatMap_cons]
      simp [h]
    · rw [List.filter_cons_of_neg (by simpa using h)]
      simp [h]

/-- A change row with its dataset as it was when it was opened. -/
def rowAsOpened (row : SchemaChangeModel × DatasetModel) : SchemaChangeModel × DatasetModel :=
  (row.1.asOpened, row.2)

omit [Hashlib] in
theorem rowAsOpened_sorted (rows : List (SchemaChangeModel × DatasetModel)) :
    (rows.insertionSort fun a b => persistedSortKey a ≤ persistedSortKey b).map rowAsOpened =
      (rows.map rowAsOpened).insertionSort fun a b => persistedSortKey a ≤ persistedSortKey b :=
  List.map_insertionSort _ _ _ _ fun _ _ _ _ => Iff.rfl

/-- **A scan's change rows stay as they were opened**, in their order. -/
theorem persistedRows_asOpened (hs : s.WellFormed) (ht : t.WellFormed) (h : Archived s t)
    (hlt : scan.id < s.nextId) : (t.persistedRows scan false).map rowAsOpened =
      (s.persistedRows scan false).map rowAsOpened := by
  have hraw : ∀ db : DB, ((db.schemaChanges.filter fun c => c.scanId = scan.id).flatMap fun c =>
      (db.datasets.filter fun d => d.id = c.datasetId).map fun d => (c, d)).map rowAsOpened =
        (db.openedBy scan.id).flatMap fun c =>
          (db.datasets.filter fun d => d.id = c.datasetId).map fun d => (c, d) := by
    intro db
    rw [DB.openedBy, List.map_flatMap, List.flatMap_map]
    refine List.flatMap_congr fun c _ => ?_
    rw [List.map_map]
    rfl
  rw [persistedRows_eq, persistedRows_eq, rowAsOpened_sorted, rowAsOpened_sorted, hraw, hraw,
    h.notes.rows _ hlt]
  congr 1
  refine List.flatMap_congr fun c hc => ?_
  obtain ⟨row, hrow, rfl⟩ := List.mem_map.1 hc
  obtain ⟨_, d, _, hrec⟩ := hs.recorded row (List.mem_of_mem_filter hrow)
  have hone := filter_eq_singleton_of_nodup hs.linked.datasetIds hrec.dataset_mem
  have hone' := filter_eq_singleton_of_nodup ht.linked.datasetIds
    (h.datasets d hrec.dataset_mem)
  rw [hrec.dataset_id] at hone hone'
  show (t.datasets.filter fun d => d.id = row.datasetId).map _ =
    (s.datasets.filter fun d => d.id = row.datasetId).map _
  rw [hone, hone']

omit [Hashlib] in
theorem mem_persistedRows {currentOpenChanges : Bool} {row : SchemaChangeModel × DatasetModel} :
    row ∈ s.persistedRows scan currentOpenChanges ↔ row.1 ∈ s.schemaChanges ∧
      row.2 ∈ s.datasets ∧ row.2.id = row.1.datasetId ∧
      if currentOpenChanges then row.1.sourceId = scan.sourceId ∧ row.1.state = .open
      else row.1.scanId = scan.id := by
  simp only [DB.persistedRows, List.mem_insertionSort, List.mem_flatMap, List.mem_map,
    List.mem_filter, decide_eq_true_eq]
  constructor
  · rintro ⟨c, hc, d, ⟨hd, hid, hcond⟩, rfl⟩
    exact ⟨hc, hd, hid, hcond⟩
  · rintro ⟨hc, hd, hid, hcond⟩
    exact ⟨row.1, hc, row.2, ⟨hd, hid, hcond⟩, rfl⟩

/-- **A scan's changes stay**, but for their state and the DAGs. -/
theorem persistedChanges_kept (hs : s.WellFormed) (ht : t.WellFormed) (h : Archived s t)
    (hlt : scan.id < s.nextId) : List.Forall₂ PersistedChange.Precedes
      (s.persistedChanges scan false) (t.persistedChanges scan false) := by
  unfold DB.persistedChanges
  rw [List.forall₂_map_left_iff, List.forall₂_map_right_iff]
  refine forall₂_of_map_eq (persistedRows_asOpened hs ht h hlt).symm ?_
  rintro ⟨c, d⟩ hrow ⟨c', d'⟩ hrow' heq
  obtain ⟨hopened, rfl⟩ := Prod.mk.inj heq
  obtain ⟨hc, -, -, -⟩ := mem_persistedRows.1 hrow
  obtain ⟨hc', -, -, -⟩ := mem_persistedRows.1 hrow'
  simp only [SchemaChangeModel.asOpened, SchemaChangeModel.mk.injEq] at hopened
  obtain ⟨hid, -, -, -, hname, htype, hsev, -, -, hbefore, hafter, -⟩ := hopened
  refine ⟨?_, ?_⟩
  · simp only [persistedChange, hid, hname, htype, hsev, hbefore, hafter]
  · show c'.state = c.state ∨ c.state = .open
    rcases h.rows c hc with hkept | ⟨hopen, -⟩
    · obtain rfl : c' = c := eq_of_nodup_map ht.linked.changeIds hc' hkept hid.symm
      exact Or.inl rfl
    · exact Or.inr hopen

omit [Hashlib] in
/-- **A scan's deliveries stay**, but for attempts. -/
theorem persistedDeliveries_kept (h : Archived s t) {id : Uuid} (hlt : id < s.nextId) :
    List.Forall₂ PersistedDelivery.Precedes (s.persistedDeliveries id)
      (t.persistedDeliveries id) := by
  have hsorted : ∀ ds ds' : List AlertDeliveryModel,
      List.Forall₂ AlertDeliveryModel.Precedes ds ds' →
        List.Forall₂ AlertDeliveryModel.Precedes
          (ds.insertionSort fun a b => a.channel.value ≤ b.channel.value)
          (ds'.insertionSort fun a b => a.channel.value ≤ b.channel.value) := by
    have hinsert : ∀ (d d' : AlertDeliveryModel) (ds ds' : List AlertDeliveryModel),
        d.Precedes d' → List.Forall₂ AlertDeliveryModel.Precedes ds ds' →
          List.Forall₂ AlertDeliveryModel.Precedes
            (ds.orderedInsert (fun a b => a.channel.value ≤ b.channel.value) d)
            (ds'.orderedInsert (fun a b => a.channel.value ≤ b.channel.value) d') := by
      intro d d' ds ds' hd hds
      induction hds with
      | nil => exact .cons hd .nil
      | @cons x x' rest rest' hx hrest ih =>
        simp only [List.orderedInsert_cons, hd.2.1, hx.2.1]
        split
        · exact .cons hd (.cons hx hrest)
        · exact .cons hx ih
    intro ds ds' hds
    induction hds with
    | nil => exact .nil
    | cons hd _ ih => exact hinsert _ _ _ _ hd ih
  unfold DB.persistedDeliveries
  rw [List.forall₂_map_left_iff, List.forall₂_map_right_iff]
  refine (hsorted _ _ (h.deliveries id hlt)).imp fun d d' hd => ?_
  obtain ⟨hid, hchannel, hcase⟩ := hd
  refine ⟨hid, hchannel, ?_⟩
  rcases hcase with rfl | hmore
  · exact Or.inl rfl
  · exact Or.inr hmore

/-- A scan of sound tables is got. -/
theorem Ledger.Sound.getResult {l : Ledger} (h : l.Sound) (hscan : scan ∈ l.db.scanRuns) :
    ∃ source ∈ l.db.sources, source.id = scan.sourceId ∧
      SchemaSentry.getResult scan.id l.db = .ok (some (l.db.persistedScan scan source false)) := by
  obtain ⟨source, hsource, hid⟩ := h.owned scan hscan
  exact ⟨source, hsource, hid, getResult_eq h.wellFormed.constraints
    ((find?_eq_some_of_nodup h.wellFormed.linked.scanIds).2 ⟨hscan, rfl⟩)
    ((find?_eq_some_of_nodup h.wellFormed.linked.sourceIds).2 ⟨hsource, hid⟩)⟩

/-- **The history of scans is append-only**: every scan of a reachable state
is got then and in every later state, and what is got later is what was got
but for how its changes ended, the DAGs the catalog has, the source's
version and further attempts. -/
theorem history_kept {l l' : Ledger} (hinit : db.Initial)
    (hpath : Lib.Path Request.apply (fun _ r => r.Regular) ⟨db, []⟩ l)
    (hafter : Lib.Path Request.apply (fun _ r => r.Regular) l l')
    (hscan : scan ∈ l.db.scanRuns) :
    ∃ p p', getResult scan.id l.db = .ok (some p) ∧ getResult scan.id l'.db = .ok (some p') ∧
      p.Precedes p' := by
  have hsound : l.Sound :=
    hpath.invariant (sound_of_initial hinit) fun _ _ hs hr => hs.apply hr
  obtain ⟨hsound', harchived⟩ := archived_run hsound hafter
  obtain ⟨source, hsource, hsid, hgot⟩ := hsound.getResult hscan
  obtain ⟨source', hsource', hsid', hgot'⟩ := hsound'.getResult (harchived.notes.scans scan hscan)
  obtain ⟨y, hy, hyid, hykey, hyversion⟩ := harchived.sources source hsource
  obtain rfl : source' = y := eq_of_nodup_map hsound'.wellFormed.linked.sourceIds hsource' hy
    (hsid'.trans (hsid.symm.trans hyid.symm))
  have hlt := hsound.wellFormed.linked.scanFresh scan hscan
  refine ⟨_, _, hgot, hgot', ?_, hyversion,
    persistedChanges_kept hsound.wellFormed hsound'.wellFormed harchived hlt,
    persistedDeliveries_kept harchived hlt⟩
  simp only [DB.persistedScan, persisted, hykey]

end Shown

section Sample

attribute [local instance] Hashlib.plain

theorem sampleShown_db : sampleShown.db = postScans sampleLoss sampleTables := by
  rw [← sampleSynced_eq]
  simp only [sampleShown, List.foldl_cons, List.foldl_nil, Request.apply, sampleSynced]
  rfl

/-- Its alert is sent, and the change is accepted. -/
def sampleLater : Ledger :=
  [Request.dispatch sampleBothAccept 5 5,
    .edit (.accept { changeId := 6, baselineVersion := 1 })].foldl (fun l r => r.apply l) sampleShown

theorem sampleLater_path :
    Lib.Path Request.apply (fun _ r => r.Regular) sampleShown sampleLater := by
  refine Path.of_events _ fun r hr _ => ?_
  simp only [List.mem_cons, List.not_mem_nil, or_false] at hr
  rcases hr with rfl | rfl
  · trivial
  · trivial

/-- In the sample the scan is shown on once its change is accepted. -/
theorem history_kept_sample : ∃ p p', getResult 5 sampleShown.db = .ok (some p) ∧
    getResult 5 sampleLater.db = .ok (some p') ∧ p.Precedes p' := by
  have hscan : (⟨5, 0, .manual, .completed, 0, some 0, some 0, none, none⟩ : ScanRunModel) ∈
      sampleShown.db.scanRuns := by
    rw [sampleShown_db]
    decide +kernel
  have hkept := history_kept sampleStart_initial sampleShown_path sampleLater_path hscan
  exact hkept

end Sample

end SchemaSentry
