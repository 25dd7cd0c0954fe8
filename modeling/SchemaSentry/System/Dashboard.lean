import SchemaSentry.System.Answers
import SchemaSentry.System.Impacts
import SchemaSentry.System.Replies
/-!
# Schema Sentry — the dashboard

What the scan started last is shown with: the OPEN changes of its source,
each once. The DAGs of the BREAKING ones are those of the pipelines the
guard stops for them, and each change can be accepted at the version that
is shown beside it (`dashboard_truthful`). Of another source's changes the
dashboard says nothing.
-/

namespace SchemaSentry

open Lib DbM

variable {db : DB} {scan : ScanRunModel} {source : DataSourceModel} {p : PersistedScan}

/-- The scan is shown with its source's OPEN changes and version. -/
structure ShowsOpen (db : DB) (source : DataSourceModel) (p : PersistedScan) : Prop where
  mem : source ∈ db.sources
  key : p.sourceKey = source.key
  version : p.currentBaselineVersion = source.baselineVersion
  rows : (p.changes.map PersistedChange.id).Perm ((db.openRows source.id).map SchemaChangeModel.id)

/-- What the dashboard says is so: of each pipeline it shows the changes of
the source that the guard stops it for, and each change shown is accepted at
the version shown. -/
structure Truthful (db : DB) (source : DataSourceModel) (p : PersistedScan) : Prop where
  shows : ShowsOpen db source p
  guard : ∀ pipeline ∈ db.pipelines, ∃ v, validateResult pipeline.key db = .ok v ∧ ∀ id,
    (∃ c ∈ p.changes, c.id = id ∧ c.severity = .breaking ∧
        pipeline.airflowDagId ∈ c.affectedDags) ↔
      (∃ b ∈ v.blockingChanges, b.id = id) ∧
        ∃ row ∈ db.schemaChanges, row.id = id ∧ row.sourceId = source.id
  accepts : ∀ c ∈ p.changes, ∀ acceptedAt : Timestamp,
    acceptResult { changeId := c.id, baselineVersion := p.currentBaselineVersion
                   acceptedAt := acceptedAt } db =
      .ok { changeId := c.id, baselineVersion := p.currentBaselineVersion + 1 }

/-- `GET /` answers with the page of a scan, or of none. -/
def ShowsPage (db : DB) (scan : Option PersistedScan) : Prop :=
  ∃ recent, dashboardRoute db = .only 200 (.page (panel scan none "success") recent) db

section Shown

variable [Hashlib]

/-- The page of sound tables is that of the scan read last. -/
theorem Ledger.Sound.showsPage {l : Ledger} (h : l.Sound) {scan : Option PersistedScan}
    (hlatest : latestResult l.db = .ok scan) : ShowsPage l.db scan := by
  obtain ⟨recent, hrecent⟩ := h.recent
  refine ⟨recent, ?_⟩
  unfold dashboardRoute
  rw [hlatest, hrecent]

/-- The rows shown are the source's OPEN ones, each in its one dataset. -/
theorem perm_persistedRows (hwf : db.WellFormed) (hid : source.id = scan.sourceId) :
    ((db.persistedRows scan true).map Prod.fst).Perm (db.openRows source.id) := by
  have hone : ∀ cs : List SchemaChangeModel, (∀ c ∈ cs, c ∈ db.schemaChanges) →
      (cs.flatMap fun c => (db.datasets.filter fun d => d.id = c.datasetId ∧
        if (true : Bool) then c.sourceId = scan.sourceId ∧ c.state = .open
        else c.scanId = scan.id).map fun d => (c, d)).map Prod.fst =
          cs.filter fun c => c.sourceId = source.id ∧ c.state = .open := by
    intro cs hcs
    induction cs with
    | nil => rfl
    | cons c rest ih =>
      rw [List.flatMap_cons, List.map_append, ih fun x hx => hcs x (List.mem_cons_of_mem _ hx)]
      obtain ⟨_, d, _, hrec⟩ := hwf.recorded c (hcs c List.mem_cons_self)
      have hfilter := filter_eq_singleton_of_nodup hwf.linked.datasetIds hrec.dataset_mem
      rw [hrec.dataset_id] at hfilter
      by_cases hp : c.sourceId = source.id ∧ c.state = .open
      · rw [List.filter_cons_of_pos (by simpa using hp)]
        simp [← hid, hp.1, hp.2, hfilter]
      · rw [List.filter_cons_of_neg (by simpa using hp)]
        simp [← hid, hp]
  rw [DB.openRows, ← hone db.schemaChanges fun c hc => hc]
  exact (List.perm_insertionSort _ _).map _

/-- What is shown of a scan's source. -/
theorem showsOpen (hwf : db.WellFormed) (hsource : source ∈ db.sources)
    (hid : source.id = scan.sourceId) : ShowsOpen db source (db.persistedScan scan source true) := by
  refine ⟨hsource, rfl, rfl, ?_⟩
  have hperm := (perm_persistedRows hwf hid).map SchemaChangeModel.id
  rw [List.map_map] at hperm
  show ((db.persistedRows scan true).map _ |>.map PersistedChange.id).Perm _
  rw [List.map_map]
  exact hperm

/-- **The guard stops a pipeline for the BREAKING changes shown with its
DAG**, as far as the source goes. -/
theorem guard_shown (hwf : db.WellFormed) (hid : source.id = scan.sourceId)
    {pipeline : PipelineModel} (hpipeline : pipeline ∈ db.pipelines) :
    ∃ v, validateResult pipeline.key db = .ok v ∧ ∀ id,
      (∃ c ∈ (db.persistedScan scan source true).changes, c.id = id ∧ c.severity = .breaking ∧
          pipeline.airflowDagId ∈ c.affectedDags) ↔
        (∃ b ∈ v.blockingChanges, b.id = id) ∧
          ∃ row ∈ db.schemaChanges, row.id = id ∧ row.sourceId = source.id := by
  have hc := hwf.constraints
  refine ⟨_, validateResult_eq hc ⟨pipeline, hpipeline, rfl⟩, fun id => ?_⟩
  constructor
  · rintro ⟨c, hmem, rfl, hsev, hdag⟩
    obtain ⟨row, hrow, rfl⟩ := List.mem_map.1 hmem
    obtain ⟨hchange, hd, hdid, howned, hopen⟩ := mem_persistedRows.1 hrow
    have hdag' : pipeline.airflowDagId ∈ db.queryDags row := hdag
    obtain ⟨other, hother, heq, hreaches⟩ := (mem_queryDags hc).1 hdag'
    obtain rfl : other = pipeline := eq_of_nodup_map hc.pipelineDag hother hpipeline heq
    refine ⟨⟨_, mem_blocking.2 ⟨row.1, hchange, row.2, hd, hdid, hopen, hsev, hreaches, rfl⟩, rfl⟩,
      row.1, hchange, rfl, howned.trans hid.symm⟩
  · rintro ⟨⟨b, hb, hbid⟩, row, hrow, hrid, howned⟩
    obtain ⟨change, hchange, d, hd, hdid, hopen, hsev, hreaches, rfl⟩ := mem_blocking.1 hb
    obtain rfl : change = row := eq_of_nodup_map hwf.linked.changeIds hchange hrow
      (hbid.trans hrid.symm)
    refine ⟨_, List.mem_map_of_mem (mem_persistedRows.2 (?_ :
      (change, d).1 ∈ db.schemaChanges ∧ _)), hrid, hsev, ?_⟩
    · exact ⟨hchange, hd, hdid, howned.trans hid, hopen⟩
    · show pipeline.airflowDagId ∈ db.queryDags (change, d)
      exact (mem_queryDags hc).2 ⟨pipeline, hpipeline, rfl, hreaches⟩

/-- **Each change shown is accepted at the version shown.** -/
theorem accepts_shown (hwf : db.WellFormed) (hacceptable : db.Acceptable)
    (hshows : ShowsOpen db source p) {c : PersistedChange} (hc : c ∈ p.changes)
    (acceptedAt : Timestamp) :
    acceptResult { changeId := c.id, baselineVersion := p.currentBaselineVersion
                   acceptedAt := acceptedAt } db =
      .ok { changeId := c.id, baselineVersion := p.currentBaselineVersion + 1 } := by
  obtain ⟨row, hrow, hid⟩ := List.mem_map.1
    (hshows.rows.mem_iff.1 (List.mem_map_of_mem (f := PersistedChange.id) hc))
  obtain ⟨hmem, howned, hopen⟩ := mem_openRows.1 hrow
  obtain ⟨other, hother, hoid, hresult⟩ := (hacceptable.decided hwf).isOpen
    { changeId := c.id, baselineVersion := p.currentBaselineVersion, acceptedAt := acceptedAt }
    row hmem hid hopen
  obtain rfl : other = source := eq_of_nodup_map hwf.linked.sourceIds hother hshows.mem
    (hoid.trans howned)
  rw [hresult, if_pos hshows.version.symm, hshows.version]

/-- A scan's differences are not mixed up with other changes; all else is
free. -/
def Request.Untangled : Request → Ledger → Prop
  | .edit op, l => op.Untangled l.db
  | _, _ => True

omit [Hashlib] in
/-- Rewritten deliveries keep tables acceptable. -/
theorem DeliveriesOnly.acceptable {s t : DB} (h : DeliveriesOnly s t) (hs : s.Acceptable) :
    t.Acceptable := by
  obtain ⟨f, -, rfl⟩ := h
  exact ⟨hs.present, hs.alone, hs.fitting⟩

/-- **Every request keeps tables acceptable.** -/
theorem DB.Acceptable.request {l : Ledger} (h : l.db.Acceptable) (hwf : l.db.WellFormed)
    {r : Request} (hr : r.Regular) (hunt : r.Untangled l) : (r.apply l).db.Acceptable := by
  have hc := hwf.constraints
  rcases r with op | ⟨env, scanId, now⟩ | ⟨env, sourceKey, now⟩ | ⟨env, deliveryId, now⟩
  · have hkept : (op.apply l.db).Acceptable := h.apply hwf hr hunt
    cases op with
    | scan | accept | sync | relink => exact hkept
  · exact (deliveriesOnly_postDispatchScan hc scanId).acceptable h
  · exact (deliveriesOnly_postSystemError hc sourceKey).acceptable h
  · exact (deliveriesOnly_postRetry hc deliveryId).acceptable h

/-- **The dashboard tells the truth** in every state that requests lead to
whose scans mix no changes up: it shows nothing only where there is no scan,
and what it shows of the last one's source is so. -/
theorem dashboard_truthful {start : DB} {l : Ledger} (hinit : start.Initial)
    (hpath : Lib.Path Request.apply (fun l r => r.Regular ∧ r.Untangled l) ⟨start, []⟩ l) :
    (l.db.scanRuns = [] ∧ latestResult l.db = .ok none ∧ ShowsPage l.db none) ∨
      ∃ p source, latestResult l.db = .ok (some p) ∧ ShowsPage l.db (some p) ∧
        Truthful l.db source p := by
  obtain ⟨hsound, hacceptable⟩ := hpath.invariant
    (P := fun m => m.Sound ∧ m.db.Acceptable) ⟨sound_of_initial hinit, hinit.acceptable⟩
    fun m r hm hr => ⟨hm.1.apply hr.1, hm.2.request hm.1.wellFormed hr.1 hr.2⟩
  have hwf := hsound.wellFormed
  have hc := hwf.constraints
  rcases hscans : l.db.scansByStart with _ | ⟨scan, rest⟩
  · left
    have hlength := List.length_insertionSort (r := fun a b => b.startedAt ≤ a.startedAt)
      l.db.scanRuns
    rw [← DB.scansByStart, hscans] at hlength
    have hpending : Session.new.pending l.db = l.db := rfl
    have hlatest : latestResult l.db = .ok none := by
      unfold latestResult latestScan
      simp only [exec_bind, exec_select, hpending, if_pos hc, hscans]
      rfl
    exact ⟨List.length_eq_zero_iff.1 hlength.symm, hlatest, hsound.showsPage hlatest⟩
  · right
    have hscan : scan ∈ l.db.scanRuns := by
      have hmem : scan ∈ l.db.scansByStart := hscans ▸ List.mem_cons_self
      rwa [DB.scansByStart, List.mem_insertionSort] at hmem
    obtain ⟨source, hsource, hid⟩ := hsound.owned scan hscan
    have hhead : l.db.scansByStart.head? = some scan := by rw [hscans]; rfl
    have hlatest := latestResult_eq hc hhead
      ((find?_eq_some_of_nodup hwf.linked.sourceIds).2 ⟨hsource, hid⟩)
    have hshows := showsOpen hwf hsource hid
    exact ⟨_, source, hlatest, hsound.showsPage hlatest, hshows,
      fun pipeline hp => guard_shown hwf hid hp,
      fun c hmem acceptedAt => accepts_shown hwf hacceptable hshows hmem acceptedAt⟩

end Shown

section Sample

attribute [local instance] Hashlib.plain

/-- In the sample the loss of a column is shown. -/
theorem dashboard_truthful_sample : ∃ p source, latestResult sampleShown.db = .ok (some p) ∧
    ShowsPage sampleShown.db (some p) ∧ Truthful sampleShown.db source p := by
  have hnone : sampleSynced.schemaChanges = [] := by
    rw [sampleSynced_eq]
    rfl
  have hpath : Lib.Path Request.apply (fun l r => r.Regular ∧ r.Untangled l) ⟨sampleStart, []⟩
      sampleShown := by
    refine Path.of_along _ ⟨⟨⟨rfl, fun _ _ _ _ => trivial⟩, untangled_of_no_changes rfl _⟩,
      ⟨trivial, trivial⟩, ⟨⟨rfl, fun _ _ _ _ => trivial⟩, ?_⟩, trivial⟩
    simp only [Request.Untangled, Request.apply, Op.Untangled]
    exact untangled_of_no_changes hnone _
  rcases dashboard_truthful sampleStart_initial hpath with ⟨hnone, -⟩ | hshown
  · have hsome : (postScans sampleLoss sampleTables).scanRuns ≠ [] := by decide +kernel
    rw [sampleShown_db] at hnone
    exact absurd hnone hsome
  · exact hshown

end Sample

end SchemaSentry
