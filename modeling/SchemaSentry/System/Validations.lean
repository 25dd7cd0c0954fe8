import SchemaSentry.Store.Frames
import SchemaSentry.System.Releases
import SchemaSentry.System.SourceRequests
/-!
# Schema Sentry — validations among scans and acceptances

A validation reads the pipeline, then the lineage, then the OPEN changes,
each as committed at that moment, while scans and acceptances commit in
between. None of them touches the catalog, and the datasets a first
baseline adds are no edge's, so all it read before its last statement still
stands then: it answers what it would answer alone in the state that
statement saw, and it never waits (`validation_atomic`).
-/

namespace SchemaSentry

open Lib DbM

/-! ## What scans and acceptances leave -/

/-- Tables that have grown from others: the same catalog, and datasets
added under keys not used before. -/
structure Grown (s t : DB) : Prop where
  edges : t.lineageEdges = s.lineageEdges
  pipelines : t.pipelines = s.pipelines
  fresh : s.nextId ≤ t.nextId
  datasets : ∃ added, t.datasets = s.datasets ++ added ∧ ∀ d ∈ added, s.nextId ≤ d.id

namespace Grown

variable {s t u : DB}

theorem of_same (hedges : t.lineageEdges = s.lineageEdges) (hpipelines : t.pipelines = s.pipelines)
    (hfresh : s.nextId ≤ t.nextId) (hdatasets : t.datasets = s.datasets) : Grown s t :=
  ⟨hedges, hpipelines, hfresh, [], by rw [hdatasets, List.append_nil], fun d hd => by cases hd⟩

theorem refl (s : DB) : Grown s s := .of_same rfl rfl (Nat.le_refl _) rfl

theorem trans (h : Grown s t) (h' : Grown t u) : Grown s u := by
  obtain ⟨added, hadded, hids⟩ := h.datasets
  obtain ⟨added', hadded', hids'⟩ := h'.datasets
  have hfresh := h.fresh
  refine ⟨h'.edges.trans h.edges, h'.pipelines.trans h.pipelines, hfresh.trans h'.fresh,
    added ++ added', by rw [hadded', hadded, List.append_assoc], fun d hd => ?_⟩
  rcases List.mem_append.1 hd with hold | hnew
  · exact hids d hold
  · exact hfresh.trans (hids' d hnew)

/-- The edges refer to datasets stored under keys already used. -/
def EdgesOld (db : DB) : Prop :=
  ∀ e ∈ db.lineageEdges, e.upstreamDatasetId < db.nextId ∧ e.downstreamDatasetId < db.nextId

theorem edgesOld (h : Grown s t) (hs : EdgesOld s) : EdgesOld t := by
  intro e he
  rw [h.edges] at he
  obtain ⟨hup, hdown⟩ := hs e he
  exact ⟨Nat.lt_of_lt_of_le hup h.fresh, Nat.lt_of_lt_of_le hdown h.fresh⟩

/-- **The graph does not grow.** -/
theorem lineage (h : Grown s t) (hs : EdgesOld s) : t.lineage = s.lineage := by
  obtain ⟨added, hadded, hids⟩ := h.datasets
  have hfilter : ∀ id : Uuid, id < s.nextId →
      t.datasets.filter (fun d => d.id = id) = s.datasets.filter fun d => d.id = id := by
    intro id hid
    have hnone : added.filter (fun d => d.id = id) = [] := by
      refine List.filter_eq_nil_iff.2 fun d hd hdid => ?_
      simp only [decide_eq_true_eq] at hdid
      exact absurd (hdid ▸ hids d hd) (Nat.not_le.2 hid)
    rw [hadded, List.filter_append, hnone, List.append_nil]
  unfold DB.lineage
  rw [h.edges, h.pipelines]
  refine List.flatMap_congr fun e he => List.flatMap_congr fun p _ => ?_
  rw [hfilter _ (hs e he).1, hfilter _ (hs e he).2]

end Grown

theorem DB.WellFormed.edgesOld [Hashlib] {db : DB} (hwf : db.WellFormed) : Grown.EdgesOld db := by
  intro e he
  obtain ⟨up, hup, hupid⟩ := hwf.lineage.edgeUpstream e he
  obtain ⟨down, hdown, hdownid⟩ := hwf.lineage.edgeDownstream e he
  exact ⟨hupid ▸ hwf.linked.datasetFresh up hup, hdownid ▸ hwf.linked.datasetFresh down hdown⟩

/-! ## Their writes -/

section Writes

variable {faults : Faults} {sourceKey : String}

/-- A write that touches neither the catalog nor the datasets. -/
theorem leads_row {f : DB → DB} (hedges : ∀ db, (f db).lineageEdges = db.lineageEdges)
    (hpipelines : ∀ db, (f db).pipelines = db.pipelines)
    (hfresh : ∀ db : DB, db.nextId ≤ (f db).nextId)
    (hdatasets : ∀ db, (f db).datasets = db.datasets) : Leads Grown (write f) :=
  leads_write (fun _ _ _ h h' => h.trans h') fun db =>
    .of_same (hedges db) (hpipelines db) (hfresh db) (hdatasets db)

theorem leads_addDataset (sourceId : Uuid) (ref : DatasetRef) :
    Leads Grown (write (DB.addDataset sourceId ref)) := by
  refine leads_write (fun _ _ _ h h' => h.trans h') fun db => ?_
  refine ⟨rfl, rfl, Nat.le_succ _, _, rfl, fun d hd => ?_⟩
  obtain rfl := List.mem_singleton.1 hd
  exact Nat.le_refl _

theorem leads_addDeliveries (scanId : Uuid) (channels : List AlertChannel) :
    Leads Grown (write (DB.addDeliveries scanId channels)) := by
  refine leads_row (fun db => ?_) (fun db => ?_) (fun db => ?_) fun db => ?_
  all_goals rw [addDeliveries_eq]
  exact Nat.le_add_right _ _

theorem leads_resolveAbsent (openChanges : Dict String SchemaChangeModel) (active : List String)
    (finishedAt : Timestamp) :
    Leads Grown (write (DB.resolveAbsent openChanges active finishedAt)) := by
  refine leads_row (fun db => ?_) (fun db => ?_) (fun db => ?_) fun db => ?_
  all_goals rw [resolveAbsent_eq]

theorem leads_checkpoint (point : ScanPoint) : Leads Grown (checkpoint faults point) := by
  unfold checkpoint
  split
  · exact leads_pure _
  · exact leads_raise _

theorem leads_getSource : Leads Grown (getSource sourceKey) := by
  refine (leads_select _).bind fun row => ?_
  rcases row with _ | source
  · exact leads_raise _
  · exact leads_identify source

theorem leads_getScan (scanId : Uuid) : Leads Grown (getScan scanId) := by
  refine (leads_select _).bind fun row => ?_
  rcases row with _ | scan
  · exact leads_raise _
  · exact leads_pure _

theorem leads_updateScan (scanId : Uuid) (f : ScanRunModel → ScanRunModel) :
    Leads Grown (write (DB.updateScan scanId f)) :=
  leads_row (fun _ => rfl) (fun _ => rfl) (fun _ => Nat.le_refl _) fun _ => rfl

theorem leads_persistObservations (scanId : Uuid) (observed : List ColumnDefinition) :
    Leads Grown (persistObservations scanId observed) :=
  leads_row (fun _ => rfl) (fun _ => rfl) (fun _ => Nat.le_refl _) fun _ => rfl

theorem leads_addExpectedColumn (row : ExpectedColumnModel) :
    Leads Grown (write (DB.addExpectedColumn row)) :=
  leads_row (fun _ => rfl) (fun _ => rfl) (fun _ => Nat.le_refl _) fun _ => rfl

theorem leads_createRunningScan (trigger : ScanTrigger) (startedAt : Timestamp) :
    Leads Grown (createRunningScan sourceKey trigger startedAt) := by
  refine leads_getSource.bind fun source => (leads_lockSource _ _).bind fun _ => ?_
  refine (leads_select _).bind fun scanId => Leads.bind ?_ fun _ => ?_
  · exact leads_row (fun _ => rfl) (fun _ => rfl) (fun _ => Nat.le_succ _) fun _ => rfl
  · exact leads_flush.bind fun _ => leads_pure _

theorem leads_recordBaseline {source : DataSourceModel} {n : ℕ}
    {datasets : Dict DatasetRef DatasetModel} {observed : List ColumnDefinition} :
    Leads Grown (recordBaseline faults source n datasets observed) := by
  induction observed generalizing n datasets with
  | nil => exact leads_pure _
  | cons column rest ih =>
    refine (leads_checkpoint _).bind fun _ => ?_
    rcases Dict.get? column.dataset datasets with _ | dataset
    · refine (leads_select _).bind fun _ => (leads_addDataset _ _).bind fun _ => ?_
      exact leads_flush.bind fun _ => (leads_addExpectedColumn _).bind fun _ => ih
    · exact (leads_addExpectedColumn _).bind fun _ => ih

theorem leads_completeInitialBaseline {scanId : Uuid} {observed : List ColumnDefinition}
    {finishedAt : Timestamp} :
    Leads Grown (completeInitialBaseline faults scanId sourceKey observed finishedAt) := by
  refine leads_getSource.bind fun _ => (leads_getScan _).bind fun _ => ?_
  refine (leads_select _).bind fun _ => (leads_checkpoint _).bind fun _ => ?_
  refine leads_recordBaseline.bind fun _ => (leads_checkpoint _).bind fun _ => ?_
  exact (leads_persistObservations _ _).bind fun _ => (leads_updateScan _ _).bind fun _ =>
    leads_flush

theorem leads_failScan {channels : List AlertChannel} {scanId : Uuid}
    {errorCode errorMessage : String} {finishedAt : Timestamp} :
    Leads Grown (failScan channels scanId errorCode errorMessage finishedAt) := by
  refine (leads_getScan _).bind fun _ => (leads_updateScan _ _).bind fun _ => ?_
  exact (leads_addDeliveries _ _).bind fun _ => leads_flush

variable [Hashlib] {req : ScanRequest}

theorem leads_recordChanges {scan : ScanRunModel} {source : DataSourceModel}
    {datasets : Dict DatasetRef DatasetModel} {openChanges : Dict String SchemaChangeModel}
    {n : ℕ} {progress : DriftProgress} {changes : List SchemaChange} :
    Leads Grown
      (recordChanges faults scan source sourceKey datasets openChanges n progress changes) := by
  induction changes generalizing n progress with
  | nil => exact leads_pure _
  | cons change rest ih =>
    refine (leads_checkpoint _).bind fun _ => ?_
    by_cases hopen : changeFingerprint sourceKey change ∈ Dict.keys openChanges
    · simp only [if_pos hopen]
      exact ih
    · simp only [if_neg hopen]
      rcases Dict.get? change.dataset datasets with _ | dataset
      · exact leads_raise _
      · refine Leads.bind ?_ fun _ => ih
        exact leads_row (fun _ => rfl) (fun _ => rfl) (fun _ => Nat.le_succ _) fun _ => rfl

theorem leads_completeDriftScan {channels : List AlertChannel} {scanId : Uuid}
    {observed : List ColumnDefinition} {changes : List SchemaChange} {finishedAt : Timestamp} :
    Leads Grown
      (completeDriftScan faults channels scanId sourceKey observed changes finishedAt) := by
  refine leads_getSource.bind fun _ => (leads_getScan _).bind fun _ => ?_
  refine (leads_select _).bind fun _ => (leads_checkpoint _).bind fun _ => ?_
  refine (leads_persistObservations _ _).bind fun _ => (leads_select _).bind fun _ => ?_
  refine leads_recordChanges.bind fun progress => (leads_checkpoint _).bind fun _ => ?_
  refine (leads_resolveAbsent _ _ _).bind fun _ => ?_
  have hend : ∀ scan : ScanRunModel, Leads Grown (do completeScan scan finishedAt; flush) :=
    fun _ => (leads_updateScan _ _).bind fun _ => leads_flush
  split
  · exact (leads_addDeliveries _ _).bind fun _ => hend _
  · exact hend _

/-- **A scan's writes** leave the catalog and add datasets. -/
theorem leads_runScan : Leads Grown (runScan req) := by
  refine (leads_tryKey _).bind fun acquired => ?_
  cases acquired with
  | false => exact leads_raise _
  | true =>
    refine (leads_createRunningScan _ _).bind fun scanId => Leads.tryExcept ?_ fun e => ?_
    · refine (leads_checkpoint _).bind fun _ => (leads_ofExcept _).bind fun observed => ?_
      split
      · exact leads_raise _
      · refine (leads_checkpoint _).bind fun _ => Leads.bind ?_ fun expected => ?_
        · exact leads_getSource.bind fun _ => (leads_select _).bind fun _ => leads_ofExcept _
        · split
          · exact leads_completeInitialBaseline.bind fun _ => leads_pure _
          · refine (leads_checkpoint _).bind fun _ => Leads.bind ?_ fun _ => ?_
            · exact leads_getSource.bind fun _ => leads_select _
            · refine (leads_checkpoint _).bind fun _ => ?_
              exact leads_completeDriftScan.bind fun _ => leads_pure _
    · exact leads_failScan.bind fun _ => leads_raise _

omit [Hashlib] in
theorem leads_applyToBaseline (change : SchemaChangeModel) :
    Leads Grown (applyToBaseline change) := by
  have hwrite : ∀ {f : DB → DB}, (∀ db, (f db).lineageEdges = db.lineageEdges) →
      (∀ db, (f db).pipelines = db.pipelines) → (∀ db : DB, db.nextId = (f db).nextId) →
      (∀ db, (f db).datasets = db.datasets) → Leads Grown (write f) :=
    fun h₁ h₂ h₃ h₄ => leads_row h₁ h₂ (fun db => Nat.le_of_eq (h₃ db)) h₄
  refine (leads_select _).bind fun expected => ?_
  rcases change.changeType with _ | _ | _ | _ | _
  · rcases change.afterJson with _ | after
    · exact leads_raise _
    · rcases expected with _ | column
      · refine (leads_ofExcept _).bind fun _ => ?_
        exact hwrite (fun _ => rfl) (fun _ => rfl) (fun _ => rfl) fun _ => rfl
      · exact leads_pure _
  · rcases expected with _ | column
    · exact leads_raise _
    · exact hwrite (fun _ => rfl) (fun _ => rfl) (fun _ => rfl) fun _ => rfl
  all_goals
    rcases expected with _ | column
    · exact leads_raise _
    · rcases change.afterJson with _ | after
      · exact leads_raise _
      · refine (leads_ofExcept _).bind fun _ => ?_
        exact hwrite (fun _ => rfl) (fun _ => rfl) (fun _ => rfl) fun _ => rfl

omit [Hashlib] in
/-- **An acceptance's writes** leave the catalog and the datasets. -/
theorem leads_accept (req : AcceptRequest) : Leads Grown (accept req) := by
  have hrow : ∀ {f : DB → DB}, (∀ db, (f db).lineageEdges = db.lineageEdges) →
      (∀ db, (f db).pipelines = db.pipelines) → (∀ db : DB, db.nextId = (f db).nextId) →
      (∀ db, (f db).datasets = db.datasets) → Leads Grown (write f) :=
    fun h₁ h₂ h₃ h₄ => leads_row h₁ h₂ (fun db => Nat.le_of_eq (h₃ db)) h₄
  have happly : ∀ source change, Leads Grown (applyAcceptance source change req.acceptedAt) := by
    intro source change
    refine (leads_applyToBaseline change).bind fun _ => ?_
    refine Leads.bind (hrow (fun _ => rfl) (fun _ => rfl) (fun _ => rfl) fun _ => rfl) fun _ => ?_
    refine Leads.bind (hrow (fun _ => rfl) (fun _ => rfl) (fun _ => rfl) fun _ => rfl) fun _ => ?_
    exact leads_flush.bind fun _ => leads_pure _
  have htransaction : Leads Grown (acceptanceTransaction req.changeId) := by
    refine (leads_select _).bind fun change => ?_
    rcases change with _ | change
    · exact leads_pure _
    · refine (leads_lockSource _ _).bind fun _ => (leads_select _).bind fun source => ?_
      rcases source with _ | row
      · exact leads_pure _
      · exact (leads_identify row).bind fun _ => leads_pure _
  refine htransaction.bind fun locked => ?_
  rcases locked with _ | ⟨source, change⟩
  · exact leads_raise _
  · simp only
    split
    · exact leads_raise _
    · exact (happly source change).bind fun _ => leads_pure _

end Writes

/-! ## A validation's transaction -/

/-- The OPEN and BREAKING changes that block a pipeline along given edges. -/
def DB.blockingAlong (edges : List LineageEdge) (pipelineKey : String) (db : DB) :
    List BlockingChange :=
  ((db.openBreakingRows.filter fun row =>
    ((LineageGraph.ofEdges edges).impacts [domainChange row]).any fun impact =>
      impact.pipeline.key = pipelineKey).map blockingChange).insertionSort
    fun a b => blockingSortKey a ≤ blockingSortKey b

/-- What a validation that has read the lineage ends with. -/
def validateLast (edges : List LineageEdge) (pipelineKey : String) (db : DB) :
    Except PyException PipelineValidation × Session :=
  if db.Constraints then
    (.ok { pipelineKey := pipelineKey, safe := db.blockingAlong edges pipelineKey = []
           blockingChanges := db.blockingAlong edges pipelineKey }, Session.new)
  else (.error .sqlAlchemyError, Session.new)

/-- What a validation that has found its pipeline goes on to do. -/
def validateLineage (pipelineKey : String) (db : DB) :
    Tx DB Uuid String (Except PyException PipelineValidation × Session) :=
  if db.Constraints then .read fun now => .ret (validateLast db.lineage pipelineKey now)
  else .ret (.error .sqlAlchemyError, Session.new)

/-- What a validation goes on to do when it has looked for its pipeline. -/
def validateAhead (pipelineKey : String) (db : DB) :
    Tx DB Uuid String (Except PyException PipelineValidation × Session) :=
  if db.Constraints then
    match db.pipelines.find? fun p => p.key = pipelineKey with
    | none => .ret (.error (.lookupError ("pipeline not found: " ++ pipelineKey)), Session.new)
    | some _ => .read (validateLineage pipelineKey)
  else .ret (.error .sqlAlchemyError, Session.new)

section Validation

variable {k : String} {s t u : DB}

theorem validatePipeline_eq (k : String) :
    validatePipeline k Session.new = .read (validateAhead k) := by
  refine congrArg Tx.read (funext fun db => ?_)
  unfold validateAhead
  have hpending : ∀ db, Session.new.pending db = db := fun _ => rfl
  simp only [hpending]
  by_cases hc : db.Constraints
  · simp only [if_pos hc]
    generalize (db.pipelines.find? fun p => decide (p.key = k)) = found
    rcases found with _ | pipeline
    · rfl
    · refine congrArg Tx.read (funext fun now => ?_)
      unfold validateLineage
      by_cases hc' : now.Constraints
      · simp only [if_pos hc', hpending]
        refine congrArg Tx.read (funext fun last => ?_)
        unfold validateLast
        by_cases hc'' : last.Constraints
        · simp only [if_pos hc'', hpending]
          rfl
        · simp only [if_neg hc'', hpending]
          rfl
      · simp only [if_neg hc', hpending]
        rfl
  · simp only [if_neg hc]
    rfl

/-- A validation alone, statement by statement. -/
theorem exec_validatePipeline (k : String) (db : DB) :
    exec (validatePipeline k) db Session.new = (validateAhead k db).run db := by
  rw [DbM.exec, validatePipeline_eq]
  rfl

/-- What has been read of the catalog stands when the last statement is
made. -/
theorem validateLast_eq (hs : Grown.EdgesOld s)
    (hfound : (s.pipelines.find? fun p => p.key = k).isSome) (hst : Grown s t) (htu : Grown t u) :
    validateLast t.lineage k u = exec (validatePipeline k) u Session.new := by
  have hlineage : u.lineage = t.lineage := htu.lineage (hst.edgesOld hs)
  have hpipelines : u.pipelines = s.pipelines := htu.pipelines.trans hst.pipelines
  rw [exec_validatePipeline, validateAhead, hpipelines]
  by_cases hc : u.Constraints
  · obtain ⟨p, hp⟩ := Option.isSome_iff_exists.1 hfound
    rw [if_pos hc, hp]
    show _ = (validateLineage k u).run u
    rw [validateLineage, if_pos hc, hlineage]
    rfl
  · rw [if_neg hc, validateLast, if_neg hc]
    rfl

/-- **A validation reads towards its answer.** -/
theorem settles_validate (hs : Grown.EdgesOld s) (k : String) :
    (validatePipeline k Session.new).Settles Grown
      (fun t => exec (validatePipeline k) t Session.new) s := by
  rw [validatePipeline_eq]
  intro t hst
  have hold := hst.edgesOld hs
  beta_reduce
  rw [exec_validatePipeline]
  unfold validateAhead
  split
  · generalize hfound : (t.pipelines.find? fun p => decide (p.key = k)) = found
    rcases found with _ | p
    · exact Or.inl rfl
    · right
      intro u htu
      unfold validateLineage
      split
      · right
        intro v huv
        left
        have hsome : (t.pipelines.find? fun p => p.key = k).isSome := by rw [hfound]; rfl
        show Tx.ret _ = _
        rw [validateLast_eq hold hsome htu huv]
      · rename_i hcu
        left
        beta_reduce
        rw [exec_validatePipeline, validateAhead, if_neg hcu]
        rfl
  · exact Or.inl rfl

end Validation

/-! ## Side by side -/

/-- A request to a source or a validation. -/
inductive ConcurrentRequest where
  | source (req : SourceRequest)
  | validate (pipelineKey : String)

/-- What the transaction of either ends with. -/
inductive ConcurrentOutcome where
  | source (outcome : SourceOutcome)
  | validated (answer : Except PyException PipelineValidation)

/-- What a request that ends so leaves committed. -/
def ConcurrentOutcome.publish : ConcurrentOutcome → DB → DB
  | .source outcome, db => outcome.publish db
  | .validated _, db => db

section Concurrent

variable [Hashlib]

/-- The transaction of either. -/
def ConcurrentRequest.tx : ConcurrentRequest → Tx DB Uuid String ConcurrentOutcome
  | .source req => req.tx.map .source
  | .validate k => (validatePipeline k Session.new).map fun r => .validated r.1

/-- The transactions of requests. -/
def concurrentTx (reqs : ℕ → ConcurrentRequest) (i : ℕ) : Tx DB Uuid String ConcurrentOutcome :=
  (reqs i).tx

omit [Hashlib] in
/-- Committed or rolled back, what was pending led on. -/
theorem grown_publish {outcome : Except PyException ScanReport × Session}
    (h : ∀ db, Grown db (outcome.2.pending db)) (db : DB) : Grown db (scanPublish outcome db) := by
  unfold scanPublish
  split
  · exact h db
  · split
    · exact h db
    · exact .refl db

omit [Hashlib] in
theorem grown_acceptPublish {outcome : Except PyException AcceptanceResult × Session}
    (h : ∀ db, Grown db (outcome.2.pending db)) (db : DB) :
    Grown db (acceptPublish outcome db) := by
  unfold acceptPublish
  split
  · exact h db
  · split
    · exact h db
    · exact .refl db

/-- **No request touches the catalog.** -/
theorem ends_concurrent (req : ConcurrentRequest) :
    req.tx.Ends fun outcome => ∀ db, Grown db (outcome.publish db) := by
  rcases req with (req | req) | k
  · refine Tx.Ends.bind (Tx.Ends.bind (leads_runScan.of_new Grown.refl) fun outcome h => ?_)
      fun outcome h => h
    exact grown_publish h
  · refine Tx.Ends.bind (Tx.Ends.bind ((leads_accept req).of_new Grown.refl) fun outcome h => ?_)
      fun outcome h => h
    exact grown_acceptPublish h
  · have hend : ∀ x : Tx DB Uuid String (Except PyException PipelineValidation × Session),
        (x.map fun r => ConcurrentOutcome.validated r.1).Ends
          fun outcome => ∀ db, Grown db (outcome.publish db) := by
      intro x
      induction x with
      | ret a => exact Grown.refl
      | read next ih => exact fun s => ih s
      | lock row mode next ih => exact ih
      | tryLock key next ih => exact fun got => ih got
    exact hend _

/-- Where a validation stands: what it has answered is what it answers alone
in the state that was committed when it made its last statement, and while
it is not done its next step can be taken. -/
structure Atomic (reqs : ℕ → ConcurrentRequest) (first : DB)
    (Meets : Config ℕ DB Uuid String ConcurrentOutcome → Event ℕ → Prop) (i : ℕ) (k : String)
    (cfg : Config ℕ DB Uuid String ConcurrentOutcome) : Prop where
  answer : ∀ outcome, (i, outcome) ∈ cfg.history → ∃ mid,
    LastStatement ConcurrentOutcome.publish Meets (Config.init (concurrentTx reqs) first) cfg i
      outcome mid ∧ outcome = .validated (validateResult k mid.shared)
  free : ∀ x, cfg.phase i = .running x →
    ∃ next, cfg.step ConcurrentOutcome.publish (.advance i) = some next

/-- **A validation is atomic and waits for nobody**, in whatever order the
statements of any scans, acceptances and validations come, and whichever of
them end without a commit. -/
theorem validation_atomic {reqs : ℕ → ConcurrentRequest} {first : DB} (hwf : first.WellFormed)
    {Meets : Config ℕ DB Uuid String ConcurrentOutcome → Event ℕ → Prop} {i : ℕ} {k : String}
    (hreq : reqs i = .validate k) {cfg : Config ℕ DB Uuid String ConcurrentOutcome}
    (hrun : Run ConcurrentOutcome.publish Meets (Config.init (concurrentTx reqs) first) cfg) :
    Atomic reqs first Meets i k cfg := by
  have htrans : ∀ s t u, Grown s t → Grown t u → Grown s u := fun _ _ _ h h' => h.trans h'
  have hends : ∀ i, (concurrentTx reqs i).Ends fun o => ∀ db, Grown db (o.publish db) :=
    fun i => ends_concurrent (reqs i)
  have hsettles : (concurrentTx reqs i).Settles Grown
      (fun s => .validated (validateResult k s)) first := by
    unfold concurrentTx
    rw [hreq]
    exact (settles_validate hwf.edgesOld k).map _
  refine ⟨fun outcome hmem => ?_, fun x hx => ?_⟩
  · exact hrun.answers Grown.refl htrans hends hsettles hmem
  · exact (hrun.reading Grown.refl htrans hends hsettles).exists_step hx

end Concurrent

section Sample

attribute [local instance] Hashlib.plain

/-- A validation, and scans that miss the column the pipeline reads. -/
def sampleConcurrent : ℕ → ConcurrentRequest
  | 0 => .validate "etl"
  | _ => .source (.scan sampleLoss)

/-- A scan commits after the validation's first statement. -/
def sampleOvertaken : List (Event ℕ) :=
  .advance 0 :: List.replicate 15 (.advance 1) ++ List.replicate 3 (.advance 0)

/-- What a validation returned. -/
def ConcurrentOutcome.safe? : ConcurrentOutcome → Option Bool
  | .validated (.ok answer) => some answer.safe
  | _ => none

/-- In the sample the validation answers as of after the scan. -/
theorem validation_atomic_sample :
    ∃ cfg, Config.exec ConcurrentOutcome.publish sampleOvertaken
        (Config.init (concurrentTx sampleConcurrent) sampleTables) = some cfg ∧
      cfg.history.map (fun h => (h.1, h.2.safe?)) = [(1, none), (0, some false)] ∧
      Atomic sampleConcurrent sampleTables (fun _ _ => True) 0 "etl" cfg := by
  obtain ⟨hpass, hresults⟩ :
      Config.passes ConcurrentOutcome.publish (fun _ _ => true) sampleOvertaken
        (Config.init (concurrentTx sampleConcurrent) sampleTables) = true ∧
      (Config.exec ConcurrentOutcome.publish sampleOvertaken
        (Config.init (concurrentTx sampleConcurrent) sampleTables)).map (fun cfg =>
          cfg.history.map fun h => (h.1, h.2.safe?)) = some [(1, none), (0, some false)] := by
    decide +kernel
  obtain ⟨cfg, hcfg, hrun⟩ := Run.of_passes (fun _ _ _ => True.intro) .refl hpass
  rw [hcfg] at hresults
  exact ⟨cfg, hcfg, Option.some.inj hresults,
    validation_atomic sampleTables_reachable.wellFormed rfl hrun⟩

end Sample

end SchemaSentry
