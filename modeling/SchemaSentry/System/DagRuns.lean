import SchemaSentry.Airflow.Tasks
import SchemaSentry.System.Access
import SchemaSentry.System.Releases
/-!
# Schema Sentry — runs of the DAGs

What the runs of `daily_revenue` come to over the states of a server, where
each try of `schema_guard` meets the server in a state of its own and its
call may be lost. The aggregate runs exactly if the first try that the
server hears finds nothing blocking (`aggregate_guarded`), and so not while
a change blocks the pipeline that nothing has released
(`aggregate_awaits_release`). A run of `schema_consistency_scan` that
succeeds has a scan to show for it (`scan_triggered`).
-/

namespace SchemaSentry

open Lib

/-! ## Tries -/

/-- A server and what a worker calls it with, and the texts of the bodies
that the tasks do not read. -/
structure Deployment where
  server : ServerSettings
  environ : Airflow.Environ
  others : Body → Airflow.RawBody

/-- A try of a task: the server its call finds, and what becomes of the
call. -/
structure TaskTry where
  served : Served
  fate : Airflow.Fate

/-- What is no answer of the server's is no answer at all. -/
def TaskTry.Genuine (t : TaskTry) : Prop :=
  match t.fate with
  | .answered _ => True
  | .failed exchange => exchange.Failure

/-- A task's tries in order, and whether the task has succeeded. -/
structure TaskRun where
  tries : List TaskTry
  succeeded : Bool

/-- A run of `daily_revenue`: its guard's, and whether the aggregate has
run. -/
structure DailyRevenueRun where
  guard : TaskRun
  aggregated : Bool

/-- The exceptions after which a task is tried again. -/
def Airflow.TaskException.Retriable (e : Airflow.TaskException) : Prop :=
  ∀ message, e ≠ .airflowFailException message

/-- The pipeline of the DAG. -/
def dailyRevenue : String := "daily_revenue"

/-- No OPEN and BREAKING change's column leads to a pipeline. -/
def DB.Clear (db : DB) (k : String) : Prop :=
  ∀ row ∈ db.schemaChanges, ∀ d ∈ db.datasets, d.id = row.datasetId → row.state = .open →
    row.severity = .breaking → ¬ Reaches db.lineage ⟨d.ref, row.columnName⟩ k

theorem clear_iff {db : DB} {k : String} : db.Clear k ↔ db.blocking k = [] := by
  constructor
  · intro hclear
    refine List.eq_nil_iff_forall_not_mem.2 fun b hb => ?_
    obtain ⟨row, hrow, d, hd, hid, hopen, hsev, hreaches, -⟩ := mem_blocking.1 hb
    exact hclear row hrow d hd hid hopen hsev hreaches
  · intro hnone row hrow d hd hid hopen hsev hreaches
    have hb : blockingChange (row, d) ∈ db.blocking k :=
      mem_blocking.2 ⟨row, hrow, d, hd, hid, hopen, hsev, hreaches, rfl⟩
    rw [hnone] at hb
    cases hb

/-- The server lets a try's call through and knows the pipeline. -/
def TaskTry.Heard (x : Deployment) (t : TaskTry) : Prop :=
  (∃ m, t.fate = .answered m) ∧ (∃ key identity, x.environ.apiKey = some key ∧
    requireOperator x.server { apiKey := some key } = .ok identity) ∧
      ∃ p ∈ t.served.db.pipelines, p.key = dailyRevenue

section Guard

variable [Hashlib]
variable {x : Deployment} {t : TaskTry}

/-- What a try of `schema_guard` returns or raises. -/
def TaskTry.guarded (x : Deployment) (t : TaskTry) : Except Airflow.TaskException Unit :=
  Airflow.schemaGuard x.environ (Airflow.urlopen x.server x.others t.fate t.served.db)

/-- What Airflow promises of `daily_revenue`: the guard is tried three times
at the most, again only after an exception other than
`AirflowFailException`; it has succeeded if its last try has returned; and
the aggregate runs only once it has. -/
structure DailyRevenueRun.Scheduled (x : Deployment) (run : DailyRevenueRun) : Prop where
  bounded : run.guard.tries.length ≤ 3
  retried : ∀ t ∈ run.guard.tries.dropLast, ∃ e, t.guarded x = .error e ∧ e.Retriable
  succeeded : run.guard.succeeded = true ↔
    ∃ t, run.guard.tries.getLast? = some t ∧ t.guarded x = .ok ()
  downstream : run.aggregated = true → run.guard.succeeded = true

/-! ## One try -/

omit [Hashlib] in
theorem decodeBody_error {body : Airflow.RawBody} {e : Airflow.TaskException}
    (h : Airflow.decodeBody body = .error e) : e.Retriable := by
  intro message heq
  subst heq
  unfold Airflow.decodeBody at h
  split at h <;> cases h

/-- The call of the guard's. -/
def guardCall (environ : Airflow.Environ) (key : String) : Airflow.ApiCall :=
  { baseUrl := stripSlashes (environ.apiUrl.getD "http://api:8000")
    path := "/api/v1/pipelines/" ++ dailyRevenue ++ "/validate"
    payload := []
    apiKey := key }

omit [Hashlib] in
/-- The guard reads its call's response. -/
theorem schemaGuard_eq {environ : Airflow.Environ} {key : String}
    (hkey : environ.apiKey = some key) (urlopen : Airflow.ApiCall → Airflow.Exchange) :
    Airflow.schemaGuard environ urlopen =
      (urlopen (guardCall environ key)).response.bind (Airflow.checkValidation dailyRevenue) := by
  unfold Airflow.schemaGuard Airflow.validatePipeline Airflow.postJson
  simp only [hkey]
  rfl

omit [Hashlib] in
/-- **Where there is no answer of the API's the guard is tried again.** -/
theorem schemaGuard_failure {environ : Airflow.Environ}
    {urlopen : Airflow.ApiCall → Airflow.Exchange}
    (h : ∀ key, environ.apiKey = some key → (urlopen (guardCall environ key)).Failure) :
    ∃ e, Airflow.schemaGuard environ urlopen = .error e ∧ e.Retriable := by
  rcases hkey : environ.apiKey with _ | key
  · refine ⟨.raised "KeyError", ?_, fun _ => Airflow.TaskException.noConfusion⟩
    unfold Airflow.schemaGuard Airflow.validatePipeline Airflow.postJson
    simp only [hkey]
    rfl
  · have hfailure := h key hkey
    rw [schemaGuard_eq hkey]
    generalize urlopen (guardCall environ key) = exchange at hfailure
    cases exchange with
    | responded status body => exact hfailure.elim
    | httpError code body =>
      have hcode : code ∉ [200, 409] := hfailure
      simp only [Airflow.Exchange.response]
      rcases hbody : Airflow.decodeBody body with e | fields
      · exact ⟨e, rfl, decodeBody_error hbody⟩
      · have hnot : ¬ (code = 200 ∧ Airflow.saysSafe fields = true) := by
          rintro ⟨rfl, -⟩
          exact hcode List.mem_cons_self
        refine ⟨.airflowException ("Schema Sentry validation failed with HTTP " ++ toString code),
          ?_, fun _ => Airflow.TaskException.noConfusion⟩
        show Airflow.checkValidation dailyRevenue ⟨code, fields⟩ = _
        unfold Airflow.checkValidation
        rw [if_neg hnot, if_neg hcode]
    | osError => exact ⟨_, rfl, fun _ => Airflow.TaskException.noConfusion⟩
    | raised className => exact ⟨_, rfl, fun _ => Airflow.TaskException.noConfusion⟩

omit [Hashlib] in
/-- The guard's call is one of the validation's route. -/
theorem request?_guardCall (environ : Airflow.Environ) (key : String) :
    (guardCall environ key).request? = some (.validatePipeline dailyRevenue) := by
  have hpath : (("/api/v1/pipelines/" ++ dailyRevenue ++ "/validate").toList.splitOn '/').map
      String.ofList = ["", "api", "v1", "pipelines", dailyRevenue, "validate"] := by
    decide +kernel
  unfold Airflow.ApiCall.request? guardCall
  simp only [hpath]

/-- **A try that is heard reads what blocks the pipeline.** -/
theorem guarded_of_heard (hc : t.served.db.Constraints) (h : t.Heard x) :
    t.guarded x = if t.served.db.blocking dailyRevenue = [] then .ok ()
      else .error (.airflowFailException ("blocking schema drift detected for " ++ dailyRevenue)) := by
  obtain ⟨⟨m, hfate⟩, ⟨key, identity, hkey, hoperator⟩, hk⟩ := h
  have hnone : stopped? x.server { apiKey := some key } (.validatePipeline dailyRevenue) = none :=
    (stopped?_eq_none rfl).2 ⟨identity, hoperator, trivial, fun h => (nomatch h)⟩
  have hanswer : Airflow.apiAnswer x.server m t.served.db (guardCall x.environ key) =
      validatePipelineRoute dailyRevenue t.served.db := by
    unfold Airflow.apiAnswer
    rw [request?_guardCall]
    show handle x.server m _ _ _ = _
    unfold handle
    rw [show (guardCall x.environ key).apiKey = key from rfl, hnone]
    rfl
  unfold TaskTry.guarded
  rw [schemaGuard_eq hkey, hfate]
  show (Airflow.exchangeOf x.others (Airflow.apiAnswer x.server m t.served.db
    (guardCall x.environ key)).reply).response.bind _ = _
  rw [hanswer]
  -- the route answers 200 or 409 by what blocks the pipeline
  unfold validatePipelineRoute
  rw [validateResult_eq hc hk]
  by_cases hsafe : t.served.db.blocking dailyRevenue = []
  · rw [if_pos hsafe]
    simp only [hsafe, decide_true, if_true]
    rfl
  · rw [if_neg hsafe]
    simp only [hsafe, decide_false]
    rfl

/-- **A try that is not heard is made again.** -/
theorem guarded_of_not_heard (hc : t.served.db.Constraints) (hgenuine : t.Genuine)
    (h : ¬ t.Heard x) : ∃ e, t.guarded x = .error e ∧ e.Retriable := by
  refine schemaGuard_failure fun key hkey => ?_
  obtain ⟨served, fate⟩ := t
  cases fate with
  | failed exchange => exact hgenuine
  | answered m =>
    -- an answer that is neither 200 nor 409 is no response
    have hfails : ∀ a : Answer, a.reply.status ∉ [200, 409] → 300 ≤ a.reply.status →
        (Airflow.exchangeOf x.others a.reply).Failure := by
      intro a hstatus hlarge
      unfold Airflow.exchangeOf
      rw [if_neg (by omega)]
      exact hstatus
    show (Airflow.exchangeOf x.others (Airflow.apiAnswer x.server m served.db
      (guardCall x.environ key)).reply).Failure
    unfold Airflow.apiAnswer
    rw [request?_guardCall]
    simp only
    unfold handle
    rw [show (guardCall x.environ key).apiKey = key from rfl]
    rcases hoperator : requireOperator x.server { apiKey := some key } with e | identity
    · have hstopped : stopped? x.server { apiKey := some key } (.validatePipeline dailyRevenue) =
          some e := by
        have hneeds : (HttpRequest.validatePipeline dailyRevenue).needsOperator = true := rfl
        unfold stopped?
        rw [if_pos hneeds, hoperator]
      have hstatus := status_of_requireOperator hoperator
      simp only [List.mem_cons, List.not_mem_nil, or_false] at hstatus
      rw [hstopped]
      simp only [raised_eq]
      refine hfails _ ?_ ?_
      · show e.statusCode ∉ [200, 409]
        simp only [List.mem_cons, List.not_mem_nil, or_false]
        omega
      · show 300 ≤ e.statusCode
        omega
    · have hnone : stopped? x.server { apiKey := some key } (.validatePipeline dailyRevenue) =
          none :=
        (stopped?_eq_none rfl).2 ⟨identity, hoperator, trivial, fun h => (nomatch h)⟩
      -- the key is good, so it is the pipeline that is not there: a 404
      have hk : ¬ ∃ p ∈ served.db.pipelines, p.key = dailyRevenue :=
        fun hk => h ⟨⟨m, rfl⟩, ⟨key, identity, hkey, hoperator⟩, hk⟩
      rw [hnone]
      have hstatus : (validatePipelineRoute dailyRevenue served.db).reply.status = 404 := by
        unfold validatePipelineRoute
        rw [validateResult_unknown hc hk]
        rfl
      show (Airflow.exchangeOf x.others
        (validatePipelineRoute dailyRevenue served.db).reply).Failure
      refine hfails _ ?_ ?_
      · rw [hstatus]
        decide
      · omega

/-! ## Runs of the DAG -/

variable {run : DailyRevenueRun}

omit [Hashlib] in
/-- The last try was heard with nothing blocking, and none before it was
heard. -/
def DailyRevenueRun.Cleared (x : Deployment) (run : DailyRevenueRun) : Prop :=
  ∃ before t, run.guard.tries = before ++ [t] ∧ (∀ t' ∈ before, ¬ t'.Heard x) ∧ t.Heard x ∧
    t.served.db.Clear dailyRevenue

omit [Hashlib] in
/-- The first try that is heard decides, and nothing else lets the aggregate
run. -/
structure DailyRevenueRun.Guarded (x : Deployment) (run : DailyRevenueRun) : Prop where
  cleared : run.guard.succeeded = true ↔ run.Cleared x
  aggregated : run.aggregated = true → run.Cleared x
  final : ∀ t ∈ run.guard.tries, t.Heard x → ¬ t.served.db.Clear dailyRevenue →
    run.aggregated = false

theorem DailyRevenueRun.Scheduled.guarded (hscheduled : run.Scheduled x)
    (hgenuine : ∀ t ∈ run.guard.tries, t.Genuine)
    (hc : ∀ t ∈ run.guard.tries, t.served.db.Constraints) : run.Guarded x := by
  have hcleared : run.guard.succeeded = true ↔ run.Cleared x := by
    rw [hscheduled.succeeded]
    constructor
    · rintro ⟨t, hlast, hok⟩
      have htries : run.guard.tries.dropLast ++ [t] = run.guard.tries :=
        List.dropLast_append_getLast? t hlast
      have hmem : t ∈ run.guard.tries := List.mem_of_getLast? hlast
      have hheard : t.Heard x := by
        by_contra hnot
        obtain ⟨e, he, -⟩ := guarded_of_not_heard (hc t hmem) (hgenuine t hmem) hnot
        rw [hok] at he
        cases he
      refine ⟨_, t, htries.symm, fun t' ht' hheard' => ?_, hheard, ?_⟩
      · -- a try that is heard returns, or is the last
        obtain ⟨e, he, hretriable⟩ := hscheduled.retried t' ht'
        rw [guarded_of_heard (hc t' (List.dropLast_subset _ ht')) hheard'] at he
        split at he
        · cases he
        · cases he
          exact hretriable _ rfl
      · rw [clear_iff]
        by_contra hblocked
        rw [guarded_of_heard (hc t hmem) hheard, if_neg hblocked] at hok
        cases hok
    · rintro ⟨before, t, htries, -, hheard, hclear⟩
      have hmem : t ∈ run.guard.tries := by
        rw [htries]
        exact List.mem_append_right _ List.mem_cons_self
      refine ⟨t, by rw [htries, List.getLast?_concat], ?_⟩
      rw [guarded_of_heard (hc t hmem) hheard, if_pos (clear_iff.1 hclear)]
  refine ⟨hcleared, fun h => hcleared.1 (hscheduled.downstream h), fun t ht hheard hblocked => ?_⟩
  by_contra haggregated
  obtain ⟨before, last, htries, hbefore, -, hclear⟩ :=
    hcleared.1 (hscheduled.downstream (Bool.not_eq_false _ ▸ haggregated))
  rw [htries] at ht
  rcases List.mem_append.1 ht with hearlier | hlast
  · exact hbefore t hearlier hheard
  · rw [List.mem_singleton.1 hlast] at hblocked
    exact hblocked hclear

/-- **The guard fails closed**: whatever states its tries find the server in
and whatever becomes of their calls, the aggregate runs only if the first
try that is heard finds no OPEN and BREAKING change that leads to the
pipeline, and the guard lets it run then. -/
theorem aggregate_guarded (hscheduled : run.Scheduled x)
    (hgenuine : ∀ t ∈ run.guard.tries, t.Genuine)
    (hreach : ∀ t ∈ run.guard.tries, t.served.Reachable x.server) : run.Guarded x := by
  refine hscheduled.guarded hgenuine fun t ht => ?_
  obtain ⟨l, hsound, hdb⟩ := (hreach t ht).sound
  rw [← hdb]
  exact hsound.wellFormed.constraints

end Guard

/-! ## Until it is released -/

section Release

variable [Hashlib]
variable {s : ServerSettings} {row : SchemaChangeModel} {d : DatasetModel} {k : String}
variable {w : Served} {l : Ledger} {m : Moment}

/-- A request that is let through releases a pipeline from a change. -/
def HttpRequest.Releases (s : ServerSettings) (m : Moment) (row : SchemaChangeModel)
    (column : ColumnRef) (k : String) (db : DB) (req : HttpRequest) : Prop :=
  (∃ sourceKey, req.source? = some sourceKey ∧
      (Op.scan (m.scanRequest s sourceKey)).Releases row column k db) ∨
    ∃ accept, req.acceptance? m = some accept ∧ (Op.accept accept).Releases row column k db

/-- An event of a server releases a pipeline from a change. -/
def ServerEvent.Releases (s : ServerSettings) (row : SchemaChangeModel) (column : ColumnRef)
    (k : String) (db : DB) : ServerEvent → Prop
  | .request headers req m => stopped? s headers req = none ∧ req.Releases s m row column k db
  | .background _ _ => False
  | .sync document => (Op.sync document).Releases row column k db
  | .restart => False

/-- A change is stored, and blocks a pipeline. -/
structure Blocked (row : SchemaChangeModel) (d : DatasetModel) (k : String) (db : DB) : Prop where
  kept : RowKept row d db
  blocks : db.Blocks k row.id

theorem Blocked.op {db : DB} (h : Blocked row d k db) (hid : d.id = row.datasetId) {op : Op}
    (hop : op.Regular fun _ => True) (hnot : ¬ op.Releases row ⟨d.ref, row.columnName⟩ k db) :
    Blocked row d k (op.apply db) :=
  ⟨h.kept.apply hop, (blocks_apply_iff h.kept hid h.blocks hop).2 hnot⟩

/-- Deliveries block nothing and release nothing. -/
theorem Blocked.deliveriesOnly {db db' : DB} (h : Blocked row d k db)
    (hdb : DeliveriesOnly db db') (hwf : db'.WellFormed) : Blocked row d k db' := by
  have hblocks := (blocks_iff h.kept.wellFormed).1 h.blocks
  have hdataset := h.kept.dataset
  have hrow := h.kept.row
  obtain ⟨f, -, rfl⟩ := hdb
  exact ⟨⟨hwf, hdataset, hrow⟩, (blocks_iff hwf).2 hblocks⟩

/-- A request that does not release the pipeline keeps it blocked. -/
theorem Blocked.handled {req : HttpRequest} {a : Answer} (h : Blocked row d k l.db)
    (hid : d.id = row.datasetId) (hafter : a.db.WellFormed)
    (hhandled : Handled s m req l.db a)
    (hnot : ¬ req.Releases s m row ⟨d.ref, row.columnName⟩ k l.db) : Blocked row d k a.db := by
  have hc := h.kept.wellFormed.constraints
  have hscan : ∀ sourceKey, req.source? = some sourceKey →
      Blocked row d k (postScans (m.scanRequest s sourceKey) l.db) := by
    intro sourceKey hreq
    have hregular : (Op.scan (m.scanRequest s sourceKey)).Regular fun _ => True :=
      ⟨rfl, fun _ _ _ _ => trivial⟩
    exact h.op hid hregular fun hreleases => hnot (Or.inl ⟨sourceKey, hreq, hreleases⟩)
  cases hhandled with
  | told => exact h
  | @scanned sourceKey report body hreq => exact hscan sourceKey hreq
  | @recorded sourceKey source e body hreq =>
    have hscanned := hscan sourceKey hreq
    refine hscanned.deliveriesOnly ?_ hafter
    simp only [Answer.only, afterFailure]
    exact deliveriesOnly_postSystemError hscanned.kept.wellFormed.constraints sourceKey
  | @accepted accept result body hreq =>
    have hregular : (Op.accept accept).Regular fun _ => True := trivial
    exact h.op hid hregular fun hreleases => hnot (Or.inr ⟨accept, hreq, hreleases⟩)
  | @retried deliveryId result =>
    exact h.deliveriesOnly (deliveriesOnly_postRetry hc deliveryId) hafter

/-- **An event that does not release the pipeline keeps it blocked.** -/
theorem Blocked.event (h : Blocked row d k w.db) (hid : d.id = row.datasetId) (hsound : w.Sound)
    {e : ServerEvent} (he : e.Regular)
    (hnot : ¬ e.Releases s row ⟨d.ref, row.columnName⟩ k w.db) :
    Blocked row d k (e.apply s w).db := by
  obtain ⟨l', hsound', hafter⟩ : (e.apply s w).Sound := hsound.apply he
  have hwf := hsound'.wellFormed
  rw [hafter] at hwf
  obtain ⟨l, hsound, hdb⟩ := hsound
  obtain ⟨db, queue⟩ := w
  cases hdb
  have hc := h.kept.wellFormed.constraints
  cases e with
  | request headers req m =>
    rcases hstopped : stopped? s headers req with _ | e
    · exact h.handled hid hwf (SchemaSentry.handled hsound he headers req) fun hreleases =>
        hnot ⟨hstopped, hreleases⟩
    · have hsame : ((ServerEvent.request headers req m).apply s ⟨l.db, queue⟩).db = l.db := by
        show (handle s m headers req l.db).db = l.db
        unfold handle
        simp only [hstopped, raised_eq]
        rfl
      rw [hsame]
      exact h
  | background scanId m =>
    by_cases hmem : scanId ∈ queue
    · have hstep : (ServerEvent.background scanId m).apply s ⟨l.db, queue⟩ =
          { db := postDispatchScan (s.notifications m.transport) scanId m.now l.db
            queue := queue.erase scanId } := if_pos hmem
      rw [hstep] at hwf ⊢
      exact h.deliveriesOnly (deliveriesOnly_postDispatchScan hc scanId) hwf
    · have hstep : (ServerEvent.background scanId m).apply s ⟨l.db, queue⟩ = ⟨l.db, queue⟩ :=
        if_neg hmem
      rw [hstep]
      exact h
  | sync document =>
    have hregular : (Op.sync document).Regular fun _ => True := trivial
    exact h.op hid hregular hnot
  | restart => exact h

/-- **The aggregate awaits the release**: while a change blocks the pipeline
and no event of the server releases it, no run of `daily_revenue` whose
tries meet the server meanwhile runs the aggregate. -/
theorem aggregate_awaits_release {x : Deployment} (hreach : w.Reachable x.server)
    (hrow : row ∈ w.db.schemaChanges) (hd : d ∈ w.db.datasets) (hid : d.id = row.datasetId)
    (hblocks : w.db.Blocks dailyRevenue row.id) {run : DailyRevenueRun}
    (hscheduled : run.Scheduled x) (hgenuine : ∀ t ∈ run.guard.tries, t.Genuine)
    (htries : ∀ t ∈ run.guard.tries, Lib.Path (ServerEvent.apply x.server)
      (fun w e => e.Regular ∧ ¬ e.Releases x.server row ⟨d.ref, row.columnName⟩ dailyRevenue w.db)
      w t.served) : run.aggregated = false := by
  obtain ⟨l, hsound, hdb⟩ := hreach.sound
  have hwf := hsound.wellFormed
  rw [hdb] at hwf
  have hstart : w.Sound ∧ Blocked row d dailyRevenue w.db :=
    ⟨⟨l, hsound, hdb⟩, ⟨hwf, hd, row, hrow, rfl, Or.inl rfl⟩, hblocks⟩
  -- what the events before a try keep is still so when the try arrives
  have hblocked : ∀ t ∈ run.guard.tries, Blocked row d dailyRevenue t.served.db := fun t ht =>
    ((htries t ht).invariant (P := fun w => w.Sound ∧ Blocked row d dailyRevenue w.db) hstart
      fun _ _ hs he => ⟨hs.1.apply he.1, hs.2.event hid hs.1 he.1 he.2⟩).2
  have hguarded : run.Guarded x := hscheduled.guarded hgenuine fun t ht =>
    (hblocked t ht).kept.wellFormed.constraints
  by_contra haggregated
  obtain ⟨before, t, heq, -, -, hclear⟩ :=
    hguarded.aggregated (Bool.not_eq_false _ ▸ haggregated)
  have hmem : t ∈ run.guard.tries := by
    rw [heq]
    exact List.mem_append_right _ List.mem_cons_self
  have hstill := hblocked t hmem
  obtain ⟨r, hr, -, hopen, hsev, d', hd', hdid, hreaches⟩ :=
    (blocks_iff hstill.kept.wellFormed).1 hstill.blocks
  exact hclear r hr d' hd' hdid hopen hsev hreaches

end Release

/-! ## The scan's DAG -/

section Trigger

variable [Hashlib]
variable {x : Deployment} {t : TaskTry} {run : TaskRun}

/-- What a try of `trigger_scan` returns or raises. -/
def TaskTry.triggered (x : Deployment) (t : TaskTry) : Except Airflow.TaskException Unit :=
  Airflow.runSchemaScan x.environ (Airflow.urlopen x.server x.others t.fate t.served.db)

/-- What Airflow promises of `trigger_scan`: it is tried three times at the
most, again only after an exception, and has succeeded if its last try has
returned. -/
structure TaskRun.Scheduled (x : Deployment) (run : TaskRun) : Prop where
  bounded : run.tries.length ≤ 3
  retried : ∀ t ∈ run.tries.dropLast, ∃ e, t.triggered x = .error e
  succeeded : run.succeeded = true ↔
    ∃ t, run.tries.getLast? = some t ∧ t.triggered x = .ok ()

/-- The server scans for a try, and its answer arrives. -/
def TaskTry.Scans (x : Deployment) (t : TaskTry) : Prop :=
  ∃ m key identity report, t.fate = .answered m ∧ x.environ.apiKey = some key ∧
    requireOperator x.server { apiKey := some key } = .ok identity ∧
      scanResult (m.scanRequest x.server "game") t.served.db = .ok report

/-- A collector raises nothing of the service's own, and what is no answer of
the server's is none to a scan. -/
def TaskTry.Fair (t : TaskTry) : Prop :=
  match t.fate with
  | .answered m => m.Regular
  | .failed exchange => ∀ response, exchange.response = .ok response → response.status ≠ 201

/-- A scan's response is sent as a JSON object. -/
def Deployment.SendsScans (x : Deployment) : Prop :=
  ∀ response, ∃ fields, Airflow.decodeBody (x.others (.scan response)) = .ok fields

/-- The call of the scan's. -/
def scanCall (environ : Airflow.Environ) (key : String) : Airflow.ApiCall :=
  { baseUrl := stripSlashes (environ.apiUrl.getD "http://api:8000")
    path := "/api/v1/scans"
    payload := [("source_key", "game")]
    apiKey := key }

omit [Hashlib] in
/-- The task returns after a response of status 201 only. -/
theorem runSchemaScan_iff {environ : Airflow.Environ}
    {urlopen : Airflow.ApiCall → Airflow.Exchange} :
    Airflow.runSchemaScan environ urlopen = .ok () ↔ ∃ key response, environ.apiKey = some key ∧
      (urlopen (scanCall environ key)).response = .ok response ∧ response.status = 201 := by
  unfold Airflow.runSchemaScan Airflow.postJson
  rcases hkey : environ.apiKey with _ | key
  · exact iff_of_false (fun h => (nomatch h)) fun ⟨_, _, h, _⟩ => (nomatch h)
  · show Except.bind (urlopen (scanCall environ key)).response _ = _ ↔ _
    rcases hresponse : (urlopen (scanCall environ key)).response with e | response
    · refine iff_of_false (fun h => (nomatch h)) ?_
      rintro ⟨key', response, hkey', hresponse', -⟩
      cases hkey'
      rw [hresponse] at hresponse'
      cases hresponse'
    · simp only [Except.bind]
      by_cases hstatus : response.status = 201
      · rw [if_neg (not_not.2 hstatus)]
        exact iff_of_true rfl ⟨key, response, rfl, hresponse, hstatus⟩
      · rw [if_pos hstatus]
        refine iff_of_false (fun h => (nomatch h)) ?_
        rintro ⟨key', response', hkey', hresponse', hstatus'⟩
        cases hkey'
        rw [hresponse] at hresponse'
        cases hresponse'
        exact hstatus hstatus'

omit [Hashlib] in
/-- The task's call is one for a scan. -/
theorem request?_scanCall (environ : Airflow.Environ) (key : String) :
    (scanCall environ key).request? = some (.runScan "game") := by
  have hpath : ("/api/v1/scans".toList.splitOn '/').map String.ofList =
      ["", "api", "v1", "scans"] := by decide +kernel
  unfold Airflow.ApiCall.request? scanCall
  simp only [hpath]
  rfl

omit [Hashlib] in
/-- A response has the status of the reply. -/
theorem status_of_exchangeOf {others : Body → Airflow.RawBody} {reply : Reply}
    {response : Airflow.JsonResponse}
    (h : (Airflow.exchangeOf others reply).response = .ok response) :
    response.status = reply.status := by
  have hdecoded : ((Airflow.decodeBody (Airflow.rawBody others reply.body)).map fun fields =>
      ({ status := reply.status, body := fields } : Airflow.JsonResponse)) = .ok response := by
    unfold Airflow.exchangeOf at h
    split at h
    · exact h
    · exact h
  rcases hbody : Airflow.decodeBody (Airflow.rawBody others reply.body) with e | fields
  · rw [hbody] at hdecoded
    cases hdecoded
  · rw [hbody] at hdecoded
    cases hdecoded
    rfl

/-- What the server answers to the task's call. -/
theorem apiAnswer_scanCall (s : ServerSettings) (m : Moment) (db : DB) (environ : Airflow.Environ)
    (key : String) : Airflow.apiAnswer s m db (scanCall environ key) =
      handle s m { apiKey := some key } (.runScan "game") db := by
  unfold Airflow.apiAnswer
  rw [request?_scanCall]
  rfl

omit [Hashlib] in
theorem not_stopped_scan {s : ServerSettings} {key : String} {identity : OperatorIdentity}
    (h : requireOperator s { apiKey := some key } = .ok identity) :
    stopped? s { apiKey := some key } (.runScan "game") = none :=
  (stopped?_eq_none rfl).2 ⟨identity, h, by decide, fun h => (nomatch h)⟩

/-- A scan that completes is answered with 201. -/
theorem handle_runScan_ok {s : ServerSettings} {m : Moment} {db : DB} {headers : Headers}
    {sourceKey : String} {report : ScanReport}
    (hnone : stopped? s headers (.runScan sourceKey) = none)
    (h : scanResult (m.scanRequest s sourceKey) db = .ok report) :
    handle s m headers (.runScan sourceKey) db =
      { reply := ⟨201, .scan (ScanResponse.fromReport report)⟩
        db := postScans (m.scanRequest s sourceKey) db, queued := [report.scanId] } := by
  unfold handle
  rw [hnone]
  show runScanRoute s m sourceKey db = _
  unfold runScanRoute
  simp only [h]

/-- **A try returns exactly if the server has scanned for it** and its answer
arrives. -/
theorem triggered_iff (hsound : t.served.Sound) (hfair : t.Fair) (hsends : x.SendsScans) :
    t.triggered x = .ok () ↔ t.Scans x := by
  obtain ⟨l, hsound, hdb⟩ := hsound
  obtain ⟨⟨db, queue⟩, fate⟩ := t
  cases hdb
  unfold TaskTry.triggered
  rw [runSchemaScan_iff]
  cases fate with
  | failed exchange =>
    refine iff_of_false ?_ fun ⟨_, _, _, _, hfate, _⟩ => (nomatch hfate)
    rintro ⟨key, response, -, hresponse, hstatus⟩
    exact hfair response hresponse hstatus
  | answered m =>
    constructor
    · rintro ⟨key, response, hkey, hresponse, hstatus⟩
      have hreply : (handle x.server m { apiKey := some key } (.runScan "game")
          l.db).reply.status = 201 := by
        rw [← apiAnswer_scanCall x.server m l.db x.environ key]
        exact (status_of_exchangeOf hresponse).symm.trans hstatus
      rcases hstopped : stopped? x.server { apiKey := some key } (.runScan "game") with _ | e
      · obtain ⟨identity, hoperator, -⟩ := (stopped?_eq_none rfl).1 hstopped
        have hhandled : Handled x.server m (.runScan "game") l.db
            (handle x.server m { apiKey := some key } (.runScan "game") l.db) :=
          SchemaSentry.handled hsound hfair _ _
        generalize handle x.server m { apiKey := some key } (.runScan "game") l.db = a
          at hreply hhandled
        cases hhandled with
        | told _ hnot => exact absurd hreply hnot
        | scanned hreq hresult =>
          cases hreq
          exact ⟨m, key, identity, _, rfl, hkey, hoperator, hresult⟩
        | recorded => cases hreply
        | accepted => cases hreply
        | retried => cases hreply
      · -- what stops a request has another status
        have hcode := status_of_stopped hstopped
        unfold handle at hreply
        simp only [hstopped, raised_eq] at hreply
        have hsame : e.statusCode = 201 := hreply
        simp only [hsame] at hcode
        exact absurd hcode (by decide)
    · rintro ⟨m', key, identity, report, hfate, hkey, hoperator, hresult⟩
      cases hfate
      obtain ⟨fields, hfields⟩ := hsends (ScanResponse.fromReport report)
      refine ⟨key, ⟨201, fields⟩, hkey, ?_, rfl⟩
      show (Airflow.exchangeOf x.others
        (Airflow.apiAnswer x.server m l.db (scanCall x.environ key)).reply).response = _
      rw [apiAnswer_scanCall, handle_runScan_ok (not_stopped_scan hoperator) hresult]
      show (Airflow.decodeBody (x.others (.scan (ScanResponse.fromReport report)))).map _ = _
      rw [hfields]
      rfl

/-- A server's run keeps the scans that are recorded. -/
theorem Served.Sound.archived {s : ServerSettings} {w w' : Served} (h : w.Sound)
    (hpath : Lib.Path (ServerEvent.apply s) (fun _ e => e.Regular) w w') :
    Archived w.db w'.db := by
  refine (hpath.invariant (P := fun v => v.Sound ∧ Archived w.db v.db) ⟨h, .refl _⟩
    fun v e hv he => ?_).2
  obtain ⟨⟨l, hsound, hdb⟩, hkept⟩ := hv
  obtain ⟨l', hledger, hafter⟩ := follows_event hsound hdb he
  obtain ⟨hsound', hstep⟩ := archived_run hsound hledger
  rw [hdb, hafter] at hstep
  exact ⟨⟨l', hsound', hafter⟩, hkept.trans hstep⟩

/-- A run of `schema_consistency_scan` has succeeded exactly if its last try
has been scanned for, none before it having been, and the scan a try returns
for is recorded, waits for its dispatch and is there ever after. -/
structure TaskRun.Triggered (x : Deployment) (run : TaskRun) : Prop where
  succeeded : run.succeeded = true ↔ ∃ before t, run.tries = before ++ [t] ∧
    (∀ t' ∈ before, ¬ t'.Scans x) ∧ t.Scans x
  recorded : ∀ t ∈ run.tries, t.triggered x = .ok () → ∃ key m scanId after,
    x.environ.apiKey = some key ∧ after = (ServerEvent.request { apiKey := some key }
      (.runScan "game") m).apply x.server t.served ∧ t.fate = .answered m ∧
        Completed "game" scanId t.served.db after.db ∧ after.queue = t.served.queue ++ [scanId] ∧ ∀ later,
          Lib.Path (ServerEvent.apply x.server) (fun _ e => e.Regular) after later →
            ∃ scan ∈ later.db.scanRuns, scan.id = scanId ∧ scan.status = .completed

/-- **A run that succeeds has one scan to show for it**: whatever states its
tries find the server in and whatever becomes of their calls, it succeeds
exactly if its last try's scan completes and is answered, no try before it
has been answered so, and that scan is recorded for good. -/
theorem scan_triggered (hscheduled : run.Scheduled x) (hfair : ∀ t ∈ run.tries, t.Fair)
    (hsends : x.SendsScans) (hreach : ∀ t ∈ run.tries, t.served.Reachable x.server) :
    run.Triggered x := by
  have hiff : ∀ t ∈ run.tries, (t.triggered x = .ok () ↔ t.Scans x) := fun t ht =>
    triggered_iff (hreach t ht).sound (hfair t ht) hsends
  refine ⟨?_, fun t ht hok => ?_⟩
  · rw [hscheduled.succeeded]
    constructor
    · rintro ⟨t, hlast, hok⟩
      have htries : run.tries.dropLast ++ [t] = run.tries := List.dropLast_append_getLast? t hlast
      -- a try before the last has raised, so its scan was not answered
      refine ⟨_, t, htries.symm, fun t' ht' hscans => ?_,
        (hiff t (List.mem_of_getLast? hlast)).1 hok⟩
      obtain ⟨e, he⟩ := hscheduled.retried t' ht'
      rw [(hiff t' (List.dropLast_subset _ ht')).2 hscans] at he
      cases he
    · rintro ⟨before, t, htries, -, hscans⟩
      have hmem : t ∈ run.tries := by
        rw [htries]
        exact List.mem_append_right _ List.mem_cons_self
      exact ⟨t, by rw [htries, List.getLast?_concat], (hiff t hmem).2 hscans⟩
  · obtain ⟨m, key, identity, report, hfate, hkey, hoperator, hresult⟩ := (hiff t ht).1 hok
    have hsound := (hreach t ht).sound
    have hregular : (ServerEvent.request { apiKey := some key } (.runScan "game") m).Regular := by
      have hm := hfair t ht
      rw [TaskTry.Fair, hfate] at hm
      exact hm
    have hhandle := handle_runScan_ok (not_stopped_scan hoperator) hresult
    have hcompleted : Completed "game" report.scanId t.served.db
        ((ServerEvent.request { apiKey := some key } (.runScan "game") m).apply x.server
          t.served).db := by
      obtain ⟨l, hledger, hdb⟩ := hsound
      have hwf := hledger.wellFormed
      rw [hdb] at hwf
      simp only [ServerEvent.apply, hhandle]
      exact completed_of_ok hwf rfl hresult
    refine ⟨key, m, report.scanId, _, hkey, rfl, hfate, hcompleted, ?_, fun later hlater => ?_⟩
    · simp only [ServerEvent.apply, hhandle]
    · obtain ⟨source, scan, ds, -, hid, -, hstatus, hruns, -⟩ := hcompleted
      have hscan : scan ∈ ((ServerEvent.request { apiKey := some key } (.runScan "game") m).apply
          x.server t.served).db.scanRuns := by
        rw [hruns]
        exact List.mem_append_right _ List.mem_cons_self
      have harchived := (hsound.apply hregular).archived hlater
      exact ⟨scan, harchived.notes.scans scan hscan, hid, hstatus⟩

end Trigger

section Sample

attribute [local instance] Hashlib.plain

/-- A catalog with the DAG's pipeline. -/
def sampleRevenue : CatalogConfig :=
  { pipelines := [{ key := "daily_revenue", airflowDagId := "daily_revenue", owner := "data"
                    criticality := .high, inputs := [⟨"public.users", ["id"]⟩]
                    outputs := [⟨"public.mart", ["id"]⟩] }] }

/-- A scan, the sync of the catalog, and a scan that misses the column the
pipeline reads. -/
def sampleEvents : List ServerEvent :=
  [.request sampleHeaders (.runScan "crm") (sampleFound
      [sampleColumn "users" "id" "integer" false, sampleColumn "mart" "id" "integer" false]),
    .sync (some sampleRevenue),
    .request sampleHeaders (.runScan "crm") (sampleFound [sampleColumn "mart" "id" "integer" false])]

def sampleBroken : Served :=
  sampleEvents.foldl (fun w e => e.apply sampleServer w) ⟨sampleStart, []⟩

def sampleDeployment : Deployment :=
  { server := sampleServer, environ := { apiKey := some "s3cret" }, others := fun _ => .empty }

/-- A run whose first call is lost, and whose second finds a pipeline that is
blocked. -/
def lostRun (w : Served) : DailyRevenueRun :=
  { guard := { tries := [⟨w, .failed .osError⟩, ⟨w, .answered sampleMoment⟩], succeeded := false }
    aggregated := false }

theorem lostRun_scheduled {x : Deployment} {w : Served} (hc : w.db.Constraints)
    (hheard : TaskTry.Heard x ⟨w, .answered sampleMoment⟩)
    (hblocked : w.db.blocking dailyRevenue ≠ []) : (lostRun w).Scheduled x := by
  refine ⟨?_, fun t ht => ?_, iff_of_false Bool.false_ne_true ?_, id⟩
  · show 2 ≤ 3
    omega
  · obtain rfl : t = ⟨w, .failed .osError⟩ := List.mem_singleton.1 ht
    exact schemaGuard_failure fun _ _ => trivial
  · rintro ⟨t, hlast, hok⟩
    obtain rfl : ⟨w, .answered sampleMoment⟩ = t := Option.some.inj hlast
    rw [guarded_of_heard hc hheard, if_neg hblocked] at hok
    cases hok

theorem lostRun_genuine {w : Served} : ∀ t ∈ (lostRun w).guard.tries, t.Genuine := by
  intro t ht
  simp only [lostRun, List.mem_cons, List.not_mem_nil, or_false] at ht
  rcases ht with rfl | rfl
  · trivial
  · trivial

theorem served_of_lostRun {w : Served} {t : TaskTry} (ht : t ∈ (lostRun w).guard.tries) :
    t.served = w := by
  simp only [lostRun, List.mem_cons, List.not_mem_nil, or_false] at ht
  rcases ht with rfl | rfl
  · rfl
  · rfl

theorem sampleBroken_reachable : sampleBroken.Reachable sampleServer := by
  refine ⟨_, sampleStart_initial, Lib.Path.of_events sampleEvents fun e he _ => ?_⟩
  simp only [sampleEvents, List.mem_cons, List.not_mem_nil, or_false] at he
  rcases he with rfl | rfl | rfl
  · exact fun _ h => (nomatch h)
  · trivial
  · exact fun _ h => (nomatch h)

/-- The tables after the first scan, and with the catalog. -/
def sampleScanned : DB :=
  { sampleTables with pipelines := [], lineageEdges := [], nextId := 4 }

def sampleLinked : DB :=
  { sampleTables with pipelines := [⟨4, "daily_revenue", "daily_revenue", "data", .high⟩] }

/-- What a scan that completes leaves. -/
theorem db_runScan {m : Moment} {db : DB} {report : ScanReport}
    (h : scanResult (m.scanRequest sampleServer "crm") db = .ok report) :
    (handle sampleServer m sampleHeaders (.runScan "crm") db).db =
      postScans (m.scanRequest sampleServer "crm") db := by
  have hnone : stopped? sampleServer sampleHeaders (.runScan "crm") = none := by decide +kernel
  rw [handle_runScan_ok hnone h]

theorem sampleBroken_db : sampleBroken.db = postScans sampleLoss sampleLinked := by
  have hfirst : scanResult ((sampleFound [sampleColumn "users" "id" "integer" false,
      sampleColumn "mart" "id" "integer" false]).scanRequest sampleServer "crm") sampleStart =
        .ok ⟨1, "crm", .manual, true, 2, []⟩ := by decide +kernel
  have hscanned : postScans ((sampleFound [sampleColumn "users" "id" "integer" false,
      sampleColumn "mart" "id" "integer" false]).scanRequest sampleServer "crm") sampleStart =
        sampleScanned := by decide +kernel
  have hlinked : syncCatalog (some sampleRevenue) sampleScanned = sampleLinked := by decide +kernel
  have hsecond : scanResult ((sampleFound [sampleColumn "mart" "id" "integer" false]).scanRequest
      sampleServer "crm") sampleLinked = .ok sampleLossReport := by decide +kernel
  have hevents : sampleBroken.db = (handle sampleServer
      (sampleFound [sampleColumn "mart" "id" "integer" false]) sampleHeaders (.runScan "crm")
      (syncCatalog (some sampleRevenue) (handle sampleServer
        (sampleFound [sampleColumn "users" "id" "integer" false,
          sampleColumn "mart" "id" "integer" false]) sampleHeaders (.runScan "crm")
            sampleStart).db)).db := by
    unfold sampleBroken sampleEvents
    simp only [List.foldl_cons, List.foldl_nil, ServerEvent.apply]
  rw [hevents, db_runScan hfirst, hscanned, hlinked, db_runScan hsecond]
  rfl

theorem sampleBroken_blocks : sampleBroken.db.Blocks dailyRevenue sampleMissingRow.id := by
  have hv : validateResult dailyRevenue (postScans sampleLoss sampleLinked) = .ok
      { pipelineKey := dailyRevenue, safe := false
        blockingChanges := [⟨6, ⟨"public", "users"⟩, "id", .dropColumn, .breaking⟩] } := by
    decide +kernel
  rw [sampleBroken_db]
  exact ⟨_, hv, _, List.mem_cons_self, rfl⟩

theorem sampleRun_scheduled : (lostRun sampleBroken).Scheduled sampleDeployment := by
  obtain ⟨l, hsound, hdb⟩ := sampleBroken_reachable.sound
  have hwf := hsound.wellFormed
  rw [hdb] at hwf
  have hoperator : requireOperator sampleServer { apiKey := some "s3cret" } =
      .ok { subject := "api-client", mechanism := .apiKey } := rfl
  have hk : ∃ p ∈ sampleBroken.db.pipelines, p.key = dailyRevenue := by
    rw [sampleBroken_db]
    decide +kernel
  have hblocked : sampleBroken.db.blocking dailyRevenue ≠ [] := by
    obtain ⟨r, hr, -, hopen, hsev, d, hd, hid, hreaches⟩ := (blocks_iff hwf).1 sampleBroken_blocks
    exact fun hnone => clear_iff.2 hnone r hr d hd hid hopen hsev hreaches
  exact lostRun_scheduled hwf.constraints ⟨⟨_, rfl⟩, ⟨_, _, rfl, hoperator⟩, hk⟩ hblocked

theorem aggregate_guarded_sample : (lostRun sampleBroken).Guarded sampleDeployment :=
  aggregate_guarded sampleRun_scheduled lostRun_genuine fun t ht => by
    rw [served_of_lostRun ht]
    exact sampleBroken_reachable

/-- In the sample the aggregate does not run. -/
theorem aggregate_awaits_release_sample : (lostRun sampleBroken).aggregated = false := by
  have hrow : sampleMissingRow ∈ sampleBroken.db.schemaChanges := by
    rw [sampleBroken_db]
    decide +kernel
  have hd : (⟨2, 0, "public", "users"⟩ : DatasetModel) ∈ sampleBroken.db.datasets := by
    rw [sampleBroken_db]
    decide +kernel
  refine aggregate_awaits_release (x := sampleDeployment) sampleBroken_reachable hrow hd rfl
    sampleBroken_blocks sampleRun_scheduled lostRun_genuine fun t ht => ?_
  rw [served_of_lostRun ht]
  exact .refl

/-- A server of the DAG's source. -/
def sampleGame : Served := ⟨{ sources := [{ id := 0, key := "game" }], nextId := 1 }, []⟩

def sampleUsers : Moment := sampleFound [sampleColumn "users" "id" "integer" false]

/-- A run whose first call is lost, and whose second is answered. -/
def sampleTrigger : TaskRun :=
  { tries := [⟨sampleGame, .failed .osError⟩, ⟨sampleGame, .answered sampleUsers⟩]
    succeeded := true }

theorem sampleGame_reachable : sampleGame.Reachable sampleServer :=
  ⟨_, ⟨by decide, by decide, by decide, rfl⟩, .refl⟩

theorem sampleUsers_regular : sampleUsers.Regular := fun _ h => (nomatch h)

theorem sampleTrigger_fair : ∀ t ∈ sampleTrigger.tries, t.Fair := by
  intro t ht
  simp only [sampleTrigger, List.mem_cons, List.not_mem_nil, or_false] at ht
  rcases ht with rfl | rfl
  · exact fun _ h => (nomatch h)
  · exact sampleUsers_regular

theorem sampleDeployment_sends : sampleDeployment.SendsScans := fun _ => ⟨[], rfl⟩

theorem sampleTrigger_scheduled : sampleTrigger.Scheduled sampleDeployment := by
  have hoperator : requireOperator sampleServer { apiKey := some "s3cret" } =
      .ok { subject := "api-client", mechanism := .apiKey } := rfl
  have hresult : scanResult (sampleUsers.scanRequest sampleServer "game") sampleGame.db =
      .ok ⟨1, "game", .manual, true, 1, []⟩ := by decide +kernel
  have hscans : TaskTry.Scans sampleDeployment ⟨sampleGame, .answered sampleUsers⟩ :=
    ⟨_, _, _, _, rfl, rfl, hoperator, hresult⟩
  refine ⟨?_, fun t ht => ?_, iff_of_true rfl ⟨_, rfl, ?_⟩⟩
  · show 2 ≤ 3
    omega
  · obtain rfl : t = ⟨sampleGame, .failed .osError⟩ := List.mem_singleton.1 ht
    exact ⟨.airflowException "Schema Sentry API is unavailable", rfl⟩
  · have hfair : TaskTry.Fair ⟨sampleGame, .answered sampleUsers⟩ := sampleUsers_regular
    exact (triggered_iff sampleGame_reachable.sound hfair sampleDeployment_sends).2 hscans

theorem scan_triggered_sample : sampleTrigger.Triggered sampleDeployment := by
  refine scan_triggered sampleTrigger_scheduled sampleTrigger_fair sampleDeployment_sends
    fun t ht => ?_
  simp only [sampleTrigger, List.mem_cons, List.not_mem_nil, or_false] at ht
  rcases ht with rfl | rfl
  · exact sampleGame_reachable
  · exact sampleGame_reachable

end Sample

end SchemaSentry
