import SchemaSentry.System.Server
/-!
# Schema Sentry — requests that are let through

A request that is not let through, or that only reads, leaves no trace: a
run of the server comes to what the rest of its events come to
(`unauthorized_without_trace`). In production what is let through presents
the key or is vouched for by the proxy, and a form of the dashboard comes
from a page of the dashboard.
-/

namespace SchemaSentry

open Lib

/-! ## Who is let through -/

section Access

variable {s : ServerSettings} {headers : Headers} {identity : OperatorIdentity}

/-- The request comes from a page of the dashboard's address. -/
def Headers.SameOrigin (headers : Headers) (s : ServerSettings) : Prop :=
  ∃ url origin, headers.suppliedUrl = some url ∧ urlsplit url = .ok origin ∧
    urlsplit s.dashboardBaseUrl = .ok origin

theorem requireSameOrigin_eq_ok : requireSameOrigin s headers identity = .ok () ↔
    headers.SameOrigin s ∨ headers.suppliedUrl = none ∧ identity.mechanism = .apiKey := by
  unfold requireSameOrigin Headers.SameOrigin
  rcases headers.suppliedUrl with _ | url
  · simp
  · have hbind : (do
        let supplied ← urlsplit url
        let expected ← urlsplit s.dashboardBaseUrl
        if supplied = expected then .ok () else .error (.httpException 403) :
          Except PyException Unit) = .ok () ↔
        ∃ origin, urlsplit url = .ok origin ∧ urlsplit s.dashboardBaseUrl = .ok origin := by
      rcases urlsplit url with e | supplied
      · exact ⟨fun h => (nomatch h), fun ⟨_, h, _⟩ => (nomatch h)⟩
      · rcases urlsplit s.dashboardBaseUrl with e | expected
        · exact ⟨fun h => (nomatch h), fun ⟨_, _, h⟩ => (nomatch h)⟩
        · by_cases hsame : supplied = expected
          · exact iff_of_true (if_pos hsame) ⟨expected, by rw [hsame], rfl⟩
          · refine iff_of_false (fun h => ?_) fun ⟨origin, h, h'⟩ => ?_
            · have hrefused : (if supplied = expected then .ok () else
                .error (.httpException 403) : Except PyException Unit) = .ok () := h
              rw [if_neg hsame] at hrefused
              cases hrefused
            · cases h
              cases h'
              exact hsame rfl
    simp only [hbind, Option.some.injEq, exists_and_left, exists_eq_left', reduceCtorEq, false_and,
      or_false]

/-- A request of production that may act: its sender holds the key or is
vouched for, its fields are in bounds and, where it is a form of the
dashboard, it comes from there. -/
def ServerEvent.Warranted (s : ServerSettings) : ServerEvent → Prop
  | .request headers req _ => req.changes = true ∧ req.Valid ∧
      (headers.PresentsKey s ∨ ∃ user, headers.Vouched s user) ∧
      (req.isAction = true →
        headers.SameOrigin s ∨ headers.suppliedUrl = none ∧ headers.PresentsKey s)
  | _ => True

/-- An event that may have an effect: no request that is stopped or only
reads. -/
def ServerEvent.operative (s : ServerSettings) : ServerEvent → Bool
  | .request headers req _ => req.changes && (stopped? s headers req).isNone
  | _ => true

theorem needsOperator_of_changes {req : HttpRequest} (h : req.changes = true) :
    req.needsOperator = true := by
  cases req with
  | latestScan | getScan | dashboard | validatePipeline => cases h
  | _ => rfl

/-- A request is let through where nothing stops it. -/
theorem stopped?_eq_none {req : HttpRequest} (h : req.needsOperator = true) :
    stopped? s headers req = none ↔ ∃ identity, requireOperator s headers = .ok identity ∧
      req.Valid ∧ (req.isAction = true → requireSameOrigin s headers identity = .ok ()) := by
  unfold stopped?
  rw [if_pos h]
  rcases requireOperator s headers with e | identity
  · exact ⟨fun h => (nomatch h), fun ⟨_, h, _⟩ => (nomatch h)⟩
  · simp only [Except.ok.injEq, exists_eq_left']
    by_cases hvalid : req.Valid
    · rw [if_neg (not_not.2 hvalid)]
      by_cases haction : req.isAction = true
      · rw [if_pos haction]
        rcases requireSameOrigin s headers identity with e | _
        · exact iff_of_false (fun h => (nomatch h)) fun h => (nomatch h.2 haction)
        · exact iff_of_true rfl ⟨hvalid, fun _ => rfl⟩
      · rw [if_neg haction]
        exact iff_of_true rfl ⟨hvalid, fun h => absurd h haction⟩
    · rw [if_pos hvalid]
      exact iff_of_false (fun h => (nomatch h)) fun h => hvalid h.1

/-- **In production, what may have an effect is what is warranted.** -/
theorem operative_iff (hproduction : s.environment = .production) (e : ServerEvent) :
    e.operative s = true ↔ e.Warranted s := by
  rcases e with ⟨headers, req, m⟩ | _ | _ | _
  · by_cases hchanges : req.changes = true
    · have hdev : ¬ (s.environment = .development ∧ s.authDisabled = true) := by
        rw [hproduction]
        exact fun h => (nomatch h.1)
      have hnodev : ∀ identity : OperatorIdentity, ¬ (s.environment = .development ∧ s.authDisabled = true ∧
          identity = ⟨"local-development", .bypass⟩) := fun _ h => hdev ⟨h.1, h.2.1⟩
      have hoperator : ∀ identity, requireOperator s headers = .ok identity ↔
          headers.PresentsKey s ∧ identity = ⟨"api-client", .apiKey⟩ ∨
            ¬ headers.PresentsKey s ∧ headers.Vouched s identity.subject ∧
              identity.mechanism = .proxy := by
        intro identity
        rw [requireOperator_eq_ok, or_iff_right (hnodev identity), and_iff_right hdev]
      unfold ServerEvent.operative ServerEvent.Warranted
      rw [Bool.and_eq_true, Option.isNone_iff_eq_none, and_congr_right_iff]
      intro
      rw [stopped?_eq_none (needsOperator_of_changes hchanges)]
      simp only [hoperator, requireSameOrigin_eq_ok]
      constructor
      · rintro ⟨identity, ⟨hkey, rfl⟩ | ⟨hnot, hvouched, hproxy⟩, hvalid, hsame⟩
        · exact ⟨hvalid, Or.inl hkey, fun h => (hsame h).imp_right fun h => ⟨h.1, hkey⟩⟩
        · refine ⟨hvalid, Or.inr ⟨_, hvouched⟩, fun h => (hsame h).imp_right fun h => ?_⟩
          rw [hproxy] at h
          cases h.2
      · rintro ⟨hvalid, hwho, hsame⟩
        by_cases hkey : headers.PresentsKey s
        · exact ⟨_, Or.inl ⟨hkey, rfl⟩, hvalid, fun h => (hsame h).imp_right fun h => ⟨h.1, rfl⟩⟩
        · obtain ⟨user, hvouched⟩ := hwho.resolve_left hkey
          exact ⟨⟨user, .proxy⟩, Or.inr ⟨hkey, hvouched, rfl⟩, hvalid,
            fun h => (hsame h).imp_right fun h => absurd h.2 hkey⟩
    · simp [ServerEvent.operative, ServerEvent.Warranted, hchanges]
  all_goals simp [ServerEvent.operative, ServerEvent.Warranted]

end Access

/-! ## Without a trace -/

section Trace

variable [Hashlib]
variable {s : ServerSettings} {w : Served}

/-- The server's states with a ledger behind them. -/
def Served.Sound (w : Served) : Prop := ∃ l : Ledger, l.Sound ∧ l.db = w.db

theorem Served.Reachable.sound (h : w.Reachable s) : w.Sound := by
  obtain ⟨-, l, -, -, hsound, hdb⟩ := h.follows
  exact ⟨l, hsound, hdb⟩

theorem Served.Sound.apply (h : w.Sound) {e : ServerEvent} (he : e.Regular) :
    (e.apply s w).Sound := by
  obtain ⟨l, hsound, hdb⟩ := h
  obtain ⟨l', hpath, hdb'⟩ := follows_event (s := s) hsound hdb he
  exact ⟨l', hpath.invariant hsound fun _ _ hs hr => hs.apply hr, hdb'⟩

/-- A request that is stopped or only reads leaves no trace. -/
theorem apply_of_not_operative (h : w.Sound) {e : ServerEvent} (he : e.Regular)
    (hnot : e.operative s = false) : e.apply s w = w := by
  rcases e with ⟨headers, req, m⟩ | _ | _ | _
  · have hidle : (handle s m headers req w.db).db = w.db ∧
        (handle s m headers req w.db).queued = [] := by
      obtain ⟨l, hsound, hdb⟩ := h
      have hhonest : Honest s m req l.db (handle s m headers req l.db) :=
        (handled hsound he headers req).honest hsound.wellFormed (answered hsound headers)
      rw [hdb] at hhonest
      rcases hchanges : req.changes with _ | _
      · exact hhonest.unchanged (Or.inl hchanges)
      · have hstopped : stopped? s headers req ≠ none := by
          rw [ServerEvent.operative, hchanges, Bool.true_and] at hnot
          intro hnone
          rw [hnone] at hnot
          cases hnot
        obtain ⟨e, hsome⟩ := Option.ne_none_iff_exists'.1 hstopped
        have hraised : handle s m headers req w.db = .only e.statusCode .none w.db := by
          unfold handle
          rw [hsome]
          exact raised_eq e w.db
        rw [hraised]
        exact ⟨rfl, rfl⟩
    rw [ServerEvent.apply, hidle.1, hidle.2, List.append_nil]
  all_goals cases hnot

/-- A run comes to what its operative events alone come to. -/
theorem run_eq_operative (h : w.Sound) {es : List ServerEvent} (hes : ∀ e ∈ es, e.Regular) :
    es.foldl (fun w e => e.apply s w) w =
      (es.filter (ServerEvent.operative s)).foldl (fun w e => e.apply s w) w := by
  have hkept : ∀ (w : Served) (e : ServerEvent), w.Sound → e.Regular → (e.apply s w).Sound :=
    fun _ _ hs he => hs.apply he
  have hidle : ∀ (w : Served) (e : ServerEvent), w.Sound → e.Regular → e.operative s = false →
      e.apply s w = w := fun _ _ hs he hnot => apply_of_not_operative hs he hnot
  exact Path.foldl_filter hkept hidle es hes h

/-- **Requests that are not let through leave no trace**: whatever state a
server is in, a run comes to what its operative events alone come to, and
in production these are the warranted ones. -/
theorem unauthorized_without_trace (hreach : w.Reachable s) (es : List ServerEvent)
    (hes : ∀ e ∈ es, e.Regular) :
    es.foldl (fun w e => e.apply s w) w =
        (es.filter (ServerEvent.operative s)).foldl (fun w e => e.apply s w) w ∧
      (s.environment = .production →
        ∀ e : ServerEvent, e.operative s = true ↔ e.Warranted s) :=
  ⟨run_eq_operative hreach.sound hes, fun hproduction e => operative_iff hproduction e⟩

end Trace

/-! ## The dashboard and the API -/

section Dashboard

/-- The API's request for what a form of the dashboard asks for. -/
def HttpRequest.viaApi : HttpRequest → HttpRequest
  | .scanAction sourceKey => .runScan (sourceKey.getD "game")
  | .acceptAction changeId baselineVersion => .acceptChange changeId baselineVersion
  | req => req

def ServerEvent.viaApi : ServerEvent → ServerEvent
  | .request headers req m => .request headers req.viaApi m
  | e => e

variable [Hashlib]
variable {s : ServerSettings} {w : Served} {m : Moment} {l : Ledger}

/-- An answer does what another does, and says so by its status. -/
structure Answer.Agrees (a b : Answer) : Prop where
  db : a.db = b.db
  queued : a.queued = b.queued
  status : a.reply.status = if b.reply.status = 201 then 200 else b.reply.status

omit [Hashlib] in
theorem agrees_raised {e : PyException} {db : DB} (h : e.statusCode ≠ 201) :
    (Answer.raised e db).Agrees (.raised e db) := by
  refine ⟨rfl, rfl, ?_⟩
  rw [raised_eq]
  exact (if_neg h).symm

/-- A change list rendered of sound tables agrees with a plain reply. -/
theorem agrees_rendered (hsound : l.Sound) {status : ℕ} {message kind : String} {db db' : DB}
    {queued : List Uuid} {b : Answer} (hdb : l.db = db') (hb : b.db = db') (hq : b.queued = queued)
    (hstatus : status = if b.reply.status = 201 then 200 else b.reply.status) :
    (renderChangeList status message kind db' db queued).Agrees b := by
  subst hdb
  obtain ⟨body, -, hrender⟩ := hsound.renders status message kind db queued
  rw [hrender]
  exact ⟨hb.symm, hq.symm, hstatus⟩

theorem agrees_scan (hsound : l.Sound) (hm : m.Regular) (sourceKey : String) :
    (scanAction s m sourceKey l.db).Agrees (runScanRoute s m sourceKey l.db) := by
  have hcollector : ∀ e, (m.scanRequest s sourceKey).collected = .error e → e.isService = false := hm
  unfold scanAction runScanRoute
  rcases hresult : scanResult (m.scanRequest s sourceKey) l.db with e | report
  · rcases scan_told hsound.wellFormed rfl hcollector hresult with ⟨hunavailable, -⟩ | ⟨he, hpost⟩
    · obtain ⟨l', hsound', hdb⟩ := hsound.afterFailure (s := s) (m := m)
      generalize afterFailure s m sourceKey l.db = after at hdb ⊢
      have hanswer : ∀ b : Answer, b.db = after → b.queued = [] → b.reply.status = 503 →
          (renderChangeList 503 "Source database is unavailable. The failure was recorded." "error"
            after after []).Agrees b := fun b hb hq hstatus =>
        agrees_rendered hsound' hdb hb hq (by rw [hstatus]; rfl)
      cases e with
      | psycopgError | osError | emptySchemaSnapshot => exact hanswer _ rfl rfl rfl
      | _ => cases hunavailable
    · simp only [hpost]
      rcases he with hrolled | rfl
      · have hraised : (Answer.raised e l.db).Agrees (.raised e l.db) :=
          agrees_raised (by rw [statusCode_of_scanCommits hrolled]; decide)
        cases e with
        | scanAlreadyRunning | sourceNotFound | psycopgError | osError | emptySchemaSnapshot =>
          cases hrolled
        | _ => exact hraised
      · exact agrees_rendered hsound rfl rfl rfl rfl
  · have hscanned : (Request.apply (.edit (.scan (m.scanRequest s sourceKey))) l).Sound :=
      hsound.apply ⟨rfl, fun _ _ _ _ => trivial⟩
    have hdb : (Request.apply (.edit (.scan (m.scanRequest s sourceKey))) l).db =
        postScans (m.scanRequest s sourceKey) l.db := rfl
    generalize Request.apply (.edit (.scan (m.scanRequest s sourceKey))) l = l' at hscanned hdb
    generalize postScans (m.scanRequest s sourceKey) l.db = after at hdb ⊢
    exact agrees_rendered hscanned hdb rfl rfl rfl

theorem agrees_accept (hsound : l.Sound) (changeId : Uuid) (baselineVersion : ℤ) :
    (acceptAction m changeId baselineVersion l.db).Agrees
      (acceptChangeRoute m changeId baselineVersion l.db) := by
  have hout := acceptOutcome ⟨changeId, baselineVersion, m.acceptedAt⟩ l.db
  unfold acceptAction acceptChangeRoute
  simp only
  rcases hresult : acceptResult ⟨changeId, baselineVersion, m.acceptedAt⟩ l.db with e | result
  · rw [hresult] at hout
    generalize postAccept ⟨changeId, baselineVersion, m.acceptedAt⟩ l.db = after at hout ⊢
    rcases hout with _ | _ | hfailed
    · exact agrees_rendered hsound rfl rfl rfl rfl
    · exact agrees_rendered hsound rfl rfl rfl rfl
    · have hraised : (Answer.raised e l.db).Agrees (.raised e l.db) :=
        agrees_raised (by rw [statusCode_of_acceptCommits hfailed]; decide)
      cases e with
      | baselineVersionConflict | changeNotFound => cases hfailed
      | _ => exact hraised
  · have haccepted : (Request.apply (.edit (.accept ⟨changeId, baselineVersion, m.acceptedAt⟩))
      l).Sound := hsound.apply trivial
    have hdb : (Request.apply (.edit (.accept ⟨changeId, baselineVersion, m.acceptedAt⟩)) l).db =
        postAccept ⟨changeId, baselineVersion, m.acceptedAt⟩ l.db := rfl
    generalize Request.apply (.edit (.accept ⟨changeId, baselineVersion, m.acceptedAt⟩)) l = l'
      at haccepted hdb
    generalize postAccept ⟨changeId, baselineVersion, m.acceptedAt⟩ l.db = after at hdb ⊢
    exact agrees_rendered haccepted hdb rfl rfl rfl

/-- **A form of the dashboard does what the API's route does.** -/
theorem agrees_viaApi (hsound : l.Sound) (hm : m.Regular) {req : HttpRequest}
    (haction : req.isAction = true) :
    (serve s m req l.db).Agrees (serve s m req.viaApi l.db) := by
  cases req with
  | scanAction key => exact agrees_scan hsound hm (key.getD "game")
  | acceptAction changeId baselineVersion => exact agrees_accept hsound changeId baselineVersion
  | _ => cases haction

omit [Hashlib] in
/-- What is let through as a form is let through as the API's request. -/
theorem stopped?_viaApi {headers : Headers} {req : HttpRequest} (haction : req.isAction = true)
    (h : stopped? s headers req = none) : stopped? s headers req.viaApi = none := by
  cases req with
  | scanAction key =>
    obtain ⟨identity, hoperator, hvalid, -⟩ := (stopped?_eq_none rfl).1 h
    refine (stopped?_eq_none rfl).2 ⟨identity, hoperator, ?_, fun h => (nomatch h)⟩
    rcases key with _ | key
    · exact ⟨by decide, by decide⟩
    · exact hvalid
  | acceptAction changeId baselineVersion =>
    obtain ⟨identity, hoperator, hvalid, -⟩ := (stopped?_eq_none rfl).1 h
    exact (stopped?_eq_none rfl).2 ⟨identity, hoperator, hvalid, fun h => (nomatch h)⟩
  | _ => cases haction

/-- A form that is let through is answered as the API's request is. -/
theorem handle_agrees (h : w.Sound) (hm : m.Regular) {headers : Headers} {req : HttpRequest}
    (haction : req.isAction = true) (hthrough : stopped? s headers req = none) :
    (handle s m headers req w.db).Agrees (handle s m headers req.viaApi w.db) := by
  obtain ⟨l, hsound, hdb⟩ := h
  have hagrees : (serve s m req l.db).Agrees (serve s m req.viaApi l.db) :=
    agrees_viaApi hsound hm haction
  unfold handle
  rw [hthrough, stopped?_viaApi haction hthrough, ← hdb]
  exact hagrees

/-- The API's request does what the form does that is let through. -/
theorem apply_viaApi (h : w.Sound) {e : ServerEvent} (he : e.Regular)
    (hthrough : e.operative s = true) : e.viaApi.apply s w = e.apply s w := by
  rcases e with ⟨headers, req, m⟩ | _ | _ | _
  · by_cases haction : req.isAction = true
    · rw [ServerEvent.operative, Bool.and_eq_true, Option.isNone_iff_eq_none] at hthrough
      have hagrees : (handle s m headers req w.db).Agrees (handle s m headers req.viaApi w.db) :=
        handle_agrees h he haction hthrough.2
      simp only [ServerEvent.viaApi, ServerEvent.apply, hagrees.db, hagrees.queued]
    · cases req with
      | scanAction | acceptAction => exact absurd rfl haction
      | _ => rfl
  all_goals rfl

/-- **The dashboard adds nothing**: a run of a server comes to what requests
of the API alone come to, and a form is answered as the API's request is but
for a page in place of a document. -/
theorem dashboard_adds_nothing (hreach : w.Reachable s) (es : List ServerEvent)
    (hes : ∀ e ∈ es, e.Regular) :
    es.foldl (fun w e => e.apply s w) w = ((es.filter (ServerEvent.operative s)).map
        ServerEvent.viaApi).foldl (fun w e => e.apply s w) w ∧
      ∀ headers req m, m.Regular → req.isAction = true → stopped? s headers req = none →
        (handle s m headers req w.db).Agrees (handle s m headers req.viaApi w.db) := by
  refine ⟨?_, fun headers req m hm haction hthrough =>
    handle_agrees hreach.sound hm haction hthrough⟩
  have hkept : ∀ (w : Served) (e : ServerEvent), w.Sound → e.Regular ∧ e.operative s = true →
      (e.apply s w).Sound := fun _ _ hs he => hs.apply he.1
  have hsame : ∀ (w : Served) (e : ServerEvent), w.Sound → e.Regular ∧ e.operative s = true →
      e.viaApi.apply s w = e.apply s w := fun _ _ hs he => apply_viaApi hs he.1 he.2
  rw [run_eq_operative hreach.sound hes]
  refine Path.foldl_replace hkept hsame _ (fun e he => ?_) hreach.sound
  obtain ⟨hmem, hoperative⟩ := List.mem_filter.1 he
  exact ⟨hes e hmem, hoperative⟩

end Dashboard

section Sample

attribute [local instance] Hashlib.plain

/-- A form another site has a browser post. -/
def sampleForged : ServerEvent :=
  .request { authenticatedUser := some "bo", origin := some "https://evil.example" }
    (.scanAction (some "crm")) sampleMoment

theorem unauthorized_without_trace_sample : sampleForged.operative sampleServer = false ∧
    [sampleForged].foldl (fun w e => e.apply sampleServer w) ⟨sampleStart, []⟩ =
      ([sampleForged].filter (ServerEvent.operative sampleServer)).foldl
        (fun w e => e.apply sampleServer w) ⟨sampleStart, []⟩ := by
  have hreach : Served.Reachable sampleServer ⟨sampleStart, []⟩ := ⟨_, sampleStart_initial, .refl⟩
  have hregular : ∀ e ∈ [sampleForged], e.Regular := by
    intro e he
    cases List.mem_singleton.1 he
    exact sampleMoment_regular
  have h := unauthorized_without_trace hreach [sampleForged] hregular
  exact ⟨by decide, h.1⟩

/-- A form posted from the dashboard's own page. -/
def sampleForm : ServerEvent :=
  .request { authenticatedUser := some "bo", origin := some "https://sentry.example" }
    (.scanAction (some "crm")) sampleMoment

theorem dashboard_adds_nothing_sample : sampleForm.operative sampleServer = true ∧
    [sampleForm].foldl (fun w e => e.apply sampleServer w) ⟨sampleStart, []⟩ =
      (([sampleForm].filter (ServerEvent.operative sampleServer)).map ServerEvent.viaApi).foldl
        (fun w e => e.apply sampleServer w) ⟨sampleStart, []⟩ := by
  have hreach : Served.Reachable sampleServer ⟨sampleStart, []⟩ := ⟨_, sampleStart_initial, .refl⟩
  have hregular : ∀ e ∈ [sampleForm], e.Regular := by
    intro e he
    cases List.mem_singleton.1 he
    exact sampleMoment_regular
  have h := dashboard_adds_nothing hreach [sampleForm] hregular
  exact ⟨by decide, h.1⟩

end Sample

end SchemaSentry
