import SchemaSentry.Application.Locks
import SchemaSentry.System.SourceHistory
/-!
# Schema Sentry — scans and acceptances side by side

Any number of scans of a source and of acceptances of its changes,
statement by statement in any order, each of which may end at any point
without a commit. `requests_serialise`: where each request finds what it
read first unchanged when it gets its source's row, what is committed is
what the requests that succeeded leave one after another, and no change
row that has left OPEN is written again. An acceptance of a row that a scan
has resolved meanwhile (`accepts_resolved`) or another acceptance has closed
(`accepts_twice`) succeeds all the same: it locks the source's row only once
it has read the change, and checks the version alone.
-/

namespace SchemaSentry

open Lib DbM

/-! ## Requests -/

/-- A request that writes a source's rows. -/
inductive SourceRequest where
  | scan (req : ScanRequest)
  | accept (req : AcceptRequest)

/-- What a request's transaction ends with. -/
inductive SourceOutcome where
  | scanned (outcome : Except PyException ScanReport × Session)
  | accepted (outcome : Except PyException AcceptanceResult × Session)

namespace SourceOutcome

/-- What a request that ends so leaves committed. -/
def publish : SourceOutcome → DB → DB
  | .scanned outcome, db => scanPublish outcome db
  | .accepted outcome, db => acceptPublish outcome db

/-- The request returned and raised nothing. -/
def returned : SourceOutcome → Bool
  | .scanned (.ok _, _) => true
  | .accepted (.ok _, _) => true
  | _ => false

/-- The request returned, or failed and left the record of it. -/
def Succeeded (outcome : SourceOutcome) : Prop :=
  outcome.returned = true ∨ ∃ db, outcome.publish db ≠ db

open Classical in
/-- `Succeeded`, decided. -/
noncomputable def succeeded (outcome : SourceOutcome) : Bool := decide outcome.Succeeded

theorem publish_of_not_succeeded {outcome : SourceOutcome} (h : outcome.succeeded = false)
    (db : DB) : outcome.publish db = db := by
  by_contra hne
  have hsucc : outcome.Succeeded := Or.inr ⟨db, hne⟩
  simp [succeeded, hsucc] at h

theorem succeeded_eq_false {outcome : SourceOutcome} (hreturned : outcome.returned = false)
    (hquiet : ∀ db, outcome.publish db = db) : outcome.succeeded = false := by
  simp [succeeded, Succeeded, hreturned, hquiet]

end SourceOutcome

section Requests

variable [Hashlib]

/-- The transaction of a request. -/
def SourceRequest.tx : SourceRequest → Tx DB Uuid String SourceOutcome
  | .scan req => (runScan req Session.new).map .scanned
  | .accept req => (SchemaSentry.accept req Session.new).map .accepted

/-- The transactions of requests. -/
def sourceTx (reqs : ℕ → SourceRequest) (i : ℕ) : Tx DB Uuid String SourceOutcome := (reqs i).tx

/-- The request is of the source: it scans it, without an exception of its
own, or it accepts a change that, if it is there yet, is the source's. -/
def SourceRequest.OfSource (sourceKey : String) (sourceId : Uuid) (first : DB) :
    SourceRequest → Prop
  | .scan req => req.sourceKey = sourceKey ∧ req.faults = noFaults
  | .accept req => ∀ c ∈ first.schemaChanges, c.id = req.changeId → c.sourceId = sourceId

variable {reqs : ℕ → SourceRequest} {sourceKey : String} {source : DataSourceModel} {first s t : DB}

/-! ## One after another -/

theorem publish_scan (req : ScanRequest) (db : DB) :
    ((SourceRequest.scan req).tx.run db).publish db = postScans req db := by
  rw [SourceRequest.tx, Tx.run_map]
  rfl

theorem publish_accept (req : AcceptRequest) (db : DB) :
    ((SourceRequest.accept req).tx.run db).publish db = postAccept req db := by
  rw [SourceRequest.tx, Tx.run_map]
  rfl

/-- **Requests one after another** keep the tables well-formed and the
source's history. -/
theorem serial_follows (hreqs : ∀ i, (reqs i).OfSource sourceKey source.id first)
    (hwf : s.WellFormed) (hsource : s.sourceOf? sourceKey = some source)
    {commits : List (ℕ × SourceOutcome)}
    (h : Serial (sourceTx reqs) SourceOutcome.publish s commits t) :
    t.WellFormed ∧ Follows source.id s t := by
  induction h with
  | nil => exact ⟨hwf, .refl _ _⟩
  | @snoc commits t i _ ih =>
    obtain ⟨hwf', hfollows⟩ := ih
    have hof := hreqs i
    unfold sourceTx
    generalize reqs i = request at hof ⊢
    rcases request with req | req
    · obtain ⟨hkey, hf⟩ := hof
      rw [publish_scan]
      refine ⟨scan_wellFormed hwf' hf, hfollows.trans (follows_postScans hwf' hf fun x hx => ?_)⟩
      exact hfollows.sourceOf? hwf.constraints hsource (hkey ▸ hx)
    · rw [publish_accept]
      exact ⟨accept_wellFormed hwf' req, hfollows.trans (follows_postAccept hwf' req)⟩

/-! ## Up to the row -/

omit [Hashlib] in
theorem scanned_error_eq_false {e : PyException} {u : Session}
    (h : ∀ db, scanPublish (.error e, u) db = db) :
    (SourceOutcome.scanned (.error e, u)).succeeded = false :=
  SourceOutcome.succeeded_eq_false rfl h

omit [Hashlib] in
theorem accepted_error_eq_false {e : PyException} {u : Session}
    (h : ∀ db, acceptPublish (.error e, u) db = db) :
    (SourceOutcome.accepted (.error e, u)).succeeded = false :=
  SourceOutcome.succeeded_eq_false rfl h

theorem shaped_scan (req : ScanRequest) :
    (SourceRequest.scan req).tx.Shaped req.sourceKey SourceOutcome.succeeded := by
  have hquiet : ∀ sourceKey db, scanPublish (refusal sourceKey) db = db := fun _ _ => rfl
  rw [SourceRequest.tx, runScan_eq]
  refine ⟨rfl, ⟨fun db => (scanAhead req db).map .scanned, rfl, fun db => ?_⟩, _, rfl,
    scanned_error_eq_false (hquiet req.sourceKey)⟩
  simp only [scanAhead]
  split
  · split
    · exact scanned_error_eq_false fun _ => rfl
    · exact ⟨fun _ => True.intro, (plain_scanRest _ _).map _⟩
  · exact scanned_error_eq_false fun _ => rfl

theorem shaped_accept (req : AcceptRequest) (key : String) :
    (SourceRequest.accept req).tx.Shaped key SourceOutcome.succeeded := by
  rw [SourceRequest.tx, accept_eq]
  intro db
  simp only [acceptAhead]
  split
  · split
    · exact accepted_error_eq_false fun _ => rfl
    · exact ⟨by decide, (plain_acceptRest _ _ _).map _⟩
  · exact accepted_error_eq_false fun _ => rfl

theorem shaped (hreqs : ∀ i, (reqs i).OfSource sourceKey source.id first) (i : ℕ) :
    (sourceTx reqs i).Shaped sourceKey SourceOutcome.succeeded := by
  have hof := hreqs i
  unfold sourceTx
  generalize reqs i = request at hof ⊢
  rcases request with req | req
  · exact hof.1 ▸ shaped_scan req
  · exact shaped_accept req sourceKey

theorem ahead_scan (req : ScanRequest) (db : DB) :
    (SourceRequest.scan req).tx.ahead db = (scanAhead req db).map .scanned := by
  rw [SourceRequest.tx, runScan_eq, Tx.ahead_map]
  show ((scanAhead req db).ahead db).map _ = _
  unfold scanAhead
  split
  · split <;> rfl
  · rfl

theorem ahead_accept (req : AcceptRequest) (db : DB) :
    (SourceRequest.accept req).tx.ahead db = (acceptAhead req db).map .accepted := by
  rw [SourceRequest.tx, accept_eq, Tx.ahead_map]
  show ((acceptAhead req db).ahead db).map _ = _
  unfold acceptAhead
  split
  · split <;> rfl
  · rfl

/-! ## At the row -/

/-- What a request read before it got its source's row still stands: a
scan's source is as it was, and an acceptance's change is OPEN yet, or is
not going to be applied, as the version is another or the baseline does not
have its column. -/
def SourceRequest.Stands (seen now : DB) : SourceRequest → Prop
  | .scan req => now.sourceOf? req.sourceKey = seen.sourceOf? req.sourceKey
  | .accept req => ∀ change, seen.openChange? req.changeId = some change →
      (∃ c, now.openChange? req.changeId = some c) ∨
        ∀ source applied, now.sources.find? (fun s => s.id = change.sourceId) = some source →
          source.baselineVersion = req.baselineVersion → ¬ AppliesTo change now applied

/-- A step that does not give a request its source's row, or gives it the
row while what it has read stands. -/
def Undisturbed (reqs : ℕ → SourceRequest) (cfg : Config ℕ DB Uuid String SourceOutcome) :
    Event ℕ → Prop
  | .advance i => ∀ row mode rest seen, cfg.phase i = .running (.lock row mode rest) →
      cfg.lastRead i = some seen → (reqs i).Stands seen cfg.shared
  | .abort _ => True

/-- Where a scan's source stands, so does what it goes on to do. -/
theorem scan_stands {req : ScanRequest} (hwf : t.WellFormed)
    (hstands : (SourceRequest.scan req).Stands s t) {row : Uuid} {mode : LockMode}
    {rest : Tx DB Uuid String SourceOutcome}
    (hlock : (SourceRequest.scan req).tx.ahead s = .lock row mode rest) :
    (∃ x, s.sourceOf? req.sourceKey = some x ∧ x.id = row) ∧
      rest.run t = (SourceRequest.scan req).tx.run t := by
  rw [← Tx.run_ahead (SourceRequest.scan req).tx t, ahead_scan, Tx.run_map]
  rw [ahead_scan, scanAhead] at hlock
  split at hlock
  · split at hlock
    · cases hlock
    · rename_i x hx
      cases hlock
      have hx' : t.sourceOf? req.sourceKey = some x := hstands.trans hx
      refine ⟨⟨x, hx, rfl⟩, ?_⟩
      rw [scanAhead, if_pos hwf.constraints, hx']
      exact Tx.run_map _ _ _
  · cases hlock

/-- Where an acceptance's change stands, so does what it goes on to do, if
it is to succeed. -/
theorem accept_stands {req : AcceptRequest} (hwf : t.WellFormed)
    (hfollows : Follows source.id s t)
    (hstands : (SourceRequest.accept req).Stands s t) {row : Uuid} {mode : LockMode}
    {rest : Tx DB Uuid String SourceOutcome}
    (hlock : (SourceRequest.accept req).tx.ahead s = .lock row mode rest) :
    (∃ c, s.openChange? req.changeId = some c ∧ c.sourceId = row) ∧
      ((rest.run t).succeeded = true → rest.run t = (SourceRequest.accept req).tx.run t) := by
  rw [← Tx.run_ahead (SourceRequest.accept req).tx t, ahead_accept, Tx.run_map]
  rw [ahead_accept, acceptAhead] at hlock
  split at hlock
  · split at hlock
    · cases hlock
    · rename_i change hchange
      cases hlock
      refine ⟨⟨change, hchange, rfl⟩, fun hsucc => ?_⟩
      have hrun : ((acceptRest req change Session.new).map SourceOutcome.accepted).run t =
          .accepted (exec (acceptRest req change) t Session.new) := Tx.run_map _ _ _
      rcases hstands change hchange with ⟨c, hc⟩ | hnot
      · have hopen : t.openChange? req.changeId = some change :=
          (hfollows.open_eq hwf.linked hchange hc) ▸ hc
        rw [acceptAhead, if_pos hwf.constraints, hopen]
        exact hrun
      · -- what is not applied does not succeed
        exfalso
        rcases acceptRest_cases req change t with ⟨x, applied, u, hx, hversion, hto, -⟩ |
          ⟨e, u, hexec, hquiet⟩
        · exact hnot x applied hx hversion hto
        · change (((acceptRest req change Session.new).map SourceOutcome.accepted).run t).succeeded
            = true at hsucc
          rw [hrun, hexec, accepted_error_eq_false hquiet] at hsucc
          cases hsucc
  · cases hlock

/-- **Where what was read stands, the lock is fresh.** -/
theorem fresh_of_undisturbed (hreqs : ∀ i, (reqs i).OfSource sourceKey source.id first)
    (hwf : first.WellFormed) (hsource : first.sourceOf? sourceKey = some source)
    {cfg : Config ℕ DB Uuid String SourceOutcome} {e : Event ℕ}
    (hord : Orderly (sourceTx reqs) SourceOutcome.publish SourceOutcome.succeeded sourceKey
      source.id first cfg) (hund : Undisturbed reqs cfg e) :
    Fresh (sourceTx reqs) SourceOutcome.succeeded source.id cfg e := by
  rcases e with i | i
  · intro row mode rest hphase
    obtain ⟨-, -, seen, hseen, hahead⟩ := (hord.stage_of_lock hphase).2.of_lock
    obtain ⟨before, after, hbefore, hafter⟩ := hord.seen i seen hseen
    obtain ⟨hwfSeen, hfollowsSeen⟩ := serial_follows hreqs hwf hsource hbefore
    obtain ⟨x, hx⟩ := hfollowsSeen.exists_sourceOf? hsource
    have hxid : x.id = source.id := hfollowsSeen.sourceOf? hwf.constraints hsource hx
    have hreqs' : ∀ i, (reqs i).OfSource sourceKey x.id first := fun i => hxid ▸ hreqs i
    obtain ⟨hwfNow, hfollows⟩ := serial_follows hreqs' hwfSeen hx hafter
    have hstands := hund row mode rest seen hphase hseen
    have hof := hreqs i
    unfold sourceTx at hahead ⊢
    generalize reqs i = request at hof hahead hstands ⊢
    rcases request with req | req
    · obtain ⟨⟨y, hy, hrow⟩, hrun⟩ := scan_stands hwfNow hstands hahead
      refine ⟨?_, fun _ => hrun⟩
      rw [← hrow]
      exact hfollowsSeen.sourceOf? hwf.constraints hsource (hof.1 ▸ hy)
    · obtain ⟨⟨c, hc, hrow⟩, hrun⟩ := accept_stands hwfNow hfollows hstands hahead
      refine ⟨?_, hrun⟩
      obtain ⟨hmem, hid, -⟩ := openChange?_eq_some hc
      rw [← hrow]
      rcases hfollowsSeen.owned c hmem with hown | ⟨b, hb, hbid, hbs⟩
      · exact hown
      · rw [← hbs]
        exact hof b hb (hbid.trans hid)
  · exact True.intro

/-! ## Side by side -/

/-- **Runs of a source's requests are orderly** where what they read stands
when they get the row. -/
theorem orderly_requests (hreqs : ∀ i, (reqs i).OfSource sourceKey source.id first)
    (hwf : first.WellFormed) (hsource : first.sourceOf? sourceKey = some source)
    {cfg : Config ℕ DB Uuid String SourceOutcome}
    (hrun : Run SourceOutcome.publish (Undisturbed reqs) (Config.init (sourceTx reqs) first) cfg) :
    Orderly (sourceTx reqs) SourceOutcome.publish SourceOutcome.succeeded sourceKey source.id
      first cfg :=
  ((orderly_init (shaped hreqs) first).run
    (fun _ db h => SourceOutcome.publish_of_not_succeeded h db)
    (fun _ _ hord hund => fresh_of_undisturbed hreqs hwf hsource hord hund) hrun).1

/-- **A source's requests side by side**: the committed state is that of
running those that succeeded one after another, and of the change rows
committed before, those that are not OPEN are as they were. -/
structure Serialised (reqs : ℕ → SourceRequest) (first : DB)
    (mid cfg : Config ℕ DB Uuid String SourceOutcome) : Prop where
  serial : Serial (sourceTx reqs) SourceOutcome.publish first
    (cfg.history.filter fun h => h.2.succeeded) cfg.shared
  closed : ∀ c ∈ mid.shared.schemaChanges, c.state ≠ .open → c ∈ cfg.shared.schemaChanges

/-- **Scans and acceptances serialise** in every run in which what each
request has read stands when it gets the row, and a change row leaves OPEN
once. -/
theorem requests_serialise (hreqs : ∀ i, (reqs i).OfSource sourceKey source.id first)
    (hwf : first.WellFormed) (hsource : first.sourceOf? sourceKey = some source)
    {mid cfg : Config ℕ DB Uuid String SourceOutcome}
    (hmid : Run SourceOutcome.publish (Undisturbed reqs) (Config.init (sourceTx reqs) first) mid)
    (hrun : Run SourceOutcome.publish (Undisturbed reqs) mid cfg) :
    Serialised reqs first mid cfg := by
  have hordMid := orderly_requests hreqs hwf hsource hmid
  obtain ⟨hwfMid, hfollowsMid⟩ := serial_follows hreqs hwf hsource hordMid.serial
  obtain ⟨hord, commits, hcommits⟩ := hordMid.run
    (fun _ db h => SourceOutcome.publish_of_not_succeeded h db)
    (fun _ _ hord hund => fresh_of_undisturbed hreqs hwf hsource hord hund) hrun
  obtain ⟨x, hx⟩ := hfollowsMid.exists_sourceOf? hsource
  have hxid : x.id = source.id := hfollowsMid.sourceOf? hwf.constraints hsource hx
  have hreqs' : ∀ i, (reqs i).OfSource sourceKey x.id first := fun i => hxid ▸ hreqs i
  obtain ⟨-, hfollows⟩ := serial_follows hreqs' hwfMid hx hcommits
  exact ⟨hord.serial, fun c hc hclosed => hfollows.closed hc hclosed⟩

/-- Whether what a request reads stands when it gets its row, where the
change it accepts is OPEN yet. -/
def undisturbed (reqs : ℕ → SourceRequest) (cfg : Config ℕ DB Uuid String SourceOutcome) :
    Event ℕ → Bool
  | .abort _ => true
  | .advance i =>
    match cfg.phase i, cfg.lastRead i with
    | .running (.lock _ _ _), some seen =>
      match reqs i with
      | .scan req => cfg.shared.sourceOf? req.sourceKey = seen.sourceOf? req.sourceKey
      | .accept req => (cfg.shared.openChange? req.changeId).isSome
    | _, _ => true

omit [Hashlib] in
theorem undisturbed_of_check {cfg : Config ℕ DB Uuid String SourceOutcome} {e : Event ℕ}
    (h : undisturbed reqs cfg e = true) : Undisturbed reqs cfg e := by
  rcases e with i | i
  · intro row mode rest seen hphase hseen
    simp only [undisturbed, hphase, hseen] at h
    generalize reqs i = request at h ⊢
    rcases request with req | req
    · have hsame : cfg.shared.sourceOf? req.sourceKey = seen.sourceOf? req.sourceKey := by
        simpa using h
      exact hsame
    · exact fun _ _ => Or.inl (Option.isSome_iff_exists.1 h)
  · exact True.intro

end Requests

/-! ## Samples -/

section Sample

attribute [local instance] Hashlib.plain

/-- A column is missing, and the change that says so is OPEN. -/
def sampleLost : DB := postScans sampleLoss sampleTables

theorem sampleLost_wellFormed : sampleLost.WellFormed :=
  scan_wellFormed sampleTables_reachable.wellFormed rfl

/-- A scan finds the column, and an acceptance accepts its loss. -/
def sampleRequests : ℕ → SourceRequest
  | 0 => .scan (sampleScan
      [sampleColumn "users" "id" "integer" false, sampleColumn "mart" "id" "integer" false])
  | _ => .accept { changeId := 6, baselineVersion := 1 }

theorem sampleRequests_ofSource (i : ℕ) :
    (sampleRequests i).OfSource "crm" sampleSource.id sampleLost := by
  rcases i with _ | i
  · exact ⟨rfl, rfl⟩
  · intro c hc _
    have howned : ∀ c ∈ sampleLost.schemaChanges, c.sourceId = sampleSource.id := by
      decide +kernel
    exact howned c hc

theorem requests_serialise_sample : ∃ mid cfg,
    Config.exec SourceOutcome.publish
      (.advance 1 :: .advance 0 :: List.replicate 5 (.advance 1))
      (Config.init (sourceTx sampleRequests) sampleLost) = some mid ∧
    Config.exec SourceOutcome.publish (List.replicate 14 (.advance 0)) mid = some cfg ∧
    Serialised sampleRequests sampleLost mid cfg := by
  have hpass : Config.passes SourceOutcome.publish (undisturbed sampleRequests)
      (.advance 1 :: .advance 0 :: List.replicate 5 (.advance 1))
      (Config.init (sourceTx sampleRequests) sampleLost) = true := by decide +kernel
  have hpass' : (Config.exec SourceOutcome.publish
      (.advance 1 :: .advance 0 :: List.replicate 5 (.advance 1))
      (Config.init (sourceTx sampleRequests) sampleLost)).any (Config.passes SourceOutcome.publish
        (undisturbed sampleRequests) (List.replicate 14 (.advance 0))) = true := by
    decide +kernel
  obtain ⟨mid, hmid, hrun⟩ := Run.of_passes (fun _ _ => undisturbed_of_check) .refl hpass
  rw [hmid] at hpass'
  obtain ⟨cfg, hcfg, hrun'⟩ := Run.of_passes (fun _ _ => undisturbed_of_check) .refl hpass'
  have hsource : sampleLost.sourceOf? "crm" = some sampleSource := by decide +kernel
  exact ⟨mid, cfg, hmid, hcfg, requests_serialise sampleRequests_ofSource sampleLost_wellFormed
    hsource hrun hrun'⟩

/-- The states of the change rows, with the moments they were resolved. -/
def DB.closings (db : DB) : List (Uuid × ChangeState × Option Timestamp) :=
  db.schemaChanges.map fun c => (c.id, c.state, c.resolvedAt)

/-- **An acceptance accepts a row that a scan has resolved**: the scan
comes between its reading the change and its locking the source. -/
theorem accepts_resolved : ∃ mid cfg,
    Config.exec SourceOutcome.publish (.advance 1 :: List.replicate 15 (.advance 0))
      (Config.init (sourceTx sampleRequests) sampleLost) = some mid ∧
    Config.exec SourceOutcome.publish (List.replicate 5 (.advance 1)) mid = some cfg ∧
    mid.shared.closings = [(6, .resolved, some 0)] ∧
    cfg.shared.closings = [(6, .accepted, some 0)] := by
  have hruns : (Config.exec SourceOutcome.publish (.advance 1 :: List.replicate 15 (.advance 0))
      (Config.init (sourceTx sampleRequests) sampleLost)).any (fun mid =>
        decide (mid.shared.closings = [(6, .resolved, some 0)]) &&
        (Config.exec SourceOutcome.publish (List.replicate 5 (.advance 1)) mid).any fun cfg =>
          decide (cfg.shared.closings = [(6, .accepted, some 0)])) = true := by decide +kernel
  obtain ⟨mid, hmid, hrest⟩ := (Option.any_eq_true _ _).1 hruns
  obtain ⟨hresolved, hrest⟩ := Bool.and_eq_true_iff.1 hrest
  obtain ⟨cfg, hcfg, haccepted⟩ := (Option.any_eq_true _ _).1 hrest
  exact ⟨mid, cfg, hmid, hcfg, of_decide_eq_true hresolved, of_decide_eq_true haccepted⟩

/-- A column has another type, and the change that says so is OPEN. -/
def sampleRetyped : DB := postScans (sampleScan
  [sampleColumn "users" "id" "text" false, sampleColumn "mart" "id" "integer" false]) sampleTables

/-- A scan finds a third type, and an acceptance accepts the second. -/
def sampleRetyping : ℕ → SourceRequest
  | 0 => .scan (sampleScan
      [sampleColumn "users" "id" "boolean" false, sampleColumn "mart" "id" "integer" false])
  | _ => .accept { changeId := 6, baselineVersion := 1 }

/-- **A scan files a difference from the second baseline under the first**:
the acceptance comes between its reading the source and its locking it. -/
theorem scan_files_stale : ∃ cfg, Config.exec SourceOutcome.publish
      (List.replicate 2 (.advance 0) ++ List.replicate 6 (.advance 1) ++
        List.replicate 13 (.advance 0))
      (Config.init (sourceTx sampleRetyping) sampleRetyped) = some cfg ∧
    cfg.shared.sources = [{ id := 0, key := "crm", baselineVersion := 2 }] ∧
    ∃ c ∈ cfg.shared.schemaChanges, c.state = .open ∧ c.baselineVersion = 1 ∧
      c.beforeJson = some (sampleColumn "users" "id" "text" false).toCanonicalDict := by
  have hruns : (Config.exec SourceOutcome.publish
      (List.replicate 2 (.advance 0) ++ List.replicate 6 (.advance 1) ++
        List.replicate 13 (.advance 0))
      (Config.init (sourceTx sampleRetyping) sampleRetyped)).any (fun cfg =>
        decide (cfg.shared.sources = [{ id := 0, key := "crm", baselineVersion := 2 }]) &&
        cfg.shared.schemaChanges.any fun c => decide (c.state = .open ∧ c.baselineVersion = 1 ∧
          c.beforeJson = some (sampleColumn "users" "id" "text" false).toCanonicalDict)) =
      true := by decide +kernel
  obtain ⟨cfg, hcfg, hrest⟩ := (Option.any_eq_true _ _).1 hruns
  obtain ⟨hsources, hrow⟩ := Bool.and_eq_true_iff.1 hrest
  obtain ⟨c, hc, hrow⟩ := List.any_eq_true.1 hrow
  exact ⟨cfg, hcfg, of_decide_eq_true hsources, c, hc, of_decide_eq_true hrow⟩

end Sample

end SchemaSentry
