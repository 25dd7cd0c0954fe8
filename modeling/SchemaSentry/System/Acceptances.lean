import SchemaSentry.System.SourceRequests
/-!
# Schema Sentry — concurrent acceptances

Any number of acceptances of a source's changes, with any versions.
`accepts_in_turn`: where a change is still OPEN when its acceptance gets
the source's row, those that succeed are one after another, each at the
version it names and that version raised by one, no change is accepted
twice and a failure leaves nothing. Two acceptances that have both read a
change OPEN both succeed where the second names the version the first
leaves (`accepts_twice`).
-/

namespace SchemaSentry

open Lib DbM

/-- What an acceptance returned. -/
def SourceOutcome.result? : SourceOutcome → Option AcceptanceResult
  | .accepted (.ok result, _) => some result
  | _ => none

section Acceptances

variable [Hashlib]

/-- The requests are acceptances. -/
def acceptances (accepts : ℕ → AcceptRequest) (i : ℕ) : SourceRequest := .accept (accepts i)

variable {accepts : ℕ → AcceptRequest} {sourceKey : String} {source : DataSourceModel}
variable {first db : DB}

/-- Acceptances one after another: each is applied to the baseline of the
version it names, and that is the next version. -/
structure InTurn (accepts : ℕ → AcceptRequest) (sourceKey : String) (source : DataSourceModel)
    (first : DB) (commits : List (ℕ × SourceOutcome)) (db : DB) : Prop where
  version : ∀ x, db.sourceOf? sourceKey = some x →
    x.baselineVersion = source.baselineVersion + commits.length
  each : ∀ before h after, commits = before ++ h :: after → ∃ s x,
    Serial (sourceTx (acceptances accepts)) SourceOutcome.publish first before s ∧
      s.sourceOf? sourceKey = some x ∧
      x.baselineVersion = source.baselineVersion + before.length ∧
      (accepts h.1).baselineVersion = x.baselineVersion ∧
      h.2.result? = some ⟨(accepts h.1).changeId, x.baselineVersion + 1⟩ ∧
      h.2.publish s = postAccept (accepts h.1) s
  once : (commits.map fun h => (accepts h.1).changeId).Nodup
  accepted : ∀ h ∈ commits, ∃ c ∈ db.schemaChanges, c.id = (accepts h.1).changeId ∧
    c.state = .accepted

/-- An acceptance that succeeds has returned. -/
theorem result?_of_succeeded {req : AcceptRequest}
    (h : ((SourceRequest.accept req).tx.run db).succeeded = true) :
    ((SourceRequest.accept req).tx.run db).result? =
        some ⟨req.changeId, req.baselineVersion + 1⟩ ∧
      acceptResult req db = .ok ⟨req.changeId, req.baselineVersion + 1⟩ := by
  have hrun : (SourceRequest.accept req).tx.run db =
      .accepted (exec (SchemaSentry.accept req) db Session.new) := Tx.run_map _ _ _
  rcases accept_cases req db with ⟨t, hexec⟩ | ⟨e, t, hexec, hquiet⟩
  · rw [hrun, acceptResult, hexec]
    exact ⟨rfl, rfl⟩
  · rw [hrun, hexec, accepted_error_eq_false hquiet] at h
    cases h

/-- One acceptance more. -/
theorem InTurn.snoc {commits : List (ℕ × SourceOutcome)}
    (h : InTurn accepts sourceKey source first commits db)
    (hserial : Serial (sourceTx (acceptances accepts)) SourceOutcome.publish first commits db)
    (hwf : db.WellFormed) {x : DataSourceModel} (hx : db.sourceOf? sourceKey = some x) {i : ℕ}
    (hown : ∀ c ∈ db.schemaChanges, c.id = (accepts i).changeId → c.sourceId = x.id)
    (hsucc : ((SourceRequest.accept (accepts i)).tx.run db).succeeded = true) :
    InTurn accepts sourceKey source first
      (commits ++ [(i, (SourceRequest.accept (accepts i)).tx.run db)])
      (postAccept (accepts i) db) := by
  obtain ⟨hresult, hok⟩ := result?_of_succeeded hsucc
  have hpublish := publish_accept (accepts i) db
  generalize (SourceRequest.accept (accepts i)).tx.run db = outcome at hresult hpublish
  have heff := acceptEffect hwf (accepts i)
  generalize acceptResult (accepts i) db = result at heff hok
  generalize postAccept (accepts i) db = after at heff ⊢
  rcases heff with _ | @⟨change, y, _, _, rows, hmem, hid, hopen, hrec, hversion, -, -⟩
  · cases hok
  -- the source accepted from is the one of the key
  obtain rfl : y = x := eq_of_nodup_map hwf.linked.sourceIds hrec.source_mem
    (mem_of_sourceOf? hx).1 (hrec.source_id.trans (hown change hmem hid))
  have hnow := h.version y hx
  rw [accepted_eq]
  refine ⟨fun z hz => ?_, fun before g rest heq => ?_, ?_, fun g hg => ?_⟩
  · obtain ⟨hzmem, hzkey⟩ := mem_of_sourceOf? hz
    obtain ⟨w, hw, rfl⟩ := List.mem_map.1 hzmem
    rw [key_raiseVersion] at hzkey
    obtain ⟨hymem, hykey⟩ := mem_of_sourceOf? hx
    obtain rfl : w = y := eq_of_nodup_map hwf.constraints.sourceKey hw hymem
      (hzkey.trans hykey.symm)
    simp only [raiseVersion, if_true, List.length_append, List.length_singleton]
    omega
  · rcases List.eq_nil_or_concat' rest with rfl | ⟨rest', last, rfl⟩
    · -- the acceptance just made
      obtain ⟨rfl, hg⟩ := List.append_inj' heq rfl
      obtain rfl : (i, outcome) = g := by simpa using hg
      refine ⟨db, y, hserial, hx, hnow, hversion.symm, ?_, hpublish⟩
      rw [hresult, hversion]
    · have hsplit : commits = before ++ g :: rest' := by
        have hcons : commits ++ [(i, outcome)] = (before ++ g :: rest') ++ [last] := by
          rw [heq, List.append_assoc]
          rfl
        exact (List.append_inj' hcons rfl).1
      exact h.each before g rest' hsplit
  · rw [List.map_append, List.map_singleton, List.nodup_append]
    refine ⟨h.once, List.nodup_singleton _, fun a ha b hb hab => ?_⟩
    obtain ⟨g, hg, rfl⟩ := List.mem_map.1 ha
    obtain ⟨c, hc, hcid, hstate⟩ := h.accepted g hg
    rw [List.mem_singleton.1 hb] at hab
    -- what is accepted is not OPEN
    obtain rfl : c = change := eq_of_nodup_map hwf.linked.changeIds hc hmem
      (hcid.trans (hab.trans hid.symm))
    rw [hopen] at hstate
    cases hstate
  · rcases List.mem_append.1 hg with hold | hnew
    · obtain ⟨c, hc, hcid, hstate⟩ := h.accepted g hold
      refine ⟨_, List.mem_map_of_mem hc, (id_closeRow c).trans hcid, ?_⟩
      unfold closeRow
      split
      · rfl
      · exact hstate
    · rw [List.mem_singleton.1 hnew]
      refine ⟨_, List.mem_map_of_mem hmem, (id_closeRow change).trans hid, ?_⟩
      simp [closeRow, SchemaChangeModel.accept]

/-- The acceptances are of the source's changes. -/
def OfSourceChanges (accepts : ℕ → AcceptRequest) (sourceId : Uuid) (first : DB) : Prop :=
  ∀ i, ∀ c ∈ first.schemaChanges, c.id = (accepts i).changeId → c.sourceId = sourceId

/-- **Acceptances that all succeed are in turn.** -/
theorem inTurn_of_serial (haccepts : OfSourceChanges accepts source.id first)
    (hwf : first.WellFormed) (hsource : first.sourceOf? sourceKey = some source)
    {commits : List (ℕ × SourceOutcome)} (hsucc : ∀ h ∈ commits, h.2.succeeded = true)
    (h : Serial (sourceTx (acceptances accepts)) SourceOutcome.publish first commits db) :
    InTurn accepts sourceKey source first commits db := by
  have hreqs : ∀ i, (acceptances accepts i).OfSource sourceKey source.id first := haccepts
  induction h with
  | nil =>
    refine ⟨fun x hx => ?_, fun before g rest heq => ?_, List.nodup_nil, by simp⟩
    · obtain rfl := Option.some.inj (hsource.symm.trans hx)
      simp
    · simp at heq
  | @snoc commits s i hserial ih =>
    have hturn := ih fun g hg => hsucc g (List.mem_append_left _ hg)
    obtain ⟨hwf', hfollows⟩ := serial_follows hreqs hwf hsource hserial
    obtain ⟨x, hx⟩ := hfollows.exists_sourceOf? hsource
    have hxid : x.id = source.id := hfollows.sourceOf? hwf.constraints hsource hx
    have hown : ∀ c ∈ s.schemaChanges, c.id = (accepts i).changeId → c.sourceId = x.id := by
      intro c hc hid
      rw [hxid]
      rcases hfollows.owned c hc with hown | ⟨b, hb, hbid, hbs⟩
      · exact hown
      · rw [← hbs]
        exact haccepts i b hb (hbid.trans hid)
    have hlast := hsucc _ (List.mem_append_right _ (List.mem_singleton_self _))
    rw [show sourceTx (acceptances accepts) i = (SourceRequest.accept (accepts i)).tx from rfl]
      at hlast ⊢
    rw [publish_accept]
    exact hturn.snoc hserial hwf' hx hown hlast

/-! ## Side by side -/

/-- **Acceptances side by side**: those that succeeded are in turn, the
committed state is that of running them one after another, and those that
failed leave nothing. -/
structure ConcurrentAcceptances (accepts : ℕ → AcceptRequest) (sourceKey : String)
    (source : DataSourceModel) (first : DB) (cfg : Config ℕ DB Uuid String SourceOutcome) :
    Prop where
  serial : Serial (sourceTx (acceptances accepts)) SourceOutcome.publish first
    (cfg.history.filter fun h => h.2.succeeded) cfg.shared
  inTurn : InTurn accepts sourceKey source first (cfg.history.filter fun h => h.2.succeeded)
    cfg.shared
  failed : ∀ h ∈ cfg.history, h.2.result? = none → ∀ db, h.2.publish db = db

/-- **Concurrent acceptances are in turn** in every run in which each change
is still OPEN, or not going to be applied, when its acceptance gets the
source's row. -/
theorem accepts_in_turn (haccepts : OfSourceChanges accepts source.id first)
    (hwf : first.WellFormed) (hsource : first.sourceOf? sourceKey = some source)
    {cfg : Config ℕ DB Uuid String SourceOutcome}
    (hrun : Run SourceOutcome.publish (Undisturbed (acceptances accepts))
      (Config.init (sourceTx (acceptances accepts)) first) cfg) :
    ConcurrentAcceptances accepts sourceKey source first cfg := by
  have hreqs : ∀ i, (acceptances accepts i).OfSource sourceKey source.id first := haccepts
  have hserial := (orderly_requests hreqs hwf hsource hrun).serial
  have hturn := inTurn_of_serial haccepts hwf hsource
    (fun h hh => by simpa using (List.mem_filter.1 hh).2) hserial
  refine ⟨hserial, hturn, fun h hh hnone => ?_⟩
  by_cases hsucc : h.2.succeeded = true
  · -- what succeeded has returned
    have hmem : h ∈ cfg.history.filter fun h => h.2.succeeded := List.mem_filter.2 ⟨hh, hsucc⟩
    obtain ⟨before, after, heq⟩ := List.append_of_mem hmem
    obtain ⟨s, x, -, -, -, -, hresult, -⟩ := hturn.each before h after heq
    rw [hnone] at hresult
    cases hresult
  · exact SourceOutcome.publish_of_not_succeeded (by simpa using hsucc)

end Acceptances

section Sample

attribute [local instance] Hashlib.plain

/-- Two changes are OPEN. -/
def sampleTwoOpen : DB := postScans (sampleScan [sampleColumn "mart" "id" "text" false]) sampleTables

theorem sampleTwoOpen_wellFormed : sampleTwoOpen.WellFormed :=
  scan_wellFormed sampleTables_reachable.wellFormed rfl

/-- Each change is accepted at its version. -/
def sampleAccepts (i : ℕ) : AcceptRequest := { changeId := 6 + i, baselineVersion := 1 + i }

theorem accepts_in_turn_sample : ∃ cfg, Config.exec SourceOutcome.publish
      (.advance 0 :: .advance 1 :: List.replicate 5 (.advance 0) ++ List.replicate 5 (.advance 1))
      (Config.init (sourceTx (acceptances sampleAccepts)) sampleTwoOpen) = some cfg ∧
    cfg.history.map (fun h => h.2.result?) = [some ⟨6, 2⟩, some ⟨7, 3⟩] ∧
    ConcurrentAcceptances sampleAccepts "crm" sampleSource sampleTwoOpen cfg := by
  -- the scan behind the two changes is evaluated once for all four facts
  obtain ⟨hpass, hresults, hsource, howned⟩ :
      Config.passes SourceOutcome.publish (undisturbed (acceptances sampleAccepts))
        (.advance 0 :: .advance 1 :: List.replicate 5 (.advance 0) ++ List.replicate 5 (.advance 1))
        (Config.init (sourceTx (acceptances sampleAccepts)) sampleTwoOpen) = true ∧
      (Config.exec SourceOutcome.publish
        (.advance 0 :: .advance 1 :: List.replicate 5 (.advance 0) ++ List.replicate 5 (.advance 1))
        (Config.init (sourceTx (acceptances sampleAccepts)) sampleTwoOpen)).map (fun cfg =>
          cfg.history.map fun h => h.2.result?) = some [some ⟨6, 2⟩, some ⟨7, 3⟩] ∧
      sampleTwoOpen.sourceOf? "crm" = some sampleSource ∧
      ∀ c ∈ sampleTwoOpen.schemaChanges, c.sourceId = sampleSource.id := by
    decide +kernel
  obtain ⟨cfg, hcfg, hrun⟩ := Run.of_passes (fun _ _ => undisturbed_of_check) .refl hpass
  rw [hcfg] at hresults
  exact ⟨cfg, hcfg, Option.some.inj hresults,
    accepts_in_turn (fun _ c hc _ => howned c hc) sampleTwoOpen_wellFormed hsource hrun⟩

/-- **Two acceptances of one change both succeed** where both read it OPEN
and the second names the version the first leaves. -/
theorem accepts_twice : ∃ cfg, Config.exec SourceOutcome.publish
      (.advance 0 :: .advance 1 :: List.replicate 5 (.advance 0) ++ List.replicate 5 (.advance 1))
      (Config.init (sourceTx (acceptances fun i => { changeId := 6, baselineVersion := 1 + i }))
        sampleRetyped) = some cfg ∧
    cfg.history.map (fun h => h.2.result?) = [some ⟨6, 2⟩, some ⟨6, 3⟩] := by
  have hresults : (Config.exec SourceOutcome.publish
      (.advance 0 :: .advance 1 :: List.replicate 5 (.advance 0) ++ List.replicate 5 (.advance 1))
      (Config.init (sourceTx (acceptances fun i => { changeId := 6, baselineVersion := 1 + i }))
        sampleRetyped)).map (fun cfg => cfg.history.map fun h => h.2.result?) =
      some [some ⟨6, 2⟩, some ⟨6, 3⟩] := by
    decide +kernel
  exact Option.map_eq_some_iff.1 hresults

end Sample

end SchemaSentry
