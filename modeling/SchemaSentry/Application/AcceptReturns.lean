import SchemaSentry.Application.AcceptOutcome
/-!
# Schema Sentry — when an acceptance returns

The other direction of `acceptOutcome`: an acceptance of an OPEN change at
its source's version returns where the change applies to the baseline and
the tables then meet their constraints (`acceptResult_of_applies`).
-/

namespace SchemaSentry

open Lib DbM

variable {db applied : DB} {s : Session} {req : AcceptRequest}
variable {source : DataSourceModel} {change : SchemaChangeModel}

/-- A change that applies is applied. -/
theorem exists_returns_applyToBaseline (hc : (s.pending db).Constraints)
    (h : AppliesTo change (s.pending db) applied) :
    ∃ t, Returns (applyToBaseline change) db s () t ∧ t.pending db = applied := by
  have hselect : Returns (select fun db => db.expectedColumn? change) db s
      ((s.pending db).expectedColumn? change) s := returns_select.2 ⟨hc, rfl, rfl⟩
  -- what is written after the query
  have hwrote : ∀ (f : DB → DB) {x : Option ExpectedColumnModel → DbM Unit},
      Returns (x ((s.pending db).expectedColumn? change)) db s ()
        { s with pending := fun db => f (s.pending db) } →
      ∃ t, Returns (select (fun db => db.expectedColumn? change) >>= x) db s () t ∧
        t.pending db = f (s.pending db) :=
    fun f x hx => ⟨_, returns_bind.2 ⟨_, _, hselect, hx⟩, rfl⟩
  rcases h with ⟨htype, hafter, hnone, hrow⟩ | ⟨htype, hafter, hsome⟩ | ⟨htype, hsome⟩ |
    ⟨hadd, hdrop, hsome, hafter, hupdate⟩
  · refine hwrote (DB.addExpectedColumn _) ?_
    simp only [htype, hafter, hnone]
    exact returns_bind.2 ⟨_, _, returns_ofExcept.2 ⟨hrow, rfl⟩, returns_wrote⟩
  · refine hwrote id ?_
    simp only [htype, hafter, hsome]
    exact returns_pure.2 ⟨rfl, rfl⟩
  · refine hwrote (DB.deleteExpectedColumn change.datasetId change.columnName) ?_
    simp only [htype, hsome]
    exact returns_wrote
  · refine hwrote (DB.updateExpectedColumn change.datasetId change.columnName _) ?_
    cases htype : change.changeType with
    | addColumn => exact absurd htype hadd
    | dropColumn => exact absurd htype hdrop
    | typeChange | nullabilityChange =>
      simp only [hsome, hafter]
      exact returns_bind.2 ⟨_, _, returns_ofExcept.2 ⟨hupdate, rfl⟩, returns_wrote⟩

theorem exists_returns_applyAcceptance (hc : (s.pending db).Constraints)
    (h : AppliesTo change (s.pending db) applied) {acceptedAt : Timestamp}
    (hafter : (applied.accepted source change acceptedAt).Constraints) :
    ∃ t, Returns (applyAcceptance source change acceptedAt) db s (source.baselineVersion + 1) t ∧
      t.pending db = applied.accepted source change acceptedAt := by
  obtain ⟨t, happly, hpending⟩ := exists_returns_applyToBaseline hc h
  refine ⟨⟨fun db => (t.pending db).accepted source change acceptedAt, t.sources⟩, ?_, ?_⟩
  · simp only [applyAcceptance, returns_bind, returns_write, returns_pure]
    refine ⟨(), t, happly, (), _, rfl, (), _, rfl, (), _, returns_flushed ?_, True.intro, rfl⟩
    rw [← hpending] at hafter
    exact hafter
  · exact congrArg (DB.accepted source change acceptedAt) hpending

/-- The transaction of an OPEN change whose source is there. -/
theorem returns_acceptanceTransaction_some (hc : db.Constraints)
    (hopen : db.openChange? req.changeId = some change)
    (hsource : db.sources.find? (fun s => s.id = change.sourceId) = some source) :
    Returns (acceptanceTransaction req.changeId) db Session.new (some (source, change))
      ⟨id, [source]⟩ := by
  have hfirst : Returns (select fun db => db.openChange? req.changeId) db Session.new
      (some change) Session.new := returns_select.2 ⟨hc, hopen.symm, rfl⟩
  have hsecond : Returns (select fun db => db.sources.find? fun s => s.id = change.sourceId) db
      Session.new (some source) Session.new := returns_select.2 ⟨hc, hsource.symm, rfl⟩
  refine returns_bind.2 ⟨_, _, hfirst, returns_bind.2 ⟨(), _, returns_lockSource.2 rfl,
    returns_bind.2 ⟨_, _, hsecond, returns_bind.2 ⟨source, _, ?_, returns_pure.2 ⟨rfl, rfl⟩⟩⟩⟩⟩
  exact (returns_identify rfl).2 ⟨rfl, rfl⟩

theorem returns_acceptanceTransaction_none (hc : db.Constraints)
    (hopen : db.openChange? req.changeId = none) :
    Returns (acceptanceTransaction req.changeId) db Session.new none Session.new :=
  returns_bind.2 ⟨_, _, returns_select.2 ⟨hc, hopen.symm, rfl⟩, returns_pure.2 ⟨rfl, rfl⟩⟩

/-! ## The three answers -/

/-- No OPEN change of the id. -/
theorem acceptResult_of_none (hc : db.Constraints)
    (hopen : db.openChange? req.changeId = none) :
    acceptResult req db = .error (.changeNotFound req.changeId) := by
  have h : exec (acceptanceTransaction req.changeId) db Session.new = (.ok none, Session.new) :=
    returns_acceptanceTransaction_none hc hopen
  rw [acceptResult, accept, exec_bind, h]
  rfl

section Open

variable (hc : db.Constraints) (hopen : db.openChange? req.changeId = some change)
variable (hsource : db.sources.find? (fun s => s.id = change.sourceId) = some source)

include hc hopen hsource

/-- Another version of the source's baseline. -/
theorem acceptResult_of_conflict (hversion : source.baselineVersion ≠ req.baselineVersion) :
    acceptResult req db =
      .error (.baselineVersionConflict req.baselineVersion source.baselineVersion) := by
  have h : exec (acceptanceTransaction req.changeId) db Session.new =
      (.ok (some (source, change)), ⟨id, [source]⟩) :=
    returns_acceptanceTransaction_some hc hopen hsource
  rw [acceptResult, accept, exec_bind, h]
  simp only [ne_eq, hversion, not_false_eq_true, if_true]
  rfl

/-- **An acceptance returns** where the change applies. -/
theorem acceptResult_of_applies (hversion : source.baselineVersion = req.baselineVersion)
    (happly : AppliesTo change db applied)
    (hafter : (applied.accepted source change req.acceptedAt).Constraints) :
    acceptResult req db =
      .ok { changeId := req.changeId, baselineVersion := source.baselineVersion + 1 } := by
  have h : exec (acceptanceTransaction req.changeId) db Session.new =
      (.ok (some (source, change)), ⟨id, [source]⟩) :=
    returns_acceptanceTransaction_some hc hopen hsource
  obtain ⟨t, hreturns, -⟩ : ∃ t, Returns (applyAcceptance source change req.acceptedAt) db
      ⟨id, [source]⟩ (source.baselineVersion + 1) t ∧ _ :=
    exists_returns_applyAcceptance hc happly hafter
  have hexec : exec (applyAcceptance source change req.acceptedAt) db ⟨id, [source]⟩ =
      (.ok (source.baselineVersion + 1), t) := hreturns
  rw [acceptResult, accept, exec_bind, h]
  simp only [hversion, ne_eq, not_true_eq_false, if_false]
  rw [exec_bind, hexec, ← hversion]
  rfl

end Open

end SchemaSentry
