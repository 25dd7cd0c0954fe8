import SchemaSentry.Application.ChangeService
import SchemaSentry.Store.ScanEffects
/-!
# Schema Sentry — what an acceptance can do

`acceptOutcome`: an acceptance run alone finds no OPEN change, meets
another version, fails without a trace, or applies the change to the
baseline, raises the version by one and closes the row.
-/

namespace SchemaSentry

open Lib DbM

/-- What an accepted change does to the baseline's rows. -/
inductive AppliesTo (change : SchemaChangeModel) (db : DB) : DB → Prop
  | added {after : JsonObject} {row : ExpectedColumnModel} :
      change.changeType = .addColumn → change.afterJson = some after →
      db.expectedColumn? change = none → addedColumn change after = .ok row →
      AppliesTo change db (db.addExpectedColumn row)
  | kept {after : JsonObject} {row : ExpectedColumnModel} :
      change.changeType = .addColumn → change.afterJson = some after →
      db.expectedColumn? change = some row → AppliesTo change db db
  | dropped {row : ExpectedColumnModel} :
      change.changeType = .dropColumn → db.expectedColumn? change = some row →
      AppliesTo change db (db.deleteExpectedColumn change.datasetId change.columnName)
  | changed {row : ExpectedColumnModel} {after : JsonObject}
      {update : ExpectedColumnModel → ExpectedColumnModel} :
      change.changeType ≠ .addColumn → change.changeType ≠ .dropColumn →
      db.expectedColumn? change = some row → change.afterJson = some after →
      changedColumn after = .ok update →
      AppliesTo change db (db.updateExpectedColumn change.datasetId change.columnName update)

/-- The tables with a change accepted, given those with it applied to the
baseline. -/
def DB.accepted (source : DataSourceModel) (change : SchemaChangeModel) (acceptedAt : Timestamp)
    (applied : DB) : DB :=
  (applied.setBaselineVersion source.id (source.baselineVersion + 1)).updateChange change.id
    (SchemaChangeModel.accept acceptedAt)

/-- What an acceptance run alone returns or raises and what it leaves
committed. -/
inductive AcceptOutcome (req : AcceptRequest) (db : DB) :
    Except PyException AcceptanceResult → DB → Prop
  | notFound : (∀ change, db.openChange? req.changeId = some change →
        db.sources.find? (fun s => s.id = change.sourceId) = none) →
      AcceptOutcome req db (.error (.changeNotFound req.changeId)) db
  | conflict {change : SchemaChangeModel} {source : DataSourceModel} :
      db.openChange? req.changeId = some change →
      db.sources.find? (fun s => s.id = change.sourceId) = some source →
      source.baselineVersion ≠ req.baselineVersion →
      AcceptOutcome req db
        (.error (.baselineVersionConflict req.baselineVersion source.baselineVersion)) db
  | failed {e : PyException} : e.acceptCommits = false → AcceptOutcome req db (.error e) db
  | accepted {change : SchemaChangeModel} {source : DataSourceModel} {applied : DB} :
      db.openChange? req.changeId = some change →
      db.sources.find? (fun s => s.id = change.sourceId) = some source →
      source.baselineVersion = req.baselineVersion → AppliesTo change db applied →
      (applied.accepted source change req.acceptedAt).Constraints →
      AcceptOutcome req db
        (.ok { changeId := req.changeId, baselineVersion := source.baselineVersion + 1 })
        (applied.accepted source change req.acceptedAt)

variable {db : DB} {s t : Session} {e : PyException}
variable {req : AcceptRequest} {source : DataSourceModel} {change : SchemaChangeModel}

/-! ## Applying -/

theorem returns_applyToBaseline {u : Unit} (h : Returns (applyToBaseline change) db s u t) :
    AppliesTo change (s.pending db) (t.pending db) ∧ t.sources = s.sources := by
  simp only [applyToBaseline, returns_bind, returns_select] at h
  obtain ⟨expected, v, ⟨-, rfl, rfl⟩, h⟩ := h
  cases htype : change.changeType with
  | addColumn =>
    simp only [htype] at h
    cases hafter : change.afterJson with
    | none =>
      simp only [hafter] at h
      exact (not_returns_raise h).elim
    | some after =>
      simp only [hafter] at h
      cases hexpected : (v.pending db).expectedColumn? change with
      | none =>
        simp only [hexpected, returns_bind, returns_ofExcept, returns_write] at h
        obtain ⟨row, _, ⟨hrow, rfl⟩, rfl⟩ := h
        exact ⟨.added htype hafter hexpected hrow, rfl⟩
      | some row =>
        simp only [hexpected, returns_pure] at h
        obtain ⟨-, rfl⟩ := h
        exact ⟨.kept htype hafter hexpected, rfl⟩
  | dropColumn =>
    simp only [htype] at h
    cases hexpected : (v.pending db).expectedColumn? change with
    | none =>
      simp only [hexpected] at h
      exact (not_returns_raise h).elim
    | some row =>
      simp only [hexpected, returns_write] at h
      subst h
      exact ⟨.dropped htype hexpected, rfl⟩
  | typeChange | nullabilityChange =>
    simp only [htype] at h
    cases hexpected : (v.pending db).expectedColumn? change with
    | none =>
      simp only [hexpected] at h
      exact (not_returns_raise h).elim
    | some row =>
      cases hafter : change.afterJson with
      | none =>
        simp only [hexpected, hafter] at h
        exact (not_returns_raise h).elim
      | some after =>
        simp only [hexpected, hafter, returns_bind, returns_ofExcept, returns_write] at h
        obtain ⟨update, _, ⟨hupdate, rfl⟩, rfl⟩ := h
        exact ⟨.changed (by simp [htype]) (by simp [htype]) hexpected hafter hupdate, rfl⟩

theorem dataTypeOf_error {payload : JsonObject} (h : dataTypeOf payload = .error e) :
    e.acceptCommits = false := by
  unfold dataTypeOf at h
  split at h <;> cases h
  rfl

theorem getItem_error {key : String} {payload : JsonObject} (h : getItem key payload = .error e) :
    e.acceptCommits = false := by
  unfold getItem at h
  split at h <;> cases h
  rfl

theorem pyInt_error {value : Json} (h : pyInt value = .error e) : e.acceptCommits = false := by
  unfold pyInt at h
  split at h
  · cases h
  · cases h
  · split at h <;> cases h
    rfl
  · cases h
    rfl

/-- Computing a row raises nothing the request commits. -/
theorem addedColumn_error {after : JsonObject} (h : addedColumn change after = .error e) :
    e.acceptCommits = false := by
  simp only [addedColumn, except_bind_error] at h
  rcases h with h | ⟨_, -, h | ⟨_, -, h | ⟨_, -, h⟩⟩⟩
  · exact dataTypeOf_error h
  · exact getItem_error h
  · exact pyInt_error h
  · cases h

theorem changedColumn_error {after : JsonObject} (h : changedColumn after = .error e) :
    e.acceptCommits = false := by
  simp only [changedColumn, except_bind_error] at h
  rcases h with h | ⟨_, -, h | ⟨_, -, h⟩⟩
  · exact dataTypeOf_error h
  · exact getItem_error h
  · cases h

theorem raises_applyToBaseline (h : Raises (applyToBaseline change) db s e t) :
    e.acceptCommits = false := by
  simp only [applyToBaseline, raises_bind, raises_select, returns_select] at h
  rcases h with ⟨-, rfl, -⟩ | ⟨expected, v, -, h⟩
  · rfl
  cases htype : change.changeType with
  | addColumn =>
    simp only [htype] at h
    cases hafter : change.afterJson with
    | none =>
      simp only [hafter, raises_raise] at h
      rw [h.1]
      rfl
    | some after =>
      cases expected with
      | none =>
        simp only [hafter, raises_bind, raises_ofExcept, not_raises_write, and_false,
          exists_false, or_false] at h
        exact addedColumn_error h.1
      | some row =>
        simp only [hafter, not_raises_pure] at h
  | dropColumn =>
    simp only [htype] at h
    cases expected with
    | none =>
      simp only [raises_raise] at h
      rw [h.1]
      rfl
    | some row => simp only [not_raises_write] at h
  | typeChange | nullabilityChange =>
    simp only [htype] at h
    cases expected with
    | none =>
      simp only [raises_raise] at h
      rw [h.1]
      rfl
    | some row =>
      cases hafter : change.afterJson with
      | none =>
        simp only [hafter, raises_raise] at h
        rw [h.1]
        rfl
      | some after =>
        simp only [hafter, raises_bind, raises_ofExcept, not_raises_write, and_false,
          exists_false, or_false] at h
        exact changedColumn_error h.1

theorem returns_applyAcceptance {acceptedAt : Timestamp} {version : ℤ}
    (h : Returns (applyAcceptance source change acceptedAt) db s version t) :
    version = source.baselineVersion + 1 ∧ ∃ applied, AppliesTo change (s.pending db) applied ∧
      t.pending db = applied.accepted source change acceptedAt ∧ (t.pending db).Constraints := by
  simp only [applyAcceptance, returns_bind, returns_write, returns_flush, returns_pure] at h
  obtain ⟨_, v, happly, -, _, rfl, -, _, rfl, -, _, ⟨hc, rfl⟩, rfl, rfl⟩ := h
  exact ⟨rfl, _, (returns_applyToBaseline happly).1, rfl, hc⟩

theorem raises_applyAcceptance {acceptedAt : Timestamp}
    (h : Raises (applyAcceptance source change acceptedAt) db s e t) :
    e.acceptCommits = false := by
  simp only [applyAcceptance, raises_bind, not_raises_write, returns_write, raises_flush,
    not_raises_pure, false_or, and_false, exists_false, or_false] at h
  rcases h with h | ⟨_, _, -, -, _, -, -, _, -, -, rfl, -⟩
  · exact raises_applyToBaseline h
  · rfl

/-! ## The outcome -/

/-- `acceptance_transaction` begun in a new session: no OPEN change, no
source, or both. -/
theorem returns_acceptanceTransaction {changeId : Uuid}
    {locked : Option (DataSourceModel × SchemaChangeModel)}
    (h : Returns (acceptanceTransaction changeId) db Session.new locked t) :
    (locked = none ∧ t = Session.new ∧ ∀ change, db.openChange? changeId = some change →
      db.sources.find? (fun s => s.id = change.sourceId) = none) ∨
    ∃ change source, locked = some (source, change) ∧ t = ⟨id, [source]⟩ ∧
      db.openChange? changeId = some change ∧
      db.sources.find? (fun s => s.id = change.sourceId) = some source := by
  simp only [acceptanceTransaction, returns_bind, returns_select] at h
  obtain ⟨_, _, ⟨-, rfl, rfl⟩, h⟩ := h
  cases hopen : db.openChange? changeId with
  | none =>
    simp only [Session.new, id, hopen, returns_pure] at h
    exact Or.inl ⟨h.1, h.2, by simp⟩
  | some change =>
    simp only [Session.new, id, hopen, returns_bind, returns_lockSource, returns_select] at h
    obtain ⟨-, _, rfl, _, _, ⟨-, rfl, rfl⟩, h⟩ := h
    simp only [id] at h
    cases hsource : db.sources.find? (fun s => s.id = change.sourceId) with
    | none =>
      simp only [hsource, returns_pure] at h
      refine Or.inl ⟨h.1, h.2, fun c hc => ?_⟩
      cases hc
      exact hsource
    | some source =>
      simp only [hsource, returns_bind, returns_pure] at h
      obtain ⟨row, _, hid, rfl, rfl⟩ := h
      obtain ⟨rfl, rfl⟩ := (returns_identify rfl).1 hid
      exact Or.inr ⟨change, row, rfl, rfl, rfl, hsource⟩

theorem raises_acceptanceTransaction {changeId : Uuid}
    (h : Raises (acceptanceTransaction changeId) db s e t) : e = .sqlAlchemyError := by
  simp only [acceptanceTransaction, raises_bind, raises_select, returns_select] at h
  rcases h with ⟨-, rfl, -⟩ | ⟨change, _, -, h⟩
  · rfl
  · cases change with
    | none => exact (not_raises_pure h).elim
    | some change =>
      simp only [raises_bind, not_raises_lockSource, false_or, raises_select] at h
      obtain ⟨_, _, -, ⟨-, rfl, -⟩ | ⟨source, _, -, h⟩⟩ := h
      · rfl
      · cases source with
        | none => exact (not_raises_pure h).elim
        | some source =>
          simp only [raises_bind, not_raises_identify, not_raises_pure, false_or, and_false,
            exists_false] at h

/-- **What an acceptance can do.** -/
theorem acceptOutcome (req : AcceptRequest) (db : DB) :
    AcceptOutcome req db (acceptResult req db) (postAccept req db) := by
  have hpublish : ∀ {r : Except PyException AcceptanceResult} {t : Session},
      exec (accept req) db Session.new = (r, t) →
      AcceptOutcome req db r (acceptPublish (r, t) db) →
      AcceptOutcome req db (acceptResult req db) (postAccept req db) := by
    intro r t h hout
    rw [acceptResult, postAccept, h]
    exact hout
  have hfailed : ∀ {e : PyException} {t : Session}, e.acceptCommits = false →
      AcceptOutcome req db (.error e) (acceptPublish (.error e, t) db) := by
    intro e t he
    simp only [acceptPublish, he]
    exact .failed he
  rcases returns_or_raises (acceptanceTransaction req.changeId) db Session.new with
    ⟨locked, t, h⟩ | ⟨e, t, h⟩
  · rcases returns_acceptanceTransaction h with ⟨rfl, rfl, hnone⟩ |
      ⟨change, source, rfl, rfl, hopen, hsource⟩
    · refine hpublish (r := .error (.changeNotFound req.changeId)) (t := Session.new) ?_ ?_
      · rw [accept, exec_bind, h]
        rfl
      · exact .notFound hnone
    · by_cases hversion : source.baselineVersion = req.baselineVersion
      · have haccept : exec (accept req) db Session.new =
            exec (applyAcceptance source change req.acceptedAt >>= fun version =>
              pure { changeId := req.changeId, baselineVersion := version }) db
              ⟨id, [source]⟩ := by
          rw [accept, exec_bind, h]
          simp only [hversion, ne_eq, not_true_eq_false, if_false]
        rcases returns_or_raises (applyAcceptance source change req.acceptedAt) db
          ⟨id, [source]⟩ with ⟨version, t, happly⟩ | ⟨e, t, happly⟩
        · obtain ⟨rfl, applied, hto, hpending, hc⟩ := returns_applyAcceptance happly
          have hexec : exec (accept req) db Session.new = (.ok
              { changeId := req.changeId, baselineVersion := source.baselineVersion + 1 }, t) := by
            rw [haccept, exec_bind, happly]
            rfl
          refine hpublish hexec ?_
          show AcceptOutcome req db _ (t.pending db)
          rw [hpending] at hc ⊢
          exact .accepted hopen hsource hversion hto hc
        · have hexec : exec (accept req) db Session.new = (.error e, t) := by
            rw [haccept, exec_bind, happly]
          exact hpublish hexec (hfailed (raises_applyAcceptance happly))
      · refine hpublish (r := .error (.baselineVersionConflict req.baselineVersion
          source.baselineVersion)) (t := ⟨id, [source]⟩) ?_ ?_
        · rw [accept, exec_bind, h]
          simp only [ne_eq, hversion, not_false_eq_true, if_true]
          rfl
        · exact .conflict hopen hsource hversion
  · have hexec : exec (accept req) db Session.new = (.error e, t) := by
      rw [accept, exec_bind, h]
    refine hpublish hexec (hfailed ?_)
    rw [raises_acceptanceTransaction h]
    rfl

end SchemaSentry
