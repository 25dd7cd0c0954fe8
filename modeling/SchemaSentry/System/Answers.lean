import SchemaSentry.Application.AcceptReturns
import SchemaSentry.System.Reconciliation
/-!
# Schema Sentry — what an acceptance answers

An acceptance is answered by the state alone: the change is not OPEN, the
version is another one, or it succeeds (`AcceptDecided`). That the change
then can be applied rests on the OPEN rows of a state (`Acceptable`): but
for additions each has its column in the baseline, and the removal of a
column is OPEN beside no other change of it. A drift scan breaks the
latter where it takes a difference of one column for an OPEN row of
another (`ScanRequest.Untangled`), and nothing else does.
-/

namespace SchemaSentry

open Lib

/-! ## Answers -/

/-- What every acceptance answers, and that it leaves the tables alone where
it raises. -/
structure DB.AcceptDecided (db : DB) : Prop where
  notOpen : ∀ req : AcceptRequest,
    (∀ row ∈ db.schemaChanges, row.id = req.changeId → row.state ≠ .open) →
      acceptResult req db = .error (.changeNotFound req.changeId)
  isOpen : ∀ req : AcceptRequest, ∀ row ∈ db.schemaChanges, row.id = req.changeId →
    row.state = .open → ∃ source ∈ db.sources, source.id = row.sourceId ∧
      acceptResult req db =
        if source.baselineVersion = req.baselineVersion then
          .ok { changeId := req.changeId, baselineVersion := source.baselineVersion + 1 }
        else
          .error (.baselineVersionConflict req.baselineVersion source.baselineVersion)
  unchanged : ∀ req e, acceptResult req db = .error e → postAccept req db = db

/-- A baseline row of the change row's column. -/
def SchemaChangeModel.Names (row : SchemaChangeModel) (x : ExpectedColumnModel) : Prop :=
  x.datasetId = row.datasetId ∧ x.name = row.columnName

/-- Every OPEN row can be applied, now and after the others. -/
structure DB.Acceptable (db : DB) : Prop where
  present : ∀ row ∈ db.schemaChanges, row.state = .open → row.changeType ≠ .addColumn →
    ∃ x ∈ db.expectedColumns, row.Names x
  alone : ∀ row ∈ db.schemaChanges, ∀ row' ∈ db.schemaChanges, row.state = .open →
    row'.state = .open → row.changeType = .dropColumn → row'.changeType ≠ .addColumn →
    row.datasetId = row'.datasetId → row.columnName = row'.columnName → row = row'
  fitting : ∀ row ∈ db.schemaChanges, ∀ after ∈ row.afterJson,
    ∀ text ∈ optionalString "default" after, fits 1000 text

section Answers

variable [Hashlib]
variable {db db' applied : DB} {req : AcceptRequest} {source : DataSourceModel}
variable {dataset : DatasetModel} {row change : SchemaChangeModel} {c e : SchemaChange}

/-! ## Applying -/

omit [Hashlib] in
/-- But for a removal a genuine change has a snapshot after it. -/
theorem SchemaChange.Genuine.after_isSome (h : c.Genuine) (hdrop : c.changeType ≠ .dropColumn) :
    ∃ a, c.after = some a := by
  obtain ⟨dependencies, hlisted⟩ := h.listed
  rcases (mem_compareColumn h.filed.before).1 hlisted with ⟨a, -, ha, -⟩ | ⟨b, -, -, hc⟩ |
    ⟨b, a, -, ha, -, -⟩ | ⟨b, a, -, ha, -, -⟩
  · exact ⟨a, ha⟩
  · exact absurd (by rw [hc]; rfl) hdrop
  · exact ⟨a, ha⟩
  · exact ⟨a, ha⟩

omit [Hashlib] in
theorem expectedColumn?_isSome (h : ∃ x ∈ db.expectedColumns, change.Names x) :
    ∃ x, db.expectedColumn? change = some x := by
  obtain ⟨x, hx, hid, hname⟩ := h
  cases hfind : db.expectedColumn? change with
  | some y => exact ⟨y, rfl⟩
  | none => exact absurd ⟨hid, hname⟩ (expectedColumn?_eq_none hfind x hx)

/-- **An acceptable row applies.** -/
theorem exists_appliesTo (hrec : Records db change source dataset c)
    (hpresent : change.changeType ≠ .addColumn → ∃ x ∈ db.expectedColumns, change.Names x) :
    ∃ applied, AppliesTo change db applied := by
  have htype := hrec.changeType
  by_cases hadd : change.changeType = .addColumn
  · obtain ⟨a, ha⟩ := hrec.genuine.after_isSome (by rw [← htype, hadd]; decide)
    have hjson : change.afterJson = some a.toCanonicalDict := by rw [hrec.after, ha]; rfl
    have hname : change.columnName = a.name := by
      rw [hrec.columnName]
      exact (congrArg ColumnRef.name (hrec.genuine.filed.after a ha)).symm
    cases hfind : db.expectedColumn? change with
    | none =>
      exact ⟨_, .added hadd hjson hfind (addedColumn_toCanonicalDict hrec.dataset_id hname)⟩
    | some x => exact ⟨_, .kept hadd hjson hfind⟩
  obtain ⟨x, hfind⟩ := expectedColumn?_isSome (hpresent hadd)
  by_cases hdrop : change.changeType = .dropColumn
  · exact ⟨_, .dropped hdrop hfind⟩
  · obtain ⟨a, ha⟩ := hrec.genuine.after_isSome (by rwa [← htype])
    have hjson : change.afterJson = some a.toCanonicalDict := by rw [hrec.after, ha]; rfl
    exact ⟨_, .changed hadd hdrop hfind hjson (changedColumn_toCanonicalDict a)⟩

omit [Hashlib] in
/-- Closing a row leaves no new fingerprint OPEN. -/
theorem openFingerprints_closed (acceptedAt : Timestamp) :
    (((db.schemaChanges.map (closeRow change acceptedAt)).filter fun c => c.state = .open).map
      fun c => (c.sourceId, c.fingerprint)).Sublist db.openFingerprints := by
  refine filter_map_sublist (fun x hx => ?_) (fun x => ?_) _
  · simp only [decide_eq_true_eq] at hx ⊢
    unfold closeRow at hx
    split at hx
    · cases hx
    · exact hx
  · unfold closeRow
    split <;> rfl

omit [Hashlib] in
/-- What the constraints ask of an acceptance's baseline rows. -/
theorem constraints_accepted (hc : db.Constraints) {rows : List ExpectedColumnModel}
    (hid : (rows.map fun x => (x.datasetId, x.name)).Nodup)
    (hlengths : ∀ x ∈ rows, fits 63 x.name ∧ ∀ text ∈ x.defaultExpression, fits 1000 text)
    (acceptedAt : Timestamp) :
    ({ db with expectedColumns := rows }.accepted source change acceptedAt).Constraints := by
  rw [accepted_eq]
  exact
    { hc with
      sourceKey := nodup_map_map (key_raiseVersion source) hc.sourceKey
      expectedColumnIdentity := hid
      openFingerprint := List.Nodup.sublist (openFingerprints_closed acceptedAt) hc.openFingerprint
      expectedLengths := hlengths
      changeLengths := by
        intro row hrow
        obtain ⟨old, hold, rfl⟩ := List.mem_map.1 hrow
        have hname : (closeRow change acceptedAt old).columnName = old.columnName := by
          unfold closeRow
          split <;> rfl
        rw [hname]
        exact hc.changeLengths old hold }

omit [Hashlib] in
/-- The row an addition inserts fits. -/
theorem fits_addedColumn {after : JsonObject} {x : ExpectedColumnModel}
    (h : addedColumn change after = .ok x) (hname : fits 63 change.columnName)
    (hdefault : ∀ text ∈ optionalString "default" after, fits 1000 text) :
    x.datasetId = change.datasetId ∧ x.name = change.columnName ∧ fits 63 x.name ∧
      ∀ text ∈ x.defaultExpression, fits 1000 text := by
  simp only [addedColumn, except_bind_ok] at h
  obtain ⟨_, -, _, -, _, -, hx⟩ := h
  cases hx
  exact ⟨rfl, rfl, hname, hdefault⟩

omit [Hashlib] in
/-- The row a change rewrites fits and keeps its column. -/
theorem fits_changedColumn {after : JsonObject}
    {update : ExpectedColumnModel → ExpectedColumnModel} (h : changedColumn after = .ok update)
    (hdefault : ∀ text ∈ optionalString "default" after, fits 1000 text)
    (x : ExpectedColumnModel) :
    ((update x).datasetId, (update x).name) = (x.datasetId, x.name) ∧
      ∀ text ∈ (update x).defaultExpression, fits 1000 text := by
  simp only [changedColumn, except_bind_ok] at h
  obtain ⟨_, -, _, -, hupdate⟩ := h
  cases hupdate
  exact ⟨rfl, hdefault⟩

omit [Hashlib] in
/-- **The tables of an acceptance meet their constraints.** -/
theorem AppliesTo.constraints (hc : db.Constraints) (hmem : change ∈ db.schemaChanges)
    (hfitting : ∀ after ∈ change.afterJson, ∀ text ∈ optionalString "default" after,
      fits 1000 text)
    (h : AppliesTo change db applied) (acceptedAt : Timestamp) :
    (applied.accepted source change acceptedAt).Constraints := by
  rcases h with ⟨-, hafter, hnone, hadded⟩ | ⟨-, -, -⟩ | ⟨-, -⟩ | ⟨-, -, -, hafter, hupdate⟩
  · obtain ⟨hid, hname, hfits⟩ :=
      fits_addedColumn hadded (hc.changeLengths change hmem) (hfitting _ hafter)
    refine constraints_accepted hc ?_ ?_ acceptedAt
    · rw [List.map_append, List.map_singleton, List.nodup_append]
      refine ⟨hc.expectedColumnIdentity, List.nodup_singleton _, fun a ha b hb hab => ?_⟩
      obtain ⟨x, hx, rfl⟩ := List.mem_map.1 ha
      rw [List.mem_singleton.1 hb, hid, hname] at hab
      exact expectedColumn?_eq_none hnone x hx (Prod.mk.inj hab)
    · intro x hx
      rcases List.mem_append.1 hx with hold | hnew
      · exact hc.expectedLengths x hold
      · rw [List.mem_singleton.1 hnew]
        exact hfits
  · exact constraints_accepted hc hc.expectedColumnIdentity hc.expectedLengths acceptedAt
  · refine constraints_accepted hc ?_ (fun x hx => hc.expectedLengths x (List.mem_of_mem_filter hx))
      acceptedAt
    exact List.Nodup.sublist (List.filter_sublist.map _) hc.expectedColumnIdentity
  · refine constraints_accepted hc (nodup_map_map (fun x => ?_) hc.expectedColumnIdentity)
      (fun x hx => ?_) acceptedAt
    · split
      · exact (fits_changedColumn hupdate (hfitting _ hafter) x).1
      · rfl
    · obtain ⟨old, hold, rfl⟩ := List.mem_map.1 hx
      obtain ⟨hname, hdefault⟩ := hc.expectedLengths old hold
      split
      · obtain ⟨hsame, hfits⟩ := fits_changedColumn hupdate (hfitting _ hafter) old
        exact ⟨by rw [(Prod.mk.inj hsame).2]; exact hname, hfits⟩
      · exact ⟨hname, hdefault⟩

/-! ## Deciding -/

omit [Hashlib] in
/-- An OPEN row is found by its id. -/
theorem openChange?_eq_some_of_open (hl : db.Linked) (hrow : row ∈ db.schemaChanges)
    (hid : row.id = req.changeId) (hopen : row.state = .open) :
    db.openChange? req.changeId = some row := by
  cases hfind : db.openChange? req.changeId with
  | none =>
    have := List.find?_eq_none.1 hfind row hrow
    simp [hid, hopen] at this
  | some other =>
    obtain ⟨hother, hotherId, -⟩ := openChange?_eq_some hfind
    exact congrArg some (eq_of_nodup_map hl.changeIds hother hrow (hotherId.trans hid.symm))

/-- **Acceptable tables decide every acceptance.** -/
theorem DB.Acceptable.decided (h : db.Acceptable) (hwf : db.WellFormed) : db.AcceptDecided where
  notOpen := by
    intro req hnone
    refine acceptResult_of_none hwf.constraints (List.find?_eq_none.2 fun row hrow => ?_)
    simp only [decide_eq_true_eq, not_and]
    exact hnone row hrow
  isOpen := by
    intro req row hrow hid hopen
    obtain ⟨source, dataset, c, hrec⟩ := hwf.recorded row hrow
    have hfound := openChange?_eq_some_of_open hwf.linked hrow hid hopen
    have hsource : db.sources.find? (fun s => s.id = row.sourceId) = some source :=
      (find?_eq_some_of_nodup hwf.linked.sourceIds).2 ⟨hrec.source_mem, hrec.source_id⟩
    refine ⟨source, hrec.source_mem, hrec.source_id, ?_⟩
    by_cases hversion : source.baselineVersion = req.baselineVersion
    · rw [if_pos hversion]
      obtain ⟨applied, happly⟩ := exists_appliesTo hrec (h.present row hrow hopen)
      exact acceptResult_of_applies hwf.constraints hfound hsource hversion happly
        (happly.constraints hwf.constraints hrow (h.fitting row hrow) _)
    · rw [if_neg hversion]
      exact acceptResult_of_conflict hwf.constraints hfound hsource hversion
  unchanged := by
    intro req e herror
    have heff := acceptEffect hwf req
    rw [herror] at heff
    generalize postAccept req db = after at heff
    rcases heff with _ | _
    rfl

/-! ## What keeps tables acceptable -/

/-- A drift scan's OPEN rows and differences are not mixed up: where an OPEN
row stays OPEN and a difference is of its column, one of them a removal,
they are one (additions apart). -/
def ScanRequest.Untangled (req : ScanRequest) (db : DB) : Prop :=
  ∀ source observed, db.sourceOf? req.sourceKey = some source → req.collected = .ok observed →
    ∀ row ∈ db.openRows source.id, row.changeType ≠ .addColumn →
      row.fingerprint ∈ db.activeFingerprints source (db.baseline source.id) observed →
      ∀ e ∈ db.driftChanges source (db.baseline source.id) observed,
        e.changeType ≠ .addColumn →
        (∃ d ∈ db.datasets, d.id = row.datasetId ∧ e.ref = ⟨d.ref, row.columnName⟩) →
        (row.changeType = .dropColumn ∨ e.changeType = .dropColumn) →
          changeFingerprint source.key e = row.fingerprint

/-- The scans among the operations do not mix up changes. -/
def Op.Untangled : Op → DB → Prop
  | .scan req, db => req.Untangled db
  | _, _ => True

omit [Hashlib] in
theorem DB.Acceptable.congr (h : db.Acceptable) (hchanges : db'.schemaChanges = db.schemaChanges)
    (hexpected : ∀ x ∈ db.expectedColumns, x ∈ db'.expectedColumns) : db'.Acceptable where
  present := by
    intro row hrow hopen hadd
    rw [hchanges] at hrow
    obtain ⟨x, hx, hnames⟩ := h.present row hrow hopen hadd
    exact ⟨x, hexpected x hx, hnames⟩
  alone := by
    rw [hchanges]
    exact h.alone
  fitting := by
    rw [hchanges]
    exact h.fitting

/-- A difference but an addition has its column in the baseline. -/
theorem exists_expected_of_difference (hwf : db.WellFormed) {observed : List ColumnDefinition}
    (he : e ∈ db.driftChanges source (db.baseline source.id) observed)
    (hadd : e.changeType ≠ .addColumn) {d : DatasetModel} (hd : d ∈ db.datasets)
    (hs : d.sourceId = source.id) (href : d.ref = e.dataset) :
    ∃ x ∈ db.expectedColumns, x.datasetId = d.id ∧ x.name = e.columnName := by
  obtain ⟨b, hb⟩ : ∃ b, columnAt (db.baseline source.id) e.ref = some b := by
    rcases (mem_compareColumn ref_of_columnAt).1 (mem_diffColumns.1 he) with
      ⟨a, -, -, heq⟩ | ⟨b, hb, -, -⟩ | ⟨b, a, hb, -, -, -⟩ | ⟨b, a, hb, -, -, -⟩
    · exact absurd (by rw [heq]; rfl) hadd
    · exact ⟨b, hb⟩
    · exact ⟨b, hb⟩
    · exact ⟨b, hb⟩
  obtain ⟨hbref, d', hd', hs', hr', hrow⟩ := (columnAt_baseline hwf.linked hwf.constraints).1 hb
  have hsame : d'.ref = d.ref := by
    rw [hr', href]
    exact congrArg ColumnRef.dataset hbref
  obtain rfl := eq_dataset hwf.constraints hd' hd (hs'.trans hs.symm) hsame
  exact ⟨_, hrow, rfl, congrArg ColumnRef.name hbref⟩

omit [Hashlib] in
/-- Differences of one column, one of them a removal, are one difference. -/
theorem eq_of_removal {expected observed : List ColumnDefinition} {dependencies : List ColumnRef}
    (hc : c ∈ diffColumns expected observed dependencies)
    (he : e ∈ diffColumns expected observed dependencies) (href : c.ref = e.ref)
    (hdrop : c.changeType = .dropColumn) : c = e := by
  refine eq_of_mem_diffColumns hc he href ?_
  have hc' := mem_diffColumns.1 hc
  have he' := mem_diffColumns.1 he
  rw [href] at hc'
  -- what is removed is not observed, and then there is nothing but its removal
  rcases (mem_compareColumn ref_of_columnAt).1 hc' with ⟨a, -, -, rfl⟩ | ⟨b, hb, hnone, rfl⟩ |
    ⟨b, a, -, -, -, rfl⟩ | ⟨b, a, -, -, -, rfl⟩
  · cases hdrop
  · rcases (mem_compareColumn ref_of_columnAt).1 he' with ⟨a, -, ha, -⟩ | ⟨b', -, -, heq⟩ |
      ⟨b', a, -, ha, -, -⟩ | ⟨b', a, -, ha, -, -⟩
    · rw [hnone] at ha
      cases ha
    · rw [heq]
      rfl
    · rw [hnone] at ha
      cases ha
    · rw [hnone] at ha
      cases ha
  · cases hdrop
  · cases hdrop

section Drifted

variable (hwf : db.WellFormed) {observed : List ColumnDefinition} {scan : ScanRequest}

include hwf

/-- An OPEN row after a drift scan was OPEN before and, if it is the
source's, active, or is new. -/
theorem mem_open_drifted {expected : List ColumnDefinition}
    (hrow : row ∈ (scan.drifted source expected observed db).schemaChanges)
    (hopen : row.state = .open) :
    (row ∈ db.schemaChanges ∧ (row.sourceId = source.id →
      row.fingerprint ∈ db.activeFingerprints source expected observed)) ∨
    row ∈ scan.openedRows source expected observed db := by
  rw [drifted_eq hwf] at hrow
  rcases List.mem_append.1 hrow with hold | hnew
  · obtain ⟨old, hmem, rfl⟩ := List.mem_map.1 hold
    unfold settle at hopen ⊢
    split at hopen
    · cases hopen
    · rename_i hnot
      rw [if_neg hnot]
      refine Or.inl ⟨hmem, fun hs => ?_⟩
      by_contra hgone
      exact hnot ⟨hs, hopen, hgone⟩
  · exact Or.inr hnew

/-- What a row recorded in a dataset of the source is of. -/
theorem sourceId_of_dataset (hrow : row ∈ db.schemaChanges) {d : DatasetModel}
    (hd : d ∈ db.datasets) (hs : d.sourceId = source.id) (hid : d.id = row.datasetId) :
    row.sourceId = source.id := by
  obtain ⟨s, dataset, c, hrec⟩ := hwf.recorded row hrow
  rw [dataset_eq_of_id hwf.linked hrec hd hid, hrec.owner] at hs
  rw [← hrec.source_id, hs]

/-- **A drift scan that mixes nothing up keeps tables acceptable.** -/
theorem DB.Acceptable.drifted (h : db.Acceptable) (hscan : scan.Untangled db)
    (hof : db.sourceOf? scan.sourceKey = some source) (hcollected : scan.collected = .ok observed)
    (hc : (scan.drifted source (db.baseline source.id) observed db).Constraints) :
    (scan.drifted source (db.baseline source.id) observed db).Acceptable := by
  have hexpected : (scan.drifted source (db.baseline source.id) observed db).expectedColumns =
      db.expectedColumns := by rw [drifted_eq hwf]
  have hobservedRows : ∀ a ∈ observed, ∀ text ∈ a.default, fits 1000 text := by
    intro a ha
    have hmem : observedRow db.nextId a ∈
        (scan.drifted source (db.baseline source.id) observed db).observedColumns := by
      rw [drifted_eq hwf]
      exact List.mem_append_right _ (List.mem_map_of_mem ha)
    exact (hc.observedLengths _ hmem).2.2
  -- an old row of a column and a difference opened of it, one a removal
  have hmixed : ∀ old ∈ db.schemaChanges, old.state = .open → old.changeType ≠ .addColumn →
      (old.sourceId = source.id → old.fingerprint ∈
        db.activeFingerprints source (db.baseline source.id) observed) →
      ∀ e ∈ db.opened source (db.baseline source.id) observed, e.changeType ≠ .addColumn →
      ∀ d ∈ db.datasets, d.sourceId = source.id → d.ref = e.dataset → d.id = old.datasetId →
      old.columnName = e.columnName →
      ¬ (old.changeType = .dropColumn ∨ e.changeType = .dropColumn) := by
    intro old hold hopen hadd hactive e he headd d hd hs href hid hname hremoval
    have howned := sourceId_of_dataset hwf hold hd hs hid
    have hrow : old ∈ db.openRows source.id := mem_openRows.2 ⟨hold, howned, hopen⟩
    obtain ⟨hdiff, hnew⟩ := List.mem_filter.1 he
    have hfp := hscan source observed hof hcollected old hrow hadd (hactive howned) e hdiff headd
      ⟨d, hd, hid, by rw [SchemaChange.ref, ← href, ← hname]⟩ hremoval
    simp only [decide_eq_true_eq] at hnew
    exact hnew ((mem_keys_openChanges hwf.constraints).2 ⟨old, hrow, hfp.symm⟩)
  refine ⟨fun row hrow hopen hadd => ?_, fun row hrow row' hrow' hopen hopen' hdrop hadd hdataset
    hname => ?_, fun row hrow after hafter => ?_⟩
  · rw [hexpected]
    rcases mem_open_drifted hwf hrow hopen with ⟨hold, -⟩ | hnew
    · exact h.present row hold hopen hadd
    · obtain ⟨e, he, d, hd, hs, href, -, heq⟩ := mem_openedRows hwf hnew
      rw [heq] at hadd ⊢
      exact exists_expected_of_difference hwf (List.mem_of_mem_filter he) hadd hd hs href
  · have hdrop' : row.changeType ≠ .addColumn := by rw [hdrop]; decide
    rcases mem_open_drifted hwf hrow hopen with ⟨hold, hactive⟩ | hnew <;>
      rcases mem_open_drifted hwf hrow' hopen' with ⟨hold', hactive'⟩ | hnew'
    · exact h.alone row hold row' hold' hopen hopen' hdrop hadd hdataset hname
    · obtain ⟨e, he, d, hd, hs, href, -, heq⟩ := mem_openedRows hwf hnew'
      rw [heq] at hadd hdataset hname
      exact absurd (Or.inl hdrop) (hmixed row hold hopen hdrop' hactive e he hadd d hd hs href
        hdataset.symm hname)
    · obtain ⟨e, he, d, hd, hs, href, -, heq⟩ := mem_openedRows hwf hnew
      rw [heq] at hdrop hdrop' hdataset hname
      exact absurd (Or.inr hdrop) (hmixed row' hold' hopen' hadd hactive' e he hdrop' d hd hs href
        hdataset hname.symm)
    · obtain ⟨e, he, d, hd, hs, href, -, heq⟩ := mem_openedRows hwf hnew
      obtain ⟨e', he', d', hd', hs', href', -, heq'⟩ := mem_openedRows hwf hnew'
      have hsame : e = e' := by
        rw [heq] at hdrop hdataset hname
        rw [heq'] at hdataset hname
        have hdd : d = d' := eq_of_nodup_map hwf.linked.datasetIds hd hd' hdataset
        refine eq_of_removal (List.mem_of_mem_filter he) (List.mem_of_mem_filter he') ?_ hdrop
        rw [SchemaChange.ref, SchemaChange.ref, ← href, ← href', hdd]
        exact congrArg _ hname
      -- two OPEN rows of one fingerprint are one
      refine eq_of_nodup_map (nodup_openFingerprints hc source.id)
        (mem_openRows.2 ⟨hrow, by rw [heq]; rfl, hopen⟩)
        (mem_openRows.2 ⟨hrow', by rw [heq']; rfl, hopen'⟩) ?_
      rw [heq, heq', hsame]
      rfl
  · rw [drifted_eq hwf] at hrow
    rcases List.mem_append.1 hrow with hold | hnew
    · obtain ⟨old, hmem, rfl⟩ := List.mem_map.1 hold
      have hsame : (settle source (db.activeFingerprints source (db.baseline source.id) observed)
          scan.finishedAt old).afterJson = old.afterJson := by
        unfold settle
        split <;> rfl
      rw [hsame] at hafter
      exact h.fitting old hmem after hafter
    · obtain ⟨e, he, d, -, -, -, -, heq⟩ := mem_openedRows hwf hnew
      rw [heq] at hafter
      obtain ⟨a, ha, rfl⟩ := Option.map_eq_some_iff.1 hafter
      rw [optionalString_toCanonicalDict]
      have hside := (sides_of_mem_diffColumns (List.mem_of_mem_filter he)).2
      exact hobservedRows a (mem_of_columnAt (hside.symm.trans ha)).1

end Drifted

/-- But for a removal a column that is there is there after the promotion. -/
theorem exists_promote (hrec : Records db change source dataset c) {b : ColumnDefinition}
    (hb : columnAt (db.baseline source.id) c.ref = some b)
    (hdrop : change.changeType ≠ .dropColumn) :
    ∃ p, c.promote (columnAt (db.baseline source.id) c.ref) = some p := by
  obtain ⟨a, ha⟩ := hrec.genuine.after_isSome (by rwa [← hrec.changeType])
  rw [hb, SchemaChange.promote]
  cases htype : c.changeType with
  | addColumn => exact ⟨b, rfl⟩
  | dropColumn => exact absurd (hrec.changeType.trans htype) hdrop
  | typeChange | nullabilityChange => simp [ha]

/-- **An acceptance keeps tables acceptable.** -/
theorem DB.Acceptable.accepted (h : db.Acceptable) (hwf : db.WellFormed)
    (hchange : change ∈ db.schemaChanges) (hopen : change.state = .open)
    (hrec : Records db change source dataset c) {rows : List ExpectedColumnModel}
    (hp : Promoted db change source c rows) (acceptedAt : Timestamp) :
    ({ db with expectedColumns := rows }.accepted source change acceptedAt).Acceptable := by
  rw [accepted_eq]
  have hold : ∀ row ∈ db.schemaChanges.map (closeRow change acceptedAt), row.state = .open →
      row ∈ db.schemaChanges ∧ row ≠ change := by
    intro row hrow hstate
    obtain ⟨old, hmem, rfl⟩ := List.mem_map.1 hrow
    unfold closeRow at hstate ⊢
    split at hstate
    · cases hstate
    · rename_i hne
      rw [if_neg hne]
      exact ⟨hmem, fun heq => hne (by rw [heq])⟩
  refine ⟨fun row hrow hstate hadd => ?_, fun row hrow row' hrow' hstate hstate' => ?_,
    fun row hrow after hafter => ?_⟩
  · obtain ⟨hmem, hne⟩ := hold row hrow hstate
    obtain ⟨x, hx, hid, hname⟩ := h.present row hmem hstate hadd
    obtain ⟨d, hd, hdx⟩ := hwf.linked.expectedDataset x hx
    obtain ⟨b, hbref, rfl⟩ := exists_column_of_row hwf.linked hx d hdx
    have hbdataset : b.dataset = d.ref := congrArg ColumnRef.dataset hbref
    by_cases hown : d.id = change.datasetId ∧ b.name = change.columnName
    · -- the column accepted is still there, for another change of it is OPEN
      have hdrop : change.changeType ≠ .dropColumn := by
        intro hdrop
        exact hne (h.alone change hchange row hmem hopen hstate hdrop hadd
          (hown.1.symm.trans hid) (hown.2.symm.trans hname)).symm
      obtain rfl := dataset_eq_of_id hwf.linked hrec hd hown.1
      have hbc : b.ref = c.ref := ref_eq_of_own hwf.linked hrec hd hbdataset hown.1 hown.2
      have hat : columnAt (db.baseline source.id) c.ref = some b :=
        (columnAt_recorded hwf.linked hwf.constraints hrec).2 ⟨hbc, hx⟩
      obtain ⟨p, hpromote⟩ := exists_promote hrec hat hdrop
      have hpref : p.ref = c.ref := ref_of_promote hrec hpromote
      have hpname : p.name = change.columnName :=
        (congrArg ColumnRef.name hpref).trans hrec.columnName.symm
      refine ⟨expectedRow d.id p, (hp.own d hd p ?_ hown.1 hpname).2 hpromote,
        hid, ?_⟩
      · exact (congrArg ColumnRef.dataset hpref).trans hrec.ref.symm
      · exact hpname.trans (hown.2.symm.trans hname)
    · exact ⟨_, (hp.other d hd b hbdataset hown).2 hx, hid, hname⟩
  · exact h.alone row (hold row hrow hstate).1 row' (hold row' hrow' hstate').1 hstate hstate'
  · obtain ⟨old, hmem, rfl⟩ := List.mem_map.1 hrow
    have hsame : (closeRow change acceptedAt old).afterJson = old.afterJson := by
      unfold closeRow
      split <;> rfl
    rw [hsame] at hafter
    exact h.fitting old hmem after hafter

/-- **Every operation keeps tables acceptable.** -/
theorem DB.Acceptable.apply (h : db.Acceptable) (hwf : db.WellFormed) {op : Op}
    (hop : op.Regular fun _ => True) (hunt : op.Untangled db) : (op.apply db).Acceptable := by
  cases op with
  | scan req =>
    have heff := scanEffect hwf hop.1
    simp only [Op.apply]
    generalize scanResult req db = result at heff
    generalize postScans req db = after at heff
    rcases heff with _ | _ | ⟨-, -, -, -, -⟩ | ⟨hof, hcollected, -, -, -, hc⟩
    · exact h
    · rw [failed_eq hwf.linked.scanFresh]
      exact h.congr rfl fun _ hx => hx
    · obtain ⟨_, _, rows, -, heq⟩ := baselined_eq hwf req _ _
      rw [heq]
      exact h.congr rfl fun _ hx => List.mem_append_left _ hx
    · exact h.drifted hwf hunt hof hcollected hc
  | accept req =>
    have heff := acceptEffect hwf req
    simp only [Op.apply]
    generalize acceptResult req db = result at heff
    generalize postAccept req db = after at heff
    rcases heff with _ | ⟨hchange, -, hopen, hrec, -, hp, -⟩
    · exact h
    · exact h.accepted hwf hchange hopen hrec hp _
  | sync document =>
    rcases syncCatalog_cases document db with heq | ⟨_, _, _, -, heq, -, -⟩
    · rw [Op.apply, heq]
      exact h
    · rw [Op.apply, heq]
      exact h.congr rfl fun _ hx => hx
  | relink pipelines edges =>
    rw [Op.apply, DB.relink]
    split
    · exact h.congr rfl fun _ hx => hx
    · exact h

omit [Hashlib] in
theorem DB.Initial.acceptable (h : db.Initial) : db.Acceptable := by
  rw [h.rest]
  constructor <;> simp

/-- **Every acceptance is decided** in every state that requests lead to
whose scans mix no changes up. -/
theorem accept_decided {start : DB} (hinit : start.Initial)
    (hpath : Lib.Path Op.apply (fun db op => (op.Regular fun _ => True) ∧ op.Untangled db) start
      db) : db.AcceptDecided := by
  have hboth : db.Acceptable ∧ db.WellFormed :=
    hpath.invariant (P := fun db => db.Acceptable ∧ db.WellFormed)
      ⟨hinit.acceptable, hinit.wellFormed⟩
      fun db op hdb hop => ⟨hdb.1.apply hdb.2 hop.1 hop.2, hdb.2.apply hop.1⟩
  exact hboth.1.decided hboth.2

/-! ## Names without dots -/

/-- Without dots and collisions no scan mixes changes up. -/
theorem untangled_of_dotless [Hashlib.CollisionFree] (hwf : db.WellFormed)
    (hdotless : ∀ d ∈ db.datasets, d.ref.Dotless) {scan : ScanRequest}
    (hnames : scan.Names DatasetRef.Dotless) : scan.Untangled db := by
  intro source observed hof hcollected row hrow hadd hactive e he headd ⟨d, hd, hid, href⟩ hremoval
  have hsource := (mem_of_sourceOf? hof).1
  obtain ⟨hmem, hs, -⟩ := mem_openRows.1 hrow
  obtain ⟨e₀, he₀, hfp⟩ := List.mem_map.1 hactive
  have hdescribes := describes_of_fingerprint hwf hdotless hsource hmem hs
    (filed_of_mem_diffColumns he₀)
    (dotless_of_mem_driftChanges hwf hdotless (hnames _ hcollected) he₀) hfp.symm
  obtain ⟨d₀, hd₀, hid₀, -, href₀⟩ := hdescribes.dataset
  have hcolumn : e₀.ref = e.ref := by
    rw [href, SchemaChange.ref, ← href₀, ← hdescribes.columnName,
      eq_of_nodup_map hwf.linked.datasetIds hd hd₀ (hid.trans hid₀.symm)]
  have hsame : e₀ = e := by
    rcases hremoval with hdrop | hdrop
    · exact eq_of_removal he₀ he hcolumn (hdescribes.changeType.symm.trans hdrop)
    · exact (eq_of_removal he he₀ hcolumn.symm hdrop).symm
  rw [← hsame, hfp]

/-- **Tables reachable with names without dots are acceptable**, unless
digests collide. -/
theorem DB.Reachable.acceptable [Hashlib.CollisionFree] (h : db.Reachable DatasetRef.Dotless) :
    db.Acceptable := by
  obtain ⟨start, hinit, hpath⟩ := h
  have hboth : db.Reachable DatasetRef.Dotless ∧ db.Acceptable := by
    refine hpath.invariant (P := fun db => db.Reachable DatasetRef.Dotless ∧ db.Acceptable)
      ⟨⟨start, hinit, .refl⟩, hinit.acceptable⟩ fun db op hdb hop => ⟨hdb.1.step hop, ?_⟩
    refine hdb.2.apply hdb.1.wellFormed hop.any ?_
    cases op with
    | scan req => exact untangled_of_dotless hdb.1.wellFormed hdb.1.names hop.2
    | accept | sync | relink => exact True.intro
  exact hboth.2

theorem untangled_of_no_changes (h : db.schemaChanges = []) (scan : ScanRequest) :
    scan.Untangled db := by
  intro source observed _ _ row hrow
  rw [DB.openRows, h] at hrow
  cases hrow

end Answers

section Sample

attribute [local instance] Hashlib.plain

/-- The sample's run to the loss of a column is decided. -/
theorem accept_decided_sample : (postScans sampleLoss sampleTables).AcceptDecided := by
  have hsynced : Lib.Path Op.apply (fun db op => (op.Regular fun _ => True) ∧ op.Untangled db)
      sampleStart sampleSynced :=
    (Lib.Path.refl.tail ⟨sampleScan_regular fun _ _ => True.intro, untangled_of_no_changes rfl _⟩).tail
      ⟨True.intro, True.intro⟩
  have hnone : sampleSynced.schemaChanges = [] := by
    rw [sampleSynced_eq]
    rfl
  have hloss : (Op.scan sampleLoss).Untangled sampleSynced := untangled_of_no_changes hnone _
  have hpath := hsynced.tail ⟨sampleScan_regular fun _ _ => True.intro, hloss⟩
  rw [sampleSynced_eq] at hpath
  exact accept_decided sampleStart_initial hpath

/-- A column of a dataset with a dot in its name. -/
def sampleDotted (schema table type : String) : ColumnDefinition :=
  { dataset := ⟨schema, table⟩, name := "x", dataType := { name := type }, nullable := false
    default := none }

/-- The change of one dataset's type stays OPEN on account of its
namesake's, while its own column is dropped and the loss accepted. -/
def sampleTangle : List Op :=
  [.scan (sampleScan [sampleDotted "a" "b.c" "integer", sampleDotted "a.b" "c" "integer"]),
   .scan (sampleScan [sampleDotted "a" "b.c" "bigint", sampleDotted "a.b" "c" "integer"]),
   .scan (sampleScan [sampleDotted "a.b" "c" "bigint"]),
   .accept { changeId := 8, baselineVersion := 1 }]

/-- **An OPEN change cannot be accepted**: at the current version the
acceptance of the type raises `ValueError`. -/
theorem accept_raises : ∃ db : DB, db.Reachable (fun _ => True) ∧ ¬ db.AcceptDecided ∧
    acceptResult { changeId := 5, baselineVersion := 2 } db =
      .error (.valueError "changed baseline column metadata is incomplete") := by
  have hpath : Lib.Path Op.apply (fun _ op => op.Regular fun _ => True) sampleStart
      (sampleTangle.foldl (fun db op => op.apply db) sampleStart) := by
    refine Path.of_events _ fun op hop _ => ?_
    simp only [sampleTangle, List.mem_cons, List.not_mem_nil, or_false] at hop
    rcases hop with rfl | rfl | rfl | rfl
    · exact sampleScan_regular fun _ _ => True.intro
    · exact sampleScan_regular fun _ _ => True.intro
    · exact sampleScan_regular fun _ _ => True.intro
    · exact True.intro
  have hrun : acceptResult { changeId := 5, baselineVersion := 2 }
        (sampleTangle.foldl (fun db op => op.apply db) sampleStart) =
      .error (.valueError "changed baseline column metadata is incomplete") ∧
      ∃ row ∈ (sampleTangle.foldl (fun db op => op.apply db) sampleStart).schemaChanges,
        row.id = 5 ∧ row.state = .open := by
    decide +kernel
  obtain ⟨hraise, row, hrow, hid, hopen⟩ := hrun
  refine ⟨_, ⟨_, sampleStart_initial, hpath⟩, fun h => ?_, hraise⟩
  obtain ⟨source, -, -, hanswer⟩ :=
    h.isOpen { changeId := 5, baselineVersion := 2 } row hrow hid hopen
  rw [hraise] at hanswer
  split at hanswer <;> cases hanswer

end Sample

end SchemaSentry
