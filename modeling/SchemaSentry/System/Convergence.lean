import SchemaSentry.System.Answers
import SchemaSentry.System.Progress
import SchemaSentry.System.Promotion
/-!
# Schema Sentry — accepting everything

After a drift scan whose differences are all recorded, the OPEN rows can be
accepted one by one in any order, each at the version its predecessor left.
What carries the induction is `Midway`: of every column some acceptances
have settled the baseline agrees with the observation, every other column
is as the scan found it, and what is still OPEN is a difference the scan
found. At the end nothing is OPEN and the observation differs from the
baseline in no column (`accept_all_converges`).
-/

namespace SchemaSentry

open Lib

/-- The version of a source's baseline. -/
def DB.versionOf (db : DB) (sourceId : Uuid) : ℤ :=
  match db.sources.find? fun s => s.id = sourceId with
  | some source => source.baselineVersion
  | none => 0

/-- The acceptance of a change at the version its source has. -/
def DB.acceptNow (db : DB) (sourceId changeId : Uuid) (acceptedAt : Timestamp) : AcceptRequest :=
  { changeId := changeId, baselineVersion := db.versionOf sourceId, acceptedAt := acceptedAt }

/-- Changes of a source accepted one after another, each at the version its
source then has: what the acceptances answer, and the tables they leave. -/
def DB.acceptAll (sourceId : Uuid) : List (Uuid × Timestamp) → DB →
    List (Except PyException AcceptanceResult) × DB
  | [], db => ([], db)
  | (changeId, acceptedAt) :: rest, db =>
    let req := db.acceptNow sourceId changeId acceptedAt
    let (answers, final) := acceptAll sourceId rest (postAccept req db)
    (acceptResult req db :: answers, final)

section Convergence

variable [Hashlib]
variable {db db' : DB} {source : DataSourceModel} {row : SchemaChangeModel} {e c : SchemaChange}
variable {req : AcceptRequest} {sourceId : Uuid} {key : String} {version : ℤ}
variable {expected observed : List ColumnDefinition} {dependencies : List ColumnRef}

/-- The OPEN rows of a source are the diff of its baseline against an
observation. -/
structure DB.OpenIsDiff (db : DB) (source : DataSourceModel) (observed : List ColumnDefinition) :
    Prop where
  described : ∀ row ∈ db.openRows source.id,
    ∃ e ∈ db.differences source observed (db.dependencies source.id), Describes db source.id row e
  recorded : ∀ e ∈ db.differences source observed (db.dependencies source.id),
    Recorded db source.id e

/-! ## Midway -/

/-- What holds of a source between two acceptances of the differences of a
baseline from an observation. -/
structure Midway (db : DB) (sourceId : Uuid) (key : String) (version : ℤ)
    (expected observed : List ColumnDefinition) (dependencies : List ColumnRef) : Prop where
  wellFormed : db.WellFormed
  source : ∃ source ∈ db.sources, source.id = sourceId ∧ source.key = key ∧
    source.baselineVersion = version
  described : ∀ row ∈ db.openRows sourceId,
    ∃ e ∈ diffColumns expected observed dependencies, Describes db sourceId row e
  settled : ∀ e ∈ diffColumns expected observed dependencies,
    Recorded db sourceId e ∨ shapeAt (db.baseline sourceId) e.ref = shapeAt observed e.ref
  column : ∀ ref, columnAt (db.baseline sourceId) ref = columnAt expected ref ∨
    shapeAt (db.baseline sourceId) ref = shapeAt observed ref
  removed : ∀ e ∈ diffColumns expected observed dependencies, e.changeType = .dropColumn →
    Recorded db sourceId e → columnAt (db.baseline sourceId) e.ref = columnAt expected e.ref

/-- The column of an OPEN difference that is no addition is in the baseline. -/
theorem Midway.present (h : Midway db sourceId key version expected observed dependencies)
    (he : e ∈ diffColumns expected observed dependencies) (hrecorded : Recorded db sourceId e)
    (hadd : e.changeType ≠ .addColumn) : ∃ b, columnAt (db.baseline sourceId) e.ref = some b := by
  have hkept : ∀ b, columnAt expected e.ref = some b →
      columnAt (db.baseline sourceId) e.ref = columnAt expected e.ref →
      ∃ b, columnAt (db.baseline sourceId) e.ref = some b :=
    fun b hb hsame => ⟨b, hsame.trans hb⟩
  have hseen : ∀ a, columnAt observed e.ref = some a →
      shapeAt (db.baseline sourceId) e.ref = shapeAt observed e.ref →
      ∃ b, columnAt (db.baseline sourceId) e.ref = some b := by
    intro a ha hshape
    rw [shapeAt, shapeAt, ha] at hshape
    obtain ⟨b, hb, -⟩ := Option.map_eq_some_iff.1 hshape
    exact ⟨b, hb⟩
  rcases (mem_compareColumn ref_of_columnAt).1 (mem_diffColumns.1 he) with
    ⟨a, -, -, heq⟩ | ⟨b, hb, -, heq⟩ | ⟨b, a, hb, ha, -, -⟩ | ⟨b, a, hb, ha, -, -⟩
  · exact absurd (by rw [heq]; rfl) hadd
  · exact hkept b hb (h.removed e he (by rw [heq]; rfl) hrecorded)
  · exact (h.column e.ref).elim (hkept b hb) (hseen a ha)
  · exact (h.column e.ref).elim (hkept b hb) (hseen a ha)

omit [Hashlib] in
/-- The OPEN rows after an acceptance are all but the one accepted. -/
theorem openRows_accepted {rows : List ExpectedColumnModel} {acceptedAt : Timestamp} :
    ({ db with expectedColumns := rows }.accepted source row acceptedAt).openRows sourceId =
      (db.openRows sourceId).filter fun other => other.id ≠ row.id := by
  rw [accepted_eq, DB.openRows, DB.openRows, List.filter_filter, List.filter_map]
  have hstays : ((fun c : SchemaChangeModel => decide (c.sourceId = sourceId ∧ c.state = .open)) ∘
      closeRow row acceptedAt) = fun other =>
        (decide (other.id ≠ row.id) && decide (other.sourceId = sourceId ∧ other.state = .open)) := by
    funext other
    unfold closeRow
    by_cases hid : other.id = row.id <;> simp [hid, SchemaChangeModel.accept]
  rw [hstays]
  refine (List.map_congr_left fun other hother => ?_).trans (List.map_id _)
  have hne : other.id ≠ row.id := by
    have hkept := (List.mem_filter.1 hother).2
    simp only [Bool.and_eq_true, decide_eq_true_eq] at hkept
    exact hkept.1
  rw [closeRow, if_neg hne]
  rfl

/-- What is written of an observation that fits can be written again. -/
theorem Records.fitting {dataset : DatasetModel} (hrec : Records db row source dataset e)
    (he : e ∈ diffColumns expected observed dependencies) (hfits : Fits observed) :
    ∀ after ∈ row.afterJson, ∀ text ∈ optionalString "default" after, fits 1000 text := by
  intro after hafter
  rw [hrec.after] at hafter
  obtain ⟨a, ha, rfl⟩ := Option.map_eq_some_iff.1 hafter
  rw [optionalString_toCanonicalDict]
  have hside := (sides_of_mem_diffColumns he).2
  exact (hfits a (mem_of_columnAt (hside.symm.trans ha)).1).2.2

/-- **The acceptance of an OPEN difference succeeds.** -/
theorem Midway.succeeds (h : Midway db sourceId key version expected observed dependencies)
    (hfits : Fits observed) (hrow : row ∈ db.openRows sourceId) (hid : req.changeId = row.id)
    (hversion : req.baselineVersion = version) :
    acceptResult req db = .ok { changeId := row.id, baselineVersion := version + 1 } := by
  obtain ⟨source, hsource, rfl, rfl, rfl⟩ := h.source
  have hwf := h.wellFormed
  obtain ⟨hmem, hs, hopen⟩ := mem_openRows.1 hrow
  obtain ⟨e, he, hdesc⟩ := h.described row hrow
  obtain ⟨dataset, c, hrec⟩ := exists_records_of_source hwf hsource hmem hs
  obtain rfl := hdesc.eq_of_records hwf hrec (filed_of_mem_diffColumns he)
  obtain ⟨applied, happly⟩ := exists_appliesTo hrec fun hadd => by
    obtain ⟨b, hb⟩ := h.present he ⟨row, hrow, hdesc⟩ (hrec.changeType ▸ hadd)
    obtain ⟨href, hmember⟩ := (columnAt_recorded hwf.linked hwf.constraints hrec).1 hb
    exact ⟨_, hmember, hrec.dataset_id,
      (congrArg ColumnRef.name href).trans hrec.columnName.symm⟩
  have hfound := openChange?_eq_some_of_open hwf.linked hmem hid.symm hopen
  have howner : db.sources.find? (fun s => s.id = row.sourceId) = some source :=
    (find?_eq_some_of_nodup hwf.linked.sourceIds).2 ⟨hsource, hs.symm⟩
  rw [← hid]
  exact acceptResult_of_applies hwf.constraints hfound howner hversion.symm happly
    (happly.constraints hwf.constraints hmem (hrec.fitting he hfits) _)

omit [Hashlib] in
/-- A difference OPEN after an acceptance was OPEN before, in another row. -/
theorem recorded_of_accepted {rows : List ExpectedColumnModel} {acceptedAt : Timestamp}
    (h : Recorded ({ db with expectedColumns := rows }.accepted source row acceptedAt)
      sourceId c) :
    ∃ other ∈ db.openRows sourceId, other.id ≠ row.id ∧ Describes db sourceId other c := by
  obtain ⟨other, hother, hdesc⟩ := h
  rw [openRows_accepted] at hother
  obtain ⟨hold, hne⟩ := List.mem_filter.1 hother
  exact ⟨other, hold, by simpa using hne, { hdesc with }⟩

/-- **One more acceptance** is midway too. -/
theorem Midway.step (h : Midway db sourceId key version expected observed dependencies)
    (hfits : Fits observed) (hrow : row ∈ db.openRows sourceId) (hid : req.changeId = row.id)
    (hversion : req.baselineVersion = version) :
    Midway (postAccept req db) sourceId key (version + 1) expected observed dependencies ∧
      (postAccept req db).openRows sourceId =
        (db.openRows sourceId).filter fun other => other.id ≠ row.id := by
  have hsucceeds := h.succeeds hfits hrow hid hversion
  obtain ⟨source, hsource, rfl, rfl, rfl⟩ := h.source
  have hwf := h.wellFormed
  obtain ⟨e, he, hdesc⟩ := h.described row hrow
  obtain ⟨rows, dataset, c, hrec, hp, hafter⟩ := exists_promoted hwf hsource hrow hid hsucceeds
  obtain rfl := hdesc.eq_of_records hwf hrec (filed_of_mem_diffColumns he)
  have hwf' : (postAccept req db).WellFormed := accept_wellFormed hwf req
  have hcolumns := columnAt_after hwf hwf' hrec hp hafter
  have hopen : (postAccept req db).openRows source.id =
      (db.openRows source.id).filter fun other => other.id ≠ row.id := by
    rw [hafter]
    exact openRows_accepted
  have hrecorded : ∀ {c}, Recorded (postAccept req db) source.id c →
      ∃ other ∈ db.openRows source.id, other.id ≠ row.id ∧ Describes db source.id other c := by
    rw [hafter]
    exact recorded_of_accepted
  have hdescribes : ∀ {other c}, Describes db source.id other c →
      Describes (postAccept req db) source.id other c := by
    rw [hafter]
    exact fun hold => { hold with }
  -- the column accepted is settled, and every other column is as it was
  have hown : shapeAt ((postAccept req db).baseline source.id) c.ref = shapeAt observed c.ref := by
    rw [shapeAt, hcolumns, if_pos rfl]
    exact shape_promote he (h.column c.ref)
  have hother : ∀ {ref}, ref ≠ c.ref → columnAt ((postAccept req db).baseline source.id) ref =
      columnAt (db.baseline source.id) ref := by
    intro ref hne
    rw [hcolumns, if_neg hne]
  have hsettled : ∀ ref, shapeAt (db.baseline source.id) ref = shapeAt observed ref →
      shapeAt ((postAccept req db).baseline source.id) ref = shapeAt observed ref := by
    intro ref hshape
    by_cases href : ref = c.ref
    · rw [href]
      exact hown
    · rw [shapeAt, hother href]
      exact hshape
  refine ⟨⟨hwf', ?_, ?_, ?_, ?_, ?_⟩, hopen⟩
  · refine ⟨raiseVersion source source, ?_, id_raiseVersion source source,
      key_raiseVersion source source, by rw [raiseVersion, if_pos rfl]⟩
    rw [hafter, accepted_eq]
    exact List.mem_map_of_mem hsource
  · intro other hmem
    rw [hopen] at hmem
    obtain ⟨d, hd, hold⟩ := h.described other (List.mem_of_mem_filter hmem)
    exact ⟨d, hd, hdescribes hold⟩
  · intro d hd
    rcases h.settled d hd with ⟨other, hmem, hold⟩ | hshape
    · by_cases hsame : other.id = row.id
      · obtain rfl := eq_of_nodup_map hwf.linked.changeIds (mem_openRows.1 hmem).1
          (mem_openRows.1 hrow).1 hsame
        obtain rfl := hold.eq_of_records hwf hrec (filed_of_mem_diffColumns hd)
        exact Or.inr hown
      · refine Or.inl ⟨other, ?_, hdescribes hold⟩
        rw [hopen]
        exact List.mem_filter.2 ⟨hmem, by simpa using hsame⟩
    · exact Or.inr (hsettled d.ref hshape)
  · intro ref
    by_cases href : ref = c.ref
    · rw [href]
      exact Or.inr hown
    · rw [hother href]
      exact (h.column ref).imp_right (hsettled ref)
  · intro d hd hdrop hlater
    obtain ⟨other, hmem, hne, hold⟩ := hrecorded hlater
    -- a removal still OPEN is not of the column accepted: it is its only difference
    have href : d.ref ≠ c.ref := by
      intro href
      obtain rfl := eq_of_removal hd he href hdrop
      exact hne (congrArg SchemaChangeModel.id
        (eq_of_describes hwf hsource hmem hrow hold hdesc (filed_of_mem_diffColumns hd)))
    rw [hother href]
    exact h.removed d hd hdrop ⟨other, hmem, hold⟩

/-! ## The whole order -/

theorem Midway.versionOf (h : Midway db sourceId key version expected observed dependencies) :
    db.versionOf sourceId = version := by
  obtain ⟨source, hsource, hid, -, hversion⟩ := h.source
  rw [DB.versionOf, (find?_eq_some_of_nodup h.wellFormed.linked.sourceIds).2 ⟨hsource, hid⟩]
  exact hversion

/-- **The acceptances of all OPEN rows succeed**, each at the next version,
and leave none OPEN. -/
theorem Midway.acceptAll (h : Midway db sourceId key version expected observed dependencies)
    (hfits : Fits observed) {order : List (Uuid × Timestamp)}
    (horder : (order.map Prod.fst).Perm ((db.openRows sourceId).map SchemaChangeModel.id)) :
    (DB.acceptAll sourceId order db).1 =
        order.mapIdx (fun k x => .ok { changeId := x.1, baselineVersion := version + k + 1 }) ∧
      Midway (DB.acceptAll sourceId order db).2 sourceId key (version + order.length) expected
        observed dependencies ∧
      (DB.acceptAll sourceId order db).2.openRows sourceId = [] := by
  induction order generalizing db version with
  | nil =>
    refine ⟨rfl, ?_, List.map_eq_nil_iff.1 (List.nil_perm.1 horder)⟩
    simpa [DB.acceptAll] using h
  | cons x rest ih =>
    obtain ⟨changeId, acceptedAt⟩ := x
    rw [List.map_cons, List.cons_perm_iff_perm_erase] at horder
    obtain ⟨hmem, hrest⟩ := horder
    obtain ⟨row, hrow, rfl⟩ := List.mem_map.1 hmem
    have hversion : (db.acceptNow sourceId row.id acceptedAt).baselineVersion = version :=
      h.versionOf
    have hsucceeds := h.succeeds hfits hrow rfl hversion
    obtain ⟨hnext, hopen⟩ := h.step hfits hrow rfl hversion
    have hids : ((db.openRows sourceId).map SchemaChangeModel.id).Nodup :=
      List.Nodup.sublist (List.filter_sublist.map _) h.wellFormed.linked.changeIds
    obtain ⟨hanswers, hfinal, hnone⟩ := ih hnext (by
      rw [hids.erase_eq_filter, List.filter_map] at hrest
      rw [hopen]
      refine hrest.trans (List.Perm.of_eq (congrArg _ (List.filter_congr fun other _ => ?_)))
      simp [bne, Bool.beq_eq_decide_eq])
    refine ⟨?_, ?_, hnone⟩
    · rw [DB.acceptAll, List.mapIdx_cons]
      refine congrArg₂ List.cons (hsucceeds.trans (by simp)) (hanswers.trans ?_)
      congr 1
      funext k x
      simp only [Nat.cast_add, Nat.cast_one, Except.ok.injEq, AcceptanceResult.mk.injEq, true_and]
      omega
    · have hlength : version + ((⟨row.id, acceptedAt⟩ :: rest : List (Uuid × Timestamp)).length : ℤ)
          = version + 1 + (rest.length : ℤ) := by
        simp only [List.length_cons, Nat.cast_add, Nat.cast_one]
        omega
      rw [hlength]
      exact hfinal

/-- With nothing OPEN the baseline has the observation's columns. -/
theorem Midway.shapeAt_eq (h : Midway db sourceId key version expected observed dependencies)
    (hnone : db.openRows sourceId = []) (ref : ColumnRef) :
    shapeAt (db.baseline sourceId) ref = shapeAt observed ref := by
  by_cases hdiff : ∃ e ∈ diffColumns expected observed dependencies, e.ref = ref
  · obtain ⟨e, he, rfl⟩ := hdiff
    refine (h.settled e he).resolve_left fun ⟨row, hrow, _⟩ => ?_
    rw [hnone] at hrow
    cases hrow
  · have hsame : shapeAt expected ref = shapeAt observed ref := by
      by_contra hne
      exact hdiff (exists_difference_iff.2 hne)
    refine (h.column ref).elim (fun hkept => ?_) id
    rw [← hsame, shapeAt, hkept]
    rfl

/-! ## The next scan -/

/-- The next scan of an observation reports nothing and records nothing. -/
structure Quiet (req : ScanRequest) (source : DataSourceModel) (db : DB) : Prop where
  report : ∃ report, scanResult req db = .ok report ∧ report.baselineCreated = false ∧
    report.changes = []
  rows : (postScans req db).schemaChanges = db.schemaChanges
  none : (postScans req db).openRows source.id = []
  deliveries : (postScans req db).alertDeliveries = db.alertDeliveries

/-- **A scan that finds the baseline is quiet** where nothing is OPEN. -/
theorem quiet_of_shapeAt (hwf : db.WellFormed) {next : ScanRequest} (hf : next.faults = noFaults)
    (hsource : db.sourceOf? next.sourceKey = some source) (hcollected : next.collected = .ok observed)
    (hne : observed ≠ []) (hfits : Fits observed) (hnone : db.openRows source.id = [])
    (hshape : ∀ ref, shapeAt (db.baseline source.id) ref = shapeAt observed ref) :
    Quiet next source db := by
  have hbase : db.baseline source.id ≠ [] := by
    obtain ⟨a, ha⟩ := List.exists_mem_of_ne_nil _ hne
    obtain ⟨b, hb⟩ := exists_columnAt ha
    have hsome := hshape a.ref
    rw [shapeAt, shapeAt, hb] at hsome
    obtain ⟨x, hx, -⟩ := Option.map_eq_some_iff.1 hsome
    exact List.ne_nil_of_mem (mem_of_columnAt hx).1
  have hdiff : db.driftChanges source (db.baseline source.id) observed = [] :=
    diffColumns_eq_nil_of_shapeAt hshape
  have hopened : db.opened source (db.baseline source.id) observed = [] := by
    rw [DB.opened, hdiff]
    rfl
  obtain ⟨hresult, hpost, -⟩ := scan_records hwf hf hsource hcollected hne hfits hbase
    (by rw [hopened]; exact fun c hc => absurd hc List.not_mem_nil) (by rw [hopened]; exact .nil)
  have hrows : next.openedRows source (db.baseline source.id) observed db = [] := by
    rw [ScanRequest.openedRows, hopened]
    rfl
  -- no row of the source is OPEN, so none is resolved
  have hsettle : ∀ row ∈ db.schemaChanges,
      settle source (db.activeFingerprints source (db.baseline source.id) observed)
        next.finishedAt row = row := by
    intro row hrow
    rw [settle, if_neg]
    rintro ⟨hs, hopen, -⟩
    have hmem := mem_openRows.2 ⟨hrow, hs, hopen⟩
    rw [hnone] at hmem
    cases hmem
  have hkept : (postScans next db).schemaChanges = db.schemaChanges := by
    rw [hpost, drifted_eq hwf, hrows, List.append_nil]
    exact (List.map_congr_left hsettle).trans (List.map_id _)
  refine ⟨⟨_, hresult, rfl, hdiff⟩, hkept, ?_, ?_⟩
  · rw [DB.openRows, hkept]
    exact hnone
  · rw [hpost, drifted_eq hwf, DB.opensAlertable, hopened]
    exact List.append_nil _

/-! ## Right after a drift scan -/

/-- All OPEN rows of a source were accepted: every acceptance succeeded, the
version counts them, the baseline has the observation's columns, types and
nullability, and the next scan of the observation is quiet. -/
structure Converges (db : DB) (source : DataSourceModel) (observed : List ColumnDefinition)
    (order : List (Uuid × Timestamp)) : Prop where
  answers : (DB.acceptAll source.id order db).1 = order.mapIdx fun k x =>
    .ok { changeId := x.1, baselineVersion := source.baselineVersion + k + 1 }
  version : (DB.acceptAll source.id order db).2.versionOf source.id =
    source.baselineVersion + order.length
  columns : ∀ ref, shapeAt ((DB.acceptAll source.id order db).2.baseline source.id) ref =
    shapeAt observed ref
  next : ∀ next : ScanRequest, next.faults = noFaults → next.sourceKey = source.key →
    next.collected = .ok observed → Quiet next source (DB.acceptAll source.id order db).2

/-- Before the first acceptance. -/
theorem DB.OpenIsDiff.midway (h : db.OpenIsDiff source observed) (hwf : db.WellFormed)
    (hsource : source ∈ db.sources) :
    Midway db source.id source.key source.baselineVersion (db.baseline source.id) observed
      (db.dependencies source.id) where
  wellFormed := hwf
  source := ⟨source, hsource, rfl, rfl, rfl⟩
  described := h.described
  settled := fun e he => Or.inl (h.recorded e he)
  column := fun _ => Or.inl rfl
  removed := fun _ _ _ _ => rfl

/-- The observation of a drift scan that completed fits. -/
theorem fits_of_drifted (hwf : db.WellFormed) {scan : ScanRequest}
    (hc : (scan.drifted source expected observed db).Constraints) : Fits observed := by
  intro column hcolumn
  have hmem : observedRow db.nextId column ∈
      (scan.drifted source expected observed db).observedColumns := by
    rw [drifted_eq hwf]
    exact List.mem_append_right _ (List.mem_map_of_mem hcolumn)
  exact hc.observedLengths _ hmem

/-- **Accepting everything converges, in any order.** -/
theorem accept_all_converges {before : DB} (hreach : before.Reachable fun _ => True)
    {scan : ScanRequest} (hf : scan.faults = noFaults) (hcollected : scan.collected = .ok observed)
    {report : ScanReport} (hscan : scanResult scan before = .ok report)
    (hdrift : report.baselineCreated = false)
    (hsource : before.sourceOf? scan.sourceKey = some source)
    (hopen : (postScans scan before).OpenIsDiff source observed)
    {order : List (Uuid × Timestamp)}
    (horder : (order.map Prod.fst).Perm
      (((postScans scan before).openRows source.id).map SchemaChangeModel.id)) :
    Converges (postScans scan before) source observed order := by
  have hwf : (postScans scan before).WellFormed := scan_wellFormed hreach.wellFormed hf
  obtain ⟨hmem, hne, hfits⟩ : source ∈ (postScans scan before).sources ∧ observed ≠ [] ∧
      Fits observed := by
    have heff := scanEffect hreach.wellFormed hf
    rw [hscan] at heff
    generalize postScans scan before = after at heff
    rcases heff with _ | _ | _ | ⟨hof, hcol, hne, -, -, hc⟩
    · cases hdrift
    · cases hcollected.symm.trans hcol
      cases hsource.symm.trans hof
      refine ⟨?_, hne, fits_of_drifted hreach.wellFormed hc⟩
      rw [drifted_eq hreach.wellFormed]
      exact (mem_of_sourceOf? hof).1
  generalize postScans scan before = db at hopen horder hwf hmem ⊢
  obtain ⟨hanswers, hfinal, hnone⟩ := (hopen.midway hwf hmem).acceptAll hfits horder
  refine ⟨hanswers, hfinal.versionOf, hfinal.shapeAt_eq hnone, fun next hnf hkey hcol => ?_⟩
  -- the source is now another row, of the same key
  obtain ⟨later, hlater, hid, hsame, -⟩ := hfinal.source
  have hof : (DB.acceptAll source.id order db).2.sourceOf? next.sourceKey = some later :=
    (find?_eq_some_of_nodup hfinal.wellFormed.constraints.sourceKey).2
      ⟨hlater, hsame.trans hkey.symm⟩
  have hquiet : Quiet next later (DB.acceptAll source.id order db).2 :=
    quiet_of_shapeAt hfinal.wellFormed hnf hof hcol hne hfits (by rw [hid]; exact hnone)
      (by rw [hid]; exact hfinal.shapeAt_eq hnone)
  exact ⟨hquiet.report, hquiet.rows, hid ▸ hquiet.none, hquiet.deliveries⟩

/-- **Without dots and collisions the OPEN rows are the diff.** -/
theorem openIsDiff_of_dotless [Hashlib.CollisionFree] {before : DB}
    (hreach : before.Reachable DatasetRef.Dotless) {scan : ScanRequest}
    (hreq : (Op.scan scan).Regular DatasetRef.Dotless) (hcollected : scan.collected = .ok observed)
    {report : ScanReport} (hscan : scanResult scan before = .ok report)
    (hdrift : report.baselineCreated = false)
    (hsource : before.sourceOf? scan.sourceKey = some source) :
    (postScans scan before).OpenIsDiff source observed := by
  obtain ⟨s, o, hs, ho, -, hrec⟩ := scan_reconciles hreach hreq hscan hdrift
  cases hsource.symm.trans hs
  cases hcollected.symm.trans ho
  obtain ⟨rows, hperm, hpairs⟩ := hrec.correspondence
  have hdiff : (postScans scan before).differences source observed
      ((postScans scan before).dependencies source.id) =
      diffColumns (before.baseline source.id) observed (before.dependencies source.id) := by
    rw [DB.differences, baseline_congr hrec.datasets hrec.expectedColumns,
      dependencies_congr hrec.datasets hrec.lineage.2]
  constructor
  · intro row hrow
    rw [hdiff]
    exact exists_right_of_forall₂ hpairs (hperm.mem_iff.2 hrow)
  · intro e he
    rw [hdiff] at he
    obtain ⟨row, hrow, hdesc⟩ := exists_left_of_forall₂ hpairs he
    exact ⟨row, hperm.mem_iff.1 hrow, hdesc⟩

end Convergence

section Sample

attribute [local instance] Hashlib.plain

/-- The other column of the sample, as a nullable text. -/
def sampleText : ColumnDefinition := sampleColumn "mart" "id" "text" true

/-- The column the pipeline reads is lost, and the other one rewritten. -/
def sampleMixed : ScanRequest := sampleScan [sampleText]

def sampleMixedReport : ScanReport :=
  { scanId := 5, sourceKey := "crm", trigger := .manual, baselineCreated := false
    observedCount := 1
    changes :=
      [.renull (sampleColumn "mart" "id" "integer" false) sampleText
        [⟨⟨"public", "users"⟩, "id"⟩],
       .retype (sampleColumn "mart" "id" "integer" false) sampleText,
       .drop (sampleColumn "users" "id" "integer" false) [⟨⟨"public", "users"⟩, "id"⟩]] }

/-- The three changes of the sample, in an order other than the report's. -/
theorem accept_all_converges_sample :
    Converges (postScans sampleMixed sampleTables) sampleSource [sampleText]
      [(8, 0), (6, 0), (7, 0)] := by
  have := Hashlib.collisionFree_plain
  -- one evaluation of the scan for both facts
  obtain ⟨hscan, hopened⟩ : scanResult sampleMixed sampleTables = .ok sampleMixedReport ∧
      ((postScans sampleMixed sampleTables).openRows 0).map SchemaChangeModel.id = [6, 7, 8] := by
    decide +kernel
  have hsource : sampleTables.sourceOf? sampleMixed.sourceKey = some sampleSource := by decide
  have horder : ([(8, 0), (6, 0), (7, 0)].map Prod.fst : List Uuid).Perm
      (((postScans sampleMixed sampleTables).openRows 0).map SchemaChangeModel.id) := by
    rw [hopened]
    decide
  exact accept_all_converges sampleTables_reachable.any rfl rfl hscan rfl hsource
    (openIsDiff_of_dotless sampleTables_reachable (sampleScan_regular (by decide)) rfl hscan rfl
      hsource) horder

end Sample

end SchemaSentry
