import SchemaSentry.System.Convergence
import SchemaSentry.System.LineageKept
import SchemaSentry.System.Versions
/-!
# Schema Sentry — fresh acceptances

An acceptance writes what an OPEN row kept of the scan that opened it, which
may be many scans ago. It is what the source's latest COMPLETED scan
observed where every scan between compared the row with its own
observation. A drift scan does. A scan that makes a first baseline again
does not: it leaves the rows OPEN that it finds (`Op.Reconciles`). What
carries the induction is that an OPEN row either reports the latest
observation or can write nothing, now and after the others
(`DB.Current`).
-/

namespace SchemaSentry

open Lib

/-! ## The latest observation -/

def ObservedColumnModel.ref (o : ObservedColumnModel) : ColumnRef :=
  ⟨⟨o.schemaName, o.tableName⟩, o.name⟩

/-- An observed row as the snapshot of its column. -/
def ObservedColumnModel.toCanonicalDict (o : ObservedColumnModel) : JsonObject :=
  [("dataset", .str o.ref.dataset.qualifiedName),
   ("name", .str o.name),
   ("data_type", .obj o.dataTypeJson),
   ("nullable", .bool o.nullable),
   ("default", optionalStr o.defaultExpression),
   ("ordinal", .int o.ordinal)]

/-- The columns that a source's last scan that COMPLETED observed. -/
def DB.latestObserved (db : DB) (sourceId : Uuid) : List ObservedColumnModel :=
  match db.latestScan? sourceId with
  | none => []
  | some scan => db.observedColumns.filter fun o => o.scanId = scan.id

/-- A column is among those observed. -/
def Seen (seen : List ObservedColumnModel) (ref : ColumnRef) : Prop := ∃ o ∈ seen, o.ref = ref

instance (seen : List ObservedColumnModel) (ref : ColumnRef) : Decidable (Seen seen ref) :=
  inferInstanceAs (Decidable (∃ _ ∈ _, _))

/-! ## Fresh acceptances -/

section Freshness

variable [Hashlib]
variable {db db' : DB} {source : DataSourceModel} {dataset d : DatasetModel} {req : ScanRequest}
variable {row change other : SchemaChangeModel} {c e : SchemaChange} {sourceId : Uuid}
variable {observed : List ColumnDefinition} {seen : List ObservedColumnModel} {ref : ColumnRef}
variable {rows : List ExpectedColumnModel} {name : String}

/-- What an acceptance writes is what the source's latest scan that COMPLETED
observed, and what it deletes that scan did not observe. An addition that
finds its column writes nothing. -/
structure FreshAcceptance (req : AcceptRequest) (db : DB) : Prop where
  written : ∀ change ∈ db.schemaChanges, change.id = req.changeId →
    change.changeType ≠ .dropColumn →
    (change.changeType = .addColumn → ¬ db.HasColumn change.datasetId change.columnName) →
    ∀ d ∈ db.datasets, d.id = change.datasetId →
    ∀ x ∈ (postAccept req db).expectedColumns, change.Names x →
      ∃ o ∈ db.latestObserved d.sourceId, o.ref = ⟨d.ref, change.columnName⟩ ∧
        x.dataTypeJson = o.dataTypeJson ∧ x.nullable = o.nullable ∧
        x.defaultExpression = o.defaultExpression
  deleted : ∀ d ∈ db.datasets, ∀ name, db.HasColumn d.id name →
    ¬ (postAccept req db).HasColumn d.id name → ¬ Seen (db.latestObserved d.sourceId) ⟨d.ref, name⟩

/-- Every acceptance that succeeds is fresh. -/
def DB.AcceptsFresh (db : DB) : Prop :=
  ∀ req r, acceptResult req db = .ok r → FreshAcceptance req db

/-! ## Rows and observations -/

omit [Hashlib] in
/-- A change row says of its column what an observation says. -/
structure SchemaChangeModel.Reports (row : SchemaChangeModel) (ref : ColumnRef)
    (seen : List ObservedColumnModel) : Prop where
  gone : row.changeType = .dropColumn → ¬ Seen seen ref
  seen : row.changeType ≠ .dropColumn →
    ∃ o ∈ seen, o.ref = ref ∧ row.afterJson = some o.toCanonicalDict

omit [Hashlib] in
/-- A change row can write nothing, and no other OPEN row can change that. -/
structure SchemaChangeModel.Idle (row : SchemaChangeModel) (db : DB) : Prop where
  idle : row.changeType = .addColumn ↔ db.HasColumn row.datasetId row.columnName
  stays : ∀ other ∈ db.schemaChanges, other.state = .open → other.datasetId = row.datasetId →
    other.columnName = row.columnName →
      (other.changeType = .dropColumn → row.changeType ≠ .addColumn) ∧
      (other.changeType = .addColumn → row.changeType = .addColumn)

omit [Hashlib] in
/-- Every OPEN row of a dataset reports the latest observation of its source
or is idle. -/
def DB.CurrentIn (db : DB) (d : DatasetModel) : Prop :=
  ∀ row ∈ db.schemaChanges, row.state = .open → row.datasetId = d.id →
    row.Reports ⟨d.ref, row.columnName⟩ (db.latestObserved d.sourceId) ∨ row.Idle db

omit [Hashlib] in
def DB.Current (db : DB) : Prop := ∀ d ∈ db.datasets, db.CurrentIn d

omit [Hashlib] in
/-- A change row reports an observation, or observation and baseline agree
that there is nothing for it to write. -/
def SchemaChangeModel.Reconciled (row : SchemaChangeModel) (ref : ColumnRef)
    (seen : List ObservedColumnModel) (present : Prop) : Prop :=
  row.Reports ref seen ∨
    ((row.changeType = .addColumn ↔ Seen seen ref) ∧ (present ↔ Seen seen ref))

/-- The observation can be stored, and the differences with it. -/
def DB.Storable (db : DB) (source : DataSourceModel) (observed : List ColumnDefinition) : Prop :=
  Fits observed ∧ (db.baseline source.id = [] → DistinctRefs observed) ∧
    (db.baseline source.id ≠ [] →
      InDatasets (db.datasetsByRef source.id)
        (db.opened source (db.baseline source.id) observed) ∧
      ((db.opened source (db.baseline source.id) observed).map
        (changeFingerprint source.key)).Nodup)

/-- A scan reconciles the OPEN rows it leaves OPEN, which are all of them
where it makes a first baseline, and the active ones where it does not. -/
def Op.Reconciles : Op → DB → Prop
  | .scan req, db => ∀ source observed, db.sourceOf? req.sourceKey = some source →
      req.collected = .ok observed → observed ≠ [] → db.Storable source observed →
      ∀ row ∈ db.openRows source.id,
        (db.baseline source.id = [] ∨
          row.fingerprint ∈ db.activeFingerprints source (db.baseline source.id) observed) →
        ∀ d ∈ db.datasets, row.datasetId = d.id →
          row.Reconciled ⟨d.ref, row.columnName⟩ (observed.map (observedRow db.nextId))
            (if db.baseline source.id = [] then
              Seen (observed.map (observedRow db.nextId)) ⟨d.ref, row.columnName⟩
            else db.HasColumn d.id row.columnName)
  | _, _ => True

omit [Hashlib] in
theorem optionalStr_inj {s t : Option String} (h : optionalStr s = optionalStr t) : s = t := by
  cases s <;> cases t <;> simp_all [optionalStr]

omit [Hashlib] in
/-- What a snapshot says of a column. -/
theorem eq_of_snapshot {a : ColumnDefinition} {o : ObservedColumnModel}
    (h : a.toCanonicalDict = o.toCanonicalDict) :
    a.dataType.toCanonicalDict = o.dataTypeJson ∧ a.nullable = o.nullable ∧
      a.default = o.defaultExpression := by
  simp only [ColumnDefinition.toCanonicalDict, ObservedColumnModel.toCanonicalDict,
    List.cons.injEq, Prod.mk.injEq, Json.obj.injEq, Json.bool.injEq, true_and, and_true] at h
  exact ⟨h.2.2.1, h.2.2.2.1, optionalStr_inj h.2.2.2.2.1⟩

/-! ## What a scan changes of the latest observation -/

omit [Hashlib] in
theorem seen_map_iff {scanId : Uuid} :
    Seen (observed.map (observedRow scanId)) ref ↔ ∃ a ∈ observed, a.ref = ref := by
  constructor
  · rintro ⟨o, ho, rfl⟩
    obtain ⟨a, ha, rfl⟩ := List.mem_map.1 ho
    exact ⟨a, ha, rfl⟩
  · rintro ⟨a, ha, rfl⟩
    exact ⟨_, List.mem_map_of_mem ha, rfl⟩

omit [Hashlib] in
/-- **A scan added** is the latest of its source where it COMPLETED, and
changes no latest observation otherwise. -/
theorem latestObserved_append (hl : db.Linked) {scan : ScanRunModel} (hid : scan.id = db.nextId)
    (hseen : ∀ o ∈ seen, o.scanId = db.nextId) (hscans : db'.scanRuns = db.scanRuns ++ [scan])
    (hobserved : db'.observedColumns = db.observedColumns ++ seen) :
    db'.latestObserved sourceId =
      if scan.sourceId = sourceId ∧ scan.status = .completed then seen
      else db.latestObserved sourceId := by
  by_cases hown : scan.sourceId = sourceId ∧ scan.status = .completed
  · have hlatest : db'.latestScan? sourceId = some scan := by
      rw [DB.latestScan?, hscans, List.filter_append]
      simp [hown]
    -- the rows there were are of scans before it
    have hold : db.observedColumns.filter (fun o => o.scanId = scan.id) = [] := by
      refine List.filter_eq_nil_iff.2 fun o ho => ?_
      rw [hid]
      simpa using Nat.ne_of_lt (hl.observedFresh o ho)
    have hnew : seen.filter (fun o => o.scanId = scan.id) = seen :=
      List.filter_eq_self.2 fun o ho => by simp [hseen o ho, hid]
    rw [DB.latestObserved, hlatest, hobserved, if_pos hown]
    simp only [List.filter_append, hold, hnew, List.nil_append]
  · have hlatest : db'.latestScan? sourceId = db.latestScan? sourceId := by
      rw [DB.latestScan?, hscans, List.filter_append]
      simp [hown, DB.latestScan?]
    rw [DB.latestObserved, hlatest, hobserved, if_neg hown, DB.latestObserved]
    cases hfind : db.latestScan? sourceId with
    | none => rfl
    | some last =>
      have hmem : last ∈ db.scanRuns := List.mem_of_mem_filter (List.mem_of_getLast? hfind)
      have hlt := hl.scanFresh last hmem
      have hnone : seen.filter (fun o => o.scanId = last.id) = [] := by
        refine List.filter_eq_nil_iff.2 fun o ho => ?_
        rw [hseen o ho]
        simpa using Nat.ne_of_gt hlt
      simp only [List.filter_append, hnone, List.append_nil]

/-! ## Columns of the baseline -/

/-- A dataset's column is one its source's baseline defines. -/
theorem hasColumn_iff (hwf : db.WellFormed) (hd : d ∈ db.datasets) :
    db.HasColumn d.id name ↔ ∃ b, columnAt (db.baseline d.sourceId) ⟨d.ref, name⟩ = some b := by
  constructor
  · rintro ⟨x, hx, hid, rfl⟩
    obtain ⟨b, href, rfl⟩ := exists_column_of_row hwf.linked hx d hid.symm
    exact ⟨b, (columnAt_baseline hwf.linked hwf.constraints).2
      ⟨href, d, hd, rfl, (congrArg ColumnRef.dataset href).symm, hx⟩⟩
  · rintro ⟨b, hb⟩
    obtain ⟨href, d', hd', hs, hr, hrow⟩ :=
      (columnAt_baseline hwf.linked hwf.constraints).1 hb
    obtain rfl := eq_dataset hwf.constraints hd' hd hs
      (hr.trans (congrArg ColumnRef.dataset href))
    exact ⟨_, hrow, rfl, congrArg ColumnRef.name href⟩

section Promoted

variable (hwf : db.WellFormed) (hrec : Records db change source dataset c)

include hwf hrec

/-- A change's column that is not in the baseline has no definition there. -/
theorem columnAt_eq_none (hnone : ¬ db.HasColumn change.datasetId change.columnName) :
    columnAt (db.baseline source.id) c.ref = none := by
  refine Option.eq_none_iff_forall_ne_some.2 fun b hb => hnone ?_
  obtain ⟨href, hmem⟩ := (columnAt_recorded hwf.linked hwf.constraints hrec).1 hb
  exact ⟨_, hmem, hrec.dataset_id, (congrArg ColumnRef.name href).trans hrec.columnName.symm⟩

omit hwf in
/-- A row of a change's column is the column's promotion. -/
theorem exists_promote_of_row (hp : Promoted db change source c rows) {x : ExpectedColumnModel}
    (hx : x ∈ rows) (hnames : change.Names x) : ∃ p, x = expectedRow dataset.id p ∧
      c.promote (columnAt (db.baseline source.id) c.ref) = some p := by
  obtain ⟨type, htype⟩ := hp.typed x hx
  have hrow : x = expectedRow dataset.id
      ⟨dataset.ref, x.name, type, x.nullable, x.defaultExpression, x.ordinal⟩ := by
    rw [expectedRow, hrec.dataset_id, ← hnames.1, ← htype]
  refine ⟨_, hrow, (hp.own dataset hrec.dataset_mem _ rfl hrec.dataset_id hnames.2).1 ?_⟩
  rwa [← hrow]

/-- A change that is no addition adds no column. -/
theorem not_hasColumn_promoted (hp : Promoted db change source c rows)
    (hadd : change.changeType ≠ .addColumn)
    (hnone : ¬ db.HasColumn change.datasetId change.columnName) :
    ¬ ({ db with expectedColumns := rows } : DB).HasColumn change.datasetId change.columnName := by
  rintro ⟨x, hx, hnames⟩
  obtain ⟨p, -, hpromote⟩ := exists_promote_of_row hrec hp hx hnames
  rw [columnAt_eq_none hwf hrec hnone, SchemaChange.promote] at hpromote
  rw [hrec.changeType] at hadd
  split at hpromote
  · contradiction
  · cases hpromote
  · cases hpromote

end Promoted

/-! ## What makes rows current -/

omit [Hashlib] in
/-- A row that describes a difference from an observation reports it. -/
theorem Describes.reports {expected : List ColumnDefinition} {dependencies : List ColumnRef}
    (h : Describes db sourceId row e) (he : e ∈ diffColumns expected observed dependencies)
    (scanId : Uuid) : row.Reports e.ref (observed.map (observedRow scanId)) := by
  have hside := (sides_of_mem_diffColumns he).2
  constructor
  · intro hdrop hseen
    obtain ⟨a, ha, href⟩ := seen_map_iff.1 hseen
    obtain ⟨b, hb⟩ := exists_columnAt ha
    rcases (mem_compareColumn ref_of_columnAt).1 (mem_diffColumns.1 he) with
      ⟨_, -, -, heq⟩ | ⟨_, -, hnone, -⟩ | ⟨_, _, -, -, -, heq⟩ | ⟨_, _, -, -, -, heq⟩
    · rw [h.changeType, heq] at hdrop
      cases hdrop
    · rw [href, hnone] at hb
      cases hb
    · rw [h.changeType, heq] at hdrop
      cases hdrop
    · rw [h.changeType, heq] at hdrop
      cases hdrop
  · intro hdrop
    obtain ⟨a, ha⟩ : ∃ a, e.after = some a := by
      rcases (mem_compareColumn ref_of_columnAt).1 (mem_diffColumns.1 he) with
        ⟨a, -, -, heq⟩ | ⟨_, -, -, heq⟩ | ⟨_, a, -, -, -, heq⟩ | ⟨_, a, -, -, -, heq⟩
      · exact ⟨a, by rw [heq]; rfl⟩
      · exact absurd (h.changeType.trans (by rw [heq]; rfl)) hdrop
      · exact ⟨a, by rw [heq]; rfl⟩
      · exact ⟨a, by rw [heq]; rfl⟩
    obtain ⟨hmem, href⟩ := mem_of_columnAt (hside.symm.trans ha)
    refine ⟨observedRow scanId a, List.mem_map_of_mem hmem, href, ?_⟩
    rw [h.after, ha]
    rfl

omit [Hashlib] in
/-- **Reconciled rows are current**: where observation and baseline agree on
a row's column, no other reconciled row takes it away or adds it. -/
theorem currentIn_of_reconciled
    (hall : ∀ row ∈ db.schemaChanges, row.state = .open → row.datasetId = d.id →
      row.Reconciled ⟨d.ref, row.columnName⟩ (db.latestObserved d.sourceId)
        (db.HasColumn d.id row.columnName)) : db.CurrentIn d := by
  intro row hrow hopen hid
  rcases hall row hrow hopen hid with hreports | ⟨hadd, hhas⟩
  · exact Or.inl hreports
  · refine Or.inr ⟨by rw [hid, hadd, hhas], fun other hother hopen' hid' hname => ?_⟩
    have hboth := hall other hother hopen' (hid'.trans hid)
    rw [hname] at hboth
    refine ⟨fun hdrop hrowadd => ?_, fun hotheradd => hadd.2 ?_⟩
    · have hseen := hadd.1 hrowadd
      rcases hboth with hreports | ⟨hadd', -⟩
      · exact hreports.gone hdrop hseen
      · have := hadd'.2 hseen
        rw [hdrop] at this
        cases this
    · rcases hboth with hreports | ⟨hadd', -⟩
      · obtain ⟨o, ho, href, -⟩ := hreports.seen (by rw [hotheradd]; decide)
        exact ⟨o, ho, href⟩
      · exact hadd'.1 hotheradd

omit [Hashlib] in
/-- Rows stay current where nothing they are compared with changes. -/
theorem DB.CurrentIn.frame (h : db.CurrentIn d)
    (hrows : ∀ row ∈ db'.schemaChanges, row.state = .open → row.datasetId = d.id →
      row ∈ db.schemaChanges)
    (hhas : ∀ name, db'.HasColumn d.id name ↔ db.HasColumn d.id name)
    (hlatest : db'.latestObserved d.sourceId = db.latestObserved d.sourceId) :
    db'.CurrentIn d := by
  intro row hrow hopen hid
  rw [hlatest]
  refine (h row (hrows row hrow hopen hid) hopen hid).imp_right fun hidle => ?_
  refine ⟨?_, fun other hother hopen' hid' hname => ?_⟩
  · rw [hidle.idle, hid, hhas]
  · exact hidle.stays other (hrows other hother hopen' (hid'.trans hid)) hopen' hid' hname

/-! ## Scans -/

omit [Hashlib] in
/-- **A scan that COMPLETED** is the latest of its source and of no other. -/
theorem latestObserved_completed (hl : db.Linked)
    (hscans : db'.scanRuns = db.scanRuns ++ [req.completedScan source db])
    (hobserved : db'.observedColumns =
      db.observedColumns ++ observed.map (observedRow db.nextId)) :
    db'.latestObserved sourceId =
      if sourceId = source.id then observed.map (observedRow db.nextId)
      else db.latestObserved sourceId := by
  have hseen : ∀ o ∈ observed.map (observedRow db.nextId), o.scanId = db.nextId := by
    intro o ho
    obtain ⟨a, -, rfl⟩ := List.mem_map.1 ho
    rfl
  have hid : (req.completedScan source db).id = db.nextId := rfl
  rw [latestObserved_append hl hid hseen hscans hobserved]
  exact if_congr ⟨fun h => h.1.symm, fun h => ⟨h.symm, rfl⟩⟩ rfl rfl

/-- A dataset with a row there was is a dataset there was, of the row's
source. -/
theorem mem_datasets_of_row (hwf : db.WellFormed) (hrow : row ∈ db.schemaChanges)
    (hids : (db'.datasets.map DatasetModel.id).Nodup) (hsub : ∀ d ∈ db.datasets, d ∈ db'.datasets)
    (hd : d ∈ db'.datasets) (hid : row.datasetId = d.id) :
    d ∈ db.datasets ∧ row.sourceId = d.sourceId := by
  obtain ⟨source, dataset, c, hrec⟩ := hwf.recorded row hrow
  obtain rfl : dataset = d :=
    eq_of_nodup_map hids (hsub _ hrec.dataset_mem) hd (hrec.dataset_id.trans hid)
  exact ⟨hrec.dataset_mem, hrec.source_id.symm.trans hrec.owner.symm⟩

/-- **A first baseline** leaves every row current where it reconciles the
source's. -/
theorem DB.Current.baselined (h : db.Current) (hwf : db.WellFormed)
    (hsource : source ∈ db.sources) (hbase : db.baseline source.id = [])
    (hc : (req.baselined source observed db).Constraints)
    (hrows : ∀ row ∈ db.openRows source.id, ∀ d ∈ db.datasets, row.datasetId = d.id →
      row.Reconciled ⟨d.ref, row.columnName⟩ (observed.map (observedRow db.nextId))
        (Seen (observed.map (observedRow db.nextId)) ⟨d.ref, row.columnName⟩)) :
    (req.baselined source observed db).Current := by
  have hwf' : (req.baselined source observed db).WellFormed :=
    baselined_wellFormed hwf hsource hc
  have hbaseline : ∀ column, column ∈ (req.baselined source observed db).baseline source.id ↔
      column ∈ observed := mem_baseline_baselined hwf hsource hbase hc
  obtain ⟨hchanges, hdatasets, hlatest⟩ :
      (req.baselined source observed db).schemaChanges = db.schemaChanges ∧
      (∀ d ∈ db.datasets, d ∈ (req.baselined source observed db).datasets) ∧
      ∀ sourceId, (req.baselined source observed db).latestObserved sourceId =
        if sourceId = source.id then observed.map (observedRow db.nextId)
        else db.latestObserved sourceId := by
    obtain ⟨_, _, _, -, heq⟩ := baselined_eq hwf req source observed
    refine ⟨by rw [heq], fun d hd => ?_, fun sourceId =>
      latestObserved_completed hwf.linked (by rw [heq]) (by rw [heq])⟩
    rw [heq]
    exact List.mem_append_left _ hd
  intro d hd
  have hplace : ∀ row ∈ db.schemaChanges, row.datasetId = d.id →
      d ∈ db.datasets ∧ row.sourceId = d.sourceId :=
    fun row hrow hid => mem_datasets_of_row hwf hrow hwf'.linked.datasetIds hdatasets hd hid
  by_cases hown : d.sourceId = source.id
  · refine currentIn_of_reconciled fun row hrow hopen hid => ?_
    rw [hchanges] at hrow
    obtain ⟨hmem, hs⟩ := hplace row hrow hid
    have hhas : (req.baselined source observed db).HasColumn d.id row.columnName ↔
        Seen (observed.map (observedRow db.nextId)) ⟨d.ref, row.columnName⟩ := by
      rw [hasColumn_iff hwf' hd, hown, seen_map_iff]
      constructor
      · rintro ⟨b, hb⟩
        obtain ⟨hmember, href⟩ := mem_of_columnAt hb
        exact ⟨b, (hbaseline b).1 hmember, href⟩
      · rintro ⟨a, ha, href⟩
        rw [← href]
        exact exists_columnAt ((hbaseline a).2 ha)
    rw [hlatest, if_pos hown]
    refine (hrows row (mem_openRows.2 ⟨hrow, hs.trans hown, hopen⟩) d hmem hid).imp_right ?_
    exact fun hblocked => ⟨hblocked.1, hhas⟩
  · intro row hrow hopen hid
    rw [hchanges] at hrow
    obtain ⟨hmem, -⟩ := hplace row hrow hid
    have hkept : (req.baselined source observed db).CurrentIn d := by
      refine (h d hmem).frame (fun row hrow _ _ => hchanges ▸ hrow) (fun name => ?_)
        (by rw [hlatest, if_neg hown])
      rw [hasColumn_iff hwf' hd, hasColumn_iff hwf hmem]
      exact exists_congr fun b => by rw [sameBaseline_baselined hwf hwf' hown]
    exact hkept row (hchanges ▸ hrow) hopen hid

/-- **A drift scan** leaves every row current where it reconciles those it
leaves OPEN. -/
theorem DB.Current.drifted (h : db.Current) (hwf : db.WellFormed) (hsource : source ∈ db.sources)
    (hrows : ∀ row ∈ db.openRows source.id,
      row.fingerprint ∈ db.activeFingerprints source (db.baseline source.id) observed →
      ∀ d ∈ db.datasets, row.datasetId = d.id →
        row.Reconciled ⟨d.ref, row.columnName⟩ (observed.map (observedRow db.nextId))
          (db.HasColumn d.id row.columnName)) :
    (req.drifted source (db.baseline source.id) observed db).Current := by
  have hdatasets : (req.drifted source (db.baseline source.id) observed db).datasets =
      db.datasets := by rw [drifted_eq hwf]
  have hhas : ∀ id name, (req.drifted source (db.baseline source.id) observed db).HasColumn id name ↔
      db.HasColumn id name := by
    rw [drifted_eq hwf]
    exact fun _ _ => Iff.rfl
  have hlatest : ∀ sourceId,
      (req.drifted source (db.baseline source.id) observed db).latestObserved sourceId =
        if sourceId = source.id then observed.map (observedRow db.nextId)
        else db.latestObserved sourceId :=
    fun sourceId => latestObserved_completed hwf.linked (by rw [drifted_eq hwf])
      (by rw [drifted_eq hwf])
  intro d hd
  rw [hdatasets] at hd
  -- a row opened is of a dataset of the source and reports the observation
  have hopened : ∀ row ∈ req.openedRows source (db.baseline source.id) observed db,
      row.datasetId = d.id → d.sourceId = source.id ∧
        row.Reports ⟨d.ref, row.columnName⟩ (observed.map (observedRow db.nextId)) := by
    intro row hrow hid
    obtain ⟨e, he, d', hd', hs, href, -, heq⟩ := mem_openedRows hwf hrow
    have hdd : d' = d := by
      rw [heq] at hid
      exact eq_of_nodup_map hwf.linked.datasetIds hd' hd hid
    have hdrift := List.mem_of_mem_filter he
    have hdesc : Describes db source.id row e := by
      rw [heq]
      exact (records_openedRow hsource hd' hs href hdrift).describes
    have hsame : (⟨d.ref, row.columnName⟩ : ColumnRef) = e.ref := by
      rw [← hdd, href, hdesc.columnName]
      rfl
    rw [hsame]
    exact ⟨hdd ▸ hs, hdesc.reports hdrift db.nextId⟩
  by_cases hown : d.sourceId = source.id
  · refine currentIn_of_reconciled fun row hrow hopen hid => ?_
    rw [hlatest, if_pos hown, hhas]
    rcases mem_open_drifted hwf hrow hopen with ⟨hold, hactive⟩ | hnew
    · have hs : row.sourceId = source.id := sourceId_of_dataset hwf hold hd hown hid.symm
      exact hrows row (mem_openRows.2 ⟨hold, hs, hopen⟩) (hactive hs) d hd hid
    · exact Or.inl (hopened row hnew hid).2
  · refine (h d hd).frame (fun row hrow hopen hid => ?_) (fun _ => hhas _ _)
      (by rw [hlatest, if_neg hown])
    rcases mem_open_drifted hwf hrow hopen with ⟨hold, -⟩ | hnew
    · exact hold
    · exact absurd (hopened row hnew hid).1 hown

/-! ## Acceptances -/

/-- **An acceptance leaves the other OPEN rows current.** -/
theorem DB.Current.accepted (h : db.Current) (hwf : db.WellFormed)
    (hchange : change ∈ db.schemaChanges) (hopen : change.state = .open)
    (hrec : Records db change source dataset c) (hp : Promoted db change source c rows)
    (acceptedAt : Timestamp) :
    ({ db with expectedColumns := rows }.accepted source change acceptedAt).Current := by
  intro d hd row hrow hstate hid
  have hkept : ∀ other ∈ ({ db with expectedColumns := rows }.accepted source change
      acceptedAt).schemaChanges, other.state = .open → other ∈ db.schemaChanges := by
    intro other hother hotherOpen
    rw [accepted_eq] at hother
    obtain ⟨old, hold, rfl⟩ := List.mem_map.1 hother
    unfold closeRow at hotherOpen ⊢
    split at hotherOpen
    · cases hotherOpen
    · rename_i hne
      rwa [if_neg hne]
  refine (h d hd row (hkept row hrow hstate) hstate hid).imp id fun hidle => ⟨?_, ?_⟩
  · have hiff : ({ db with expectedColumns := rows }.accepted source change acceptedAt).HasColumn
        row.datasetId row.columnName ↔
          ({ db with expectedColumns := rows } : DB).HasColumn row.datasetId row.columnName := Iff.rfl
    rw [hiff]
    by_cases hown : row.datasetId = change.datasetId ∧ row.columnName = change.columnName
    · obtain ⟨hremoves, hadds⟩ := hidle.stays change hchange hopen hown.1.symm hown.2.symm
      have hold := hidle.idle
      rw [hown.1, hown.2] at hold ⊢
      by_cases hadd : row.changeType = .addColumn
      · rw [hasColumn_own_promoted hwf hrec hp (hold.1 hadd)]
        exact iff_of_true hadd fun hdrop => hremoves hdrop hadd
      · exact iff_of_false hadd (not_hasColumn_promoted hwf hrec hp (fun h => hadd (hadds h))
          fun hhas => hadd (hold.2 hhas))
    · rw [hasColumn_promoted hwf hp hown]
      exact hidle.idle
  · exact fun other hother hotherOpen => hidle.stays other (hkept other hother hotherOpen) hotherOpen

/-- **A current row's acceptance is fresh.** -/
theorem DB.Current.acceptsFresh (h : db.Current) (hwf : db.WellFormed) : db.AcceptsFresh := by
  intro req r hok
  have heff := acceptEffect hwf req
  have hwf' := accept_wellFormed hwf req
  suffices hfresh : ∀ change source dataset c rows, change ∈ db.schemaChanges →
      change.id = req.changeId → change.state = .open → Records db change source dataset c →
      Promoted db change source c rows →
      postAccept req db = { db with expectedColumns := rows }.accepted source change req.acceptedAt →
        FreshAcceptance req db by
    rw [hok] at heff
    generalize hafter : postAccept req db = after at heff
    rcases heff with _ | ⟨hchange, hid, hopen, hrec, -, hp, -⟩
    exact hfresh _ _ _ _ _ hchange hid hopen hrec hp hafter
  intro change source dataset c rows hchange hcid hopen hrec hp hafter
  have hcurrent := h dataset hrec.dataset_mem change hchange hopen hrec.dataset_id.symm
  have hexpected : (postAccept req db).expectedColumns = rows := by rw [hafter, accepted_eq]
  have hhas : ∀ id name, (postAccept req db).HasColumn id name ↔
      ({ db with expectedColumns := rows } : DB).HasColumn id name := by
    rw [hafter]
    exact fun _ _ => Iff.rfl
  constructor
  · intro change' hmem hid hdrop hadd d hd hdid x hx hnames
    obtain rfl := eq_of_nodup_map hwf.linked.changeIds hmem hchange (hid.trans hcid.symm)
    obtain rfl := dataset_eq_of_id hwf.linked hrec hd hdid
    rw [hexpected] at hx
    rcases hcurrent with hreports | hidle
    · obtain ⟨o, ho, href, hafterJson⟩ := hreports.seen hdrop
      obtain ⟨a, ha, hdict⟩ := Option.map_eq_some_iff.1 (hrec.after.symm.trans hafterJson)
      obtain ⟨p, rfl, hpromote⟩ := exists_promote_of_row hrec hp hx hnames
      obtain ⟨htype, hnull, hdefault⟩ := written_of_promote ha
        (fun h => columnAt_eq_none hwf hrec (hadd (hrec.changeType.trans h))) hpromote
      obtain ⟨htype', hnull', hdefault'⟩ := eq_of_snapshot hdict
      exact ⟨o, ho, href, (congrArg _ htype).trans htype', hnull.trans hnull',
        hdefault.trans hdefault'⟩
    · by_cases h : change'.changeType = .addColumn
      · exact absurd (hidle.idle.1 h) (hadd h)
      · exact absurd ⟨x, hx, hnames⟩
          (not_hasColumn_promoted hwf hrec hp h fun hhas => h (hidle.idle.2 hhas))
  · intro d hd name hbefore hnone
    rw [hhas] at hnone
    by_cases hown : d.id = change.datasetId ∧ name = change.columnName
    · obtain rfl := dataset_eq_of_id hwf.linked hrec hd hown.1
      rw [hown.1, hown.2] at hbefore hnone
      have hdrop : change.changeType = .dropColumn := by
        by_contra hdrop
        exact hnone ((hasColumn_own_promoted hwf hrec hp hbefore).2 hdrop)
      rw [hown.2]
      rcases hcurrent with hreports | hidle
      · exact hreports.gone hdrop
      · have hadd := hidle.idle.2 hbefore
        rw [hdrop] at hadd
        cases hadd
    · exact absurd ((hasColumn_promoted hwf hp hown).2 hbefore) hnone

/-! ## Runs -/

/-- A scan that fails leaves every row as current as it was. -/
theorem DB.Current.failed (h : db.Current) (hwf : db.WellFormed) (source : DataSourceModel)
    (e : PyException) : (req.failed source e db).Current := by
  have heq : req.failed source e db = _ := failed_eq hwf.linked.scanFresh source e
  have hlatest : ∀ sourceId,
      (req.failed source e db).latestObserved sourceId = db.latestObserved sourceId := by
    intro sourceId
    have hid : (req.failedScan source e db).id = db.nextId := rfl
    have hnone : ∀ o ∈ ([] : List ObservedColumnModel), o.scanId = db.nextId := by simp
    rw [latestObserved_append hwf.linked hid hnone (by rw [heq]) (by rw [heq, List.append_nil]),
      if_neg]
    rintro ⟨-, hstatus⟩
    cases hstatus
  intro d hd
  rw [heq] at hd
  refine (h d hd).frame (fun row hrow _ _ => ?_) (fun name => ?_) (hlatest _)
  · rwa [heq] at hrow
  · rw [heq]
    exact Iff.rfl

/-- **Every operation that reconciles keeps the OPEN rows current.** -/
theorem DB.Current.apply (h : db.Current) (hwf : db.WellFormed) {op : Op}
    (hop : op.Regular fun _ => True) (hrec : op.Reconciles db) : (op.apply db).Current := by
  cases op with
  | scan req =>
    have heff := scanEffect hwf hop.1
    rw [Op.apply]
    generalize scanResult req db = result at heff
    generalize postScans req db = after at heff
    rcases heff with _ | _ | ⟨hof, hcollected, hne, hbase, hc⟩ |
      ⟨hof, hcollected, hne, hbase, hin, hc⟩
    · exact h
    · exact h.failed hwf _ _
    · obtain ⟨hdistinct, hfits⟩ := (baselined_constraints_iff hwf hbase).1 hc
      refine h.baselined hwf (mem_of_sourceOf? hof).1 hbase hc fun row hrow d hd hid => ?_
      have hrow := hrec _ _ hof hcollected hne
        ⟨hfits, fun _ => hdistinct, fun hnot => absurd hbase hnot⟩ row hrow (Or.inl hbase) d hd hid
      rwa [if_pos hbase] at hrow
    · refine h.drifted hwf (mem_of_sourceOf? hof).1 fun row hrow hactive d hd hid => ?_
      have hrow := hrec _ _ hof hcollected hne
        ⟨fits_of_drifted hwf hc, fun hnone => absurd hnone hbase,
          fun _ => ⟨hin, (openFingerprints_drifted_iff hwf hin).1 hc.openFingerprint⟩⟩ row hrow
        (Or.inr hactive) d hd hid
      rwa [if_neg hbase] at hrow
  | accept req =>
    have heff := acceptEffect hwf req
    rw [Op.apply]
    generalize acceptResult req db = result at heff
    generalize postAccept req db = after at heff
    rcases heff with _ | ⟨hchange, -, hopen, hrec, -, hp, -⟩
    · exact h
    · exact h.accepted hwf hchange hopen hrec hp _
  | sync document =>
    rcases syncCatalog_cases document db with heq | ⟨_, _, _, -, heq, -, -⟩
    · rw [Op.apply, heq]
      exact h
    · rw [Op.apply, heq]
      exact fun d hd => (h d hd).frame (fun _ hrow _ _ => hrow) (fun _ => Iff.rfl) rfl
  | relink pipelines edges =>
    rw [Op.apply, DB.relink]
    split
    · exact fun d hd => (h d hd).frame (fun _ hrow _ _ => hrow) (fun _ => Iff.rfl) rfl
    · exact h

omit [Hashlib] in
theorem DB.Initial.current (h : db.Initial) : db.Current := by
  rw [h.rest]
  exact fun _ hd => nomatch hd

/-- **Acceptances are fresh in every run whose scans reconcile.** -/
theorem accepts_fresh {start : DB} (hinit : start.Initial)
    (hrun : Lib.Path Op.apply (fun db op => (op.Regular fun _ => True) ∧ op.Reconciles db)
      start db) : db.AcceptsFresh := by
  have hboth : db.WellFormed ∧ db.Current := by
    refine hrun.invariant (P := fun db => db.WellFormed ∧ db.Current)
      ⟨hinit.wellFormed, hinit.current⟩ fun db op hdb hop => ?_
    exact ⟨hdb.1.apply hop.1, hdb.2.apply hdb.1 hop.1 hop.2⟩
  exact hboth.2.acceptsFresh hboth.1

theorem reconciles_of_no_changes (h : db.schemaChanges = []) (scan : ScanRequest) :
    (Op.scan scan).Reconciles db := by
  intro source observed _ _ _ _ row hrow
  rw [DB.openRows, h] at hrow
  cases hrow

/-- **Without dots and collisions a drift scan reconciles.** -/
theorem reconciles_of_baseline [Hashlib.CollisionFree] (hreach : db.Reachable DatasetRef.Dotless)
    (hreq : (Op.scan req).Regular DatasetRef.Dotless)
    (hbase : ∀ source, db.sourceOf? req.sourceKey = some source → db.baseline source.id ≠ []) :
    (Op.scan req).Reconciles db := by
  intro source observed hof hcollected hne _ row hrow hkept d hd hid
  have hwf := hreach.wellFormed
  have hsource := (mem_of_sourceOf? hof).1
  obtain ⟨hmem, hs, -⟩ := mem_openRows.1 hrow
  obtain ⟨e, he, hdesc⟩ := (active_iff hwf hreach.names (hreq.2 observed hcollected) hsource hmem
    hs).1 (hkept.resolve_left (hbase source hof))
  obtain ⟨d', hd', hid', -, href⟩ := hdesc.dataset
  obtain rfl : d = d' := eq_of_nodup_map hwf.linked.datasetIds hd hd' (hid.symm.trans hid'.symm)
  have hsame : (⟨d.ref, row.columnName⟩ : ColumnRef) = e.ref := by
    rw [href, hdesc.columnName]
    rfl
  rw [hsame]
  exact Or.inl (hdesc.reports he db.nextId)

end Freshness

section Sample

attribute [local instance] Hashlib.plain

/-- In the sample the column added is still the one observed when the other
one's loss has been accepted. -/
theorem accepts_fresh_sample : sampleEmpty.AcceptsFresh := by
  have hquiet : ∀ columns, (Op.scan (sampleScan columns)).Regular fun _ => True :=
    fun columns => sampleScan_regular fun _ _ => True.intro
  have hpath : Lib.Path Op.apply (fun db op => (op.Regular fun _ => True) ∧ op.Reconciles db)
      sampleStart sampleEmpty := by
    refine Path.of_along sampleEmptied ⟨⟨hquiet _, reconciles_of_no_changes rfl _⟩,
      ⟨hquiet _, reconciles_of_no_changes ?_ _⟩, ⟨True.intro, True.intro⟩, True.intro⟩
    decide +kernel
  exact accepts_fresh sampleStart_initial hpath

/-- The next scan finds another column again. -/
def sampleMoved : ScanRequest := sampleScan [sampleColumn "users" "email" "text" true]

/-- **A stale addition is accepted**: in the sample the latest scan observed
one column, and an acceptance writes another one. -/
theorem stale_accepted :
    (postScans sampleMoved sampleEmpty).Reachable (fun _ => True) ∧
    acceptResult { changeId := 5, baselineVersion := 2 } (postScans sampleMoved sampleEmpty) =
      .ok { changeId := 5, baselineVersion := 3 } ∧
    ¬ (postScans sampleMoved sampleEmpty).AcceptsFresh := by
  have hpath : Lib.Path Op.apply (fun _ op => op.Regular fun _ => True) sampleStart sampleEmpty :=
    Path.of_events _ fun op hop _ => sampleEmptied_regular op (List.mem_append_left _ hop)
  have hempty : sampleEmpty.Reachable fun _ => True := ⟨sampleStart, sampleStart_initial, hpath⟩
  have hmoved : (Op.scan sampleMoved).Regular fun _ => True :=
    sampleScan_regular fun _ _ => True.intro
  have hreach := hempty.step hmoved
  have hok : acceptResult { changeId := 5, baselineVersion := 2 }
      (postScans sampleMoved sampleEmpty) = .ok { changeId := 5, baselineVersion := 3 } := by
    decide +kernel
  -- the addition's column is written, and is not among those observed
  have hrun : ∃ change ∈ (postScans sampleMoved sampleEmpty).schemaChanges, change.id = 5 ∧
      change.changeType = .addColumn ∧
      ¬ (postScans sampleMoved sampleEmpty).HasColumn change.datasetId change.columnName ∧
      ∃ d ∈ (postScans sampleMoved sampleEmpty).datasets, d.id = change.datasetId ∧
        ¬ Seen ((postScans sampleMoved sampleEmpty).latestObserved d.sourceId)
          ⟨d.ref, change.columnName⟩ ∧
        (postAccept { changeId := 5, baselineVersion := 2 }
          (postScans sampleMoved sampleEmpty)).HasColumn change.datasetId change.columnName := by
    decide +kernel
  obtain ⟨change, hchange, hid, hadd, habsent, d, hd, hdid, hunseen, x, hx, hnames⟩ := hrun
  refine ⟨hreach, hok, fun h => hunseen ?_⟩
  obtain ⟨o, ho, href, -⟩ := (h _ _ hok).written change hchange hid (by rw [hadd]; decide)
    (fun _ => habsent) d hd hdid x hx hnames
  exact ⟨o, ho, href⟩

end Sample

end SchemaSentry
