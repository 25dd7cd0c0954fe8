import SchemaSentry.System.Reconciliation
/-!
# Schema Sentry — what an acceptance promotes

An acceptance right after a drift scan settles the column of the change
accepted. Where that column has one difference, exactly this one is gone
and every other OPEN row outlives the next scan of the same observation;
where it differs both in type and in nullability, the acceptance of either
settles both (`accept_promotes_only_iff`).
-/

namespace SchemaSentry

open Lib

section Promotion

variable [Hashlib]
variable {db : DB} {source : DataSourceModel} {row : SchemaChangeModel} {e : SchemaChange}
variable {req : AcceptRequest} {observed : List ColumnDefinition}

/-! ## The change accepted -/

/-- A difference is the one a row stands for: of the row's column, with the
row's fingerprint. -/
structure StandsFor (db : DB) (source : DataSourceModel) (row : SchemaChangeModel)
    (e : SchemaChange) : Prop where
  column : ∃ d ∈ db.datasets, d.id = row.datasetId ∧ e.ref = ⟨d.ref, row.columnName⟩
  fingerprint : changeFingerprint source.key e = row.fingerprint

/-- Without collisions a row records the difference it stands for. -/
theorem StandsFor.records [Hashlib.CollisionFree] (hwf : db.WellFormed)
    (hsource : source ∈ db.sources) (hrow : row ∈ db.openRows source.id)
    (h : StandsFor db source row e) (he : e.Filed) :
    ∃ dataset, Records db row source dataset e := by
  obtain ⟨hmem, hid, -⟩ := mem_openRows.1 hrow
  obtain ⟨dataset, c, hrec⟩ := exists_records_of_source hwf hsource hmem hid
  obtain ⟨d, hd, hdid, href⟩ := h.column
  have hdataset : d = dataset := eq_of_nodup_map hwf.linked.datasetIds hd hrec.dataset_mem
    (hdid.trans hrec.dataset_id.symm)
  have hdict := (changeFingerprint_inj (hrec.fingerprint.symm.trans h.fingerprint.symm)).2
  have hsame : c.dataset = e.dataset := by
    rw [← hrec.ref, ← hdataset]
    exact (congrArg ColumnRef.dataset href).symm
  obtain rfl := SchemaChange.eq_of_toCanonicalDict hrec.genuine.filed he hdict hsame
  exact ⟨dataset, hrec⟩

/-- **An accepted row is promoted**: what a successful acceptance of an OPEN
row leaves, whatever change the row records. -/
theorem exists_promoted (hwf : db.WellFormed) (hsource : source ∈ db.sources)
    (hrow : row ∈ db.openRows source.id) (hid : req.changeId = row.id)
    {result : AcceptanceResult} (h : acceptResult req db = .ok result) :
    ∃ rows dataset c, Records db row source dataset c ∧ Promoted db row source c rows ∧
      postAccept req db =
        { db with expectedColumns := rows }.accepted source row req.acceptedAt := by
  obtain ⟨hmem, hs, -⟩ := mem_openRows.1 hrow
  have heff := acceptEffect hwf req
  rw [h] at heff
  generalize postAccept req db = after at heff ⊢
  rcases heff with _ | ⟨hchange, hcid, -, hrec, -, hp, -⟩
  obtain rfl := eq_of_nodup_map hwf.linked.changeIds hchange hmem (hcid.trans hid)
  obtain rfl := eq_of_nodup_map hwf.linked.sourceIds hrec.source_mem hsource
    (hrec.source_id.trans hs)
  exact ⟨_, _, _, hrec, hp, rfl⟩

/-- A row records one change. -/
theorem Records.unique (hwf : db.WellFormed) {dataset dataset' : DatasetModel}
    {c c' : SchemaChange} (h : Records db row source dataset c)
    (h' : Records db row source dataset' c') : c = c' :=
  h'.describes.eq_of_records hwf h h'.genuine.filed

/-! ## After a drift scan -/

/-- A difference as the diff's entry. -/
def SchemaChange.entry (c : SchemaChange) : ColumnRef × ChangeType × Severity :=
  (c.ref, c.changeType, c.severity)

/-- The differences of a source's baseline from an observation, rated by
another state's dependencies. -/
def DB.differences (db : DB) (source : DataSourceModel) (observed : List ColumnDefinition)
    (dependencies : List ColumnRef) : List SchemaChange :=
  diffColumns (db.baseline source.id) observed dependencies

/-- The acceptance of a row removed the row's entry from the diff with the
observation and no other, kept what the row's kind does not change of its
column, and left every other OPEN row to the next scan of the observation. -/
structure PromotesOnly (db db' : DB) (source : DataSourceModel) (row : SchemaChangeModel)
    (observed : List ColumnDefinition) : Prop where
  entries : ∃ e ∈ db.differences source observed (db.dependencies source.id),
    StandsFor db source row e ∧ ∀ entry,
      (∃ c ∈ db'.differences source observed (db.dependencies source.id), c.entry = entry) ↔
        (∃ c ∈ db.differences source observed (db.dependencies source.id), c.entry = entry) ∧
          entry ≠ e.entry
  type : row.changeType = .nullabilityChange → ∀ d ∈ db.datasets, d.id = row.datasetId →
    (columnAt (db'.baseline source.id) ⟨d.ref, row.columnName⟩).map ColumnDefinition.dataType =
      (columnAt (db.baseline source.id) ⟨d.ref, row.columnName⟩).map ColumnDefinition.dataType
  nullability : row.changeType = .typeChange → ∀ d ∈ db.datasets, d.id = row.datasetId →
    (columnAt (db'.baseline source.id) ⟨d.ref, row.columnName⟩).map ColumnDefinition.nullable =
      (columnAt (db.baseline source.id) ⟨d.ref, row.columnName⟩).map ColumnDefinition.nullable
  open_rows : ∀ next : ScanRequest, next.faults = noFaults → next.sourceKey = source.key →
    next.collected = .ok observed → ∀ other ∈ db'.openRows source.id,
      other ∈ (postScans next db').openRows source.id

variable {db' : DB} {rows : List ExpectedColumnModel} {dataset : DatasetModel}

section Accepted

variable (hwf : db.WellFormed) (hwf' : db'.WellFormed) (hrec : Records db row source dataset e)
variable (hp : Promoted db row source e rows)
variable (hdb' : db' = { db with expectedColumns := rows }.accepted source row req.acceptedAt)

include hwf hwf' hrec hp hdb'

/-- The baseline is the one before but for the row's column. -/
theorem columnAt_after (ref : ColumnRef) :
    columnAt (db'.baseline source.id) ref =
      if ref = e.ref then e.promote (columnAt (db.baseline source.id) ref)
      else columnAt (db.baseline source.id) ref := by
  have hd : db'.datasets = db.datasets := by rw [hdb', accepted_eq]
  have hrows : db'.expectedColumns = rows := by rw [hdb', accepted_eq]
  rw [columnAt_promoted hwf.linked hwf.constraints hrec hwf'.linked hwf'.constraints hd
    (hrows ▸ hp)]
  simp

/-- **An acceptance settles its column**: the differences left are those of
the other columns. -/
theorem mem_differences_after {c : SchemaChange}
    (he : e ∈ db.differences source observed (db.dependencies source.id)) :
    c ∈ db'.differences source observed (db.dependencies source.id) ↔
      c ∈ db.differences source observed (db.dependencies source.id) ∧ c.ref ≠ e.ref :=
  mem_diffColumns_promoted (columnAt_after hwf hwf' hrec hp hdb') he

end Accepted

/-- What a drift scan that just completed leaves: every OPEN row has the
fingerprint of a difference between the baseline and the observation. -/
theorem exists_difference_of_open {before : DB} (hwf : before.WellFormed) {scan : ScanRequest}
    (hf : scan.faults = noFaults) (hcollected : scan.collected = .ok observed)
    {report : ScanReport} (hscan : scanResult scan before = .ok report)
    (hdrift : report.baselineCreated = false)
    (hsource : before.sourceOf? scan.sourceKey = some source) :
    source ∈ (postScans scan before).sources ∧
      ∀ row ∈ (postScans scan before).openRows source.id,
        ∃ e ∈ (postScans scan before).differences source observed
          ((postScans scan before).dependencies source.id),
          changeFingerprint source.key e = row.fingerprint := by
  have heff := scanEffect hwf hf
  rw [hscan] at heff
  generalize postScans scan before = after at heff ⊢
  rcases heff with _ | _ | _ | ⟨hof, hcol, -, -, -, -⟩
  · cases hdrift
  · cases hcollected.symm.trans hcol
    cases hsource.symm.trans hof
    refine ⟨?_, fun row hrow => ?_⟩
    · rw [drifted_eq hwf]
      exact (mem_of_sourceOf? hof).1
    · obtain ⟨e, he, hfp⟩ := List.mem_map.1 (active_of_mem_openRows_drifted hwf hrow)
      refine ⟨e, ?_, hfp⟩
      rw [DB.differences, baseline_drifted hwf, dependencies_drifted hwf]
      exact he

/-- The next scan keeps the OPEN rows whose fingerprints its differences
have, whatever comes of it. -/
theorem mem_openRows_postScans (hwf : db.WellFormed) {next : ScanRequest}
    (hf : next.faults = noFaults) (hcollected : next.collected = .ok observed)
    (hsource : source ∈ db.sources) (hkey : next.sourceKey = source.key)
    (hrow : row ∈ db.openRows source.id)
    (hactive : ∃ e ∈ db.differences source observed (db.dependencies source.id),
      changeFingerprint source.key e = row.fingerprint) :
    row ∈ (postScans next db).openRows source.id := by
  have heff := scanEffect hwf hf
  generalize scanResult next db = result at heff
  generalize postScans next db = after at heff ⊢
  rcases heff with _ | _ | _ | ⟨hof, hcol, -, -, -, -⟩
  · exact hrow
  · rw [failed_eq hwf.linked.scanFresh]
    exact hrow
  · obtain ⟨_, _, _, -, heq⟩ := baselined_eq hwf next _ _
    rw [heq]
    exact hrow
  · cases hcollected.symm.trans hcol
    obtain ⟨hmem, hsame⟩ := mem_of_sourceOf? hof
    obtain rfl := eq_of_nodup_map hwf.constraints.sourceKey hmem hsource (hsame.trans hkey)
    obtain ⟨e, he, hfp⟩ := hactive
    exact (mem_openRows_drifted hwf).2 (Or.inl ⟨hrow, hfp ▸ List.mem_map_of_mem he⟩)

omit [Hashlib] in
/-- The OPEN rows after an acceptance are the others there were. -/
theorem mem_openRows_accepted {other : SchemaChangeModel} {sourceId : Uuid}
    (h : other ∈ ({ db with expectedColumns := rows }.accepted source row
      req.acceptedAt).openRows sourceId) : other ∈ db.openRows sourceId ∧ other ≠ row := by
  obtain ⟨hmem, hs, hopen⟩ := mem_openRows.1 h
  rw [accepted_eq] at hmem
  obtain ⟨old, hold, rfl⟩ := List.mem_map.1 hmem
  unfold closeRow at hs hopen ⊢
  split at hopen
  · cases hopen
  · rename_i hne
    rw [if_neg hne] at hs ⊢
    exact ⟨mem_openRows.2 ⟨hold, hs, hopen⟩, fun heq => hne (by rw [heq])⟩

/-! ## When an acceptance promotes its change only -/

section Iff

variable (hwf : db.WellFormed) (hwf' : db'.WellFormed) (hrec : Records db row source dataset e)
variable (hp : Promoted db row source e rows)
variable (hdb' : db' = { db with expectedColumns := rows }.accepted source row req.acceptedAt)
variable (he : e ∈ db.differences source observed (db.dependencies source.id))

include hwf hwf' hrec hp hdb' he

/-- Where the row's column differs once, exactly its entry is gone. -/
theorem entries_after
    (hone : ¬ DiffersTwice (db.baseline source.id) observed e.ref)
    (entry : ColumnRef × ChangeType × Severity) :
    (∃ c ∈ db'.differences source observed (db.dependencies source.id), c.entry = entry) ↔
      (∃ c ∈ db.differences source observed (db.dependencies source.id), c.entry = entry) ∧
        entry ≠ e.entry := by
  have hafter := fun c => mem_differences_after (c := c) hwf hwf' hrec hp hdb' he
  constructor
  · rintro ⟨c, hc, rfl⟩
    obtain ⟨hold, href⟩ := (hafter c).1 hc
    exact ⟨⟨c, hold, rfl⟩, fun heq => href (congrArg Prod.fst heq)⟩
  · rintro ⟨⟨c, hc, rfl⟩, hne⟩
    refine ⟨c, (hafter c).2 ⟨hc, fun href => hone ?_⟩, rfl⟩
    exact (exists_other_iff he).1 ⟨c, hc, href, fun heq => hne (by rw [heq])⟩

/-- Where it differs twice, another entry is gone too. -/
theorem not_entries_after (htwice : DiffersTwice (db.baseline source.id) observed e.ref) :
    ∃ entry, (∃ c ∈ db.differences source observed (db.dependencies source.id),
        c.entry = entry) ∧ entry ≠ e.entry ∧
      ¬ ∃ c ∈ db'.differences source observed (db.dependencies source.id), c.entry = entry := by
  obtain ⟨c, hc, href, hne⟩ := (exists_other_iff he).2 htwice
  refine ⟨c.entry, ⟨c, hc, rfl⟩, fun heq => hne ?_, ?_⟩
  · exact eq_of_mem_diffColumns hc he href (congrArg (fun entry => entry.2.1) heq)
  · rintro ⟨c', hc', heq⟩
    obtain ⟨-, hother⟩ := (mem_differences_after hwf hwf' hrec hp hdb' he).1 hc'
    exact hother ((congrArg Prod.fst heq).trans href)

/-- Where the row's column differs once, its baseline keeps what its kind
does not change. -/
theorem kept_after (hone : ¬ DiffersTwice (db.baseline source.id) observed e.ref) :
    (row.changeType = .nullabilityChange →
      (columnAt (db'.baseline source.id) e.ref).map ColumnDefinition.dataType =
        (columnAt (db.baseline source.id) e.ref).map ColumnDefinition.dataType) ∧
    (row.changeType = .typeChange →
      (columnAt (db'.baseline source.id) e.ref).map ColumnDefinition.nullable =
        (columnAt (db.baseline source.id) e.ref).map ColumnDefinition.nullable) := by
  rw [columnAt_after hwf hwf' hrec hp hdb', if_pos rfl, hrec.changeType]
  rcases (mem_compareColumn ref_of_columnAt).1 (mem_diffColumns.1 he) with
    ⟨a, hb, ha, heq⟩ | ⟨b, hb, ha, heq⟩ | ⟨b, a, hb, ha, hne, heq⟩ | ⟨b, a, hb, ha, hne, heq⟩
  · refine ⟨fun h => ?_, fun h => ?_⟩ <;> rw [heq] at h <;> cases h
  · refine ⟨fun h => ?_, fun h => ?_⟩ <;> rw [heq] at h <;> cases h
  · have hsame : b.nullable = a.nullable := by
      by_contra hnull
      exact hone ⟨b, a, hb, ha, hne, hnull⟩
    refine ⟨fun h => ?_, fun _ => ?_⟩
    · rw [heq] at h
      cases h
    · rw [hb, heq]
      exact congrArg some hsame.symm
  · have hsame : b.dataType = a.dataType := by
      by_contra htype
      exact hone ⟨b, a, hb, ha, htype, hne⟩
    refine ⟨fun _ => ?_, fun h => ?_⟩
    · rw [hb, heq]
      exact congrArg some hsame.symm
    · rw [heq] at h
      cases h

/-- Where the row's column differs once, the next scan of the observation
closes no other row. -/
theorem open_after (hrow : row ∈ db.openRows source.id)
    (hone : ¬ DiffersTwice (db.baseline source.id) observed e.ref)
    (hopen : ∀ other ∈ db.openRows source.id,
      ∃ c ∈ db.differences source observed (db.dependencies source.id),
        changeFingerprint source.key c = other.fingerprint)
    {next : ScanRequest} (hf : next.faults = noFaults) (hkey : next.sourceKey = source.key)
    (hcollected : next.collected = .ok observed) {other : SchemaChangeModel}
    (hother : other ∈ db'.openRows source.id) :
    other ∈ (postScans next db').openRows source.id := by
  obtain ⟨hold, hne⟩ := mem_openRows_accepted (hdb' ▸ hother)
  obtain ⟨c, hc, hfp⟩ := hopen other hold
  have href : c.ref ≠ e.ref := by
    intro href
    refine hone ((exists_other_iff he).1 ⟨c, hc, href, fun heq => hne ?_⟩)
    refine eq_of_nodup_map (nodup_openFingerprints hwf.constraints source.id) hold hrow ?_
    rw [← hfp, heq, hrec.fingerprint]
  have hafter := (mem_differences_after hwf hwf' hrec hp hdb' he).2 ⟨hc, href⟩
  have hdeps : db'.dependencies source.id = db.dependencies source.id :=
    dependencies_congr (by rw [hdb', accepted_eq]) (by rw [hdb', accepted_eq]) source.id
  have hsource : raiseVersion source source ∈ db'.sources := by
    rw [hdb', accepted_eq]
    exact List.mem_map_of_mem hrec.source_mem
  have hid := id_raiseVersion source source
  have hsamekey := key_raiseVersion source source
  have hkept : other ∈ (postScans next db').openRows (raiseVersion source source).id :=
    mem_openRows_postScans hwf' hf hcollected hsource
    (hkey.trans hsamekey.symm) (by rw [hid]; exact hother)
    ⟨c, by rw [DB.differences, hid, hdeps]; exact hafter, by rw [hsamekey]; exact hfp⟩
  rw [hid] at hkept
  exact hkept

end Iff

/-- **An acceptance right after a drift scan promotes the accepted change
only** exactly where the row stands for a difference of its own column and
that column does not differ both in type and in nullability. -/
theorem accept_promotes_only_iff [Hashlib.CollisionFree] {before : DB}
    (hreach : before.Reachable fun _ => True) {scan : ScanRequest}
    (hf : scan.faults = noFaults) (hcollected : scan.collected = .ok observed)
    {report : ScanReport} (hscan : scanResult scan before = .ok report)
    (hdrift : report.baselineCreated = false)
    (hsource : before.sourceOf? scan.sourceKey = some source)
    (hrow : row ∈ (postScans scan before).openRows source.id) (hid : req.changeId = row.id)
    {result : AcceptanceResult} (haccept : acceptResult req (postScans scan before) = .ok result) :
    PromotesOnly (postScans scan before) (postAccept req (postScans scan before)) source row
        observed ↔
      (∃ e ∈ (postScans scan before).differences source observed
          ((postScans scan before).dependencies source.id),
        StandsFor (postScans scan before) source row e) ∧
      ∀ d ∈ (postScans scan before).datasets, d.id = row.datasetId →
        ¬ DiffersTwice ((postScans scan before).baseline source.id) observed
          ⟨d.ref, row.columnName⟩ := by
  have hwf : (postScans scan before).WellFormed := scan_wellFormed hreach.wellFormed hf
  obtain ⟨hmem, hopen⟩ := exists_difference_of_open hreach.wellFormed hf hcollected hscan hdrift
    hsource
  generalize postScans scan before = db at hrow haccept hwf hmem hopen ⊢
  obtain ⟨rows, dataset, e₀, hrec₀, hp₀, hafter⟩ := exists_promoted hwf hmem hrow hid haccept
  have hwf' : (postAccept req db).WellFormed := accept_wellFormed hwf req
  generalize postAccept req db = db' at hafter hwf' ⊢
  -- the difference the row stands for is the change it records
  have hown : ∀ e ∈ db.differences source observed (db.dependencies source.id),
      StandsFor db source row e → e₀ = e := by
    intro e he hstands
    obtain ⟨dataset', hrec⟩ := hstands.records hwf hmem hrow (filed_of_mem_diffColumns he)
    exact hrec₀.unique hwf hrec
  have hcolumn : ∀ d ∈ db.datasets, d.id = row.datasetId →
      (⟨d.ref, row.columnName⟩ : ColumnRef) = e₀.ref := by
    intro d hd hdid
    rw [dataset_eq_of_id hwf.linked hrec₀ hd hdid, hrec₀.ref, hrec₀.columnName]
    rfl
  constructor
  · rintro ⟨⟨e, he, hstands, hentries⟩, -, -, -⟩
    obtain rfl := hown e he hstands
    refine ⟨⟨e₀, he, hstands⟩, fun d hd hdid htwice => ?_⟩
    rw [hcolumn d hd hdid] at htwice
    obtain ⟨entry, hbefore, hne, hgone⟩ :=
      not_entries_after hwf hwf' hrec₀ hp₀ hafter he htwice
    exact hgone ((hentries entry).2 ⟨hbefore, hne⟩)
  · rintro ⟨⟨e, he, hstands⟩, hnot⟩
    obtain rfl := hown e he hstands
    have hone : ¬ DiffersTwice (db.baseline source.id) observed e₀.ref := by
      obtain ⟨d, hd, hdid, href⟩ := hstands.column
      rw [href]
      exact hnot d hd hdid
    obtain ⟨htype, hnull⟩ := kept_after hwf hwf' hrec₀ hp₀ hafter he hone
    refine ⟨⟨e₀, he, hstands, entries_after hwf hwf' hrec₀ hp₀ hafter he hone⟩,
      fun hkind d hd hdid => ?_, fun hkind d hd hdid => ?_, fun next hnf hkey hcol other hother =>
        open_after hwf hwf' hrec₀ hp₀ hafter he hrow hone hopen hnf hkey hcol hother⟩
    · rw [hcolumn d hd hdid]
      exact htype hkind
    · rw [hcolumn d hd hdid]
      exact hnull hkind

end Promotion

section Sample

attribute [local instance] Hashlib.plain

/-- The column the pipeline reads becomes a nullable text. -/
def sampleRewritten : List ColumnDefinition :=
  [sampleColumn "users" "id" "text" true, sampleColumn "mart" "id" "integer" false]

/-- The sample tables with both differences of the column recorded. -/
def sampleRewrite : DB := postScans (sampleScan sampleRewritten) sampleTables

def sampleRewriteReport : ScanReport :=
  { scanId := 5, sourceKey := "crm", trigger := .manual, baselineCreated := false
    observedCount := 2
    changes :=
      [.renull (sampleColumn "users" "id" "integer" false) (sampleColumn "users" "id" "text" true)
        [⟨⟨"public", "users"⟩, "id"⟩],
       .retype (sampleColumn "users" "id" "integer" false)
        (sampleColumn "users" "id" "text" true)] }

/-- Both rows are opened, the nullability's can be accepted, and then the
baseline's column has the text's type. -/
theorem sampleRewrite_accepted :
    (sampleRewrite.openRows 0).map (fun row => (row.id, row.datasetId, row.columnName,
      row.changeType)) = [(6, 2, "id", .nullabilityChange), (7, 2, "id", .typeChange)] ∧
    scanResult (sampleScan sampleRewritten) sampleTables = .ok sampleRewriteReport ∧
    acceptResult ⟨6, 1, 0⟩ sampleRewrite = .ok ⟨6, 2⟩ ∧
    (⟨2, 0, "public", "users"⟩ : DatasetModel) ∈ sampleRewrite.datasets ∧
    ¬ (columnAt ((postAccept ⟨6, 1, 0⟩ sampleRewrite).baseline 0)
        ⟨⟨"public", "users"⟩, "id"⟩).map ColumnDefinition.dataType =
      (columnAt (sampleRewrite.baseline 0) ⟨⟨"public", "users"⟩, "id"⟩).map
        ColumnDefinition.dataType := by
  decide +kernel

/-- **Accepting the nullability accepts the type**: in the sample the
baseline takes the text's type, and no difference of the column is left. -/
theorem accept_promotes_both : ∃ row ∈ sampleRewrite.openRows 0,
    sampleTables.Reachable (fun _ => True) ∧
    scanResult (sampleScan sampleRewritten) sampleTables = .ok sampleRewriteReport ∧
    acceptResult ⟨row.id, 1, 0⟩ sampleRewrite = .ok ⟨row.id, 2⟩ ∧
    ¬ PromotesOnly sampleRewrite (postAccept ⟨row.id, 1, 0⟩ sampleRewrite)
      { id := 0, key := "crm" } row sampleRewritten := by
  obtain ⟨hrows, hscan, haccept, hmem, hchanged⟩ := sampleRewrite_accepted
  obtain ⟨row, hrow, heq⟩ := List.mem_map.1 (hrows ▸ List.mem_cons_self)
  simp only [Prod.mk.injEq] at heq
  obtain ⟨hid, hdataset, hname, htype⟩ := heq
  refine ⟨row, hrow, sampleTables_reachable.any, hscan, ?_, fun h => ?_⟩
  · rw [hid]
    exact haccept
  · have hkept := h.type htype ⟨2, 0, "public", "users"⟩ hmem hdataset.symm
    rw [hid, hname] at hkept
    exact hchanged hkept

/-- The sample tables with both differences recorded. -/
def sampleReshape : DB := postScans (sampleScan sampleReshaped) sampleTables

/-- The mart's column, widened. -/
def sampleWidening : SchemaChange :=
  .retype (sampleColumn "mart" "id" "integer" false) (sampleColumn "mart" "id" "bigint" false)

def sampleReshapeReport : ScanReport :=
  { scanId := 5, sourceKey := "crm", trigger := .manual, baselineCreated := false
    observedCount := 1
    changes :=
      [sampleWidening, .drop (sampleColumn "users" "id" "integer" false)
        [⟨⟨"public", "users"⟩, "id"⟩]] }

/-- Both rows are opened, one of them the widening's, which can be
accepted. -/
theorem sampleReshape_accepted :
    (sampleReshape.openRows 0).length = 2 ∧
    (∃ row ∈ sampleReshape.openRows 0, row.id = 6 ∧ row.sourceId = 0 ∧ row.datasetId = 3 ∧
      row.columnName = "id" ∧ row.changeType = .typeChange ∧
      row.severity = sampleWidening.severity ∧
      row.beforeJson = sampleWidening.before.map ColumnDefinition.toCanonicalDict ∧
      row.afterJson = sampleWidening.after.map ColumnDefinition.toCanonicalDict) ∧
    scanResult (sampleScan sampleReshaped) sampleTables = .ok sampleReshapeReport ∧
    acceptResult ⟨6, 1, 0⟩ sampleReshape = .ok ⟨6, 2⟩ ∧
    (⟨3, 0, "public", "mart"⟩ : DatasetModel) ∈ sampleReshape.datasets ∧
    sampleReshape.baseline 0 = [sampleColumn "mart" "id" "integer" false,
      sampleColumn "users" "id" "integer" false] ∧
    sampleWidening ∈ sampleReshape.differences { id := 0, key := "crm" } sampleReshaped
      (sampleReshape.dependencies 0) := by
  decide +kernel

/-- In the sample the acceptance of the widening leaves the loss alone. -/
theorem accept_promotes_only_iff_sample : (sampleReshape.openRows 0).length = 2 ∧
    ∃ row ∈ sampleReshape.openRows 0, row.changeType = .typeChange ∧
      PromotesOnly sampleReshape (postAccept ⟨row.id, 1, 0⟩ sampleReshape)
        { id := 0, key := "crm" } row sampleReshaped := by
  have := Hashlib.collisionFree_plain
  obtain ⟨htwo, ⟨row, hrow, hid, hs, hdataset, hname, hkind, hseverity, hbefore, hafter⟩, hscan,
    haccept, hmart, hbase, he⟩ := sampleReshape_accepted
  have hwf : sampleReshape.WellFormed := scan_wellFormed sampleTables_reachable.wellFormed rfl
  have hsource : sampleTables.sourceOf? "crm" = some { id := 0, key := "crm" } := by
    decide +kernel
  have hmem := (exists_difference_of_open sampleTables_reachable.wellFormed rfl rfl hscan rfl
    hsource).1
  -- the row describes the widening, so its fingerprint is not computed
  have hdesc : Describes sampleReshape 0 row sampleWidening :=
    ⟨hs, ⟨_, hmart, hdataset.symm, rfl, rfl⟩, hname, hkind, hseverity, hbefore, hafter⟩
  have hstands : StandsFor sampleReshape { id := 0, key := "crm" } row sampleWidening := by
    refine ⟨⟨_, hmart, hdataset.symm, ?_⟩, ?_⟩
    · rw [hname]
      rfl
    · exact (fingerprint_of_describes hwf hmem (mem_openRows.1 hrow).1 hdesc
        (filed_of_mem_diffColumns he)).symm
  rw [← hid] at haccept
  refine ⟨htwo, row, hrow, hkind, (accept_promotes_only_iff sampleTables_reachable.any rfl rfl hscan
    rfl hsource hrow rfl haccept).2 ⟨⟨sampleWidening, he, hstands⟩, ?_⟩⟩
  rintro d hd hdid ⟨b, a, hb, ha, -, hnull⟩
  obtain rfl : d = ⟨3, 0, "public", "mart"⟩ :=
    eq_of_nodup_map hwf.linked.datasetIds hd hmart (hdid.trans hdataset)
  have hb' : columnAt (sampleReshape.baseline 0) ⟨⟨"public", "mart"⟩, row.columnName⟩ = some b := hb
  rw [hbase, hname] at hb'
  rw [hname] at ha
  cases hb'
  cases ha
  exact hnull rfl

end Sample

end SchemaSentry
