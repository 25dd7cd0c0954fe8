import SchemaSentry.Lib.Path
import SchemaSentry.System.Preserved
/-!
# Schema Sentry — operations and reachable states

The requests that change the metadata, one after another: scans,
acceptances, catalog syncs, and the storing of any other lineage the
tables allow. Reachable tables are well-formed (`DB.Reachable.wellFormed`).
-/

namespace SchemaSentry

open Lib

/-! ## Operations -/

theorem DB.lineageLinked_iff (db : DB) : db.LineageLinked ↔
    (db.pipelines.map PipelineModel.id).Nodup ∧
    (∀ e ∈ db.lineageEdges, ∃ p ∈ db.pipelines, p.id = e.pipelineId) ∧
    (∀ e ∈ db.lineageEdges, ∃ d ∈ db.datasets, d.id = e.upstreamDatasetId) ∧
    ∀ e ∈ db.lineageEdges, ∃ d ∈ db.datasets, d.id = e.downstreamDatasetId :=
  ⟨fun h => ⟨h.pipelineIds, h.edgePipeline, h.edgeUpstream, h.edgeDownstream⟩,
    fun h => ⟨h.1, h.2.1, h.2.2.1, h.2.2.2⟩⟩

instance (db : DB) : Decidable db.LineageLinked := decidable_of_iff' _ db.lineageLinked_iff

/-- The tables with another catalog, where the constraints and the foreign
keys allow it. -/
def DB.relink (pipelines : List PipelineModel) (edges : List LineageEdgeModel) (db : DB) : DB :=
  if (db.withCatalog pipelines edges db.nextId).Constraints ∧
      (db.withCatalog pipelines edges db.nextId).LineageLinked then
    db.withCatalog pipelines edges db.nextId
  else db

/-- A request that changes the metadata. -/
inductive Op where
  | scan (req : ScanRequest)
  | accept (req : AcceptRequest)
  | sync (document : Option CatalogConfig)
  | relink (pipelines : List PipelineModel) (edges : List LineageEdgeModel)

section Runs

variable [Hashlib]

/-- What is committed after a request that runs alone. -/
def Op.apply : Op → DB → DB
  | .scan req, db => postScans req db
  | .accept req, db => postAccept req db
  | .sync document, db => syncCatalog document db
  | .relink pipelines edges, db => db.relink pipelines edges

/-- The datasets a scan's collector names all are of a kind. -/
def ScanRequest.Names (P : DatasetRef → Prop) (req : ScanRequest) : Prop :=
  ∀ observed, req.collected = .ok observed → ∀ column ∈ observed, P column.dataset

/-- A scan's steps raise nothing on their own account, and its collector
names datasets of a kind. -/
def Op.Regular (P : DatasetRef → Prop) : Op → Prop
  | .scan req => req.faults = noFaults ∧ req.Names P
  | _ => True

/-! ## Reachable states -/

/-- Sources are registered and nothing else is there. -/
structure DB.Initial (db : DB) : Prop where
  keys : (db.sources.map DataSourceModel.key).Nodup
  ids : (db.sources.map DataSourceModel.id).Nodup
  fresh : ∀ s ∈ db.sources, s.id < db.nextId
  rest : db = { sources := db.sources, nextId := db.nextId }

/-- The tables operations lead to from registered sources, where the
datasets collected are of a kind. -/
def DB.Reachable (P : DatasetRef → Prop) (db : DB) : Prop :=
  ∃ start : DB, start.Initial ∧ Lib.Path Op.apply (fun _ op => op.Regular P) start db

variable {db : DB} {P : DatasetRef → Prop}

theorem DB.Reachable.step (h : db.Reachable P) {op : Op} (hop : op.Regular P) :
    (op.apply db).Reachable P := by
  obtain ⟨start, hinit, hpath⟩ := h
  exact ⟨start, hinit, hpath.tail hop⟩

omit [Hashlib] in
theorem Op.Regular.any {op : Op} (h : op.Regular P) : op.Regular fun _ => True := by
  cases op with
  | scan req => exact ⟨h.1, fun _ _ _ _ => trivial⟩
  | accept | sync | relink => trivial

/-- Tables reachable with names of a kind are reachable. -/
theorem DB.Reachable.any (h : db.Reachable P) : db.Reachable fun _ => True := by
  obtain ⟨start, hinit, hpath⟩ := h
  exact ⟨start, hinit, hpath.mono fun _ _ hop => hop.any⟩

theorem DB.Initial.wellFormed (h : db.Initial) : db.WellFormed := by
  obtain ⟨hkeys, hids, hfresh, hrest⟩ := h
  rw [hrest]
  constructor
  · constructor <;> simp [DB.openFingerprints, hkeys]
  · constructor <;> simp [hids]
    exact hfresh
  · constructor <;> simp
  · simp

/-! ## What an operation can do -/

/-- What a scan does to well-formed tables. -/
inductive ScanEffect (req : ScanRequest) (db : DB) : Except PyException ScanReport → DB → Prop
  | untraced {e : PyException} : ScanEffect req db (.error e) db
  | failed {source : DataSourceModel} {e : PyException} :
      db.sourceOf? req.sourceKey = some source → ScanEffect req db (.error e)
        (req.failed source e db)
  | baselined {source : DataSourceModel} {observed : List ColumnDefinition} :
      db.sourceOf? req.sourceKey = some source → req.collected = .ok observed → observed ≠ [] →
      db.baseline source.id = [] → (req.baselined source observed db).Constraints →
      ScanEffect req db
        (.ok { scanId := db.nextId, sourceKey := req.sourceKey, trigger := req.trigger
               baselineCreated := true, observedCount := observed.length, changes := [] })
        (req.baselined source observed db)
  | drifted {source : DataSourceModel} {observed : List ColumnDefinition} :
      db.sourceOf? req.sourceKey = some source → req.collected = .ok observed → observed ≠ [] →
      db.baseline source.id ≠ [] →
      InDatasets (db.datasetsByRef source.id)
        (db.opened source (db.baseline source.id) observed) →
      (req.drifted source (db.baseline source.id) observed db).Constraints →
      ScanEffect req db
        (.ok { scanId := db.nextId, sourceKey := req.sourceKey, trigger := req.trigger
               baselineCreated := false, observedCount := observed.length
               changes := db.driftChanges source (db.baseline source.id) observed })
        (req.drifted source (db.baseline source.id) observed db)

/-- **What a scan can do** to well-formed tables. -/
theorem scanEffect (hwf : db.WellFormed) {req : ScanRequest} (hf : req.faults = noFaults) :
    ScanEffect req db (scanResult req db) (postScans req db) := by
  have hout := scanOutcome hf hwf.linked.scanFresh
  generalize scanResult req db = result at hout
  generalize postScans req db = after at hout
  rcases hout with _ | ⟨hsource, -⟩ | ⟨hsource, hcollected, hne, hbase, hc⟩ |
    ⟨hsource, hcollected, hne, hbase, hexpected, hin, hc⟩
  · exact .untraced
  · exact .failed hsource
  · rw [baseline?_eq hwf.linked] at hbase
    exact .baselined hsource hcollected hne (Except.ok.inj hbase) hc
  · rw [baseline?_eq hwf.linked] at hbase
    obtain rfl := Except.ok.inj hbase
    exact .drifted hsource hcollected hne hexpected hin hc

/-- What an acceptance does to well-formed tables. -/
inductive AcceptEffect (req : AcceptRequest) (db : DB) :
    Except PyException AcceptanceResult → DB → Prop
  | refused {e : PyException} : AcceptEffect req db (.error e) db
  | accepted {change : SchemaChangeModel} {source : DataSourceModel} {dataset : DatasetModel}
      {c : SchemaChange} {rows : List ExpectedColumnModel} :
      change ∈ db.schemaChanges → change.id = req.changeId → change.state = .open →
      Records db change source dataset c → source.baselineVersion = req.baselineVersion →
      Promoted db change source c rows →
      ({ db with expectedColumns := rows }.accepted source change req.acceptedAt).WellFormed →
      AcceptEffect req db
        (.ok { changeId := req.changeId, baselineVersion := source.baselineVersion + 1 })
        ({ db with expectedColumns := rows }.accepted source change req.acceptedAt)

omit [Hashlib] in
theorem openChange?_eq_some {changeId : Uuid} {change : SchemaChangeModel}
    (h : db.openChange? changeId = some change) :
    change ∈ db.schemaChanges ∧ change.id = changeId ∧ change.state = .open := by
  have hfound := List.find?_some h
  simp only [decide_eq_true_eq] at hfound
  exact ⟨List.mem_of_find?_eq_some h, hfound.1, hfound.2⟩

/-- **What an acceptance can do** to well-formed tables. -/
theorem acceptEffect (hwf : db.WellFormed) (req : AcceptRequest) :
    AcceptEffect req db (acceptResult req db) (postAccept req db) := by
  have hout := acceptOutcome req db
  generalize acceptResult req db = result at hout
  generalize postAccept req db = after at hout
  rcases hout with _ | _ | _ | ⟨hopen, hsource, hversion, happly, hc⟩
  · exact .refused
  · exact .refused
  · exact .refused
  · obtain ⟨hmem, hid, hstate⟩ := openChange?_eq_some hopen
    obtain ⟨dataset, c, hrec⟩ := exists_records hwf hmem hsource
    have hwf' := accepted_wellFormed hwf hrec happly hc
    obtain ⟨rows, rfl, hp⟩ := happly.promoted hwf.linked hwf.constraints hrec
    exact .accepted hmem hid hstate hrec hversion hp hwf'

/-- **An operation keeps the tables well-formed.** -/
theorem DB.WellFormed.apply (hwf : db.WellFormed) {op : Op} (hop : op.Regular P) :
    (op.apply db).WellFormed := by
  cases op with
  | scan req =>
    have heff := scanEffect hwf hop.1
    simp only [Op.apply]
    generalize scanResult req db = result at heff
    generalize postScans req db = after at heff
    rcases heff with _ | _ | ⟨hsource, -, -, -, hc⟩ | ⟨hsource, -, -, -, -, hc⟩
    · exact hwf
    · exact failed_wellFormed hwf _ _
    · exact baselined_wellFormed hwf (mem_of_sourceOf? hsource).1 hc
    · exact drifted_wellFormed hwf (mem_of_sourceOf? hsource).1 hc
  | accept req =>
    have heff := acceptEffect hwf req
    simp only [Op.apply]
    generalize acceptResult req db = result at heff
    generalize postAccept req db = after at heff
    rcases heff with _ | ⟨-, -, -, -, -, -, hwf'⟩
    · exact hwf
    · exact hwf'
  | sync document =>
    rcases syncCatalog_cases document db with heq | ⟨pipelines, edges, next, hnext, heq, hc, hlinked⟩
    · rw [Op.apply, heq]
      exact hwf
    · rw [Op.apply, heq]
      exact withCatalog_wellFormed hwf hnext hc hlinked
  | relink pipelines edges =>
    rw [Op.apply, DB.relink]
    split
    · rename_i h
      exact withCatalog_wellFormed hwf (Nat.le_refl _) h.1 h.2
    · exact hwf

theorem scan_wellFormed (hwf : db.WellFormed) {req : ScanRequest} (hf : req.faults = noFaults) :
    (postScans req db).WellFormed := by
  have hregular : (Op.scan req).Regular fun _ => True := ⟨hf, fun _ _ _ _ => trivial⟩
  exact hwf.apply hregular

theorem accept_wellFormed (hwf : db.WellFormed) (req : AcceptRequest) :
    (postAccept req db).WellFormed := by
  have hregular : (Op.accept req).Regular fun _ => True := trivial
  exact hwf.apply hregular

/-- **Reachable tables are well-formed.** -/
theorem DB.Reachable.wellFormed (h : db.Reachable P) : db.WellFormed := by
  obtain ⟨start, hinit, hpath⟩ := h
  exact hpath.invariant hinit.wellFormed fun _ _ hwf hop => hwf.apply hop

/-- The datasets of reachable tables are of the kind the collectors name. -/
theorem DB.Reachable.names (h : db.Reachable P) : ∀ d ∈ db.datasets, P d.ref := by
  obtain ⟨start, hinit, hpath⟩ := h
  have hstart : ∀ d ∈ start.datasets, P d.ref := by
    rw [hinit.rest]
    exact fun d hd => nomatch hd
  have hboth : db.WellFormed ∧ ∀ d ∈ db.datasets, P d.ref := by
    refine Path.invariant (P := fun db => db.WellFormed ∧ ∀ d ∈ db.datasets, P d.ref) hpath
      ⟨hinit.wellFormed, hstart⟩ fun s op hs hop => ⟨hs.1.apply hop, ?_⟩
    obtain ⟨hwf, hnames⟩ := hs
    cases op with
    | scan req =>
      have heff := scanEffect hwf hop.1
      simp only [Op.apply]
      generalize scanResult req s = result at heff
      generalize postScans req s = after at heff
      rcases heff with _ | _ | ⟨-, hcollected, -, -, -⟩ | ⟨-, -, -, -, -, -⟩
      · exact hnames
      · rw [failed_eq hwf.linked.scanFresh]
        exact hnames
      · obtain ⟨next, added, rows, hrows, heq⟩ := baselined_eq hwf req _ _
        rw [heq]
        intro d hd
        rcases List.mem_append.1 hd with hold | hnew
        · exact hnames d hold
        · obtain ⟨column, hcolumn, href⟩ := hrows.seen d hnew
          rw [href]
          exact hop.2 _ hcollected column hcolumn
      · rw [drifted_eq hwf]
        exact hnames
    | accept req =>
      have heff := acceptEffect hwf req
      simp only [Op.apply]
      generalize acceptResult req s = result at heff
      generalize postAccept req s = after at heff
      rcases heff with _ | _
      · exact hnames
      · exact hnames
    | sync document =>
      rcases syncCatalog_cases document s with heq | ⟨_, _, _, -, heq, -, -⟩
      · rw [Op.apply, heq]
        exact hnames
      · rw [Op.apply, heq]
        exact hnames
    | relink pipelines edges =>
      rw [Op.apply, DB.relink]
      split <;> exact hnames
  exact hboth.2

/-! ## Sample tables -/

/-- One source is registered. -/
def sampleStart : DB := { sources := [{ id := 0, key := "crm" }], nextId := 1 }

def sampleColumn (table name type : String) (nullable : Bool) : ColumnDefinition :=
  { dataset := ⟨"public", table⟩, name := name, dataType := { name := type }
    nullable := nullable, default := none }

/-- A scan of the source. -/
def sampleScan (observed : List ColumnDefinition) : ScanRequest :=
  { sourceKey := "crm", settings := { emailTo := ["ops"] }, collected := .ok observed }

omit [Hashlib] in
theorem sampleStart_initial : sampleStart.Initial :=
  ⟨by decide, by decide, by decide, rfl⟩

theorem sampleStart_reachable : sampleStart.Reachable P := ⟨_, sampleStart_initial, .refl⟩

omit [Hashlib] in
theorem sampleScan_regular {observed : List ColumnDefinition}
    (h : ∀ column ∈ observed, P column.dataset) : (Op.scan (sampleScan observed)).Regular P := by
  refine ⟨rfl, fun columns hcolumns => ?_⟩
  cases hcolumns
  exact h

/-- A pipeline reads one table's key and writes another's. -/
def sampleCatalog : CatalogConfig :=
  { pipelines := [{ key := "etl", airflowDagId := "etl", owner := "data", criticality := .high
                    inputs := [⟨"public.users", ["id"]⟩], outputs := [⟨"public.mart", ["id"]⟩] }] }

/-- The first scan and the sync of the catalog. -/
def sampleSynced : DB :=
  (Op.sync (some sampleCatalog)).apply ((Op.scan (sampleScan
    [sampleColumn "users" "id" "integer" false, sampleColumn "mart" "id" "integer" false])).apply
      sampleStart)

theorem sampleSynced_reachable : sampleSynced.Reachable DatasetRef.Dotless := by
  have hscan : (Op.scan (sampleScan [sampleColumn "users" "id" "integer" false,
      sampleColumn "mart" "id" "integer" false])).Regular DatasetRef.Dotless :=
    sampleScan_regular (by decide)
  have hsync : (Op.sync (some sampleCatalog)).Regular DatasetRef.Dotless := trivial
  exact (sampleStart_reachable.step hscan).step hsync

/-- The scan that misses the column the pipeline reads. -/
def sampleLoss : ScanRequest := sampleScan [sampleColumn "mart" "id" "integer" false]

/-- What that scan finds. -/
def sampleLossReport : ScanReport :=
  { scanId := 5, sourceKey := "crm", trigger := .manual, baselineCreated := false
    observedCount := 1
    changes := [.drop (sampleColumn "users" "id" "integer" false)
      [⟨⟨"public", "users"⟩, "id"⟩]] }

end Runs

section Sample

attribute [local instance] Hashlib.plain

/-- The first scan and the sync of the catalog, as the rows they leave. -/
def sampleTables : DB :=
  { sources := [{ id := 0, key := "crm" }]
    datasets := [⟨2, 0, "public", "users"⟩, ⟨3, 0, "public", "mart"⟩]
    expectedColumns := [expectedRow 2 (sampleColumn "users" "id" "integer" false),
      expectedRow 3 (sampleColumn "mart" "id" "integer" false)]
    scanRuns := [⟨1, 0, .manual, .completed, 0, some 0, some 0, none, none⟩]
    observedColumns := [observedRow 1 (sampleColumn "users" "id" "integer" false),
      observedRow 1 (sampleColumn "mart" "id" "integer" false)]
    pipelines := [⟨4, "etl", "etl", "data", .high⟩]
    lineageEdges := [⟨4, 2, "id", 3, "id"⟩]
    nextId := 5 }

theorem sampleSynced_eq : sampleSynced = sampleTables := by decide +kernel

theorem sampleTables_reachable : sampleTables.Reachable DatasetRef.Dotless := by
  rw [← sampleSynced_eq]
  exact sampleSynced_reachable

/-- The users' column is gone and the mart's widened. -/
def sampleReshaped : List ColumnDefinition := [sampleColumn "mart" "id" "bigint" false]

/-- The source of the sample. -/
def sampleSource : DataSourceModel := { id := 0, key := "crm" }

end Sample

end SchemaSentry
