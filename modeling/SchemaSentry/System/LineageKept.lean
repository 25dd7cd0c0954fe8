import SchemaSentry.Application.ChangeService
import SchemaSentry.System.Answers
import SchemaSentry.System.CatalogSync
/-!
# Schema Sentry — the columns lineage names

Whether the stored edges name columns of the baseline. A sync asks this of
its document once. Afterwards an acceptance may remove such a column, and
a sync may file a name under another source's dataset of that name; both
are a state's and a request's to tell (`Op.Unhooks`), and nothing else
makes an edge dangle (`lineage_kept_iff`).
-/

namespace SchemaSentry

open Lib

/-! ## Edges and columns -/

/-- An edge starts or ends in a column of a dataset. -/
def DB.Endpoint (db : DB) (datasetId : Uuid) (name : String) : Prop :=
  ∃ e ∈ db.lineageEdges, e.upstreamDatasetId = datasetId ∧ e.upstreamColumn = name ∨
    e.downstreamDatasetId = datasetId ∧ e.downstreamColumn = name

/-- A dataset's baseline has a column. -/
def DB.HasColumn (db : DB) (datasetId : Uuid) (name : String) : Prop :=
  ∃ x ∈ db.expectedColumns, x.datasetId = datasetId ∧ x.name = name

instance (db : DB) (datasetId : Uuid) (name : String) : Decidable (db.Endpoint datasetId name) :=
  inferInstanceAs (Decidable (∃ _ ∈ _, _))

instance (db : DB) (datasetId : Uuid) (name : String) : Decidable (db.HasColumn datasetId name) :=
  inferInstanceAs (Decidable (∃ _ ∈ _, _))

/-- Every edge names columns of the baseline. -/
def DB.LineageNamed (db : DB) : Prop :=
  ∀ datasetId name, db.Endpoint datasetId name → db.HasColumn datasetId name

/-- A source's last scan that COMPLETED. -/
def DB.latestScan? (db : DB) (sourceId : Uuid) : Option ScanRunModel :=
  (db.scanRuns.filter fun scan => scan.sourceId = sourceId ∧ scan.status = .completed).getLast?

/-- The latest observation of a dataset's source has a column. -/
def DB.Observes (db : DB) (datasetId : Uuid) (name : String) : Prop :=
  ∃ d ∈ db.datasets, d.id = datasetId ∧ ∃ scan ∈ db.latestScan? d.sourceId,
    ∃ row ∈ db.observedColumns, row.scanId = scan.id ∧
      (⟨row.schemaName, row.tableName⟩ : DatasetRef) = d.ref ∧ row.name = name

instance (db : DB) (datasetId : Uuid) (name : String) : Decidable (db.Observes datasetId name) :=
  inferInstanceAs (Decidable (∃ _ ∈ _, _))

/-- A column the document names. -/
def CatalogConfig.NamesAny (config : CatalogConfig) (ref : ColumnRef) : Prop :=
  ∃ p ∈ config.pipelines, NamesColumn (p.inputs ++ p.outputs) ref

/-- The dataset a sync files a name under. -/
def DB.Resolves (db : DB) (ref : DatasetRef) (datasetId : Uuid) : Prop :=
  ∃ d, Dict.get? ref db.allDatasetsByRef = some d ∧ d.id = datasetId

/-- An operation leaves an edge without its column: the acceptance of the
removal of a column that an edge names, or the sync of a document that is
accepted but names a column of another dataset than the one its name is
filed under. -/
def Op.Unhooks : Op → DB → Prop
  | .accept req, db => ∃ change ∈ db.schemaChanges, change.id = req.changeId ∧
      change.state = .open ∧ change.changeType = .dropColumn ∧
      (∃ source ∈ db.sources, source.id = change.sourceId ∧
        source.baselineVersion = req.baselineVersion) ∧
      db.Endpoint change.datasetId change.columnName
  | .sync (some config), db => (config.FieldsOk ∧ config.Fits ∧ config.Accepted db) ∧
      ∃ ref, config.NamesAny ref ∧
        ∃ datasetId, db.Resolves ref.dataset datasetId ∧ ¬ db.HasColumn datasetId ref.name
  | _, _ => False

/-- An operation is a request of the service. -/
def Op.Requested : Op → Prop
  | .relink _ _ => False
  | _ => True

/-! ## The document last synced -/

/-- The tables, and the document synced last with success. -/
structure Catalogued where
  db : DB
  document : Option CatalogConfig := none
  deriving DecidableEq

section Lineage

variable [Hashlib]
variable {db db' : DB} {config : CatalogConfig} {datasetId : Uuid} {name : String}

/-- A request, and what is then the document synced last. -/
def Catalogued.apply (op : Op) (w : Catalogued) : Catalogued where
  db := op.apply w.db
  document :=
    match op with
    | .sync (some config) =>
      match syncResult (some config) w.db with
      | .ok _ => some config
      | .error _ => w.document
    | _ => w.document

omit [Hashlib] in
/-- **Lineage is kept**: every edge names columns of the baseline, the
document synced last can be synced again, and no pipeline is safe while an
input of its is neither in the baseline nor in the latest observation. -/
structure Catalogued.LineageKept (w : Catalogued) : Prop where
  named : w.db.LineageNamed
  resync : ∀ config, w.document = some config → ∃ r, syncResult (some config) w.db = .ok r
  guarded : ∀ k v, validateResult k w.db = .ok v → v.safe = true →
    ∀ p ∈ w.db.pipelines, p.key = k → ∀ e ∈ w.db.lineageEdges, e.pipelineId = p.id →
      w.db.HasColumn e.upstreamDatasetId e.upstreamColumn ∨
        w.db.Observes e.upstreamDatasetId e.upstreamColumn

/-- What requests keep in any case: each column the document synced last
names is one an edge names. -/
structure Catalogued.Sound (w : Catalogued) : Prop where
  wellFormed : w.db.WellFormed
  fields : ∀ config ∈ w.document, config.FieldsOk ∧ config.Fits
  accepted : ∀ config ∈ w.document, ∃ db, config.Accepted db
  stored : ∀ config ∈ w.document, ∀ ref, config.NamesAny ref →
    ∃ d ∈ w.db.datasets, d.ref = ref.dataset ∧ w.db.Endpoint d.id ref.name

omit [Hashlib] in
theorem mem_knownColumns {ref : ColumnRef} :
    ref ∈ db.knownColumns ↔ ∃ d ∈ db.datasets, d.ref = ref.dataset ∧ db.HasColumn d.id ref.name := by
  simp only [DB.knownColumns, List.mem_flatMap, List.mem_map, List.mem_filter, decide_eq_true_eq]
  constructor
  · rintro ⟨x, hx, d, ⟨hd, hid⟩, rfl⟩
    exact ⟨d, hd, rfl, x, hx, hid.symm, rfl⟩
  · rintro ⟨d, hd, href, x, hx, hid, hname⟩
    exact ⟨x, hx, d, ⟨hd, hid.symm⟩, by rw [href, hname]⟩

/-- **Lineage is kept where every edge names columns of the baseline.** -/
theorem Catalogued.Sound.kept_iff {w : Catalogued} (h : w.Sound) :
    w.LineageKept ↔ w.db.LineageNamed := by
  refine ⟨fun hkept => hkept.named, fun hnamed => ⟨hnamed, fun config hconfig => ?_, ?_⟩⟩
  · obtain ⟨hfields, hfits⟩ := h.fields config hconfig
    obtain ⟨db, haccepted⟩ := h.accepted config hconfig
    refine (exists_sync_iff h.wellFormed.constraints h.wellFormed.linked).2
      ⟨hfields, hfits, { haccepted with known := fun p hp ref href => ?_ }⟩
    obtain ⟨d, hd, hdref, hend⟩ := h.stored config hconfig ref ⟨p, hp, href⟩
    exact mem_knownColumns.2 ⟨d, hd, hdref, hnamed d.id ref.name hend⟩
  · intro k v _ _ p _ _ e he _
    exact Or.inl (hnamed _ _ ⟨e, he, Or.inl ⟨rfl, rfl⟩⟩)

/-! ## Scans -/

omit [Hashlib] in
theorem DB.LineageNamed.mono (h : db.LineageNamed) (hedges : db'.lineageEdges = db.lineageEdges)
    (hexpected : ∀ x ∈ db.expectedColumns, x ∈ db'.expectedColumns) : db'.LineageNamed := by
  rintro datasetId name ⟨e, he, hend⟩
  obtain ⟨x, hx, hid⟩ := h datasetId name ⟨e, hedges ▸ he, hend⟩
  exact ⟨x, hexpected x hx, hid⟩

/-- A scan leaves the edges and adds to the baselines and the datasets. -/
theorem scan_adds (hwf : db.WellFormed) {req : ScanRequest} (hf : req.faults = noFaults) :
    (postScans req db).lineageEdges = db.lineageEdges ∧
      (∀ d ∈ db.datasets, d ∈ (postScans req db).datasets) ∧
      ∀ x ∈ db.expectedColumns, x ∈ (postScans req db).expectedColumns := by
  have heff := scanEffect hwf hf
  generalize scanResult req db = result at heff
  generalize postScans req db = after at heff
  rcases heff with _ | _ | _ | _
  · exact ⟨rfl, fun _ hd => hd, fun _ hx => hx⟩
  · rw [failed_eq hwf.linked.scanFresh]
    exact ⟨rfl, fun _ hd => hd, fun _ hx => hx⟩
  · obtain ⟨_, _, rows, -, heq⟩ := baselined_eq hwf req _ _
    rw [heq]
    exact ⟨rfl, fun _ hd => List.mem_append_left _ hd, fun _ hx => List.mem_append_left _ hx⟩
  · rw [drifted_eq hwf]
    exact ⟨rfl, fun _ hd => hd, fun _ hx => hx⟩

/-! ## Acceptances -/

section Accepted

variable {change : SchemaChangeModel} {source : DataSourceModel} {dataset : DatasetModel}
variable {c : SchemaChange} {rows : List ExpectedColumnModel} {applied : DB}
variable (hwf : db.WellFormed) (hrec : Records db change source dataset c)
variable (hp : Promoted db change source c rows)

include hwf hrec hp

omit hrec in
/-- An acceptance neither adds nor removes any column but its change's. -/
theorem hasColumn_promoted (hnot : ¬ (datasetId = change.datasetId ∧ name = change.columnName)) :
    ({ db with expectedColumns := rows } : DB).HasColumn datasetId name ↔
      db.HasColumn datasetId name := by
  have hrow : ∀ x : ExpectedColumnModel, x.datasetId = datasetId → x.name = name →
      (∃ d ∈ db.datasets, d.id = x.datasetId) →
      (∃ type : CanonicalType, x.dataTypeJson = type.toCanonicalDict) →
      (x ∈ rows ↔ x ∈ db.expectedColumns) := by
    rintro x rfl rfl ⟨d, hd, hid⟩ ⟨type, htype⟩
    have hx : x = expectedRow d.id
        ⟨d.ref, x.name, type, x.nullable, x.defaultExpression, x.ordinal⟩ := by
      rw [expectedRow, hid, ← htype]
    rw [hx]
    exact hp.other d hd _ rfl fun hown => hnot ⟨hid ▸ hown.1, hown.2⟩
  constructor
  · rintro ⟨x, hx, hid, hname⟩
    exact ⟨x, (hrow x hid hname (hp.dataset x hx) (hp.typed x hx)).1 hx, hid, hname⟩
  · rintro ⟨x, hx, hid, hname⟩
    exact ⟨x, (hrow x hid hname (hwf.linked.expectedDataset x hx)
      (hwf.linked.expectedTyped x hx)).2 hx, hid, hname⟩

/-- **The change's column after its acceptance** is there unless the change
is its removal. -/
theorem hasColumn_own_promoted (hhas : db.HasColumn change.datasetId change.columnName) :
    ({ db with expectedColumns := rows } : DB).HasColumn change.datasetId change.columnName ↔
      change.changeType ≠ .dropColumn := by
  have hdataset := hrec.dataset_id
  obtain ⟨x, hx, hid, hname⟩ := hhas
  obtain ⟨b, hb, -⟩ := columnAt_of_row hwf.linked hwf.constraints hrec hx hid hname
  constructor
  · rintro ⟨y, hy, hyid, hyname⟩ hdrop
    obtain ⟨type, htype⟩ := hp.typed y hy
    have hrow : y = expectedRow dataset.id
        ⟨dataset.ref, y.name, type, y.nullable, y.defaultExpression, y.ordinal⟩ := by
      rw [expectedRow, hdataset, ← hyid, ← htype]
    rw [hrow, hp.own dataset hrec.dataset_mem _ rfl hdataset hyname, SchemaChange.promote,
      ← hrec.changeType, hdrop] at hy
    cases hy
  · intro hdrop
    obtain ⟨p, hpromote⟩ := exists_promote hrec hb hdrop
    have hpref := ref_of_promote hrec hpromote
    have hr : p.dataset = dataset.ref := (congrArg ColumnRef.dataset hpref).trans hrec.ref.symm
    have hpname : p.name = change.columnName :=
      (congrArg ColumnRef.name hpref).trans hrec.columnName.symm
    exact ⟨expectedRow dataset.id p,
      (hp.own dataset hrec.dataset_mem p hr hdataset hpname).2 hpromote, hdataset, hpname⟩

end Accepted

omit [Hashlib] in
/-- A removal has no snapshot after it. -/
theorem SchemaChange.Genuine.after_eq_none {c : SchemaChange} (h : c.Genuine)
    (hdrop : c.changeType = .dropColumn) : c.after = none := by
  obtain ⟨dependencies, hlisted⟩ := h.listed
  rcases (mem_compareColumn h.filed.before).1 hlisted with ⟨a, -, -, hc⟩ | ⟨b, -, hnone, -⟩ |
    ⟨b, a, -, -, -, hc⟩ | ⟨b, a, -, -, -, hc⟩
  · rw [hc] at hdrop
    cases hdrop
  · exact hnone
  · rw [hc] at hdrop
    cases hdrop
  · rw [hc] at hdrop
    cases hdrop

/-- The acceptance of the removal of a column an edge names succeeds. -/
theorem succeeds_of_unhooks (hwf : db.WellFormed) (hnamed : db.LineageNamed) {req : AcceptRequest}
    (h : (Op.accept req).Unhooks db) : ∃ r, acceptResult req db = .ok r := by
  obtain ⟨change, hmem, hid, hopen, hdrop, ⟨source, hsource, hsid, hversion⟩, hend⟩ := h
  have howner : db.sources.find? (fun s => s.id = change.sourceId) = some source :=
    (find?_eq_some_of_nodup hwf.linked.sourceIds).2 ⟨hsource, hsid⟩
  obtain ⟨dataset, c, hrec⟩ := exists_records hwf hmem howner
  obtain ⟨applied, happly⟩ := exists_appliesTo hrec fun _ => hnamed _ _ hend
  have hfitting : ∀ after ∈ change.afterJson, ∀ text ∈ optionalString "default" after,
      fits 1000 text := by
    intro after hafter
    rw [hrec.after, hrec.genuine.after_eq_none (hrec.changeType ▸ hdrop)] at hafter
    cases hafter
  exact ⟨_, acceptResult_of_applies hwf.constraints
    (openChange?_eq_some_of_open hwf.linked hmem hid hopen) howner hversion happly
    (happly.constraints hwf.constraints hmem hfitting _)⟩

/-- **An acceptance keeps every edge named** unless it removes a column that
one names. -/
theorem accept_named_iff (hwf : db.WellFormed) (hnamed : db.LineageNamed) (req : AcceptRequest) :
    (postAccept req db).LineageNamed ↔ ¬ (Op.accept req).Unhooks db := by
  have hsucceeds : (Op.accept req).Unhooks db → ∃ r, acceptResult req db = .ok r :=
    succeeds_of_unhooks hwf hnamed
  have heff := acceptEffect hwf req
  generalize acceptResult req db = result at heff hsucceeds
  generalize postAccept req db = after at heff
  rcases heff with _ | ⟨hchange, hcid, hopen, hrec, hversion, hp, -⟩
  · refine iff_of_true hnamed fun h => ?_
    obtain ⟨r, hr⟩ := hsucceeds h
    cases hr
  · rename_i change source dataset c rows
    have hiff : ∀ datasetId name, ({ db with expectedColumns := rows }.accepted source change
        req.acceptedAt).HasColumn datasetId name ↔
          ({ db with expectedColumns := rows } : DB).HasColumn datasetId name :=
      fun _ _ => Iff.rfl
    constructor
    · rintro hafter ⟨change', hmem, hid, -, hdrop, -, hend⟩
      obtain rfl := eq_of_nodup_map hwf.linked.changeIds hmem hchange (hid.trans hcid.symm)
      have hkept := (hiff _ _).1 (hafter _ _ hend)
      exact (hasColumn_own_promoted hwf hrec hp (hnamed _ _ hend)).1 hkept hdrop
    · intro hnot datasetId name hend
      rw [hiff]
      by_cases hown : datasetId = change.datasetId ∧ name = change.columnName
      · obtain ⟨rfl, rfl⟩ := hown
        refine (hasColumn_own_promoted hwf hrec hp (hnamed _ _ hend)).2 fun hdrop => hnot ?_
        exact ⟨change, hchange, hcid, hopen, hdrop,
          ⟨source, hrec.source_mem, hrec.source_id, hversion⟩, hend⟩
      · exact (hasColumn_promoted hwf hp hown).2 (hnamed _ _ hend)

/-! ## Syncs -/

section Synced

variable {edges : List (List LineageEdge)} {rows : List LineageEdgeModel} {edge : LineageEdge}
variable {row : LineageEdgeModel}

omit [Hashlib]

/-- A row refers to the datasets its edge's names are filed under. -/
theorem resolves_of_edgeRow {models : Dict String PipelineModel}
    (h : edgeRow models db.allDatasetsByRef edge = .ok row) :
    (db.Resolves edge.upstream.dataset row.upstreamDatasetId ∧
      row.upstreamColumn = edge.upstream.name) ∧
    (db.Resolves edge.downstream.dataset row.downstreamDatasetId ∧
      row.downstreamColumn = edge.downstream.name) := by
  have hfound : ∀ {key : DatasetRef} {what : String} {d : DatasetModel},
      lookupKey key what db.allDatasetsByRef = .ok d → db.Resolves key d.id := by
    intro key what d hlookup
    unfold lookupKey at hlookup
    split at hlookup
    · rename_i hget
      cases hlookup
      exact ⟨d, hget, rfl⟩
    · cases hlookup
  simp only [edgeRow, except_bind_ok] at h
  obtain ⟨p, -, up, hup, down, hdown, hrow⟩ := h
  cases hrow
  exact ⟨⟨hfound hup, rfl⟩, hfound hdown, rfl⟩

/-- A name is filed under one dataset, which has that name. -/
theorem DB.Resolves.unique {ref : DatasetRef} {i j : Uuid} (h : db.Resolves ref i)
    (h' : db.Resolves ref j) : i = j := by
  obtain ⟨d, hget, rfl⟩ := h
  obtain ⟨d', hget', rfl⟩ := h'
  rw [hget] at hget'
  cases hget'
  rfl

theorem DB.Resolves.exists_dataset {ref : DatasetRef} (h : db.Resolves ref datasetId) :
    ∃ d ∈ db.datasets, d.ref = ref ∧ d.id = datasetId := by
  obtain ⟨d, hget, rfl⟩ := h
  obtain ⟨other, hmem, heq⟩ :=
    List.mem_map.1 (Dict.mem_of_mem_ofItems (Dict.mem_of_get?_eq_some hget))
  obtain ⟨href, rfl⟩ := Prod.mk.inj heq
  exact ⟨other, hmem, href, rfl⟩

/-- Column sets that are not empty name a column. -/
theorem exists_namesColumn {sets : List ColumnSetConfig} (hne : sets ≠ [])
    (hcolumns : ∀ c ∈ sets, c.columns ≠ [])
    (hparts : ∀ c ∈ sets, ∃ ref, datasetParts c.dataset = some ref) :
    ∃ ref, NamesColumn sets ref := by
  obtain ⟨c, hc⟩ := List.exists_mem_of_ne_nil _ hne
  obtain ⟨name, hname⟩ := List.exists_mem_of_ne_nil _ (hcolumns c hc)
  obtain ⟨ref, href⟩ := hparts c hc
  exact ⟨⟨ref, name⟩, c, hc, href, hname⟩

/-- Each column a document names is one an edge declared names. -/
theorem exists_declared {ref : ColumnRef} (hfields : config.FieldsOk)
    (haccepted : config.Accepted db) (h : config.NamesAny ref) :
    ∃ e, config.Declares e ∧ (e.upstream = ref ∨ e.downstream = ref) := by
  obtain ⟨p, hp, hnames⟩ := h
  obtain ⟨hinputs, houtputs⟩ := hfields.sets p hp
  have hcolumns := hfields.columns p hp
  have hparts : ∀ c ∈ p.inputs ++ p.outputs, ∃ ref, datasetParts c.dataset = some ref :=
    fun c hc => (haccepted.datasets p hp c hc).imp fun _ h => h.1
  rcases namesColumn_append.1 hnames with hin | hout
  · obtain ⟨down, hdown⟩ := exists_namesColumn houtputs
      (fun c hc => hcolumns c (List.mem_append_right _ hc))
      fun c hc => hparts c (List.mem_append_right _ hc)
    exact ⟨⟨p.definition, ref, down⟩, ⟨p, hp, rfl, hin, hdown⟩, Or.inl rfl⟩
  · obtain ⟨up, hup⟩ := exists_namesColumn hinputs
      (fun c hc => hcolumns c (List.mem_append_left _ hc))
      fun c hc => hparts c (List.mem_append_left _ hc)
    exact ⟨⟨p.definition, up, ref⟩, ⟨p, hp, rfl, hup, hout⟩, Or.inr rfl⟩

/-- **The edges stored name the columns of the document**, in the datasets
their names are filed under. -/
theorem Computes.endpoint_iff (h : Computes db config edges rows) :
    (db.replaced config rows).Endpoint datasetId name ↔
      ∃ ref, config.NamesAny ref ∧ db.Resolves ref.dataset datasetId ∧ ref.name = name := by
  obtain ⟨hfields, haccepted⟩ := h.accepted
  have hall := mapM_ok_iff.1 h.rowsOf
  constructor
  · rintro ⟨row, hrow, hend⟩
    obtain ⟨edge, hedge, hok⟩ := exists_left_of_forall₂ hall hrow
    obtain ⟨p, hp, -, hup, hdown⟩ := (mem_orderedEdges h.edgesOf).1 hedge
    obtain ⟨⟨hupstream, hupname⟩, hdownstream, hdownname⟩ := resolves_of_edgeRow hok
    rcases hend with ⟨rfl, rfl⟩ | ⟨rfl, rfl⟩
    · exact ⟨edge.upstream, ⟨p, hp, namesColumn_append.2 (Or.inl hup)⟩, hupstream, hupname.symm⟩
    · exact ⟨edge.downstream, ⟨p, hp, namesColumn_append.2 (Or.inr hdown)⟩, hdownstream,
        hdownname.symm⟩
  · rintro ⟨ref, hnames, hresolves, rfl⟩
    obtain ⟨edge, hdeclared, hside⟩ := exists_declared hfields haccepted hnames
    obtain ⟨row, hrow, hok⟩ :=
      exists_right_of_forall₂ hall ((mem_orderedEdges h.edgesOf).2 hdeclared)
    obtain ⟨⟨hupstream, hupname⟩, hdownstream, hdownname⟩ := resolves_of_edgeRow hok
    refine ⟨row, hrow, ?_⟩
    rcases hside with rfl | rfl
    · exact Or.inl ⟨hupstream.unique hresolves, hupname⟩
    · exact Or.inr ⟨hdownstream.unique hresolves, hdownname⟩

/-- A name an accepted document gives is filed under a dataset. -/
theorem exists_resolves {ref : ColumnRef} (haccepted : config.Accepted db)
    (h : config.NamesAny ref) : ∃ datasetId, db.Resolves ref.dataset datasetId := by
  obtain ⟨p, hp, hnames⟩ := h
  obtain ⟨d, hd, href, -⟩ := mem_knownColumns.1 (haccepted.known p hp ref hnames)
  have hitem : (d.ref, d) ∈ db.datasets.map fun dataset => (dataset.ref, dataset) :=
    List.mem_map_of_mem hd
  obtain ⟨found, hget⟩ := Dict.exists_get?_ofItems hitem
  exact ⟨found.id, found, by rw [← href]; exact hget, rfl⟩

/-- **A sync keeps every edge named** unless it files a name under a dataset
that lacks the column. -/
theorem sync_named_iff (hc : db.Constraints) (hl : db.Linked) (hnamed : db.LineageNamed)
    (document : Option CatalogConfig) :
    (syncCatalog document db).LineageNamed ↔ ¬ (Op.sync document).Unhooks db := by
  cases document with
  | none => exact iff_of_true (by rw [syncCatalog_of_error (e := _) rfl]; exact hnamed) id
  | some config =>
    cases hresult : syncResult (some config) db with
    | error e =>
      rw [syncCatalog_of_error hresult]
      refine iff_of_true hnamed fun ⟨hok, _⟩ => ?_
      obtain ⟨r, hr⟩ := (exists_sync_iff hc hl).2 hok
      rw [hresult] at hr
      cases hr
    | ok r =>
      have hok := (exists_sync_iff hc hl).1 ⟨r, hresult⟩
      obtain ⟨edges, rows, hcomputes, -, hsync⟩ := computes_of_ok hresult
      rw [hsync]
      have hcolumn : ∀ datasetId name, (db.replaced config rows).HasColumn datasetId name ↔
          db.HasColumn datasetId name := fun _ _ => Iff.rfl
      constructor
      · rintro hafter ⟨-, ref, hnames, id, hresolves, hmissing⟩
        exact hmissing ((hcolumn _ _).1
          (hafter id ref.name (hcomputes.endpoint_iff.2 ⟨ref, hnames, hresolves, rfl⟩)))
      · intro hnot id name hend
        obtain ⟨ref, hnames, hresolves, rfl⟩ := hcomputes.endpoint_iff.1 hend
        rw [hcolumn]
        by_contra hmissing
        exact hnot ⟨hok, ref, hnames, id, hresolves, hmissing⟩

end Synced

/-! ## Requests -/

/-- What a scan and an acceptance leave of the edges and the datasets keeps
the document last synced stored. -/
theorem Catalogued.Sound.frame {w : Catalogued} (h : w.Sound) {db : DB} (hwf : db.WellFormed)
    (hedges : db.lineageEdges = w.db.lineageEdges)
    (hdatasets : ∀ d ∈ w.db.datasets, d ∈ db.datasets) :
    (Catalogued.mk db w.document).Sound where
  wellFormed := hwf
  fields := h.fields
  accepted := h.accepted
  stored := by
    intro config hconfig ref href
    obtain ⟨d, hd, hdref, e, he, hend⟩ := h.stored config hconfig ref href
    exact ⟨d, hdatasets d hd, hdref, e, hedges ▸ he, hend⟩

/-- **Requests keep the document last synced stored.** -/
theorem Catalogued.Sound.apply {w : Catalogued} (h : w.Sound) {op : Op}
    (hop : op.Regular fun _ => True) (hreq : op.Requested) : (w.apply op).Sound := by
  have hwf : (op.apply w.db).WellFormed := h.wellFormed.apply hop
  cases op with
  | scan req =>
    obtain ⟨hedges, hdatasets, -⟩ := scan_adds h.wellFormed hop.1
    exact h.frame hwf hedges hdatasets
  | accept req =>
    have hsame : (postAccept req w.db).lineageEdges = w.db.lineageEdges ∧
        (postAccept req w.db).datasets = w.db.datasets := by
      have heff := acceptEffect h.wellFormed req
      generalize acceptResult req w.db = result at heff
      generalize postAccept req w.db = after at heff
      rcases heff with _ | _ <;> exact ⟨rfl, rfl⟩
    exact h.frame hwf hsame.1 fun d hd => by rw [Op.apply, hsame.2]; exact hd
  | sync document =>
    cases document with
    | none =>
      have hsame : syncCatalog none w.db = w.db := syncCatalog_of_error (e := _) rfl
      exact h.frame hwf (by rw [Op.apply, hsame]) fun d hd => by rw [Op.apply, hsame]; exact hd
    | some config =>
      cases hresult : syncResult (some config) w.db with
      | error e =>
        have hdocument : (w.apply (.sync (some config))).document = w.document := by
          simp only [Catalogued.apply, hresult]
        have hsame : syncCatalog (some config) w.db = w.db := syncCatalog_of_error hresult
        have hframe := h.frame hwf (by rw [Op.apply, hsame])
          fun d hd => by rw [Op.apply, hsame]; exact hd
        rw [← hdocument] at hframe
        exact hframe
      | ok r =>
        have hdocument : (w.apply (.sync (some config))).document = some config := by
          simp only [Catalogued.apply, hresult]
        obtain ⟨hfields, hfits, haccepted⟩ :=
          (exists_sync_iff h.wellFormed.constraints h.wellFormed.linked).1 ⟨r, hresult⟩
        obtain ⟨edges, rows, hcomputes, -, hsync⟩ := computes_of_ok hresult
        refine ⟨hwf, ?_, ?_, ?_⟩ <;> rw [hdocument] <;> rintro _ ⟨⟩
        · exact ⟨hfields, hfits⟩
        · exact ⟨w.db, haccepted⟩
        · intro ref hnames
          obtain ⟨id, hresolves⟩ := exists_resolves haccepted hnames
          obtain ⟨d, hd, href, rfl⟩ := hresolves.exists_dataset
          have hdb : (w.apply (.sync (some config))).db = w.db.replaced config rows := hsync
          rw [hdb]
          exact ⟨d, hd, href, hcomputes.endpoint_iff.2 ⟨ref, hnames, hresolves, rfl⟩⟩
  | relink => exact absurd hreq id

/-- **A request keeps every edge named** unless it unhooks one. -/
theorem named_apply_iff {w : Catalogued} (h : w.Sound) (hnamed : w.db.LineageNamed) {op : Op}
    (hop : op.Regular fun _ => True) (hreq : op.Requested) :
    (w.apply op).db.LineageNamed ↔ ¬ op.Unhooks w.db := by
  cases op with
  | scan req =>
    obtain ⟨hedges, -, hexpected⟩ := scan_adds h.wellFormed hop.1
    exact iff_of_true (hnamed.mono hedges hexpected) id
  | accept req => exact accept_named_iff h.wellFormed hnamed req
  | sync document =>
    exact sync_named_iff h.wellFormed.constraints h.wellFormed.linked hnamed document
  | relink => exact absurd hreq id

omit [Hashlib] in
theorem DB.Initial.lineageNamed (h : db.Initial) : db.LineageNamed := by
  rw [h.rest]
  rintro _ _ ⟨e, he, -⟩
  cases he

/-- **Lineage is kept throughout a run exactly where no request of it
unhooks an edge.** -/
theorem lineage_kept_iff {start : DB} (hinit : start.Initial) {ops : List Op}
    (hops : ∀ op ∈ ops, (op.Regular fun _ => True) ∧ op.Requested) :
    Lib.Path.Throughout Catalogued.apply Catalogued.LineageKept ops ⟨start, none⟩ ↔
      Lib.Path.Along Catalogued.apply (fun w op => ¬ op.Unhooks w.db) ops ⟨start, none⟩ := by
  have hsound : (Catalogued.mk start none).Sound :=
    ⟨hinit.wellFormed, by simp, by simp, by simp⟩
  have hkept : ∀ (w : Catalogued) op, w.Sound → (op.Regular fun _ => True) ∧ op.Requested →
      (w.apply op).Sound := fun w op h hop => h.apply hop.1 hop.2
  refine Path.throughout_iff_along hkept (fun w op h hlineage hop => ?_) ops hops hsound
    (hsound.kept_iff.2 hinit.lineageNamed)
  rw [(hkept w op h hop).kept_iff]
  exact named_apply_iff h hlineage.named hop.1 hop.2

end Lineage

section Sample

attribute [local instance] Hashlib.plain

/-- The sample's run: the catalog is synced, the column the pipeline reads is
lost, and the loss is accepted. -/
def sampleDropped : List Op :=
  [.scan (sampleScan [sampleColumn "users" "id" "integer" false,
    sampleColumn "mart" "id" "integer" false]), .sync (some sampleCatalog), .scan sampleLoss,
    .accept { changeId := 6, baselineVersion := 1 }]

theorem sampleDropped_requested :
    ∀ op ∈ sampleDropped, (op.Regular fun _ => True) ∧ op.Requested := by
  intro op hop
  simp only [sampleDropped, List.mem_cons, List.not_mem_nil, or_false] at hop
  rcases hop with rfl | rfl | rfl | rfl
  · exact ⟨sampleScan_regular fun _ _ => True.intro, True.intro⟩
  · exact ⟨True.intro, True.intro⟩
  · exact ⟨sampleScan_regular fun _ _ => True.intro, True.intro⟩
  · exact ⟨True.intro, True.intro⟩

/-- In the sample the run is decided. -/
theorem lineage_kept_iff_sample :
    Lib.Path.Throughout Catalogued.apply Catalogued.LineageKept sampleDropped ⟨sampleStart, none⟩ ↔
      Lib.Path.Along Catalogued.apply (fun w op => ¬ op.Unhooks w.db) sampleDropped
        ⟨sampleStart, none⟩ :=
  lineage_kept_iff sampleStart_initial sampleDropped_requested

/-- Where the sample's run ends. -/
def sampleDangling : Catalogued :=
  sampleDropped.foldl (fun w op => w.apply op) ⟨sampleStart, none⟩

/-- **An accepted removal leaves the lineage dangling**: in the sample the
edge's column is in neither the baseline nor the observation, the document
synced last is refused, and the pipeline that reads the column is safe. -/
theorem lineage_dangles :
    Lib.Path Catalogued.apply (fun _ op => (op.Regular fun _ => True) ∧ op.Requested)
      ⟨sampleStart, none⟩ sampleDangling ∧ ¬ sampleDangling.LineageKept ∧
    sampleDangling.document = some sampleCatalog ∧
    syncResult (some sampleCatalog) sampleDangling.db =
      .error (.catalogValidationError "unknown column: public.users.id") ∧
    validateResult "etl" sampleDangling.db =
      .ok { pipelineKey := "etl", safe := true, blockingChanges := [] } ∧
    sampleDangling.db.Endpoint 2 "id" ∧ ¬ sampleDangling.db.HasColumn 2 "id" ∧
    ¬ sampleDangling.db.Observes 2 "id" := by
  have hpath : Lib.Path Catalogued.apply (fun _ op => (op.Regular fun _ => True) ∧ op.Requested)
      ⟨sampleStart, none⟩ sampleDangling :=
    Path.of_events _ fun op hop _ => sampleDropped_requested op hop
  have hend : sampleDangling.db.Endpoint 2 "id" ∧ ¬ sampleDangling.db.HasColumn 2 "id" ∧
      ¬ sampleDangling.db.Observes 2 "id" := by
    decide +kernel
  have hanswers : sampleDangling.document = some sampleCatalog ∧
      syncResult (some sampleCatalog) sampleDangling.db =
        .error (.catalogValidationError "unknown column: public.users.id") ∧
      validateResult "etl" sampleDangling.db =
        .ok { pipelineKey := "etl", safe := true, blockingChanges := [] } := by
    decide +kernel
  obtain ⟨hdocument, hsync, hsafe⟩ := hanswers
  exact ⟨hpath, fun h => hend.2.1 (h.named 2 "id" hend.1), hdocument, hsync, hsafe, hend⟩

end Sample

end SchemaSentry
