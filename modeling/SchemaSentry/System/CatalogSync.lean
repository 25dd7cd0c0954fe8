import SchemaSentry.Store.Changes
import SchemaSentry.System.CatalogTables
/-!
# Schema Sentry — what a sync accepts and what it stores

A sync succeeds exactly where the document passes its checks and names
columns of the baseline (`exists_sync_iff`), and then the tables hold the
pipelines declared and, for each, the edges from its inputs to its outputs
(`Synced`).
-/

namespace SchemaSentry

open Lib DbM

/-! ## What a document declares -/

/-- A column that column sets name. -/
def NamesColumn (sets : List ColumnSetConfig) (ref : ColumnRef) : Prop :=
  ∃ c ∈ sets, datasetParts c.dataset = some ref.dataset ∧ ref.name ∈ c.columns

/-- The constraints the document's fields are declared with. -/
structure CatalogConfig.FieldsOk (config : CatalogConfig) : Prop where
  pipelines : config.pipelines ≠ []
  texts : ∀ p ∈ config.pipelines, p.key ≠ "" ∧ p.airflowDagId ≠ "" ∧ p.owner ≠ ""
  sets : ∀ p ∈ config.pipelines, p.inputs ≠ [] ∧ p.outputs ≠ []
  columns : ∀ p ∈ config.pipelines, ∀ c ∈ p.inputs ++ p.outputs, c.columns ≠ []

/-- The texts of the document fit their columns. -/
def CatalogConfig.Fits (config : CatalogConfig) : Prop :=
  ∀ p ∈ config.pipelines, fits 100 p.key ∧ fits 250 p.airflowDagId ∧ fits 200 p.owner

/-- What else a document must meet to be accepted. -/
structure CatalogConfig.Accepted (db : DB) (config : CatalogConfig) : Prop where
  keys : (config.pipelines.map PipelineConfig.key).Nodup
  dags : (config.pipelines.map PipelineConfig.airflowDagId).Nodup
  datasets : ∀ p ∈ config.pipelines, ∀ c ∈ p.inputs ++ p.outputs,
    ∃ ref, datasetParts c.dataset = some ref ∧ ref.schema ≠ "" ∧ ref.table ≠ ""
  once : ∀ p ∈ config.pipelines, ∀ c ∈ p.inputs ++ p.outputs, c.columns.Nodup
  known : ∀ p ∈ config.pipelines, ∀ ref, NamesColumn (p.inputs ++ p.outputs) ref →
    ref ∈ db.knownColumns
  loopless : ∀ p ∈ config.pipelines, ∀ ref, NamesColumn p.inputs ref → ¬ NamesColumn p.outputs ref

/-- An edge the document declares: from an input of a pipeline to one of
its outputs. -/
def CatalogConfig.Declares (config : CatalogConfig) (e : LineageEdge) : Prop :=
  ∃ p ∈ config.pipelines, e.pipeline = p.definition ∧ NamesColumn p.inputs e.upstream ∧
    NamesColumn p.outputs e.downstream

/-- The tables after a sync of the document: its pipelines, and its edges,
each once. -/
structure Synced (db : DB) (config : CatalogConfig) (after : DB) : Prop where
  rest : ∃ pipelines edges next, after = db.withCatalog pipelines edges next
  constraints : after.Constraints
  linked : after.LineageLinked
  pipelines : (after.pipelines.map PipelineModel.definition).Perm
    (config.pipelines.map PipelineConfig.definition)
  lineage : ∀ e, e ∈ after.lineage ↔ config.Declares e

/-- What `sync` returns or raises, run alone. -/
def syncResult (document : Option CatalogConfig) (db : DB) : Except PyException CatalogSyncResult :=
  (exec (sync document) db Session.new).1

variable {db : DB} {config : CatalogConfig} {known : List ColumnRef}

theorem namesColumn_append {xs ys : List ColumnSetConfig} {ref : ColumnRef} :
    NamesColumn (xs ++ ys) ref ↔ NamesColumn xs ref ∨ NamesColumn ys ref := by
  simp only [NamesColumn, List.mem_append, or_and_right, exists_or]

/-! ## The document's checks -/

/-- A document's own checks. -/
theorem valid_iff : config.Valid ↔ config.FieldsOk ∧
    (config.pipelines.map PipelineConfig.key).Nodup ∧
    (config.pipelines.map PipelineConfig.airflowDagId).Nodup ∧
    (∀ p ∈ config.pipelines, ∀ c ∈ p.inputs ++ p.outputs,
      ∃ ref, datasetParts c.dataset = some ref ∧ ref.schema ≠ "" ∧ ref.table ≠ "") ∧
    ∀ p ∈ config.pipelines, ∀ c ∈ p.inputs ++ p.outputs, c.columns.Nodup := by
  have hsets : ∀ p : PipelineConfig, ((∀ c ∈ p.inputs, c.Valid) ∧ ∀ c ∈ p.outputs, c.Valid) ↔
      ∀ c ∈ p.inputs ++ p.outputs, c.Valid := by
    intro p
    simp only [List.mem_append, or_imp, forall_and]
  constructor
  · rintro ⟨hne, hall, hkeys, hdags⟩
    have hvalid : ∀ p ∈ config.pipelines, ∀ c ∈ p.inputs ++ p.outputs, c.Valid := by
      intro p hp
      obtain ⟨-, -, -, -, -, hsets'⟩ := hall p hp
      exact (hsets p).1 hsets'
    refine ⟨⟨hne, fun p hp => ?_, fun p hp => ?_, fun p hp c hc => (hvalid p hp c hc).2.1⟩, hkeys,
      hdags, fun p hp c hc => ?_, fun p hp c hc => (hvalid p hp c hc).2.2⟩
    · obtain ⟨hkey, hdag, howner, -⟩ := hall p hp
      exact ⟨hkey, hdag, howner⟩
    · obtain ⟨-, -, -, hin, hout, -⟩ := hall p hp
      exact ⟨hin, hout⟩
    · obtain ⟨ref, hparts, hnames⟩ := (hvalid p hp c hc).1
      exact ⟨ref, hparts, hnames⟩
  · rintro ⟨⟨hne, htexts, hio, hcolumns⟩, hkeys, hdags, hdatasets, honce⟩
    refine ⟨hne, fun p hp => ?_, hkeys, hdags⟩
    obtain ⟨hkey, hdag, howner⟩ := htexts p hp
    obtain ⟨hin, hout⟩ := hio p hp
    refine ⟨hkey, hdag, howner, hin, hout, (hsets p).2 fun c hc => ?_⟩
    obtain ⟨ref, hparts, hnames⟩ := hdatasets p hp c hc
    exact ⟨⟨ref, hparts, hnames⟩, hcolumns p hp c hc, honce p hp c hc⟩

/-! ## The columns -/

/-- One column set's columns, where all are known. -/
theorem columnRefsOf_ok {dataset : DatasetRef} {names : List String} {refs : List ColumnRef} :
    columnRefsOf known dataset names = .ok refs ↔
      refs = names.map (ColumnRef.mk dataset) ∧ ∀ name ∈ names, ⟨dataset, name⟩ ∈ known := by
  induction names generalizing refs with
  | nil => simp [columnRefsOf, eq_comm]
  | cons name rest ih =>
    simp only [columnRefsOf]
    by_cases hknown : (⟨dataset, name⟩ : ColumnRef) ∈ known
    · rw [if_pos hknown, except_bind_ok]
      constructor
      · rintro ⟨others, hothers, heq⟩
        cases heq
        obtain ⟨rfl, hall⟩ := ih.1 hothers
        exact ⟨rfl, List.forall_mem_cons.2 ⟨hknown, hall⟩⟩
      · rintro ⟨rfl, hall⟩
        exact ⟨_, ih.2 ⟨rfl, (List.forall_mem_cons.1 hall).2⟩, rfl⟩
    · rw [if_neg hknown]
      refine ⟨fun h => (nomatch h), fun h => absurd ?_ hknown⟩
      exact h.2 name List.mem_cons_self

/-- **The columns of column sets** are those they name, all of them known. -/
theorem columnRefs_ok {sets : List ColumnSetConfig} {refs : List ColumnRef}
    (h : columnRefs known sets = .ok refs) :
    (∀ ref, ref ∈ refs ↔ NamesColumn sets ref) ∧ ∀ ref ∈ refs, ref ∈ known := by
  induction sets generalizing refs with
  | nil =>
    cases h
    exact ⟨fun ref => by simp [NamesColumn], fun ref hr => nomatch hr⟩
  | cons c rest ih =>
    unfold columnRefs at h
    obtain ⟨dataset, hparts, mine, hmine, others, hothers, heq⟩ :
        ∃ dataset, datasetParts c.dataset = some dataset ∧
          ∃ mine, columnRefsOf known dataset c.columns = .ok mine ∧
          ∃ others, columnRefs known rest = .ok others ∧
            (pure (mine ++ others) : Except PyException (List ColumnRef)) = .ok refs := by
      cases hparts : datasetParts c.dataset with
      | none =>
        rw [hparts] at h
        cases h
      | some dataset =>
        simp only [hparts, except_bind_ok] at h
        obtain ⟨_, hok, hrest⟩ := h
        cases hok
        exact ⟨dataset, rfl, hrest⟩
    cases heq
    obtain ⟨rfl, hknown⟩ := columnRefsOf_ok.1 hmine
    obtain ⟨hmem, hall⟩ := ih hothers
    refine ⟨fun ref => ?_, fun ref hr => ?_⟩
    · rw [List.mem_append, hmem, List.mem_map]
      constructor
      · rintro (⟨name, hname, rfl⟩ | ⟨c', hc', hrest⟩)
        · exact ⟨c, List.mem_cons_self, hparts, hname⟩
        · exact ⟨c', List.mem_cons_of_mem _ hc', hrest⟩
      · rintro ⟨c', hc', href, hname⟩
        rcases List.mem_cons.1 hc' with rfl | hc'
        · rw [hparts] at href
          exact Or.inl ⟨ref.name, hname, by rw [Option.some.inj href]⟩
        · exact Or.inr ⟨c', hc', href, hname⟩
    · rcases List.mem_append.1 hr with hr | hr
      · obtain ⟨name, hname, rfl⟩ := List.mem_map.1 hr
        exact hknown name hname
      · exact hall ref hr

theorem exists_columnRefs {sets : List ColumnSetConfig}
    (hparts : ∀ c ∈ sets, ∃ ref, datasetParts c.dataset = some ref)
    (hknown : ∀ ref, NamesColumn sets ref → ref ∈ known) :
    ∃ refs, columnRefs known sets = .ok refs := by
  induction sets with
  | nil => exact ⟨[], rfl⟩
  | cons c rest ih =>
    obtain ⟨dataset, hc⟩ := hparts c List.mem_cons_self
    have hmine : columnRefsOf known dataset c.columns =
        .ok (c.columns.map (ColumnRef.mk dataset)) :=
      columnRefsOf_ok.2 ⟨rfl, fun name hname => hknown _ ⟨c, List.mem_cons_self, hc, hname⟩⟩
    obtain ⟨others, hothers⟩ := ih (fun c' hc' => hparts c' (List.mem_cons_of_mem _ hc'))
      fun ref ⟨c', hc', hrest⟩ => hknown ref ⟨c', List.mem_cons_of_mem _ hc', hrest⟩
    refine ⟨c.columns.map (ColumnRef.mk dataset) ++ others, ?_⟩
    unfold columnRefs
    simp only [hc, except_bind_ok]
    exact ⟨dataset, rfl, _, hmine, others, hothers, rfl⟩

/-! ## The edges -/

/-- **One pipeline's edges** lead from its inputs to its outputs. -/
theorem pipelineEdges_ok {p : PipelineConfig} {edges : List LineageEdge}
    (h : pipelineEdges known p = .ok edges) :
    (∀ e, e ∈ edges ↔ e.pipeline = p.definition ∧ NamesColumn p.inputs e.upstream ∧
      NamesColumn p.outputs e.downstream) ∧
    (∀ ref, NamesColumn (p.inputs ++ p.outputs) ref → ref ∈ known) ∧
    ∀ ref, NamesColumn p.inputs ref → ¬ NamesColumn p.outputs ref := by
  simp only [pipelineEdges, except_bind_ok] at h
  obtain ⟨inputs, hin, outputs, hout, hedges⟩ := h
  obtain ⟨hmem, hknown⟩ := columnRefs_ok hin
  obtain ⟨hmem', hknown'⟩ := columnRefs_ok hout
  split at hedges
  · cases hedges
  · rename_i hnone
    cases hedges
    rw [List.find?_eq_none] at hnone
    refine ⟨fun e => ?_, fun ref href => ?_, fun ref hr hr' => ?_⟩
    · simp only [List.mem_flatMap, List.mem_map, ← hmem, ← hmem']
      constructor
      · rintro ⟨up, hup, down, hdown, rfl⟩
        exact ⟨rfl, hup, hdown⟩
      · rintro ⟨hpipe, hup, hdown⟩
        exact ⟨e.upstream, hup, e.downstream, hdown, by rw [← hpipe]⟩
    · rcases namesColumn_append.1 href with hr | hr
      · exact hknown ref ((hmem ref).2 hr)
      · exact hknown' ref ((hmem' ref).2 hr)
    · exact hnone ref ((hmem ref).2 hr) (decide_eq_true ((hmem' ref).2 hr'))

theorem exists_pipelineEdges {p : PipelineConfig}
    (hparts : ∀ c ∈ p.inputs ++ p.outputs, ∃ ref, datasetParts c.dataset = some ref)
    (hknown : ∀ ref, NamesColumn (p.inputs ++ p.outputs) ref → ref ∈ known)
    (hloopless : ∀ ref, NamesColumn p.inputs ref → ¬ NamesColumn p.outputs ref) :
    ∃ edges, pipelineEdges known p = .ok edges := by
  obtain ⟨inputs, hin⟩ := exists_columnRefs (fun c hc => hparts c (List.mem_append_left _ hc))
    fun ref hr => hknown ref (namesColumn_append.2 (Or.inl hr))
  obtain ⟨outputs, hout⟩ := exists_columnRefs (fun c hc => hparts c (List.mem_append_right _ hc))
    fun ref hr => hknown ref (namesColumn_append.2 (Or.inr hr))
  have hnone : inputs.find? (fun upstream => upstream ∈ outputs) = none := by
    rw [List.find?_eq_none]
    intro ref hr hr'
    exact hloopless ref (((columnRefs_ok hin).1 ref).1 hr)
      (((columnRefs_ok hout).1 ref).1 (of_decide_eq_true hr'))
  refine ⟨inputs.flatMap fun upstream => outputs.map fun downstream =>
    { pipeline := p.definition, upstream := upstream, downstream := downstream }, ?_⟩
  simp only [pipelineEdges, except_bind_ok]
  refine ⟨inputs, hin, outputs, hout, ?_⟩
  rw [hnone]
  rfl

/-- A document that passes its checks has the edges it declares. -/
theorem mem_orderedEdges {edges : List (List LineageEdge)}
    (h : config.pipelines.mapM (pipelineEdges known) = .ok edges) {e : LineageEdge} :
    e ∈ orderedEdges edges ↔ config.Declares e := by
  have hall := mapM_ok_iff.1 h
  simp only [orderedEdges, List.mem_insertionSort, List.mem_dedup, List.mem_flatten]
  constructor
  · rintro ⟨es, hes, he⟩
    obtain ⟨p, hp, hok⟩ := exists_left_of_forall₂ hall hes
    exact ⟨p, hp, ((pipelineEdges_ok hok).1 e).1 he⟩
  · rintro ⟨p, hp, hdeclares⟩
    obtain ⟨es, hes, hok⟩ := exists_right_of_forall₂ hall hp
    exact ⟨es, hes, ((pipelineEdges_ok hok).1 e).2 hdeclares⟩

theorem nodup_orderedEdges (edges : List (List LineageEdge)) : (orderedEdges edges).Nodup :=
  (List.perm_insertionSort _ _).nodup_iff.2 (List.nodup_dedup _)

/-! ## The rows -/

theorem map_definition_pipelineRows (next : Uuid) (pipelines : List PipelineDefinition) :
    (pipelineRows next pipelines).map PipelineModel.definition = pipelines := by
  induction pipelines generalizing next with
  | nil => rfl
  | cons p rest ih =>
    rw [pipelineRows_cons, List.map_cons, ih]
    rfl

/-- The rows stored are the pipelines declared. -/
theorem perm_rows (config : CatalogConfig) (db : DB) :
    ((config.rows db).map PipelineModel.definition).Perm
      (config.pipelines.map PipelineConfig.definition) := by
  rw [CatalogConfig.rows, map_definition_pipelineRows]
  exact List.perm_insertionSort _ _

/-- What is distinct of the pipelines declared is distinct of their rows. -/
theorem nodup_rows {f : PipelineDefinition → String}
    (h : (config.pipelines.map fun p => f p.definition).Nodup) :
    ((config.rows db).map fun m => f m.definition).Nodup := by
  have hperm := (perm_rows config db).map f
  rw [List.map_map, List.map_map] at hperm
  exact hperm.nodup_iff.2 h

/-- The row of a declared pipeline's key is the row of that pipeline. -/
theorem definition_of_key (hkeys : (config.pipelines.map PipelineConfig.key).Nodup)
    {m : PipelineModel} (hm : m ∈ config.rows db) {p : PipelineConfig}
    (hp : p ∈ config.pipelines) (hkey : m.key = p.key) : m.definition = p.definition := by
  obtain ⟨q, hq, heq⟩ := List.mem_map.1 ((perm_rows config db).mem_iff.1 (List.mem_map_of_mem hm))
  have hqp : q.key = p.key := (congrArg PipelineDefinition.key heq).trans hkey
  rw [← heq, eq_of_nodup_map hkeys hq hp hqp]

/-- **Rows that refer to the same rows are of one edge.** -/
theorem EdgeRow.unique (hl : db.Linked)
    (hkeys : (config.pipelines.map PipelineConfig.key).Nodup) {edge edge' : LineageEdge}
    {row row' : LineageEdgeModel} (h : EdgeRow (config.rows db) db edge row)
    (h' : EdgeRow (config.rows db) db edge' row') (hd : config.Declares edge)
    (hd' : config.Declares edge') (hid : row.identity = row'.identity) : edge = edge' := by
  simp only [LineageEdgeModel.identity, Prod.mk.injEq] at hid
  obtain ⟨hpid, hupid, hupcol, hdownid, hdowncol⟩ := hid
  obtain ⟨m, hm, hmkey, hmid⟩ := h.pipeline
  obtain ⟨m', hm', hmkey', hmid'⟩ := h'.pipeline
  obtain ⟨u, hu, huref, huid⟩ := h.upstream
  obtain ⟨u', hu', huref', huid'⟩ := h'.upstream
  obtain ⟨d, hdm, hdref, hdid⟩ := h.downstream
  obtain ⟨d', hdm', hdref', hdid'⟩ := h'.downstream
  obtain rfl : m = m' := eq_of_nodup_map (nodup_pipelineRows _ _) hm hm'
    (hmid.trans (hpid.trans hmid'.symm))
  obtain rfl : u = u' := eq_of_nodup_map hl.datasetIds hu hu' (huid.trans (hupid.trans huid'.symm))
  obtain rfl : d = d' := eq_of_nodup_map hl.datasetIds hdm hdm'
    (hdid.trans (hdownid.trans hdid'.symm))
  obtain ⟨p, hp, hpipe, -, -⟩ := hd
  obtain ⟨p', hp', hpipe', -, -⟩ := hd'
  have hkey : p.key = p'.key := by
    have hp₁ : m.key = p.key := hmkey.trans (congrArg PipelineDefinition.key hpipe)
    have hp₂ : m.key = p'.key := hmkey'.trans (congrArg PipelineDefinition.key hpipe')
    exact hp₁.symm.trans hp₂
  obtain rfl : p = p' := eq_of_nodup_map hkeys hp hp' hkey
  have hup : edge.upstream = edge'.upstream := by
    have hname : edge.upstream.name = edge'.upstream.name :=
      h.upstreamColumn.symm.trans (hupcol.trans h'.upstreamColumn)
    exact congrArg₂ ColumnRef.mk (huref.symm.trans huref') hname
  have hdown : edge.downstream = edge'.downstream := by
    have hname : edge.downstream.name = edge'.downstream.name :=
      h.downstreamColumn.symm.trans (hdowncol.trans h'.downstreamColumn)
    exact congrArg₂ ColumnRef.mk (hdref.symm.trans hdref') hname
  calc edge = ⟨edge.pipeline, edge.upstream, edge.downstream⟩ := rfl
    _ = ⟨edge'.pipeline, edge'.upstream, edge'.downstream⟩ := by rw [hpipe, hpipe', hup, hdown]

/-- The graph's edge of an edge's row is the edge. -/
theorem EdgeRow.mem_lineage_iff (hl : db.Linked)
    (hkeys : (config.pipelines.map PipelineConfig.key).Nodup) {edge e : LineageEdge}
    {row : LineageEdgeModel} (h : EdgeRow (config.rows db) db edge row)
    (hd : config.Declares edge) : e = edge ↔ ∃ p ∈ config.rows db, ∃ up ∈ db.datasets,
      ∃ down ∈ db.datasets, p.id = row.pipelineId ∧ up.id = row.upstreamDatasetId ∧
        down.id = row.downstreamDatasetId ∧ e.pipeline = p.definition ∧
        e.upstream = ⟨up.ref, row.upstreamColumn⟩ ∧
        e.downstream = ⟨down.ref, row.downstreamColumn⟩ := by
  obtain ⟨m, hm, hmkey, hmid⟩ := h.pipeline
  obtain ⟨u, hu, huref, huid⟩ := h.upstream
  obtain ⟨d, hdm, hdref, hdid⟩ := h.downstream
  obtain ⟨p, hp, hpipe, -, -⟩ := hd
  have hdef : m.definition = edge.pipeline := by
    rw [hpipe]
    exact definition_of_key hkeys hm hp (hmkey.trans (congrArg PipelineDefinition.key hpipe))
  have hup : edge.upstream = ⟨u.ref, row.upstreamColumn⟩ := by
    rw [huref, h.upstreamColumn]
  have hdown : edge.downstream = ⟨d.ref, row.downstreamColumn⟩ := by
    rw [hdref, h.downstreamColumn]
  constructor
  · rintro rfl
    exact ⟨m, hm, u, hu, d, hdm, hmid, huid, hdid, hdef.symm, hup, hdown⟩
  · rintro ⟨m', hm', u', hu', d', hdm', hmid', huid', hdid', hepipe, heup, hedown⟩
    obtain rfl : m' = m := eq_of_nodup_map (nodup_pipelineRows _ _) hm' hm
      (hmid'.trans hmid.symm)
    obtain rfl : u' = u := eq_of_nodup_map hl.datasetIds hu' hu (huid'.trans huid.symm)
    obtain rfl : d' = d := eq_of_nodup_map hl.datasetIds hdm' hdm (hdid'.trans hdid.symm)
    calc e = ⟨e.pipeline, e.upstream, e.downstream⟩ := rfl
      _ = ⟨edge.pipeline, edge.upstream, edge.downstream⟩ := by
        rw [hepipe, heup, hedown, hdef, hup, hdown]

section Computed

variable {edges : List (List LineageEdge)} {rows : List LineageEdgeModel}

/-- Each declared edge has its row, and each row its edge. -/
theorem Computes.edgeRows (h : Computes db config edges rows) :
    List.Forall₂ (fun edge row => config.Declares edge ∧ EdgeRow (config.rows db) db edge row)
      (orderedEdges edges) rows :=
  (List.forall₂_and_left _ _).2 ⟨fun _ he => (mem_orderedEdges h.edgesOf).1 he,
    (mapM_ok_iff.1 h.rowsOf).imp fun _ _ hok => edgeRow_ok hok⟩

/-- **The stored lineage is the declared one.** -/
theorem Computes.mem_lineage (h : Computes db config edges rows) (hl : db.Linked)
    {e : LineageEdge} : e ∈ (db.replaced config rows).lineage ↔ config.Declares e := by
  have hkeys : (config.pipelines.map PipelineConfig.key).Nodup := (valid_iff.1 h.valid).2.1
  rw [SchemaSentry.mem_lineage]
  constructor
  · rintro ⟨row, hrow, hrest⟩
    obtain ⟨edge, -, hd, hedge⟩ := exists_left_of_forall₂ h.edgeRows hrow
    rw [(hedge.mem_lineage_iff hl hkeys hd).2 hrest]
    exact hd
  · intro hd
    obtain ⟨row, hrow, -, hedge⟩ :=
      exists_right_of_forall₂ h.edgeRows ((mem_orderedEdges h.edgesOf).2 hd)
    exact ⟨row, hrow, (hedge.mem_lineage_iff hl hkeys hd).1 rfl⟩

/-- What is computed only of documents that are accepted. -/
theorem Computes.accepted (h : Computes db config edges rows) :
    config.FieldsOk ∧ config.Accepted db := by
  obtain ⟨hfields, hkeys, hdags, hdatasets, honce⟩ := valid_iff.1 h.valid
  have hpipeline : ∀ p ∈ config.pipelines, ∃ es, pipelineEdges db.knownColumns p = .ok es := by
    intro p hp
    obtain ⟨es, -, hok⟩ := exists_right_of_forall₂ (mapM_ok_iff.1 h.edgesOf) hp
    exact ⟨es, hok⟩
  refine ⟨hfields, hkeys, hdags, hdatasets, honce, fun p hp => ?_, fun p hp => ?_⟩
  · obtain ⟨es, hok⟩ := hpipeline p hp
    exact (pipelineEdges_ok hok).2.1
  · obtain ⟨es, hok⟩ := hpipeline p hp
    exact (pipelineEdges_ok hok).2.2

/-- The tables allow the document's catalog, where they allow its rows. -/
theorem constraints_replaced (hc : db.Constraints)
    (hkeys : (config.pipelines.map PipelineConfig.key).Nodup)
    (hdags : (config.pipelines.map PipelineConfig.airflowDagId).Nodup) (hfits : config.Fits)
    (hrows : (rows.map LineageEdgeModel.identity).Nodup)
    (hlengths : ∀ e ∈ rows, fits 63 e.upstreamColumn ∧ fits 63 e.downstreamColumn) :
    (db.replaced config rows).Constraints := by
  refine { hc with
    pipelineKey := nodup_rows (f := PipelineDefinition.key) hkeys
    pipelineDag := nodup_rows (f := PipelineDefinition.airflowDagId) hdags
    lineageEdgeIdentity := hrows
    pipelineLengths := fun m hm => ?_
    lineageLengths := hlengths }
  obtain ⟨p, hp, heq⟩ := List.mem_map.1
    ((perm_rows config db).mem_iff.1 (List.mem_map_of_mem hm))
  have hmkey : p.key = m.key := congrArg PipelineDefinition.key heq
  have hmdag : p.airflowDagId = m.airflowDagId := congrArg PipelineDefinition.airflowDagId heq
  have hmowner : p.owner = m.owner := congrArg PipelineDefinition.owner heq
  rw [← hmkey, ← hmdag, ← hmowner]
  exact hfits p hp

end Computed

/-! ## When a sync succeeds -/

theorem fits_of_known (hc : db.Constraints) {ref : ColumnRef} (h : ref ∈ db.knownColumns) :
    fits 63 ref.name ∧ ∃ d ∈ db.datasets, d.ref = ref.dataset := by
  simp only [DB.knownColumns, List.mem_flatMap, List.mem_map, List.mem_filter] at h
  obtain ⟨column, hcolumn, d, ⟨hd, -⟩, rfl⟩ := h
  exact ⟨(hc.expectedLengths column hcolumn).1, d, hd, rfl⟩

/-- An accepted document's rows can be computed and stored. -/
theorem exists_computes (hc : db.Constraints) (hl : db.Linked) (hfields : config.FieldsOk)
    (hfits : config.Fits) (haccepted : config.Accepted db) :
    ∃ edges rows, Computes db config edges rows ∧ (db.replaced config rows).Constraints := by
  have hvalid : config.Valid := valid_iff.2
    ⟨hfields, haccepted.keys, haccepted.dags, haccepted.datasets, haccepted.once⟩
  have hpipeline : ∀ p ∈ config.pipelines, ∃ es, pipelineEdges db.knownColumns p = .ok es := by
    intro p hp
    exact exists_pipelineEdges
      (fun c hcm => (haccepted.datasets p hp c hcm).imp fun _ h => h.1) (haccepted.known p hp)
      (haccepted.loopless p hp)
  obtain ⟨edges, hedges, -⟩ := mapM_ok hpipeline
  have hknown : ∀ edge ∈ orderedEdges edges, ∃ p ∈ config.pipelines,
      edge.pipeline = p.definition ∧ edge.upstream ∈ db.knownColumns ∧
        edge.downstream ∈ db.knownColumns := by
    intro edge hedge
    obtain ⟨p, hp, hpipe, hup, hdown⟩ := (mem_orderedEdges hedges).1 hedge
    exact ⟨p, hp, hpipe, haccepted.known p hp _ (namesColumn_append.2 (Or.inl hup)),
      haccepted.known p hp _ (namesColumn_append.2 (Or.inr hdown))⟩
  have hrow : ∀ edge ∈ orderedEdges edges, ∃ row, edgeRow (Dict.ofItems
      ((config.rows db).map fun m => (m.key, m))) db.allDatasetsByRef edge = .ok row := by
    intro edge hedge
    obtain ⟨p, hp, hpipe, hup, hdown⟩ := hknown edge hedge
    refine exists_edgeRow ?_ (fits_of_known hc hup).2 (fits_of_known hc hdown).2
    obtain ⟨m, hm, heq⟩ := List.mem_map.1
      ((perm_rows config db).mem_iff.2 (List.mem_map_of_mem hp))
    exact ⟨m, hm, by rw [hpipe, ← heq]; rfl⟩
  obtain ⟨rows, hrows, -⟩ := mapM_ok hrow
  have hcomputes : Computes db config edges rows := ⟨hvalid, hedges, hrows⟩
  refine ⟨edges, rows, hcomputes, constraints_replaced hc haccepted.keys haccepted.dags hfits ?_
    fun row hrow => ?_⟩
  · refine nodup_map_of_forall₂ (f := id) hcomputes.edgeRows ?_
      fun edge row edge' row' hrow hrow' hid =>
        hrow.2.unique hl haccepted.keys hrow'.2 hrow.1 hrow'.1 hid
    rw [List.map_id]
    exact nodup_orderedEdges edges
  · obtain ⟨edge, hedge, -, hrow'⟩ := exists_left_of_forall₂ hcomputes.edgeRows hrow
    obtain ⟨-, -, -, hup, hdown⟩ := hknown edge hedge
    rw [hrow'.upstreamColumn, hrow'.downstreamColumn]
    exact ⟨(fits_of_known hc hup).1, (fits_of_known hc hdown).1⟩

/-- What a sync that succeeds has computed and stored. -/
theorem computes_of_ok {r : CatalogSyncResult} (h : syncResult (some config) db = .ok r) :
    ∃ edges rows, Computes db config edges rows ∧ (db.replaced config rows).Constraints ∧
      syncCatalog (some config) db = db.replaced config rows := by
  obtain ⟨t, ht⟩ : ∃ t, Returns (sync (some config)) db Session.new r t :=
    ⟨_, Prod.ext h rfl⟩
  obtain ⟨config', edges, rows, hsome, hcomputes, hpending, hreplaced⟩ := returns_sync ht
  cases hsome
  refine ⟨edges, rows, hcomputes, hreplaced, ?_⟩
  rw [syncCatalog, ht]
  exact hpending

/-- **A sync succeeds exactly where the document is accepted**: its fields
meet their constraints, its texts fit, and it passes the checks. -/
theorem exists_sync_iff (hc : db.Constraints) (hl : db.Linked) :
    (∃ r, syncResult (some config) db = .ok r) ↔
      config.FieldsOk ∧ config.Fits ∧ config.Accepted db := by
  constructor
  · rintro ⟨r, hr⟩
    obtain ⟨edges, rows, hcomputes, hreplaced, -⟩ := computes_of_ok hr
    obtain ⟨hfields, haccepted⟩ := hcomputes.accepted
    refine ⟨hfields, fun p hp => ?_, haccepted⟩
    obtain ⟨m, hm, heq⟩ := List.mem_map.1
      ((perm_rows config db).mem_iff.2 (List.mem_map_of_mem hp))
    have hlengths := hreplaced.pipelineLengths m hm
    have hkey : m.key = p.key := congrArg PipelineDefinition.key heq
    have hdag : m.airflowDagId = p.airflowDagId := congrArg PipelineDefinition.airflowDagId heq
    have howner : m.owner = p.owner := congrArg PipelineDefinition.owner heq
    rw [← hkey, ← hdag, ← howner]
    exact hlengths
  · rintro ⟨hfields, hfits, haccepted⟩
    obtain ⟨edges, rows, hcomputes, hreplaced⟩ := exists_computes hc hl hfields hfits haccepted
    have hclear : db.clearCatalog.Constraints :=
      { hc with
        pipelineKey := List.nodup_nil
        pipelineDag := List.nodup_nil
        lineageEdgeIdentity := List.nodup_nil
        pipelineLengths := fun _ h => nomatch h
        lineageLengths := fun _ h => nomatch h }
    have hpipelines : (db.replaced config []).Constraints :=
      { hreplaced with
        lineageEdgeIdentity := List.nodup_nil
        lineageLengths := fun _ h => nomatch h }
    obtain ⟨r, t, ht⟩ := hcomputes.exists_returns hc hclear hpipelines hreplaced
    exact ⟨r, congrArg Prod.fst ht⟩

/-- **What a sync that succeeds leaves.** -/
theorem synced_of_ok (hl : db.Linked) {r : CatalogSyncResult}
    (h : syncResult (some config) db = .ok r) :
    Synced db config (syncCatalog (some config) db) := by
  obtain ⟨edges, rows, hcomputes, hreplaced, hsync⟩ := computes_of_ok h
  rw [hsync]
  exact ⟨⟨_, _, _, rfl⟩, hreplaced, hcomputes.linked, perm_rows config db,
    fun e => hcomputes.mem_lineage hl⟩

/-- A sync that raises leaves the tables alone. -/
theorem syncCatalog_of_error {document : Option CatalogConfig} {e : PyException}
    (h : syncResult document db = .error e) : syncCatalog document db = db := by
  unfold syncResult at h
  unfold syncCatalog
  rcases hexec : exec (sync document) db Session.new with ⟨e' | r, t⟩
  · rfl
  · rw [hexec] at h
    cases h

end SchemaSentry
