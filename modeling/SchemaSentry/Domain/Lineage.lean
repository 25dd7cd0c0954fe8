import SchemaSentry.Lib.Worklist
import SchemaSentry.Domain.Models
import Mathlib.Data.List.Induction
/-!
# Schema Sentry — column lineage

Lineage edges, the graph they make and the pipelines a column's change
reaches. The search is `Lib.Worklist`'s, by pipeline key and downstream
column; what it finds are the ends of chains of edges (`reaches_iff`),
cycles or not.
-/

namespace SchemaSentry

open Lib

structure PipelineDefinition where
  key : String
  airflowDagId : String
  owner : String
  criticality : PipelineCriticality
  deriving DecidableEq, Repr

structure LineageEdge where
  pipeline : PipelineDefinition
  upstream : ColumnRef
  downstream : ColumnRef
  deriving DecidableEq, Repr

structure PipelineImpact where
  pipeline : PipelineDefinition
  downstream : ColumnRef
  path : List LineageEdge
  deriving DecidableEq, Repr

/-- `_CRITICALITY_RANK`. -/
def criticalityRank : PipelineCriticality → ℤ
  | .low => 0
  | .medium => 1
  | .high => 2
  | .critical => 3

/-- The order of the edges out of one column. -/
def edgeSortKey (e : LineageEdge) : String ×ₗ (String ×ₗ (String ×ₗ String)) :=
  toLex (e.pipeline.key,
    toLex (e.downstream.dataset.schema, toLex (e.downstream.dataset.table, e.downstream.name)))

/-- The order of the impacts: the most critical first. -/
def impactSortKey (i : PipelineImpact) : ℤ ×ₗ (String ×ₗ String) :=
  toLex (-criticalityRank i.pipeline.criticality,
    toLex (i.pipeline.key, i.downstream.qualifiedName))

/-- `grouped[edge.upstream].append(edge)`, for each edge in turn. -/
def groupByUpstream (edges : List LineageEdge) : Dict ColumnRef (List LineageEdge) :=
  edges.foldl (fun grouped edge =>
    Dict.insert edge.upstream ((Dict.get? edge.upstream grouped).getD [] ++ [edge]) grouped) []

structure LineageGraph where
  edgesByUpstream : Dict ColumnRef (List LineageEdge)

/-- `LineageGraph(edges)`. -/
def LineageGraph.ofEdges (edges : List LineageEdge) : LineageGraph :=
  { edgesByUpstream := (groupByUpstream edges).map fun item =>
      (item.1, item.2.insertionSort fun a b => edgeSortKey a ≤ edgeSortKey b) }

/-- The search for impacts: an edge is seen by its pipeline's key and its
downstream column, and recorded with the path that ends in it. -/
def LineageGraph.worklist (graph : LineageGraph) :
    Worklist ColumnRef LineageEdge (String × ColumnRef) PipelineImpact where
  out column := (Dict.get? column graph.edgesByUpstream).getD []
  target edge := edge.downstream
  mark edge := (edge.pipeline.key, edge.downstream)
  record edge path := ⟨edge.pipeline, edge.downstream, path⟩

/-- The marks there are, and with them a bound on the rounds of a search. -/
def LineageGraph.marks (graph : LineageGraph) : List (String × ColumnRef) :=
  graph.edgesByUpstream.flatMap fun item => item.2.map graph.worklist.mark

def LineageGraph.impactsForColumns (graph : LineageGraph) (columns : List ColumnRef) :
    List PipelineImpact :=
  let final := graph.worklist.search (columns.length + graph.marks.length)
    (Worklist.start columns)
  (Dict.values final.found).insertionSort fun a b => impactSortKey a ≤ impactSortKey b

def LineageGraph.impacts (graph : LineageGraph) (changes : List SchemaChange) :
    List PipelineImpact :=
  graph.impactsForColumns
    ((changes.filter fun c => c.severity = .breaking).map SchemaChange.ref)

/-! ## The edges out of a column -/

variable {edges : List LineageEdge} {x : ColumnRef} {e : LineageEdge} {k : String}

theorem get?_groupByUpstream :
    (Dict.get? x (groupByUpstream edges)).getD [] = edges.filter fun e => e.upstream = x := by
  have key : ∀ (edges : List LineageEdge) (grouped : Dict ColumnRef (List LineageEdge)),
      (Dict.get? x (edges.foldl (fun grouped edge => Dict.insert edge.upstream
        ((Dict.get? edge.upstream grouped).getD [] ++ [edge]) grouped) grouped)).getD [] =
      (Dict.get? x grouped).getD [] ++ edges.filter fun e => e.upstream = x := by
    intro edges
    induction edges with
    | nil => intro grouped; simp
    | cons edge edges ih =>
      intro grouped
      rw [List.foldl_cons, ih, Dict.get?_insert]
      by_cases h : x = edge.upstream
      · subst h
        simp
      · simp [h, Ne.symm h]
  simpa [groupByUpstream] using key edges []

/-- The edges out of a column are those whose upstream it is. -/
theorem mem_out : e ∈ (LineageGraph.ofEdges edges).worklist.out x ↔
    e ∈ edges ∧ e.upstream = x := by
  have hgroup : (Dict.get? x (groupByUpstream edges)).getD [] =
      edges.filter fun e => e.upstream = x := get?_groupByUpstream
  simp only [LineageGraph.worklist, LineageGraph.ofEdges, Dict.get?_map_snd]
  cases hget : Dict.get? x (groupByUpstream edges) with
  | none =>
    rw [hget, Option.getD_none] at hgroup
    have hmem : e ∉ edges.filter fun e => e.upstream = x := by simp [← hgroup]
    simpa using hmem
  | some es =>
    rw [hget, Option.getD_some] at hgroup
    simp [hgroup]

theorem mark_mem_marks (h : e ∈ (LineageGraph.ofEdges edges).worklist.out x) :
    (LineageGraph.ofEdges edges).worklist.mark e ∈ (LineageGraph.ofEdges edges).marks := by
  simp only [LineageGraph.worklist] at h
  cases hget : Dict.get? x (LineageGraph.ofEdges edges).edgesByUpstream with
  | none => simp [hget] at h
  | some es =>
    rw [hget, Option.getD_some] at h
    exact List.mem_flatMap.2
      ⟨(x, es), Dict.mem_of_get?_eq_some hget, List.mem_map_of_mem h⟩

/-! ## Chains of edges -/

/-- A chain of edges out of a column: each edge's downstream is the next
one's upstream. -/
def ChainFrom (edges : List LineageEdge) : ColumnRef → List LineageEdge → Prop
  | _, [] => True
  | x, e :: rest => e ∈ edges ∧ e.upstream = x ∧ ChainFrom edges e.downstream rest

/-- Some non-empty chain out of the column ends in an edge of the pipeline. -/
def Reaches (edges : List LineageEdge) (x : ColumnRef) (pipelineKey : String) : Prop :=
  ∃ chain last, ChainFrom edges x (chain ++ [last]) ∧ last.pipeline.key = pipelineKey

/-- A chain out of a column starts in one of its edges. -/
theorem Reaches.first (h : Reaches edges x k) : ∃ e ∈ edges, e.upstream = x := by
  obtain ⟨chain, last, hchain, -⟩ := h
  cases chain with
  | nil => exact ⟨last, hchain.1, hchain.2.1⟩
  | cons e rest => exact ⟨e, hchain.1, hchain.2.1⟩

/-- Where a chain out of a column ends. -/
def chainEnd : ColumnRef → List LineageEdge → ColumnRef
  | x, [] => x
  | _, e :: rest => chainEnd e.downstream rest

theorem chainFrom_snoc {chain : List LineageEdge} :
    ChainFrom edges x (chain ++ [e]) ↔
      ChainFrom edges x chain ∧ e ∈ edges ∧ e.upstream = chainEnd x chain := by
  induction chain generalizing x with
  | nil => simp [ChainFrom, chainEnd]
  | cons f chain ih =>
    simp only [List.cons_append, ChainFrom, chainEnd, ih]
    tauto

/-- A chain that reaches a pipeline ends in one of its edges. -/
theorem Reaches.last (h : Reaches edges x k) : ∃ e ∈ edges, e.pipeline.key = k := by
  obtain ⟨chain, last, hchain, hkey⟩ := h
  exact ⟨last, (chainFrom_snoc.1 hchain).2.1, hkey⟩

theorem chainEnd_snoc {chain : List LineageEdge} :
    chainEnd x (chain ++ [e]) = e.downstream := by
  induction chain generalizing x with
  | nil => rfl
  | cons f chain ih => exact ih

/-- The trails of the search are the chains out of the column. -/
theorem trail_iff {chain : List LineageEdge} {y : ColumnRef} :
    (LineageGraph.ofEdges edges).worklist.Trail [x] chain y ↔
      ChainFrom edges x chain ∧ chainEnd x chain = y := by
  constructor
  · intro h
    induction h with
    | nil hstart => exact ⟨trivial, (List.mem_singleton.1 hstart).symm⟩
    | snoc _ hedge ih =>
      obtain ⟨hmem, hup⟩ := mem_out.1 hedge
      exact ⟨chainFrom_snoc.2 ⟨ih.1, hmem, hup.trans ih.2.symm⟩, chainEnd_snoc⟩
  · induction chain using List.reverseRecOn generalizing y with
    | nil =>
      rintro ⟨-, rfl⟩
      exact Worklist.Trail.nil List.mem_cons_self
    | append_singleton chain e ih =>
      rintro ⟨hchain, rfl⟩
      obtain ⟨hinit, hmem, hup⟩ := chainFrom_snoc.1 hchain
      rw [chainEnd_snoc]
      exact (ih ⟨hinit, rfl⟩).snoc (mem_out.2 ⟨hmem, hup⟩)

/-- An impact's pipeline is an edge's. -/
theorem exists_edge_of_impact {columns : List ColumnRef} {impact : PipelineImpact}
    (h : impact ∈ (LineageGraph.ofEdges edges).impactsForColumns columns) :
    ∃ e ∈ edges, e.pipeline = impact.pipeline := by
  have hsound := (Worklist.sound_start (W := (LineageGraph.ofEdges edges).worklist)
    columns).search (columns.length + (LineageGraph.ofEdges edges).marks.length)
  simp only [LineageGraph.impactsForColumns, List.mem_insertionSort] at h
  obtain ⟨item, hitem, rfl⟩ := List.mem_map.1 h
  obtain ⟨path, place, edge, -, hedge, -, hrecord⟩ := hsound.found item hitem
  exact ⟨edge, (mem_out.1 hedge).1, by rw [← hrecord]; rfl⟩

/-- **The impacts of a column are the pipelines its chains end in.** -/
theorem reaches_iff :
    (∃ impact ∈ (LineageGraph.ofEdges edges).impactsForColumns [x], impact.pipeline.key = k) ↔
      Reaches edges x k := by
  have hsound : Worklist.Sound (LineageGraph.ofEdges edges).worklist [x]
      ((LineageGraph.ofEdges edges).worklist.search
        ([x].length + (LineageGraph.ofEdges edges).marks.length) (Worklist.start [x])) :=
    (Worklist.sound_start [x]).search _
  simp only [LineageGraph.impactsForColumns, List.mem_insertionSort]
  constructor
  · rintro ⟨impact, himpact, rfl⟩
    obtain ⟨item, hitem, rfl⟩ := List.mem_map.1 himpact
    obtain ⟨path, place, edge, htrail, hedge, -, hrecord⟩ := hsound.found item hitem
    obtain ⟨hchain, hend⟩ := trail_iff.1 htrail
    obtain ⟨hmem, hup⟩ := mem_out.1 hedge
    exact ⟨path, edge, chainFrom_snoc.2 ⟨hchain, hmem, hup.trans hend.symm⟩, by rw [← hrecord]; rfl⟩
  · rintro ⟨chain, last, hchain, rfl⟩
    obtain ⟨hinit, hmem, hup⟩ := chainFrom_snoc.1 hchain
    have hkey := (Worklist.mem_keys_search (W := (LineageGraph.ofEdges edges).worklist)
      (fun _ _ h => congrArg Prod.snd h) (fun _ _ h => mark_mem_marks h) (Nat.le_refl _)).2
      ⟨chain, chainEnd x chain, last, trail_iff.2 ⟨hinit, rfl⟩, mem_out.2 ⟨hmem, hup⟩, rfl⟩
    obtain ⟨item, hitem, hfst⟩ := List.mem_map.1 hkey
    obtain ⟨path, place, edge, -, -, hmark, hrecord⟩ := hsound.found item hitem
    refine ⟨item.2, List.mem_map_of_mem hitem, ?_⟩
    rw [← hrecord]
    exact congrArg Prod.fst (hmark.trans hfst)

end SchemaSentry
