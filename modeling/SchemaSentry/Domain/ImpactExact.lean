import SchemaSentry.Domain.Lineage
import SchemaSentry.Lib.Sorted
import SchemaSentry.Lib.Rows
import Mathlib.Logic.Relation
/-!
# Schema Sentry — impacts are reachability

What `impacts_for_columns` returns of any list of edges: one impact for
every pipeline and column that a chain of edges leads to
(`impacts_exact`), each with a chain as short as any (`paths_shortest`).
Which rows the edges and the columns came in does not show
(`impacts_order_free`).
-/

namespace SchemaSentry

open Lib

variable {edges edges' : List LineageEdge} {columns columns' : List ColumnRef}
variable {x y : ColumnRef} {key : String}

/-! ## Chains and reachability -/

/-- Some edge leads from one column to the other. -/
def Feeds (edges : List LineageEdge) (x y : ColumnRef) : Prop :=
  ∃ e ∈ edges, e.upstream = x ∧ e.downstream = y

/-- An edge of the pipeline into the column has one of the columns
upstream, directly or through a chain of edges. -/
def Affected (edges : List LineageEdge) (columns : List ColumnRef) (pipelineKey : String)
    (downstream : ColumnRef) : Prop :=
  ∃ e ∈ edges, e.pipeline.key = pipelineKey ∧ e.downstream = downstream ∧
    ∃ x ∈ columns, Relation.ReflTransGen (Feeds edges) x e.upstream

theorem reflTransGen_feeds_iff :
    Relation.ReflTransGen (Feeds edges) x y ↔
      ∃ chain, ChainFrom edges x chain ∧ chainEnd x chain = y := by
  constructor
  · intro h
    induction h with
    | refl => exact ⟨[], True.intro, rfl⟩
    | tail _ hstep ih =>
      obtain ⟨chain, hchain, hend⟩ := ih
      obtain ⟨e, he, hup, rfl⟩ := hstep
      exact ⟨chain ++ [e], chainFrom_snoc.2 ⟨hchain, he, hup.trans hend.symm⟩, chainEnd_snoc⟩
  · rintro ⟨chain, hchain, rfl⟩
    induction chain generalizing x with
    | nil => exact .refl
    | cons e chain ih =>
      obtain ⟨he, hup, hrest⟩ := hchain
      exact .head ⟨e, he, hup, rfl⟩ (ih hrest)

/-- The trails of a search are the chains out of its columns. -/
theorem trail_iff_exists {chain : List LineageEdge} :
    (LineageGraph.ofEdges edges).worklist.Trail columns chain y ↔
      ∃ x ∈ columns, ChainFrom edges x chain ∧ chainEnd x chain = y := by
  constructor
  · intro h
    induction h with
    | nil hstart => exact ⟨_, hstart, True.intro, rfl⟩
    | snoc _ hedge ih =>
      obtain ⟨x, hx, hchain, hend⟩ := ih
      obtain ⟨hmem, hup⟩ := mem_out.1 hedge
      exact ⟨x, hx, chainFrom_snoc.2 ⟨hchain, hmem, hup.trans hend.symm⟩, chainEnd_snoc⟩
  · rintro ⟨x, hx, hchain⟩
    have htrail := trail_iff.2 hchain
    clear hchain
    induction htrail with
    | nil hstart => exact .nil (List.mem_singleton.1 hstart ▸ hx)
    | snoc _ hedge ih => exact ih.snoc hedge

theorem affected_iff : Affected edges columns key y ↔
    ∃ path place edge, (LineageGraph.ofEdges edges).worklist.Trail columns path place ∧
      edge ∈ (LineageGraph.ofEdges edges).worklist.out place ∧
      (LineageGraph.ofEdges edges).worklist.mark edge = (key, y) := by
  constructor
  · rintro ⟨e, he, rfl, rfl, x, hx, hreach⟩
    obtain ⟨chain, hchain⟩ := reflTransGen_feeds_iff.1 hreach
    exact ⟨chain, e.upstream, e, trail_iff_exists.2 ⟨x, hx, hchain⟩, mem_out.2 ⟨he, rfl⟩, rfl⟩
  · rintro ⟨path, place, edge, htrail, hedge, hmark⟩
    obtain ⟨x, hx, hchain⟩ := trail_iff_exists.1 htrail
    obtain ⟨hmem, rfl⟩ := mem_out.1 hedge
    obtain ⟨hkey, hdown⟩ := Prod.mk.inj hmark
    exact ⟨edge, hmem, hkey, hdown, x, hx, reflTransGen_feeds_iff.2 ⟨path, hchain⟩⟩

/-! ## The search to its end -/

/-- The state the search for impacts ends in. -/
def LineageGraph.final (graph : LineageGraph) (columns : List ColumnRef) :
    Worklist.State ColumnRef LineageEdge (String × ColumnRef) PipelineImpact :=
  graph.worklist.search (columns.length + graph.marks.length) (Worklist.start columns)

theorem mem_impactsForColumns {impact : PipelineImpact} :
    impact ∈ (LineageGraph.ofEdges edges).impactsForColumns columns ↔
      ∃ item ∈ ((LineageGraph.ofEdges edges).final columns).found, item.2 = impact := by
  simp only [LineageGraph.impactsForColumns, List.mem_insertionSort, Dict.values, List.mem_map]
  rfl

theorem sound_final : Worklist.Sound (LineageGraph.ofEdges edges).worklist columns
    ((LineageGraph.ofEdges edges).final columns) :=
  (Worklist.sound_start columns).search _

/-- An impact is recorded under its own pipeline and column. -/
theorem mark_of_mem_found {item : (String × ColumnRef) × PipelineImpact}
    (h : item ∈ ((LineageGraph.ofEdges edges).final columns).found) :
    item.1 = (item.2.pipeline.key, item.2.downstream) := by
  obtain ⟨path, place, edge, -, -, hmark, hrecord⟩ := sound_final.found item h
  rw [← hmark, ← hrecord]
  rfl

/-- The rounds given empty the queue. -/
theorem queue_final : ((LineageGraph.ofEdges edges).final columns).queue = [] :=
  Worklist.queue_search (fun _ _ h => mark_mem_marks h)
    (by simp [Worklist.bound, Worklist.start])

/-- **The search terminates**: after the rounds given its queue is empty,
and no number of further rounds changes its state. -/
theorem search_eq_final {rounds : ℕ}
    (h : columns.length + (LineageGraph.ofEdges edges).marks.length ≤ rounds) :
    (LineageGraph.ofEdges edges).worklist.search rounds (Worklist.start columns) =
      (LineageGraph.ofEdges edges).final columns :=
  Worklist.search_of_le queue_final h

theorem nodup_pairs : (((LineageGraph.ofEdges edges).impactsForColumns columns).map fun i =>
    (i.pipeline.key, i.downstream)).Nodup := by
  have hsorted := (List.perm_insertionSort (fun a b => impactSortKey a ≤ impactSortKey b)
    (Dict.values ((LineageGraph.ofEdges edges).final columns).found)).map
      fun i : PipelineImpact => (i.pipeline.key, i.downstream)
  refine hsorted.nodup_iff.2 ?_
  have hkeys : (Dict.values ((LineageGraph.ofEdges edges).final columns).found).map
        (fun i : PipelineImpact => (i.pipeline.key, i.downstream)) =
      Dict.keys ((LineageGraph.ofEdges edges).final columns).found := by
    rw [Dict.values, Dict.keys, List.map_map]
    exact List.map_congr_left fun item hitem => (mark_of_mem_found hitem).symm
  rw [hkeys]
  exact sound_final.nodup

/-- An impact's pipeline and column are an edge's. -/
theorem exists_edge_of_mem_impacts {impact : PipelineImpact}
    (h : impact ∈ (LineageGraph.ofEdges edges).impactsForColumns columns) :
    ∃ e ∈ edges, e.pipeline = impact.pipeline ∧ e.downstream = impact.downstream := by
  obtain ⟨item, hitem, rfl⟩ := mem_impactsForColumns.1 h
  obtain ⟨path, place, edge, -, hedge, -, hrecord⟩ := sound_final.found item hitem
  exact ⟨edge, (mem_out.1 hedge).1, by rw [← hrecord]; rfl, by rw [← hrecord]; rfl⟩

theorem exists_impact_iff :
    (∃ impact ∈ (LineageGraph.ofEdges edges).impactsForColumns columns,
      impact.pipeline.key = key ∧ impact.downstream = y) ↔ Affected edges columns key y := by
  have hkeys : (key, y) ∈ Dict.keys ((LineageGraph.ofEdges edges).final columns).found ↔
      Affected edges columns key y :=
    (Worklist.mem_keys_search (fun _ _ h => congrArg Prod.snd h) (fun _ _ h => mark_mem_marks h)
      (Nat.le_refl _)).trans affected_iff.symm
  rw [← hkeys]
  constructor
  · rintro ⟨impact, himpact, rfl, rfl⟩
    obtain ⟨item, hitem, rfl⟩ := mem_impactsForColumns.1 himpact
    rw [← mark_of_mem_found hitem]
    exact List.mem_map_of_mem hitem
  · intro hmem
    obtain ⟨item, hitem, hfst⟩ := List.mem_map.1 hmem
    obtain ⟨hkey, hdown⟩ := Prod.mk.inj ((mark_of_mem_found hitem).symm.trans hfst)
    exact ⟨item.2, mem_impactsForColumns.2 ⟨item, hitem, rfl⟩, hkey, hdown⟩

/-! ## What is returned -/

/-- The impacts of columns in a graph: the search for them ends, they are
the pairs reached and nothing else, each once, and they are in order. -/
structure ImpactsExact (edges : List LineageEdge) (columns : List ColumnRef) : Prop where
  terminates : ∃ rounds, ∀ more ≥ rounds,
    ((LineageGraph.ofEdges edges).worklist.search more (Worklist.start columns)).queue = [] ∧
    (LineageGraph.ofEdges edges).worklist.search more (Worklist.start columns) =
      (LineageGraph.ofEdges edges).final columns
  pairs : ∀ pipelineKey downstream,
    (∃ impact ∈ (LineageGraph.ofEdges edges).impactsForColumns columns,
      impact.pipeline.key = pipelineKey ∧ impact.downstream = downstream) ↔
      Affected edges columns pipelineKey downstream
  once : (((LineageGraph.ofEdges edges).impactsForColumns columns).map fun impact =>
    (impact.pipeline.key, impact.downstream)).Nodup
  definitions : ∀ impact ∈ (LineageGraph.ofEdges edges).impactsForColumns columns,
    ∃ e ∈ edges, e.pipeline = impact.pipeline ∧ e.downstream = impact.downstream
  ordered : ((LineageGraph.ofEdges edges).impactsForColumns columns).Pairwise fun i j =>
    toLex (-criticalityRank i.pipeline.criticality,
        toLex (i.pipeline.key, i.downstream.qualifiedName)) ≤
      toLex (-criticalityRank j.pipeline.criticality,
        toLex (j.pipeline.key, j.downstream.qualifiedName))

/-- **Impact is reachability.** -/
theorem impacts_exact (edges : List LineageEdge) (columns : List ColumnRef) :
    ImpactsExact edges columns where
  terminates := by
    refine ⟨columns.length + (LineageGraph.ofEdges edges).marks.length, fun more hmore => ?_⟩
    rw [search_eq_final hmore]
    exact ⟨queue_final, rfl⟩
  pairs _ _ := exists_impact_iff
  once := nodup_pairs
  definitions _ h := exists_edge_of_mem_impacts h
  ordered := by
    have hsorted : ((LineageGraph.ofEdges edges).impactsForColumns columns).Pairwise fun i j =>
        impactSortKey i ≤ impactSortKey j := pairwise_sort _
    exact hsorted

/-- An impact's path is a chain of edges out of a given column to an edge of
the impact's pipeline and column, and no such chain is shorter. -/
structure ShortestPath (edges : List LineageEdge) (columns : List ColumnRef)
    (impact : PipelineImpact) : Prop where
  chain : ∃ x ∈ columns, ChainFrom edges x impact.path
  ends : ∃ chain last, impact.path = chain ++ [last] ∧ last.pipeline = impact.pipeline ∧
    last.downstream = impact.downstream
  shortest : ∀ x ∈ columns, ∀ chain last, ChainFrom edges x (chain ++ [last]) →
    last.pipeline.key = impact.pipeline.key → last.downstream = impact.downstream →
      impact.path.length ≤ (chain ++ [last]).length

/-- **The path of an impact is real and shortest.** -/
theorem paths_shortest (edges : List LineageEdge) (columns : List ColumnRef) :
    ∀ impact ∈ (LineageGraph.ofEdges edges).impactsForColumns columns,
      impact.path ≠ [] ∧ ShortestPath edges columns impact := by
  intro impact himpact
  obtain ⟨item, hitem, rfl⟩ := mem_impactsForColumns.1 himpact
  obtain ⟨path, place, edge, htrail, hedge, hmark, hrecord, hnearest⟩ :=
    Worklist.nearest_search (fun _ _ h => congrArg Prod.snd h) _ item hitem
  have hpath : item.2.path = path ++ [edge] := by
    rw [← hrecord]
    rfl
  obtain ⟨x, hx, hchain, hend⟩ := trail_iff_exists.1 htrail
  obtain ⟨hmem, hup⟩ := mem_out.1 hedge
  refine ⟨by rw [hpath]; simp, ⟨x, hx, ?_⟩, ⟨path, edge, hpath, ?_, ?_⟩, ?_⟩
  · rw [hpath]
    exact chainFrom_snoc.2 ⟨hchain, hmem, hup.trans hend.symm⟩
  · rw [← hrecord]
    rfl
  · rw [← hrecord]
    rfl
  · intro x' hx' chain last hother hkey hdown
    obtain ⟨hinit, hlast, hlastUp⟩ := chainFrom_snoc.1 hother
    have hle := hnearest chain (chainEnd x' chain) last
      (trail_iff_exists.2 ⟨x', hx', hinit, rfl⟩) (mem_out.2 ⟨hlast, hlastUp⟩)
      ((Prod.ext hkey hdown).trans (mark_of_mem_found hitem).symm)
    rw [hpath, List.length_append, List.length_append]
    exact Nat.add_le_add_right hle 1

/-- A chain of two pipelines, and a longer way to the second one's mart. -/
def sampleRoutes : List LineageEdge :=
  [⟨⟨"etl", "etl_dag", "data", .high⟩, ⟨⟨"raw", "orders"⟩, "id"⟩, ⟨⟨"stage", "orders"⟩, "id"⟩⟩,
   ⟨⟨"etl", "etl_dag", "data", .high⟩, ⟨⟨"stage", "orders"⟩, "id"⟩, ⟨⟨"stage", "lines"⟩, "id"⟩⟩,
   ⟨⟨"bi", "bi_dag", "data", .low⟩, ⟨⟨"stage", "lines"⟩, "id"⟩, ⟨⟨"mart", "orders"⟩, "id"⟩⟩,
   ⟨⟨"bi", "bi_dag", "data", .low⟩, ⟨⟨"stage", "orders"⟩, "id"⟩, ⟨⟨"mart", "orders"⟩, "id"⟩⟩]

theorem paths_shortest_sample :
    ∃ impact ∈ (LineageGraph.ofEdges sampleRoutes).impactsForColumns [⟨⟨"raw", "orders"⟩, "id"⟩],
      impact.pipeline.key = "bi" ∧ impact.path.length = 2 ∧ impact.path ≠ [] ∧
        ShortestPath sampleRoutes [⟨⟨"raw", "orders"⟩, "id"⟩] impact := by
  obtain ⟨impact, himpact, hkey, hlength⟩ : ∃ impact ∈
      (LineageGraph.ofEdges sampleRoutes).impactsForColumns [⟨⟨"raw", "orders"⟩, "id"⟩],
        impact.pipeline.key = "bi" ∧ impact.path.length = 2 := by
    decide +kernel
  exact ⟨impact, himpact, hkey, hlength, paths_shortest _ _ impact himpact⟩

/-! ## Row order -/

/-- A pipeline's key has one definition. -/
def OneDefinition (edges : List LineageEdge) : Prop :=
  ∀ e ∈ edges, ∀ f ∈ edges, e.pipeline.key = f.pipeline.key → e.pipeline = f.pipeline

instance (edges : List LineageEdge) : Decidable (OneDefinition edges) :=
  inferInstanceAs (Decidable (∀ e ∈ edges, ∀ f ∈ edges, _ → _))

/-- The edges out of a column, in their order. -/
theorem out_eq : (LineageGraph.ofEdges edges).worklist.out x =
    (edges.filter fun e => e.upstream = x).insertionSort
      fun a b => edgeSortKey a ≤ edgeSortKey b := by
  have hgroup : (Dict.get? x (groupByUpstream edges)).getD [] =
      edges.filter fun e => e.upstream = x := get?_groupByUpstream
  simp only [LineageGraph.worklist, LineageGraph.ofEdges, Dict.get?_map_snd, ← hgroup]
  cases Dict.get? x (groupByUpstream edges) with
  | none => rfl
  | some es => rfl

/-- Of the edges out of a column the sort key leaves no two alike. -/
theorem edgeSortKey_inj (hdef : OneDefinition edges) {e f : LineageEdge} (he : e ∈ edges)
    (hf : f ∈ edges) (hup : e.upstream = f.upstream) (h : edgeSortKey e = edgeSortKey f) :
    e = f := by
  simp only [edgeSortKey, EmbeddingLike.apply_eq_iff_eq, Prod.mk.injEq] at h
  obtain ⟨hkey, hschema, htable, hname⟩ := h
  have hpipeline := hdef e he f hf hkey
  have hdown : e.downstream = f.downstream := by
    obtain ⟨_, _, ⟨⟨_, _⟩, _⟩⟩ := e
    obtain ⟨_, _, ⟨⟨_, _⟩, _⟩⟩ := f
    simp_all
  cases e
  cases f
  simp_all

/-- Two orders of the edges make one worklist. -/
theorem worklist_congr (hdef : OneDefinition edges) (h : edges.Perm edges') :
    (LineageGraph.ofEdges edges').worklist = (LineageGraph.ofEdges edges).worklist := by
  have hout : (LineageGraph.ofEdges edges').worklist.out =
      (LineageGraph.ofEdges edges).worklist.out := by
    funext x
    rw [out_eq, out_eq]
    refine (sort_congr (h.filter _) fun e he f hf heq => ?_).symm
    rw [List.mem_filter, decide_eq_true_eq] at he hf
    exact edgeSortKey_inj hdef he.1 hf.1 (he.2.trans hf.2.symm) heq
  have hfields : ∀ graph : LineageGraph, graph.worklist =
      { out := graph.worklist.out
        target := LineageEdge.downstream
        mark := fun edge => (edge.pipeline.key, edge.downstream)
        record := fun edge path => ⟨edge.pipeline, edge.downstream, path⟩ } := fun _ => rfl
  rw [hfields, hout, ← hfields]

/-- **The order of the edges does not matter.** -/
theorem impactsForColumns_congr (hdef : OneDefinition edges) (h : edges.Perm edges') :
    (LineageGraph.ofEdges edges').impactsForColumns columns =
      (LineageGraph.ofEdges edges).impactsForColumns columns := by
  have hfinal : (LineageGraph.ofEdges edges').final columns =
      (LineageGraph.ofEdges edges).final columns := by
    let rounds := (columns.length + (LineageGraph.ofEdges edges).marks.length) +
      (columns.length + (LineageGraph.ofEdges edges').marks.length)
    have hfinal : (LineageGraph.ofEdges edges).worklist.search rounds (Worklist.start columns) =
        (LineageGraph.ofEdges edges).final columns := search_eq_final (by omega)
    have hfinal' : (LineageGraph.ofEdges edges').worklist.search rounds
        (Worklist.start columns) = (LineageGraph.ofEdges edges').final columns :=
      search_eq_final (by omega)
    rw [← hfinal, ← hfinal', worklist_congr hdef h]
  change (Dict.values ((LineageGraph.ofEdges edges').final columns).found).insertionSort _ =
    (Dict.values ((LineageGraph.ofEdges edges).final columns).found).insertionSort _
  rw [hfinal]

/-- The sort key of an impact's pipeline and column. -/
def pairSortKey (p : PipelineDefinition × ColumnRef) : ℤ ×ₗ (String ×ₗ String) :=
  toLex (-criticalityRank p.1.criticality, toLex (p.1.key, p.2.qualifiedName))

section Dotless

variable (hdef : OneDefinition edges) (hdot : ∀ e ∈ edges, e.downstream.dataset.Dotless)

include hdot

/-- Without dots in the datasets' names no two impacts sort alike. -/
theorem increasing_pairs (columns : List ColumnRef) :
    (((LineageGraph.ofEdges edges).impactsForColumns columns).map fun i =>
      (i.pipeline, i.downstream)).Pairwise fun p q => pairSortKey p < pairSortKey q := by
  have honce : (((LineageGraph.ofEdges edges).impactsForColumns columns).map fun i =>
    (i.pipeline.key, i.downstream)).Nodup := nodup_pairs
  have hsorted : ((LineageGraph.ofEdges edges).impactsForColumns columns).Pairwise fun i j =>
      impactSortKey i ≤ impactSortKey j := pairwise_sort _
  rw [List.pairwise_map]
  refine (hsorted.and honce.of_map).imp_of_mem ?_
  intro i j hi hj hij
  refine lt_of_le_of_ne hij.1 fun heq => hij.2 (eq_of_nodup_map honce hi hj ?_)
  simp only [pairSortKey, EmbeddingLike.apply_eq_iff_eq, Prod.mk.injEq] at heq
  obtain ⟨e, he, -, hedown⟩ := exists_edge_of_mem_impacts hi
  obtain ⟨f, hf, -, hfdown⟩ := exists_edge_of_mem_impacts hj
  have hdown : i.downstream = j.downstream :=
    ColumnRef.qualifiedName_inj (hedown ▸ hdot e he) (hfdown ▸ hdot f hf) heq.2.2
  rw [heq.2.1, hdown]

include hdef

/-- **The order of the columns does not matter** to which pipelines and
columns are returned and in which order. -/
theorem pairs_congr (h : ∀ x, x ∈ columns ↔ x ∈ columns') :
    (((LineageGraph.ofEdges edges).impactsForColumns columns').map fun i =>
      (i.pipeline, i.downstream)) =
      ((LineageGraph.ofEdges edges).impactsForColumns columns).map fun i =>
        (i.pipeline, i.downstream) := by
  refine eq_of_increasing (increasing_pairs hdot columns') (increasing_pairs hdot columns) ?_
  rintro ⟨p, y⟩
  have hmem : ∀ columns, (p, y) ∈ ((LineageGraph.ofEdges edges).impactsForColumns columns).map
      (fun i => (i.pipeline, i.downstream)) ↔
      (∃ e ∈ edges, e.pipeline = p) ∧ Affected edges columns p.key y := by
    intro columns
    rw [← exists_impact_iff, List.mem_map]
    constructor
    · rintro ⟨i, hi, heq⟩
      obtain ⟨rfl, rfl⟩ := Prod.mk.inj heq
      obtain ⟨e, he, hpipeline, -⟩ := exists_edge_of_mem_impacts hi
      exact ⟨⟨e, he, hpipeline⟩, i, hi, rfl, rfl⟩
    · rintro ⟨⟨e, he, rfl⟩, i, hi, hkey, rfl⟩
      obtain ⟨f, hf, hpipeline, -⟩ := exists_edge_of_mem_impacts hi
      refine ⟨i, hi, Prod.ext ?_ rfl⟩
      rw [← hpipeline]
      exact hdef f hf e he ((congrArg PipelineDefinition.key hpipeline).trans hkey)
  rw [hmem, hmem]
  simp only [Affected, h]

end Dotless

/-- What the order of the rows leaves alone. -/
structure OrderFree (edges : List LineageEdge) (columns : List ColumnRef) : Prop where
  edge_order : ∀ edges', edges.Perm edges' →
    (LineageGraph.ofEdges edges').impactsForColumns columns =
      (LineageGraph.ofEdges edges).impactsForColumns columns
  column_order : ∀ columns', columns.Perm columns' →
    (((LineageGraph.ofEdges edges).impactsForColumns columns').map fun i =>
      (i.pipeline, i.downstream)) =
      ((LineageGraph.ofEdges edges).impactsForColumns columns).map fun i =>
        (i.pipeline, i.downstream)

/-- **Impacts do not depend on row order**: any order of the edges gives the
same impacts with the same paths, any order of the columns the same
pipelines and columns in the same order. -/
theorem impacts_order_free (hdef : OneDefinition edges)
    (hdot : ∀ e ∈ edges, e.downstream.dataset.Dotless) : OrderFree edges columns where
  edge_order _ h := impactsForColumns_congr hdef h
  column_order _ h := pairs_congr hdef hdot fun _ => h.mem_iff

/-- Two pipelines that write into each other's input. -/
theorem impacts_order_free_sample :
    OrderFree
      [⟨⟨"orders", "orders_dag", "data", .high⟩, ⟨⟨"raw", "orders"⟩, "id"⟩,
        ⟨⟨"mart", "orders"⟩, "id"⟩⟩,
       ⟨⟨"back", "back_dag", "data", .low⟩, ⟨⟨"mart", "orders"⟩, "id"⟩,
        ⟨⟨"raw", "orders"⟩, "id"⟩⟩]
      [⟨⟨"raw", "orders"⟩, "id"⟩] :=
  impacts_order_free (by decide) (by decide)

end SchemaSentry
