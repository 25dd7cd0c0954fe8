import SchemaSentry.Lib.JsonLists
import SchemaSentry.System.CatalogExact
/-!
# Schema Sentry — the catalog's digest

The digest tells catalogs apart: two states have one digest exactly if their
pipelines and their edges are the same up to order (`digest_exact`), whatever
the names in them.
-/

namespace SchemaSentry

open Lib Json

/-! ## The payload -/

theorem toList_dumpsList (items : List JsonObject) :
    (dumpsList (items.map Json.obj)).toList = '[' :: itemsText (items.map sortedFields) := by
  unfold dumpsList itemsText
  have htext : ((items.map Json.obj).map Json.dumps).map String.toList =
      (items.map sortedFields).map fun fields => render (.obj fields) := by
    rw [List.map_map, List.map_map, List.map_map]
    exact List.map_congr_left fun fields _ => String.toList_ofList
  rw [String.toList_append, String.toList_append, String.toList_intercalate, htext]
  rfl

/-- The fields of a pipeline's entry. -/
def pipelineFields (p : PipelineDefinition) : JsonObject :=
  [("key", .str p.key), ("airflow_dag_id", .str p.airflowDagId), ("owner", .str p.owner),
    ("criticality", .str p.criticality.value)]

/-- The fields of an edge's entry. -/
def DigestEdge.fields (e : DigestEdge) : JsonObject :=
  [("pipeline", .str e.pipeline),
    ("upstream_dataset_id", .str (toString e.upstreamDatasetId)),
    ("upstream_column", .str e.upstreamColumn),
    ("downstream_dataset_id", .str (toString e.downstreamDatasetId)),
    ("downstream_column", .str e.downstreamColumn)]

theorem PipelineCriticality.value_inj {a b : PipelineCriticality} (h : a.value = b.value) :
    a = b := by
  cases a <;> cases b <;> first | rfl | exact absurd h (by decide)

theorem pipelineFields_inj {p q : PipelineDefinition}
    (h : sortedFields (pipelineFields p) = sortedFields (pipelineFields q)) : p = q := by
  have hp : (Dict.keys (pipelineFields p)).Nodup := by
    show ["key", "airflow_dag_id", "owner", "criticality"].Nodup
    decide
  have hq : (Dict.keys (pipelineFields q)).Nodup := hp
  have hkey := str_of_sortedFields hp hq h "key" rfl rfl
  have hdag := str_of_sortedFields hp hq h "airflow_dag_id" rfl rfl
  have howner := str_of_sortedFields hp hq h "owner" rfl rfl
  have hcrit := PipelineCriticality.value_inj (str_of_sortedFields hp hq h "criticality" rfl rfl)
  obtain ⟨_, _, _, _⟩ := p
  obtain ⟨_, _, _, _⟩ := q
  cases hkey
  cases hdag
  cases howner
  cases hcrit
  rfl

theorem toString_nat_inj {m n : Nat} (h : toString m = toString n) : m = n := by
  refine toDigits_inj ?_
  rw [← Nat.toList_repr, ← Nat.toList_repr]
  exact congrArg String.toList h

theorem digestFields_inj {e f : DigestEdge} (h : sortedFields e.fields = sortedFields f.fields) :
    e = f := by
  have he : (Dict.keys e.fields).Nodup := by
    show ["pipeline", "upstream_dataset_id", "upstream_column", "downstream_dataset_id",
      "downstream_column"].Nodup
    decide
  have hf : (Dict.keys f.fields).Nodup := he
  have hpipeline := str_of_sortedFields he hf h "pipeline" rfl rfl
  have hup := toString_nat_inj (str_of_sortedFields he hf h "upstream_dataset_id" rfl rfl)
  have hupColumn := str_of_sortedFields he hf h "upstream_column" rfl rfl
  have hdown := toString_nat_inj (str_of_sortedFields he hf h "downstream_dataset_id" rfl rfl)
  have hdownColumn := str_of_sortedFields he hf h "downstream_column" rfl rfl
  obtain ⟨_, _, _, _, _⟩ := e
  obtain ⟨_, _, _, _, _⟩ := f
  cases hpipeline
  cases hup
  cases hupColumn
  cases hdown
  cases hdownColumn
  rfl

/-- The payload's characters. -/
theorem toList_catalogPayload (db : DB) : db.catalogPayload.toList =
    "\x7b\"edges\":[".toList ++ (itemsText (((db.digestEdges.insertionSort fun a b =>
        a.sortKey ≤ b.sortKey).map DigestEdge.fields).map sortedFields) ++
      (",\"pipelines\":[".toList ++ (itemsText ((((db.pipelines.map
        PipelineModel.definition).insertionSort fun a b => a.key ≤ b.key).map
          pipelineFields).map sortedFields) ++ ['\x7d']))) := by
  have hedges : (db.digestEdges.insertionSort fun a b => a.sortKey ≤ b.sortKey).map
      DigestEdge.entry = ((db.digestEdges.insertionSort fun a b =>
        a.sortKey ≤ b.sortKey).map DigestEdge.fields).map Json.obj := by
    rw [List.map_map]
    rfl
  have hpipelines : (db.pipelines.insertionSort fun a b => a.key ≤ b.key).map
      PipelineModel.digestEntry = (((db.pipelines.map PipelineModel.definition).insertionSort
        fun a b => a.key ≤ b.key).map pipelineFields).map Json.obj := by
    rw [← map_definition_sorted, List.map_map, List.map_map]
    rfl
  unfold DB.catalogPayload
  simp only [hedges, hpipelines, String.toList_append, toList_dumpsList, List.append_assoc]
  rfl

/-! ## The digest -/

theorem DigestEdge.sortKey_inj {e f : DigestEdge} (h : e.sortKey = f.sortKey) : e = f := by
  obtain ⟨_, _, _, _, _⟩ := e
  obtain ⟨_, _, _, _, _⟩ := f
  cases h
  rfl

/-- **The digest is exact**: two states have one digest exactly if they have
the same pipelines and the same edges, in whatever order they are stored. -/
theorem digest_exact [Hashlib] [Hashlib.CollisionFree] {db db' : DB} (hc : db.Constraints) :
    db'.catalogDigest = db.catalogDigest ↔
      (db'.pipelines.map PipelineModel.definition).Perm (db.pipelines.map PipelineModel.definition) ∧
        db'.digestEdges.Perm db.digestEdges := by
  constructor
  · intro h
    -- the payload is read in one way, one list after the other
    have htext := congrArg String.toList (Hashlib.CollisionFree.inj h)
    rw [toList_catalogPayload, toList_catalogPayload] at htext
    obtain ⟨hedges, hrest⟩ := itemsText_append_inj (List.append_cancel_left htext)
    obtain ⟨hpipelines, -⟩ := itemsText_append_inj (List.append_cancel_left hrest)
    rw [List.map_map, List.map_map] at hedges hpipelines
    have hsorted := List.map_injective_iff.2 (fun _ _ h => digestFields_inj h) hedges
    have hsorted' := List.map_injective_iff.2 (fun _ _ h => pipelineFields_inj h) hpipelines
    constructor
    · exact (List.perm_insertionSort _ _).symm.trans
        ((List.Perm.of_eq hsorted').trans (List.perm_insertionSort _ _))
    · exact (List.perm_insertionSort _ _).symm.trans
        ((List.Perm.of_eq hsorted).trans (List.perm_insertionSort _ _))
  · -- both lists are written in the order of keys that tell their entries apart
    rintro ⟨hpipelines, hedges⟩
    have hkey : ∀ a ∈ db.pipelines.map PipelineModel.definition,
        ∀ b ∈ db.pipelines.map PipelineModel.definition, a.key = b.key → a = b := by
      intro a ha b hb hab
      obtain ⟨p, hp, rfl⟩ := List.mem_map.1 ha
      obtain ⟨q, hq, rfl⟩ := List.mem_map.1 hb
      rw [eq_of_nodup_map hc.pipelineKey hp hq hab]
    have hsorted : ((db.pipelines.map PipelineModel.definition).insertionSort fun a b =>
        a.key ≤ b.key) = (db'.pipelines.map PipelineModel.definition).insertionSort fun a b =>
          a.key ≤ b.key := sort_congr hpipelines.symm hkey
    have hsorted' : (db.digestEdges.insertionSort fun a b => a.sortKey ≤ b.sortKey) =
        db'.digestEdges.insertionSort fun a b => a.sortKey ≤ b.sortKey :=
      sort_congr hedges.symm fun _ _ _ _ h => DigestEdge.sortKey_inj h
    have hpayload : db'.catalogPayload = db.catalogPayload := by
      rw [← String.toList_inj, toList_catalogPayload, toList_catalogPayload, hsorted, hsorted']
    unfold DB.catalogDigest
    rw [hpayload]

section Sample

attribute [local instance] Hashlib.plain

/-- A catalog of two pipelines, one of which reads what the other writes. -/
def sampleTwoPipelines : DB :=
  { sampleTables with
    pipelines := [⟨4, "etl", "etl", "data", .high⟩, ⟨5, "bi", "bi", "data", .low⟩]
    lineageEdges := [⟨4, 2, "id", 3, "id"⟩, ⟨5, 3, "id", 2, "name"⟩]
    nextId := 6 }

/-- The same catalog, stored in another order. -/
def sampleReordered : DB :=
  { sampleTwoPipelines with
    pipelines := sampleTwoPipelines.pipelines.reverse
    lineageEdges := sampleTwoPipelines.lineageEdges.reverse }

/-- A catalog stored in another order has the same digest. -/
theorem digest_exact_sample : sampleReordered.pipelines ≠ sampleTwoPipelines.pipelines ∧
    sampleReordered.digestEdges ≠ sampleTwoPipelines.digestEdges ∧
    sampleReordered.catalogDigest = sampleTwoPipelines.catalogDigest := by
  have hfree : Hashlib.CollisionFree := Hashlib.collisionFree_plain
  have hc : sampleTwoPipelines.Constraints := by decide +kernel
  refine ⟨by decide, by decide, (digest_exact hc).2 ⟨?_, by decide⟩⟩
  exact (List.reverse_perm sampleTwoPipelines.pipelines).map PipelineModel.definition

end Sample

end SchemaSentry
