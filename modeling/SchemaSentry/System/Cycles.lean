import SchemaSentry.Lib.Cycles
import SchemaSentry.System.CatalogSync
import SchemaSentry.System.Runs
/-!
# Schema Sentry — cycles in the lineage

Whether a catalog whose edges form a cycle is rejected. The sync rejects a
pipeline that writes a column it reads; a cycle through several pipelines
it stores. A stored column's cycle is a cycle of pipelines, each writing a
column the next reads (`syncsAcyclic_iff`).
-/

namespace SchemaSentry

open Lib Relation

/-- An edge leads from one column to the other. -/
def Flows (edges : List LineageEdge) (x y : ColumnRef) : Prop :=
  ∃ e ∈ edges, e.upstream = x ∧ e.downstream = y

/-- No column is reachable from itself through one or more edges. -/
def Acyclic (edges : List LineageEdge) : Prop := ∀ x, ¬ TransGen (Flows edges) x x

/-- The sync of a document stores lineage without a cycle, or rejects it and
leaves the tables alone. -/
def SyncsAcyclic (db : DB) (config : CatalogConfig) : Prop :=
  ((∃ r, syncResult (some config) db = .ok r) ∧
    Acyclic (syncCatalog (some config) db).lineage) ∨
  ((∃ e, syncResult (some config) db = .error e) ∧ syncCatalog (some config) db = db)

/-- A pipeline of the document reads a column. -/
def CatalogConfig.Reads (config : CatalogConfig) (x : ColumnRef) (p : PipelineConfig) : Prop :=
  p ∈ config.pipelines ∧ NamesColumn p.inputs x

/-- A pipeline writes a column. -/
def PipelineConfig.Writes (p : PipelineConfig) (y : ColumnRef) : Prop := NamesColumn p.outputs y

/-- No sequence of the document's pipelines, each writing a column the next
reads, leads from a pipeline back to it. -/
def CatalogConfig.Ordered (config : CatalogConfig) : Prop :=
  ∀ p, ¬ TransGen (Comp PipelineConfig.Writes config.Reads) p p

variable {db : DB} {config : CatalogConfig}

/-- Where the lineage is the declared one, a column flows into another by
way of a pipeline that reads it and writes the other. -/
theorem flows_iff {edges : List LineageEdge} (h : ∀ e, e ∈ edges ↔ config.Declares e)
    {x y : ColumnRef} : Flows edges x y ↔ Comp config.Reads PipelineConfig.Writes x y := by
  constructor
  · rintro ⟨e, he, rfl, rfl⟩
    obtain ⟨p, hp, -, hup, hdown⟩ := (h e).1 he
    exact ⟨p, ⟨hp, hup⟩, hdown⟩
  · rintro ⟨p, ⟨hp, hup⟩, hdown⟩
    exact ⟨⟨p.definition, x, y⟩, (h _).2 ⟨p, hp, rfl, hup, hdown⟩, rfl, rfl⟩

/-- **The lineage declared has a cycle of columns exactly where there is one
of pipelines.** -/
theorem acyclic_iff {edges : List LineageEdge} (h : ∀ e, e ∈ edges ↔ config.Declares e) :
    Acyclic edges ↔ config.Ordered := by
  have hflows : Flows edges = Comp config.Reads PipelineConfig.Writes :=
    funext fun x => funext fun y => propext (flows_iff h)
  rw [Acyclic, CatalogConfig.Ordered, hflows, ← not_exists, ← not_exists, cycle_comp_iff]

/-- **A sync keeps the lineage free of cycles** exactly where the document is
rejected on other grounds or its pipelines do not feed one another in a
cycle. -/
theorem syncsAcyclic_iff (hc : db.Constraints) (hl : db.Linked) :
    SyncsAcyclic db config ↔
      (config.FieldsOk ∧ config.Fits ∧ config.Accepted db → config.Ordered) := by
  rw [← exists_sync_iff hc hl]
  constructor
  · rintro (⟨⟨r, hr⟩, hacyclic⟩ | ⟨⟨e, he⟩, -⟩) ⟨r', hr'⟩
    · exact (acyclic_iff (synced_of_ok hl hr).lineage).1 hacyclic
    · rw [he] at hr'
      cases hr'
  · intro hordered
    rcases hresult : syncResult (some config) db with e | r
    · exact Or.inr ⟨⟨e, hresult⟩, syncCatalog_of_error hresult⟩
    · refine Or.inl ⟨⟨r, hresult⟩, (acyclic_iff (synced_of_ok hl hresult).lineage).2 ?_⟩
      exact hordered ⟨r, hresult⟩

section Sample

attribute [local instance] Hashlib.plain

/-- Two pipelines that feed each other. -/
def sampleLoop : CatalogConfig :=
  { pipelines :=
      [{ key := "a", airflowDagId := "a", owner := "data", criticality := .high
         inputs := [⟨"public.users", ["id"]⟩], outputs := [⟨"public.mart", ["id"]⟩] },
       { key := "b", airflowDagId := "b", owner := "data", criticality := .high
         inputs := [⟨"public.mart", ["id"]⟩], outputs := [⟨"public.users", ["id"]⟩] }] }

/-- **A cycle is stored**: the sync of two pipelines that feed each other
succeeds, and the column the one reads is reachable from itself. -/
theorem cycle_stored :
    syncResult (some sampleLoop) sampleTables = .ok ⟨2, 2⟩ ∧
      TransGen (Flows (syncCatalog (some sampleLoop) sampleTables).lineage)
        ⟨⟨"public", "users"⟩, "id"⟩ ⟨⟨"public", "users"⟩, "id"⟩ := by
  have hresult : syncResult (some sampleLoop) sampleTables = .ok ⟨2, 2⟩ := by decide +kernel
  have hlineage : (syncCatalog (some sampleLoop) sampleTables).lineage =
      [⟨⟨"a", "a", "data", .high⟩, ⟨⟨"public", "users"⟩, "id"⟩, ⟨⟨"public", "mart"⟩, "id"⟩⟩,
       ⟨⟨"b", "b", "data", .high⟩, ⟨⟨"public", "mart"⟩, "id"⟩, ⟨⟨"public", "users"⟩, "id"⟩⟩] := by
    decide +kernel
  refine ⟨hresult, ?_⟩
  rw [hlineage]
  refine TransGen.tail (b := ⟨⟨"public", "mart"⟩, "id"⟩) (TransGen.single ?_) ?_
  · exact ⟨_, List.mem_cons_self, rfl, rfl⟩
  · exact ⟨_, List.mem_cons_of_mem _ List.mem_cons_self, rfl, rfl⟩

/-- Two pipelines, the second fed by the first. -/
def sampleChain : CatalogConfig :=
  { pipelines :=
      [{ key := "bi", airflowDagId := "bi", owner := "data", criticality := .low
         inputs := [⟨"public.mart", ["id"]⟩], outputs := [⟨"public.report", ["id"]⟩] },
       { key := "etl", airflowDagId := "etl", owner := "data", criticality := .high
         inputs := [⟨"public.users", ["id"]⟩], outputs := [⟨"public.mart", ["id"]⟩] }] }

/-- The first scan of three tables. -/
def sampleThreeTables : Op :=
  .scan (sampleScan [sampleColumn "users" "id" "integer" false,
    sampleColumn "mart" "id" "integer" false, sampleColumn "report" "id" "integer" false])

theorem sampleChain_ordered : sampleChain.Ordered := by
  have hstep : ∀ {p q : PipelineConfig}, p ∈ sampleChain.pipelines →
      Comp PipelineConfig.Writes sampleChain.Reads p q → p.key = "etl" ∧ q.key = "bi" := by
    rintro p q hp ⟨y, ⟨c, hc, hout, -⟩, hq, c', hc', hin, -⟩
    have hall : ∀ p ∈ sampleChain.pipelines, ∀ q ∈ sampleChain.pipelines, ∀ c ∈ p.outputs,
        ∀ c' ∈ q.inputs, datasetParts c.dataset = datasetParts c'.dataset →
          p.key = "etl" ∧ q.key = "bi" := by decide +kernel
    exact hall p hp q hq c hc c' hc' (hout.trans hin.symm)
  intro p hcycle
  obtain ⟨q, hfirst, -⟩ := TransGen.head'_iff.1 hcycle
  obtain ⟨o, hto, hlast⟩ := TransGen.tail'_iff.1 hcycle
  obtain ⟨-, -, hp, -⟩ := id hlast
  -- a pipeline that is fed is `bi`, and one that feeds is `etl`
  have ho : o ∈ sampleChain.pipelines := by
    rcases ReflTransGen.cases_tail hto with rfl | ⟨_, -, -, -, ho, -⟩
    · exact hp
    · exact ho
  have hboth := (hstep hp hfirst).1.symm.trans (hstep ho hlast).2
  exact absurd hboth (by decide)

/-- The sync of the sample's chain stores its edges, free of cycles. -/
theorem syncsAcyclic_iff_sample :
    (syncCatalog (some sampleChain) (sampleThreeTables.apply sampleStart)).lineage.length = 2 ∧
    SyncsAcyclic (sampleThreeTables.apply sampleStart) sampleChain := by
  have hregular : sampleThreeTables.Regular fun _ => True := sampleScan_regular fun _ _ => True.intro
  have hwf := (sampleStart_reachable.step hregular).wellFormed
  exact ⟨by decide +kernel,
    (syncsAcyclic_iff hwf.constraints hwf.linked).2 fun _ => sampleChain_ordered⟩

end Sample

end SchemaSentry
