import SchemaSentry.System.Answers
import SchemaSentry.System.Progress
/-!
# Schema Sentry — drifts that share a fingerprint

The text that `change_fingerprint` hashes tells two changes apart unless
they are one change in two datasets of one qualified name. Within a diff,
and among the rows a scan leaves OPEN, fingerprints are then distinct
exactly where it finds no two such changes (`fingerprints_apart_iff`).
-/

namespace SchemaSentry

open Lib

section Fingerprints

variable [Hashlib]
variable {db : DB} {source : DataSourceModel} {req : ScanRequest}
variable {expected observed expected' observed' : List ColumnDefinition}
variable {dependencies dependencies' : List ColumnRef} {c c' : SchemaChange} {k k' : String}

/-! ## Within a list of changes -/

omit [Hashlib] in
/-- **The texts of two changes are one** for one change only, or for two
that are confusable. -/
theorem payload_told_iff (hc : c ∈ diffColumns expected observed dependencies)
    (hc' : c' ∈ diffColumns expected' observed' dependencies') :
    ((fingerprintPayload k c).dumps = (fingerprintPayload k' c').dumps → k = k' ∧ c = c') ↔
      ¬ (k = k' ∧ Confusable c c') := by
  rw [payload_eq_iff (filed_of_mem_diffColumns hc) (filed_of_mem_diffColumns hc')]
  constructor
  · rintro h ⟨hkey, hconf⟩
    exact hconf.dataset (congrArg SchemaChange.dataset (h ⟨hkey, Or.inr hconf⟩).2)
  · rintro h ⟨hkey, heq | hconf⟩
    · exact ⟨hkey, heq⟩
    · exact absurd ⟨hkey, hconf⟩ h

/-- Changes that are told apart have different fingerprints. -/
theorem nodup_fingerprints_iff [Hashlib.CollisionFree] {changes : List SchemaChange}
    (hnodup : changes.Nodup) (hfiled : ∀ c ∈ changes, c.Filed) :
    (changes.map (changeFingerprint k)).Nodup ↔
      ∀ c ∈ changes, ∀ c' ∈ changes, ¬ Confusable c c' := by
  constructor
  · intro h c hc c' hc' hconf
    have hsame : changeFingerprint k c = changeFingerprint k c' :=
      (changeFingerprint_eq_iff (hfiled c hc) (hfiled c' hc')).2 ⟨rfl, Or.inr hconf⟩
    exact hconf.dataset (congrArg SchemaChange.dataset (List.inj_on_of_nodup_map h hc hc' hsame))
  · intro h
    refine hnodup.map_on fun c hc c' hc' hsame => ?_
    obtain ⟨-, heq | hconf⟩ := (changeFingerprint_eq_iff (hfiled c hc) (hfiled c' hc')).1 hsame
    · exact heq
    · exact absurd hconf (h c hc c' hc')

/-! ## Within a scan -/

omit [Hashlib] in
/-- An OPEN row of the source describes the change, or one confusable with
it. -/
def OnRecord (db : DB) (sourceId : Uuid) (c : SchemaChange) : Prop :=
  ∃ row ∈ db.openRows sourceId, ∃ e : SchemaChange,
    e.Filed ∧ Describes db sourceId row e ∧ (e = c ∨ Confusable e c)

/-- **A change's fingerprint is OPEN** where a row of it, or of one
confusable with it, is. -/
theorem mem_keys_iff_onRecord [Hashlib.CollisionFree] (hwf : db.WellFormed)
    (hsource : source ∈ db.sources) (hc : c.Filed) :
    changeFingerprint source.key c ∈ Dict.keys (db.openChanges source.id) ↔
      OnRecord db source.id c := by
  rw [mem_keys_openChanges hwf.constraints]
  constructor
  · rintro ⟨row, hrow, hfp⟩
    obtain ⟨hmem, hs, -⟩ := mem_openRows.1 hrow
    obtain ⟨dataset, e, hrec⟩ := exists_records_of_source hwf hsource hmem hs
    have hsame := (changeFingerprint_eq_iff hrec.genuine.filed hc).1
      (hrec.fingerprint.symm.trans hfp)
    exact ⟨row, hrow, e, hrec.genuine.filed, hrec.describes, hsame.2⟩
  · rintro ⟨row, hrow, e, he, hdesc, hsame⟩
    refine ⟨row, hrow, ?_⟩
    rw [fingerprint_of_describes hwf hsource (mem_openRows.1 hrow).1 hdesc he]
    exact (changeFingerprint_eq_iff he hc).2 ⟨rfl, hsame⟩

/-- **No two rows a scan leaves OPEN share a fingerprint** where no two
confusable differences are both off the record. -/
theorem openFingerprints_apart_iff [Hashlib.CollisionFree] (hwf : db.WellFormed)
    (hsource : source ∈ db.sources)
    (hin : InDatasets (db.datasetsByRef source.id)
      (db.opened source (db.baseline source.id) observed)) :
    (req.drifted source (db.baseline source.id) observed db).openFingerprints.Nodup ↔
      ∀ c ∈ db.driftChanges source (db.baseline source.id) observed,
        ∀ c' ∈ db.driftChanges source (db.baseline source.id) observed,
          Confusable c c' → OnRecord db source.id c := by
  have hfiled : ∀ c ∈ db.driftChanges source (db.baseline source.id) observed, c.Filed :=
    fun c hc => filed_of_mem_diffColumns hc
  have hopened : ∀ c, c ∈ db.opened source (db.baseline source.id) observed ↔
      c ∈ db.driftChanges source (db.baseline source.id) observed ∧ ¬ OnRecord db source.id c := by
    intro c
    rw [DB.opened, newChanges, List.mem_filter]
    refine and_congr_right fun hc => ?_
    rw [← mem_keys_iff_onRecord hwf hsource (hfiled c hc), decide_eq_true_iff]
  have hnodup : (db.opened source (db.baseline source.id) observed).Nodup :=
    nodup_diffColumns.filter _
  rw [openFingerprints_drifted_iff hwf hin,
    nodup_fingerprints_iff hnodup fun c hc => hfiled c ((hopened c).1 hc).1]
  constructor
  · intro h c hc c' hc' hconf
    by_contra hoff
    refine h c ((hopened c).2 ⟨hc, hoff⟩) c' ((hopened c').2 ⟨hc', ?_⟩) hconf
    -- one fingerprint, so the other is off the record as well
    rw [← mem_keys_iff_onRecord hwf hsource (hfiled _ hc)] at hoff
    rwa [← mem_keys_iff_onRecord hwf hsource (hfiled _ hc'),
      ← (changeFingerprint_eq_iff (hfiled _ hc) (hfiled _ hc')).2 ⟨rfl, Or.inr hconf⟩]
  · intro h c hc c' hc' hconf
    exact ((hopened c).1 hc).2 (h c ((hopened c).1 hc).1 c' ((hopened c').1 hc').1 hconf)

/-- **Two confusable differences off the record stop the scan.** -/
theorem scan_raises_of_confusable [Hashlib.CollisionFree] (hwf : db.WellFormed)
    (hf : req.faults = noFaults) (hsource : db.sourceOf? req.sourceKey = some source)
    (hcollected : req.collected = .ok observed) (hbase : db.baseline source.id ≠ [])
    (hc : c ∈ db.driftChanges source (db.baseline source.id) observed)
    (hc' : c' ∈ db.driftChanges source (db.baseline source.id) observed)
    (hconf : Confusable c c') (hoff : ¬ OnRecord db source.id c) :
    ∃ e, scanResult req db = .error e := by
  have heff := scanEffect hwf hf
  generalize scanResult req db = result at heff ⊢
  generalize postScans req db = after at heff
  rcases heff with _ | _ | ⟨hof, -, -, hnone, -⟩ | ⟨hof, hcol, -, -, hin, hcons⟩
  · exact ⟨_, rfl⟩
  · exact ⟨_, rfl⟩
  · cases hsource.symm.trans hof
    exact absurd hnone hbase
  · cases hsource.symm.trans hof
    cases hcollected.symm.trans hcol
    have hapart := (openFingerprints_apart_iff hwf (mem_of_sourceOf? hsource).1 hin).1
      hcons.openFingerprint
    exact absurd (hapart c hc c' hc' hconf) hoff

/-- **Distinct drifts have distinct fingerprints** exactly where no two are
one change in two datasets of one qualified name: the texts hashed for any
two diffs, the changes of one diff, and the rows a scan leaves OPEN. -/
theorem fingerprints_apart_iff [Hashlib.CollisionFree] :
    (∀ k k' expected observed dependencies expected' observed' dependencies',
      ∀ c ∈ diffColumns expected observed dependencies,
        ∀ c' ∈ diffColumns expected' observed' dependencies',
          ((fingerprintPayload k c).dumps = (fingerprintPayload k' c').dumps → k = k' ∧ c = c') ↔
            ¬ (k = k' ∧ Confusable c c')) ∧
    (∀ k expected observed dependencies,
      ((diffColumns expected observed dependencies).map (changeFingerprint k)).Nodup ↔
        ∀ c ∈ diffColumns expected observed dependencies,
          ∀ c' ∈ diffColumns expected observed dependencies, ¬ Confusable c c') ∧
    ∀ (db : DB) (source : DataSourceModel) (req : ScanRequest) (observed : List ColumnDefinition),
      db.Reachable (fun _ => True) → source ∈ db.sources →
      InDatasets (db.datasetsByRef source.id)
        (db.opened source (db.baseline source.id) observed) →
      ((req.drifted source (db.baseline source.id) observed db).openFingerprints.Nodup ↔
        ∀ c ∈ db.driftChanges source (db.baseline source.id) observed,
          ∀ c' ∈ db.driftChanges source (db.baseline source.id) observed,
            Confusable c c' → OnRecord db source.id c) := by
  refine ⟨fun k k' _ _ _ _ _ _ c hc c' hc' => payload_told_iff hc hc', fun k _ _ _ => ?_,
    fun db source req observed hreach hsource hin => ?_⟩
  · exact nodup_fingerprints_iff nodup_diffColumns fun c hc => filed_of_mem_diffColumns hc
  · exact openFingerprints_apart_iff hreach.wellFormed hsource hin

end Fingerprints

section Sample

attribute [local instance] Hashlib.plain

/-- In the sample a column lost and another retyped leave distinct
fingerprints OPEN. -/
theorem fingerprints_apart_sample :
    (sampleTables.driftChanges sampleSource (sampleTables.baseline sampleSource.id)
      sampleReshaped).length = 2 ∧
    ((sampleScan sampleReshaped).drifted sampleSource (sampleTables.baseline sampleSource.id)
      sampleReshaped sampleTables).openFingerprints.Nodup := by
  have := Hashlib.collisionFree_plain
  have hin : InDatasets (sampleTables.datasetsByRef sampleSource.id)
      (sampleTables.opened sampleSource (sampleTables.baseline sampleSource.id) sampleReshaped) := by
    unfold InDatasets
    decide +kernel
  refine ⟨by decide +kernel, (fingerprints_apart_iff.2.2 sampleTables sampleSource _ _
    sampleTables_reachable.any (by decide) hin).2 fun c hc c' hc' hconf => ?_⟩
  have hnames : ∀ c ∈ sampleTables.driftChanges sampleSource
      (sampleTables.baseline sampleSource.id) sampleReshaped,
      ∀ c' ∈ sampleTables.driftChanges sampleSource (sampleTables.baseline sampleSource.id)
        sampleReshaped, c.dataset.qualifiedName = c'.dataset.qualifiedName →
          c.dataset = c'.dataset := by decide +kernel
  exact absurd (hnames c hc c' hc' hconf.qualifiedName) hconf.dataset

/-- Two tables whose qualified names are one. -/
def sampleHomonyms (type : String) : List ColumnDefinition :=
  [sampleDotted "a" "b.c" type, sampleDotted "a.b" "c" type]

/-- What their first scan leaves. -/
def sampleNamed : DB := (Op.scan (sampleScan (sampleHomonyms "integer"))).apply sampleStart

theorem sampleNamed_reachable : sampleNamed.Reachable fun _ => True := by
  have hregular : (Op.scan (sampleScan (sampleHomonyms "integer"))).Regular fun _ => True :=
    sampleScan_regular fun _ _ => True.intro
  exact sampleStart_reachable.step hregular

/-- **Two changes of one scan share a fingerprint**: those of table `b.c` in
schema `a` and of table `c` in schema `a.b`. The scan that finds them
raises. -/
theorem homonyms_collide :
    (∃ c ∈ diffColumns (sampleHomonyms "integer") (sampleHomonyms "bigint") [],
      ∃ c' ∈ diffColumns (sampleHomonyms "integer") (sampleHomonyms "bigint") [],
        c ≠ c' ∧ (fingerprintPayload "crm" c).dumps = (fingerprintPayload "crm" c').dumps) ∧
    sampleNamed.Reachable (fun _ => True) ∧
    ∃ e, scanResult (sampleScan (sampleHomonyms "bigint")) sampleNamed = .error e := by
  have := Hashlib.collisionFree_plain
  have hconf : Confusable (.retype (sampleDotted "a" "b.c" "integer")
      (sampleDotted "a" "b.c" "bigint")) (.retype (sampleDotted "a.b" "c" "integer")
      (sampleDotted "a.b" "c" "bigint")) := ⟨by decide, by decide, by decide⟩
  have hdiff : ∀ c ∈ [SchemaChange.retype (sampleDotted "a" "b.c" "integer")
      (sampleDotted "a" "b.c" "bigint"), .retype (sampleDotted "a.b" "c" "integer")
      (sampleDotted "a.b" "c" "bigint")],
      c ∈ diffColumns (sampleHomonyms "integer") (sampleHomonyms "bigint") [] := by
    decide +kernel
  obtain ⟨hone, hother, -⟩ := List.forall_mem_cons.1 hdiff |>.imp_right List.forall_mem_cons.1
  have htables : sampleNamed.sourceOf? "crm" = some sampleSource ∧
      sampleNamed.baseline sampleSource.id = sampleHomonyms "integer" ∧
      sampleNamed.dependencies sampleSource.id = [] ∧ sampleNamed.schemaChanges = [] := by
    decide +kernel
  obtain ⟨hsource, hbase, hdependencies, hnone⟩ := htables
  have hdrift : sampleNamed.driftChanges sampleSource (sampleNamed.baseline sampleSource.id)
      (sampleHomonyms "bigint") =
        diffColumns (sampleHomonyms "integer") (sampleHomonyms "bigint") [] := by
    rw [DB.driftChanges, hbase, hdependencies]
  refine ⟨⟨_, hone, _, hother, fun h => hconf.dataset (congrArg SchemaChange.dataset h), ?_⟩,
    sampleNamed_reachable, ?_⟩
  · exact (payload_eq_iff (filed_of_mem_diffColumns hone) (filed_of_mem_diffColumns hother)).2
      ⟨rfl, Or.inr hconf⟩
  · refine scan_raises_of_confusable sampleNamed_reachable.wellFormed rfl hsource rfl ?_
      (hdrift ▸ hone) (hdrift ▸ hother) hconf fun ⟨row, hrow, _⟩ => ?_
    · rw [hbase]
      exact List.cons_ne_nil _ _
    · rw [DB.openRows, hnone] at hrow
      cases hrow

end Sample

end SchemaSentry
