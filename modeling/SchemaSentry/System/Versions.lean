import SchemaSentry.System.Convergence
/-!
# Schema Sentry — what a version identifies

Two moments of a source's history with one version have one baseline,
once its first scan has completed. Every step but one leaves the baseline
alone or raises the version (`versionStep`). The one that does not is a
scan that finds the baseline empty: it makes a first baseline again, at
the version there is (`version_identifies_iff`).
-/

namespace SchemaSentry

open Lib

/-- A scan of the source has COMPLETED. -/
def DB.Completed (db : DB) (sourceId : Uuid) : Prop :=
  ∃ scan ∈ db.scanRuns, scan.sourceId = sourceId ∧ scan.status = .completed

instance (db : DB) (sourceId : Uuid) : Decidable (db.Completed sourceId) :=
  inferInstanceAs (Decidable (∃ _ ∈ _, _))

/-- Two states expect the same columns of a source. -/
def SameBaseline (sourceId : Uuid) (db db' : DB) : Prop :=
  ∀ ref, columnAt (db'.baseline sourceId) ref = columnAt (db.baseline sourceId) ref

/-- A scan finds the baseline of a source empty again, and its observation
can be stored. -/
def Op.Rebaselines (sourceId : Uuid) : Op → DB → Prop
  | .scan req, db => db.Completed sourceId ∧ db.baseline sourceId = [] ∧
      (∃ source, db.sourceOf? req.sourceKey = some source ∧ source.id = sourceId) ∧
      ∃ observed, req.collected = .ok observed ∧ observed ≠ [] ∧ DistinctRefs observed ∧
        Fits observed
  | _, _ => False

/-! ## Histories -/

/-- The tables, and the states before with what was asked in them, the last
one first. -/
structure History where
  db : DB
  past : List (DB × Op) := []

section Versions

variable [Hashlib]
variable {db db' : DB} {sourceId : Uuid} {source : DataSourceModel} {req : ScanRequest}
variable {observed : List ColumnDefinition}

def History.apply (op : Op) (h : History) : History :=
  { db := op.apply h.db, past := (h.db, op) :: h.past }

/-- **The version identifies the baseline**: a state that a scan had
completed in and that has the version there is now expects the same
columns; and where the last step changed the columns or the version, it was
an acceptance that succeeded and raised the version by one. -/
structure History.Identified (sourceId : Uuid) (h : History) : Prop where
  same : ∀ old ∈ h.past, old.1.Completed sourceId →
    old.1.versionOf sourceId = h.db.versionOf sourceId → SameBaseline sourceId old.1 h.db
  step : ∀ old ∈ h.past.head?, old.1.Completed sourceId →
    (SameBaseline sourceId old.1 h.db ∧ h.db.versionOf sourceId = old.1.versionOf sourceId) ∨
    ∃ req r, old.2 = .accept req ∧ acceptResult req old.1 = .ok r ∧
      h.db.versionOf sourceId = old.1.versionOf sourceId + 1

/-! ## First baselines -/

/-- **A first baseline can be stored** exactly where the observation names no
column twice and its texts fit. -/
theorem baselined_constraints_iff (hwf : db.WellFormed) (hbase : db.baseline source.id = []) :
    (req.baselined source observed db).Constraints ↔ DistinctRefs observed ∧ Fits observed := by
  refine ⟨fun hc => ⟨?_, fun column hcolumn => ?_⟩,
    fun h => baselined_constraints hwf h.2 h.1 hbase⟩
  · obtain ⟨next, added, rows, hrows, heq⟩ := baselined_eq hwf req source observed
    rw [heq] at hc
    have hnew : (rows.map fun x => (x.datasetId, x.name)).Nodup := by
      have hall := hc.expectedColumnIdentity
      rw [List.map_append] at hall
      exact List.Nodup.of_append_right hall
    refine nodup_map_of_forall₂ hrows.placed.flip hnew ?_
    rintro x c x' c' ⟨d, hd, hs, href, rfl⟩ ⟨d', hd', hs', href', rfl⟩ hsame
    have hdd : d = d' := eq_dataset hc hd hd' (hs.trans hs'.symm)
      (href.trans ((congrArg ColumnRef.dataset hsame).trans href'.symm))
    rw [hdd]
    exact congrArg (Prod.mk d'.id) (congrArg ColumnRef.name hsame)
  · obtain ⟨next, added, rows, -, heq⟩ := baselined_eq hwf req source observed
    have hmem : observedRow db.nextId column ∈
        (req.baselined source observed db).observedColumns := by
      rw [heq]
      exact List.mem_append_right _ (List.mem_map_of_mem hcolumn)
    exact hc.observedLengths _ hmem

/-- A first baseline of one source leaves the others' as they were. -/
theorem sameBaseline_baselined (hwf : db.WellFormed)
    (hwf' : (req.baselined source observed db).WellFormed) (hother : sourceId ≠ source.id) :
    SameBaseline sourceId db (req.baselined source observed db) := by
  intro ref
  have hids := hwf'.linked.datasetIds
  refine columnAt_congr (distinctRefs_baseline hwf'.linked hwf'.constraints sourceId)
    (distinctRefs_baseline hwf.linked hwf.constraints sourceId) fun column => ?_
  rw [mem_baseline hwf'.linked, mem_baseline hwf.linked]
  obtain ⟨next, added, rows, hrows, heq⟩ := baselined_eq hwf req source observed
  rw [heq] at hids ⊢
  constructor
  · rintro ⟨d, hd, hs, href, hrow⟩
    rcases List.mem_append.1 hrow with hold | hnew
    · obtain ⟨d', hd', hid⟩ := hwf.linked.expectedDataset _ hold
      obtain rfl : d = d' := eq_of_nodup_map hids hd (List.mem_append_left _ hd') hid.symm
      exact ⟨d, hd', hs, href, hold⟩
    · -- a row that is new is of the other source
      obtain ⟨column', -, d', hd', hs', -, hsame⟩ := hrows.exists_of_mem hnew
      obtain rfl : d = d' :=
        eq_of_nodup_map hids hd hd' (congrArg ExpectedColumnModel.datasetId hsame)
      exact absurd (hs.symm.trans hs') hother
  · rintro ⟨d, hd, hs, href, hrow⟩
    exact ⟨d, List.mem_append_left _ hd, hs, href, List.mem_append_left _ hrow⟩

/-! ## One step -/

omit [Hashlib] in
theorem versionOf_congr (h : db'.sources = db.sources) :
    db'.versionOf sourceId = db.versionOf sourceId := by
  rw [DB.versionOf, DB.versionOf, h]

omit [Hashlib] in
theorem sameBaseline_congr (hd : db'.datasets = db.datasets)
    (he : db'.expectedColumns = db.expectedColumns) : SameBaseline sourceId db db' := by
  intro ref
  rw [baseline_congr hd he]

omit [Hashlib] in
/-- An acceptance raises the version of its source by one. -/
theorem versionOf_accepted (hl : db.Linked) (hsource : source ∈ db.sources)
    {change : SchemaChangeModel} {rows : List ExpectedColumnModel} {acceptedAt : Timestamp} :
    ({ db with expectedColumns := rows }.accepted source change acceptedAt).versionOf sourceId =
      if sourceId = source.id then db.versionOf sourceId + 1 else db.versionOf sourceId := by
  have hids : (fun s : DataSourceModel => decide (s.id = sourceId)) ∘ raiseVersion source =
      fun s => decide (s.id = sourceId) := by
    funext s
    simp
  rw [DB.versionOf, DB.versionOf, accepted_eq, List.find?_map, hids]
  by_cases hown : sourceId = source.id
  · have hfound : db.sources.find? (fun s => s.id = sourceId) = some source :=
      (find?_eq_some_of_nodup hl.sourceIds).2 ⟨hsource, hown.symm⟩
    rw [hfound, if_pos hown]
    simp [raiseVersion]
  · rw [if_neg hown]
    cases hfind : db.sources.find? (fun s => s.id = sourceId) with
    | none => rfl
    | some s =>
      have hid : s.id = sourceId := by simpa using List.find?_some hfind
      simp [raiseVersion, hid, hown]

/-- What a request does to a source's version and baseline. -/
inductive VersionStep (sourceId : Uuid) (op : Op) (db db' : DB) : Prop
  | kept : db'.versionOf sourceId = db.versionOf sourceId → SameBaseline sourceId db db' →
      VersionStep sourceId op db db'
  | baselined : db'.versionOf sourceId = db.versionOf sourceId →
      (db.Completed sourceId → op.Rebaselines sourceId db) → VersionStep sourceId op db db'
  | accepted {req : AcceptRequest} {r : AcceptanceResult} : op = .accept req →
      acceptResult req db = .ok r → db'.versionOf sourceId = db.versionOf sourceId + 1 →
      VersionStep sourceId op db db'

/-- **What a request can do** to a source's version and baseline. -/
theorem versionStep (hwf : db.WellFormed) {op : Op} (hop : op.Regular fun _ => True)
    (sourceId : Uuid) : VersionStep sourceId op db (op.apply db) := by
  cases op with
  | scan req =>
    have heff := scanEffect hwf hop.1
    have hwf' := scan_wellFormed hwf hop.1
    rw [Op.apply]
    generalize scanResult req db = result at heff
    generalize postScans req db = after at heff hwf' ⊢
    rcases heff with _ | _ | ⟨hof, hcollected, hne, hbase, hc⟩ | _
    · exact .kept rfl fun _ => rfl
    · rw [failed_eq hwf.linked.scanFresh]
      exact .kept (versionOf_congr rfl) (sameBaseline_congr rfl rfl)
    · rename_i source observed
      have hsources : (req.baselined source observed db).sources = db.sources := by
        obtain ⟨_, _, _, -, heq⟩ := baselined_eq hwf req source observed
        rw [heq]
      by_cases hown : sourceId = source.id
      · refine .baselined (versionOf_congr hsources) fun hcompleted => ?_
        exact ⟨hcompleted, hown ▸ hbase, ⟨source, hof, hown.symm⟩, observed, hcollected, hne,
          (baselined_constraints_iff hwf hbase).1 hc⟩
      · exact .kept (versionOf_congr hsources) (sameBaseline_baselined hwf hwf' hown)
    · rw [drifted_eq hwf]
      exact .kept (versionOf_congr rfl) (sameBaseline_congr rfl rfl)
  | accept req =>
    have heff := acceptEffect hwf req
    have hwf' := accept_wellFormed hwf req
    rw [Op.apply]
    generalize hresult : acceptResult req db = result at heff
    generalize postAccept req db = after at heff hwf' ⊢
    rcases heff with _ | ⟨hchange, -, -, hrec, -, hp, -⟩
    · exact .kept rfl fun _ => rfl
    · rename_i change source dataset c rows
      by_cases hown : sourceId = source.id
      · exact .accepted rfl hresult
          (by rw [versionOf_accepted hwf.linked hrec.source_mem, if_pos hown])
      · refine .kept (by rw [versionOf_accepted hwf.linked hrec.source_mem, if_neg hown])
          fun ref => ?_
        rw [columnAt_promoted hwf.linked hwf.constraints hrec hwf'.linked hwf'.constraints rfl hp,
          if_neg fun h => hown h.1]
  | sync document =>
    rcases syncCatalog_cases document db with heq | ⟨_, _, _, -, heq, -, -⟩
    · rw [Op.apply, heq]
      exact .kept rfl fun _ => rfl
    · rw [Op.apply, heq]
      exact .kept (versionOf_congr rfl) (sameBaseline_congr rfl rfl)
  | relink pipelines edges =>
    rw [Op.apply, DB.relink]
    split
    · exact .kept (versionOf_congr rfl) (sameBaseline_congr rfl rfl)
    · exact .kept rfl fun _ => rfl

/-- A scan that has COMPLETED stays so. -/
theorem completed_apply (hwf : db.WellFormed) {op : Op} (hop : op.Regular fun _ => True)
    (h : db.Completed sourceId) : (op.apply db).Completed sourceId := by
  obtain ⟨scan, hscan, hof⟩ := h
  cases op with
  | scan req =>
    have heff := scanEffect hwf hop.1
    rw [Op.apply]
    generalize scanResult req db = result at heff
    generalize postScans req db = after at heff
    rcases heff with _ | _ | _ | _
    · exact ⟨scan, hscan, hof⟩
    · rw [failed_eq hwf.linked.scanFresh]
      exact ⟨scan, List.mem_append_left _ hscan, hof⟩
    · obtain ⟨_, _, _, -, heq⟩ := baselined_eq hwf req _ _
      rw [heq]
      exact ⟨scan, List.mem_append_left _ hscan, hof⟩
    · rw [drifted_eq hwf]
      exact ⟨scan, List.mem_append_left _ hscan, hof⟩
  | accept req =>
    have heff := acceptEffect hwf req
    rw [Op.apply]
    generalize acceptResult req db = result at heff
    generalize postAccept req db = after at heff
    rcases heff with _ | _ <;> exact ⟨scan, hscan, hof⟩
  | sync document =>
    rcases syncCatalog_cases document db with heq | ⟨_, _, _, -, heq, -, -⟩ <;>
      rw [Op.apply, heq] <;> exact ⟨scan, hscan, hof⟩
  | relink pipelines edges =>
    rw [Op.apply, DB.relink]
    split <;> exact ⟨scan, hscan, hof⟩

/-! ## Runs -/

/-- What every request keeps: the version never falls, and a scan that has
COMPLETED stays so. -/
structure History.Sound (sourceId : Uuid) (h : History) : Prop where
  wellFormed : h.db.WellFormed
  versions : ∀ old ∈ h.past, old.1.versionOf sourceId ≤ h.db.versionOf sourceId
  completed : ∀ old ∈ h.past, old.1.Completed sourceId → h.db.Completed sourceId

theorem History.Sound.apply {h : History} (hs : h.Sound sourceId) {op : Op}
    (hop : op.Regular fun _ => True) : (h.apply op).Sound sourceId := by
  have hrises : h.db.versionOf sourceId ≤ (op.apply h.db).versionOf sourceId := by
    rcases versionStep hs.wellFormed hop sourceId with ⟨hv, -⟩ | ⟨hv, -⟩ | ⟨-, -, hv⟩ <;> omega
  refine ⟨hs.wellFormed.apply hop, fun old hold => ?_, fun old hold hc => ?_⟩
  · rcases List.mem_cons.1 hold with rfl | hpast
    · exact hrises
    · exact (hs.versions old hpast).trans hrises
  · rcases List.mem_cons.1 hold with rfl | hpast
    · exact completed_apply hs.wellFormed hop hc
    · exact completed_apply hs.wellFormed hop (hs.completed old hpast hc)

/-- A first baseline made again is another one at the same version. -/
theorem not_identified_of_rebaselines {h : History} (hs : h.Sound sourceId) {op : Op}
    (hop : op.Regular fun _ => True) (hre : op.Rebaselines sourceId h.db) :
    ¬ (h.apply op).Identified sourceId := by
  intro hafter
  cases op with
  | scan req =>
    obtain ⟨hcompleted, hbase, ⟨source, hof, rfl⟩, observed, hcollected, hne, hdistinct, hfits⟩ :=
      hre
    have hwf := hs.wellFormed
    have hc : (req.baselined source observed h.db).Constraints :=
      baselined_constraints hwf hfits hdistinct hbase
    have hread := baseline?_eq hwf.linked source.id
    rw [hbase] at hread
    obtain ⟨-, hpost⟩ := scan_baselines hop.1 hwf.linked.scanFresh hwf.constraints hof hcollected
      hne hread hc
    rcases hafter.step (h.db, .scan req) rfl hcompleted with ⟨hsame, -⟩ | ⟨_, _, heq, -⟩
    · obtain ⟨a, ha⟩ := List.exists_mem_of_ne_nil _ hne
      have hmem : a ∈ (postScans req h.db).baseline source.id := by
        rw [hpost]
        exact (mem_baseline_baselined hwf (mem_of_sourceOf? hof).1 hbase hc a).2 ha
      obtain ⟨b, hb⟩ := exists_columnAt hmem
      have hnone := hsame a.ref
      rw [hbase] at hnone
      cases hb.symm.trans hnone
    · cases heq
  | accept | sync | relink => exact absurd hre (by simp [Op.Rebaselines])

/-- **A request keeps the version the baseline's name** unless it makes a
first baseline again. -/
theorem identified_apply_iff {h : History} (hs : h.Sound sourceId) (hid : h.Identified sourceId)
    {op : Op} (hop : op.Regular fun _ => True) :
    (h.apply op).Identified sourceId ↔ ¬ op.Rebaselines sourceId h.db := by
  refine ⟨fun hafter hre => not_identified_of_rebaselines hs hop hre hafter, fun hnot => ?_⟩
  -- what a state after a completed scan has in common with the next one
  have hkeep : h.db.versionOf sourceId = (op.apply h.db).versionOf sourceId →
      SameBaseline sourceId h.db (op.apply h.db) →
      ∀ old ∈ h.past, old.1.Completed sourceId →
        old.1.versionOf sourceId = (op.apply h.db).versionOf sourceId →
        SameBaseline sourceId old.1 (op.apply h.db) :=
    fun hv hsame old hold hc hold' ref =>
      (hsame ref).trans (hid.same old hold hc (hold'.trans hv.symm) ref)
  rcases versionStep hs.wellFormed hop sourceId with ⟨hv, hsame⟩ | ⟨-, hre⟩ | ⟨heq, hok, hv⟩
  · refine ⟨fun old hold hc hversion => ?_, fun old hold hc => ?_⟩
    · rcases List.mem_cons.1 hold with rfl | hpast
      · exact hsame
      · exact hkeep hv.symm hsame old hpast hc hversion
    · cases hold
      exact Or.inl ⟨hsame, hv⟩
  · have hfirst : ¬ h.db.Completed sourceId := fun hc => hnot (hre hc)
    refine ⟨fun old hold hc => ?_, fun old hold hc => ?_⟩
    · rcases List.mem_cons.1 hold with rfl | hpast
      · exact absurd hc hfirst
      · exact absurd (hs.completed old hpast hc) hfirst
    · cases hold
      exact absurd hc hfirst
  · refine ⟨fun old hold _ hversion => ?_, fun old hold _ => ?_⟩
    · have hle : old.1.versionOf sourceId ≤ h.db.versionOf sourceId := by
        rcases List.mem_cons.1 hold with rfl | hpast
        · exact le_refl _
        · exact hs.versions old hpast
      have hnow : (h.apply op).db.versionOf sourceId = h.db.versionOf sourceId + 1 := hv
      omega
    · cases hold
      exact Or.inr ⟨_, _, heq, hok, hv⟩

/-- **The version identifies the baseline throughout a run exactly where no
scan of it finds the baseline empty again.** -/
theorem version_identifies_iff {start : DB} (hinit : start.Initial) (sourceId : Uuid)
    {ops : List Op} (hops : ∀ op ∈ ops, op.Regular fun _ => True) :
    Lib.Path.Throughout History.apply (History.Identified sourceId) ops ⟨start, []⟩ ↔
      Lib.Path.Along History.apply (fun h op => ¬ op.Rebaselines sourceId h.db) ops
        ⟨start, []⟩ := by
  have hsound : (History.mk start []).Sound sourceId := ⟨hinit.wellFormed, by simp, by simp⟩
  have hid : (History.mk start []).Identified sourceId := ⟨by simp, by simp⟩
  have hkept : ∀ (h : History) op, h.Sound sourceId → (op.Regular fun _ => True) →
      (h.apply op).Sound sourceId := fun _ _ hs hop => hs.apply hop
  exact Path.throughout_iff_along hkept (fun h op hs hsame hop => identified_apply_iff hs hsame hop)
    ops hops hsound hid

end Versions

section Sample

attribute [local instance] Hashlib.plain

/-- A column takes another's place, the loss is accepted, and the next scan
finds nothing to compare with. -/
def sampleEmptied : List Op :=
  [.scan (sampleScan [sampleColumn "users" "id" "integer" false]),
   .scan (sampleScan [sampleColumn "users" "name" "text" true]),
   .accept { changeId := 4, baselineVersion := 1 }]

/-- The scan after that. -/
def sampleRescan : ScanRequest := sampleScan [sampleColumn "users" "name" "text" true]

theorem sampleEmptied_regular :
    ∀ op ∈ sampleEmptied ++ [.scan sampleRescan], op.Regular fun _ => True := by
  intro op hop
  simp only [sampleEmptied, List.cons_append, List.nil_append, List.mem_cons, List.not_mem_nil,
    or_false] at hop
  rcases hop with rfl | rfl | rfl | rfl
  · exact sampleScan_regular fun _ _ => True.intro
  · exact sampleScan_regular fun _ _ => True.intro
  · exact True.intro
  · exact sampleScan_regular fun _ _ => True.intro

/-- In the sample the run is decided. -/
theorem version_identifies_iff_sample :
    Lib.Path.Throughout History.apply (History.Identified 0) (sampleEmptied ++ [.scan sampleRescan])
        ⟨sampleStart, []⟩ ↔
      Lib.Path.Along History.apply (fun h op => ¬ op.Rebaselines 0 h.db)
        (sampleEmptied ++ [.scan sampleRescan]) ⟨sampleStart, []⟩ :=
  version_identifies_iff sampleStart_initial 0 sampleEmptied_regular

/-- Where the sample's run is before its last scan. -/
def sampleEmpty : DB := sampleEmptied.foldl (fun db op => op.apply db) sampleStart

/-- **A scan changes the baseline at the version it has**: in the sample
nothing is expected at version 2, and after a scan something is. -/
theorem scan_changes_baseline :
    sampleEmpty.Reachable (fun _ => True) ∧ sampleEmpty.Completed 0 ∧
    sampleEmpty.versionOf 0 = 2 ∧ (postScans sampleRescan sampleEmpty).versionOf 0 = 2 ∧
    sampleEmpty.baseline 0 = [] ∧
    (postScans sampleRescan sampleEmpty).baseline 0 = [sampleColumn "users" "name" "text" true] ∧
    ¬ SameBaseline 0 sampleEmpty (postScans sampleRescan sampleEmpty) := by
  have hpath : Lib.Path Op.apply (fun _ op => op.Regular fun _ => True) sampleStart sampleEmpty :=
    Path.of_events _ fun op hop _ => sampleEmptied_regular op (List.mem_append_left _ hop)
  have hrun : sampleEmpty.Completed 0 ∧ sampleEmpty.versionOf 0 = 2 ∧
      (postScans sampleRescan sampleEmpty).versionOf 0 = 2 ∧ sampleEmpty.baseline 0 = [] ∧
      (postScans sampleRescan sampleEmpty).baseline 0 =
        [sampleColumn "users" "name" "text" true] := by
    decide +kernel
  obtain ⟨hcompleted, hbefore, hafter, hnone, hsome⟩ := hrun
  refine ⟨⟨sampleStart, sampleStart_initial, hpath⟩, hcompleted, hbefore, hafter, hnone, hsome,
    fun h => ?_⟩
  have hsame := h ⟨⟨"public", "users"⟩, "name"⟩
  rw [hnone, hsome] at hsame
  revert hsame
  decide +kernel

end Sample

end SchemaSentry
