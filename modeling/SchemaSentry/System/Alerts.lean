import SchemaSentry.System.Progress
/-!
# Schema Sentry — repeated drift

Drift scans of one source, one after another, with neither an acceptance
nor a sync between them. The diff compares a column's type and
nullability, a fingerprint digests its default and its ordinal as well:
one row stays OPEN for a drift, and no scan after the first opens another,
exactly where neither of the two varies (`alertsOnce_iff`).
-/

namespace SchemaSentry

open Lib

section Alerts

variable [Hashlib]

/-! ## Sequences of drift scans -/

/-- A scan, the tables it met and what its collector returned. -/
structure DriftStep where
  before : DB
  scan : ScanRequest
  observed : List ColumnDefinition

def DriftStep.after (s : DriftStep) : DB := postScans s.scan s.before

/-- The scan completes as a drift scan of the source. -/
structure DriftStep.Completes (source : DataSourceModel) (s : DriftStep) : Prop where
  faults : s.scan.faults = noFaults
  source : s.before.sourceOf? s.scan.sourceKey = some source
  collected : s.scan.collected = .ok s.observed
  completed : ∃ report, scanResult s.scan s.before = .ok report ∧ report.baselineCreated = false

/-- Drift scans of a source, each in the tables the one before it left. -/
def DriftScans (source : DataSourceModel) : DB → List DriftStep → Prop
  | _, [] => True
  | db, s :: rest => s.before = db ∧ s.Completes source ∧ DriftScans source s.after rest

/-- The differences a step's scan finds. -/
def DriftStep.changes (source : DataSourceModel) (s : DriftStep) : List SchemaChange :=
  s.before.driftChanges source (s.before.baseline source.id) s.observed

/-- The differences a step's scan opens. -/
def DriftStep.opened (source : DataSourceModel) (s : DriftStep) : List SchemaChange :=
  s.before.opened source (s.before.baseline source.id) s.observed

variable {db : DB} {source : DataSourceModel} {s s' : DriftStep} {steps : List DriftStep}
variable {ref : ColumnRef} {kind : ChangeType} {c : SchemaChange} {row : SchemaChangeModel}

/-- What a drift scan that completes leaves. -/
theorem DriftStep.Completes.after_eq (hwf : s.before.WellFormed) (h : s.Completes source) :
    s.after = s.scan.drifted source (s.before.baseline source.id) s.observed s.before ∧
      InDatasets (s.before.datasetsByRef source.id) (s.opened source) ∧ s.after.WellFormed := by
  obtain ⟨report, hscan, hdrift⟩ := h.completed
  have hwf' : s.after.WellFormed := scan_wellFormed hwf h.faults
  have heff := scanEffect hwf h.faults
  have hcollected := h.collected
  have hsource := h.source
  rw [hscan] at heff
  unfold DriftStep.after DriftStep.opened at *
  generalize postScans s.scan s.before = after at heff hwf' ⊢
  rcases heff with _ | _ | _ | ⟨hof, hcol, -, -, hin, -⟩
  · cases hdrift
  · cases hcollected.symm.trans hcol
    cases hsource.symm.trans hof
    exact ⟨rfl, hin, hwf'⟩

/-- Drift scans change neither the baseline nor the dependencies. -/
theorem DriftScans.frame (hwf : db.WellFormed) (h : DriftScans source db steps) :
    ∀ s ∈ steps, s.before.WellFormed ∧ s.Completes source ∧
      s.before.baseline source.id = db.baseline source.id ∧
      s.before.dependencies source.id = db.dependencies source.id := by
  induction steps generalizing db with
  | nil => exact fun s hs => nomatch hs
  | cons s rest ih =>
    obtain ⟨rfl, hcompletes, hrest⟩ := h
    obtain ⟨hafter, -, hwf'⟩ := hcompletes.after_eq hwf
    intro t ht
    rcases List.mem_cons.1 ht with rfl | hmem
    · exact ⟨hwf, hcompletes, rfl, rfl⟩
    · obtain ⟨ht1, ht2, hbase, hdeps⟩ := ih hwf' hrest t hmem
      rw [hafter] at hbase hdeps
      exact ⟨ht1, ht2, hbase.trans (baseline_drifted hwf source.id),
        hdeps.trans (dependencies_drifted hwf source.id)⟩

/-! ## One drift -/

/-- A drift of a column is in every scan of the sequence, with one observed
type and nullability. -/
structure Persists (source : DataSourceModel) (ref : ColumnRef) (kind : ChangeType)
    (steps : List DriftStep) : Prop where
  present : ∀ s ∈ steps, ∃ c ∈ s.changes source, c.ref = ref ∧ c.changeType = kind
  observed : ∀ s ∈ steps, ∀ s' ∈ steps,
    (columnAt s.observed ref).map (fun o => (o.dataType, o.nullable)) =
      (columnAt s'.observed ref).map fun o => (o.dataType, o.nullable)

/-- One row is the drift's OPEN row after every scan, and none but the first
scan opens a row for the drift. -/
def AlertsOnce (source : DataSourceModel) (ref : ColumnRef) (kind : ChangeType)
    (steps : List DriftStep) : Prop :=
  (∃ row, ∀ s ∈ steps, ∃ c ∈ s.changes source, c.ref = ref ∧ c.changeType = kind ∧
      changeFingerprint source.key c = row.fingerprint ∧
      ∀ other, (other ∈ s.after.openRows source.id ∧ other.fingerprint = row.fingerprint) ↔
        other = row) ∧
    ∀ s ∈ steps.tail, ∀ c ∈ s.opened source, ¬ (c.ref = ref ∧ c.changeType = kind)

/-- The column's default and ordinal are observed alike in every scan. -/
def SameDetails (ref : ColumnRef) (steps : List DriftStep) : Prop :=
  ∀ s ∈ steps, ∀ s' ∈ steps, (columnAt s.observed ref).map (fun o => (o.default, o.ordinal)) =
    (columnAt s'.observed ref).map fun o => (o.default, o.ordinal)

/-- After the scan some OPEN row has the drift's fingerprint. -/
theorem exists_row_after (hwf : s.before.WellFormed) (h : s.Completes source)
    (hc : c ∈ s.changes source) :
    ∃ row ∈ s.after.openRows source.id, row.fingerprint = changeFingerprint source.key c := by
  obtain ⟨hafter, hin, -⟩ := h.after_eq hwf
  rw [hafter]
  by_cases hknown : changeFingerprint source.key c ∈ Dict.keys (s.before.openChanges source.id)
  · obtain ⟨row, hrow, hfp⟩ := (mem_keys_openChanges hwf.constraints).1 hknown
    refine ⟨row, (mem_openRows_drifted hwf).2 (Or.inl ⟨hrow, ?_⟩), hfp⟩
    rw [hfp]
    exact List.mem_map_of_mem hc
  · have hnew : c ∈ s.opened source := List.mem_filter.2 ⟨hc, by simpa using hknown⟩
    obtain ⟨d, hd, hs, href⟩ := (mem_keys_datasetsByRef hwf.constraints).1 (hin c hnew)
    obtain ⟨id, hrow⟩ : ∃ id, openedRow s.before.nextId source d c id ∈
        s.scan.openedRows source (s.before.baseline source.id) s.observed s.before :=
      exists_openedRow hwf hnew hd hs href
    exact ⟨_, (mem_openRows_drifted hwf).2 (Or.inr hrow), rfl⟩

/-- A row with the fingerprint of one of the scan's differences stays OPEN,
and the difference is not opened again. -/
theorem kept_of_fingerprint (hwf : s.before.WellFormed) (h : s.Completes source)
    (hrow : row ∈ s.before.openRows source.id) (hc : c ∈ s.changes source)
    (hfp : row.fingerprint = changeFingerprint source.key c) :
    row ∈ s.after.openRows source.id ∧ c ∉ s.opened source := by
  obtain ⟨hafter, -, -⟩ := h.after_eq hwf
  constructor
  · rw [hafter]
    refine (mem_openRows_drifted hwf).2 (Or.inl ⟨hrow, ?_⟩)
    rw [hfp]
    exact List.mem_map_of_mem hc
  · intro hopened
    have hnot := (List.mem_filter.1 hopened).2
    have hknown := (mem_keys_openChanges hwf.constraints).2 ⟨row, hrow, hfp⟩
    exact absurd hknown (by simpa using hnot)

/-- An OPEN row is told apart by its fingerprint. -/
theorem open_and_fingerprint_iff (hwf : db.WellFormed) (hrow : row ∈ db.openRows source.id)
    (other : SchemaChangeModel) :
    (other ∈ db.openRows source.id ∧ other.fingerprint = row.fingerprint) ↔ other = row := by
  constructor
  · rintro ⟨hother, hfp⟩
    exact eq_of_nodup_map (nodup_openFingerprints hwf.constraints source.id) hother hrow hfp
  · rintro rfl
    exact ⟨hrow, rfl⟩

/-- **A run of scans keeps the drift's row**, where all of them find one
fingerprint. -/
theorem DriftScans.kept (hwf : db.WellFormed) (h : DriftScans source db steps)
    (hrow : row ∈ db.openRows source.id)
    (hsame : ∀ s ∈ steps, ∃ c ∈ s.changes source, c.ref = ref ∧ c.changeType = kind ∧
      changeFingerprint source.key c = row.fingerprint) :
    ∀ s ∈ steps, row ∈ s.after.openRows source.id ∧
      ∀ c ∈ s.opened source, ¬ (c.ref = ref ∧ c.changeType = kind) := by
  induction steps generalizing db with
  | nil => exact fun s hs => nomatch hs
  | cons s rest ih =>
    obtain ⟨rfl, hcompletes, hrest⟩ := h
    obtain ⟨c, hc, href, hkind, hfp⟩ := hsame s List.mem_cons_self
    obtain ⟨-, -, hwf'⟩ := hcompletes.after_eq hwf
    obtain ⟨hkept, hnot⟩ := kept_of_fingerprint hwf hcompletes hrow hc hfp.symm
    intro t ht
    rcases List.mem_cons.1 ht with rfl | hmem
    · refine ⟨hkept, fun c' hc' hdrift => hnot ?_⟩
      have hc'' : c' ∈ t.changes source := List.mem_of_mem_filter hc'
      rw [eq_of_mem_diffColumns hc hc'' (href.trans hdrift.1.symm) (hkind.trans hdrift.2.symm)]
      exact hc'
    · exact ih hwf' hrest hkept (fun t ht => hsame t (List.mem_cons_of_mem _ ht)) t hmem

/-! ## When drift alerts once -/

/-- Where a persisting drift's details do not vary, its difference does not. -/
theorem eq_of_sameDetails (hwf : db.WellFormed) (h : DriftScans source db steps)
    (hpersists : Persists source ref kind steps) (hsame : SameDetails ref steps)
    {c' : SchemaChange} (hs : s ∈ steps) (hs' : s' ∈ steps)
    (hc : c ∈ s.changes source) (hcref : c.ref = ref) (hckind : c.changeType = kind)
    (hc' : c' ∈ s'.changes source) (hcref' : c'.ref = ref) (hckind' : c'.changeType = kind) :
    c = c' := by
  obtain ⟨-, -, hbase, hdeps⟩ := h.frame hwf s hs
  obtain ⟨-, -, hbase', hdeps'⟩ := h.frame hwf s' hs'
  have hcolumn : columnAt s.observed ref = columnAt s'.observed ref := by
    have htypes := hpersists.observed s hs s' hs'
    have hdetails := hsame s hs s' hs'
    cases ho : columnAt s.observed ref with
    | none =>
      rw [ho] at htypes
      cases ho' : columnAt s'.observed ref with
      | none => rfl
      | some o' => simp [ho'] at htypes
    | some o =>
      rw [ho] at htypes hdetails
      cases ho' : columnAt s'.observed ref with
      | none => simp [ho'] at htypes
      | some o' =>
        simp only [ho', Option.map_some, Option.some.injEq, Prod.mk.injEq] at htypes hdetails
        have hrefs : o.ref = o'.ref :=
          (ref_of_columnAt o ho).trans (ref_of_columnAt o' ho').symm
        obtain ⟨hdataset, hname⟩ := ColumnRef.mk.inj hrefs
        cases o
        cases o'
        simp_all
  have hmem : c ∈ s'.changes source := by
    have hmem := mem_diffColumns.1 hc
    rw [hcref, hbase, hdeps, hcolumn] at hmem
    refine mem_diffColumns.2 ?_
    rw [hcref, hbase', hdeps']
    exact hmem
  exact eq_of_mem_diffColumns hmem hc' (hcref.trans hcref'.symm) (hckind.trans hckind'.symm)

/-- A difference's fingerprint says the default and the ordinal observed. -/
theorem details_of_fingerprint [Hashlib.CollisionFree] {c' : SchemaChange}
    (hc : c ∈ s.changes source) (hc' : c' ∈ s'.changes source) (hcref : c.ref = ref)
    (hcref' : c'.ref = ref)
    (hfp : changeFingerprint source.key c = changeFingerprint source.key c') :
    (columnAt s.observed ref).map (fun o => (o.default, o.ordinal)) =
      (columnAt s'.observed ref).map fun o => (o.default, o.ordinal) := by
  have hdict := (changeFingerprint_inj hfp).2
  have hd : c.dataset = c'.dataset := congrArg ColumnRef.dataset (hcref.trans hcref'.symm)
  obtain rfl := SchemaChange.eq_of_toCanonicalDict (filed_of_mem_diffColumns hc)
    (filed_of_mem_diffColumns hc') hdict hd
  obtain ⟨-, hafter⟩ := sides_of_mem_diffColumns hc
  obtain ⟨-, hafter'⟩ := sides_of_mem_diffColumns hc'
  rw [hcref] at hafter hafter'
  rw [← hafter, ← hafter']

/-- **Where a drift alerted once, its details did not vary.** -/
theorem AlertsOnce.sameDetails [Hashlib.CollisionFree] (h : AlertsOnce source ref kind steps) :
    SameDetails ref steps := by
  obtain ⟨⟨row, hrow⟩, -⟩ := h
  intro s hs s' hs'
  obtain ⟨c, hc, hcref, -, hfp, -⟩ := hrow s hs
  obtain ⟨c', hc', hcref', -, hfp', -⟩ := hrow s' hs'
  exact details_of_fingerprint hc hc' hcref hcref' (hfp.trans hfp'.symm)

/-- **Unresolved drift alerts once exactly where its default and its ordinal
do not vary.** -/
theorem alertsOnce_iff [Hashlib.CollisionFree] (hreach : db.Reachable fun _ => True)
    (h : DriftScans source db steps) (hne : steps ≠ [])
    (hpersists : Persists source ref kind steps) :
    AlertsOnce source ref kind steps ↔ SameDetails ref steps := by
  have hwf := hreach.wellFormed
  refine ⟨AlertsOnce.sameDetails, fun hsame => ?_⟩
  obtain ⟨s, rest, rfl⟩ := List.exists_cons_of_ne_nil hne
  have hfirst : s ∈ s :: rest := List.mem_cons_self
  obtain ⟨c, hc, hcref, hckind⟩ := hpersists.present s hfirst
  have hfps : ∀ t ∈ s :: rest, ∃ c' ∈ t.changes source, c'.ref = ref ∧ c'.changeType = kind ∧
      changeFingerprint source.key c' = changeFingerprint source.key c := by
    intro t ht
    obtain ⟨c', hc', hcref', hckind'⟩ := hpersists.present t ht
    refine ⟨c', hc', hcref', hckind', ?_⟩
    rw [eq_of_sameDetails hwf h hpersists hsame hfirst ht hc hcref hckind hc' hcref' hckind']
  obtain ⟨rfl, hcompletes, hrest⟩ := id h
  obtain ⟨-, -, hwf'⟩ := hcompletes.after_eq hwf
  obtain ⟨row, hrow, hrowfp⟩ := exists_row_after hwf hcompletes hc
  have hlater : ∀ t ∈ rest, ∃ c' ∈ t.changes source, c'.ref = ref ∧ c'.changeType = kind ∧
      changeFingerprint source.key c' = row.fingerprint := by
    intro t ht
    obtain ⟨c', hc', hcref', hckind', hfp⟩ := hfps t (List.mem_cons_of_mem _ ht)
    exact ⟨c', hc', hcref', hckind', hfp.trans hrowfp.symm⟩
  have hkept := hrest.kept hwf' hrow hlater
  refine ⟨⟨row, fun t ht => ?_⟩, fun t ht => (hkept t ht).2⟩
  obtain ⟨c', hc', hcref', hckind', hfp⟩ := hfps t ht
  have hopen : row ∈ t.after.openRows source.id := by
    rcases List.mem_cons.1 ht with rfl | hmem
    · exact hrow
    · exact (hkept t hmem).1
  have hafter : t.after.WellFormed := by
    obtain ⟨htwf, htc, -, -⟩ := h.frame hwf t ht
    exact (htc.after_eq htwf).2.2
  exact ⟨c', hc', hcref', hckind', hfp.trans hrowfp.symm,
    open_and_fingerprint_iff hafter hopen⟩

end Alerts

section Sample

attribute [local instance] Hashlib.plain

/-- The column the pipeline reads, turned nullable, with a default. -/
def sampleNullable (default : Option String) : List ColumnDefinition :=
  [{ sampleColumn "users" "id" "integer" true with default := default },
   sampleColumn "mart" "id" "integer" false]

/-- What a scan finds of it. -/
def sampleRenulled (default : Option String) : SchemaChange :=
  .renull (sampleColumn "users" "id" "integer" false)
    { sampleColumn "users" "id" "integer" true with default := default }
    [⟨⟨"public", "users"⟩, "id"⟩]

/-- Two drift scans, the second of which sees a default of its own. -/
def sampleSteps (default : Option String) : List DriftStep :=
  [⟨sampleTables, sampleScan (sampleNullable none), sampleNullable none⟩,
   ⟨postScans (sampleScan (sampleNullable none)) sampleTables,
    sampleScan (sampleNullable default), sampleNullable default⟩]

/-- The column that drifts. -/
def sampleDrifting : ColumnRef := ⟨⟨"public", "users"⟩, "id"⟩

/-- A scan that finds one difference, in a dataset there is, completes. -/
theorem completes_of_single {source : DataSourceModel} {s : DriftStep} {c : SchemaChange}
    (hwf : s.before.WellFormed) (hf : s.scan.faults = noFaults)
    (hsource : s.before.sourceOf? s.scan.sourceKey = some source)
    (hcollected : s.scan.collected = .ok s.observed) (hne : s.observed ≠ [])
    (hfits : Fits s.observed) (hbase : s.before.baseline source.id ≠ [])
    (hchanges : s.changes source = [c]) (hd : c.dataset ∈ Dict.keys (s.before.datasetsByRef source.id)) :
    s.Completes source ∧
      s.after = s.scan.drifted source (s.before.baseline source.id) s.observed s.before := by
  have hsub : (s.opened source).Sublist [c] := hchanges ▸ List.filter_sublist
  have hin : InDatasets (s.before.datasetsByRef source.id) (s.opened source) := by
    intro c' hc'
    rw [List.mem_singleton.1 (hsub.subset hc')]
    exact hd
  obtain ⟨hresult, hpost, -⟩ := scan_records hwf hf hsource hcollected hne hfits hbase hin
    (List.Nodup.sublist (hsub.map _) (List.nodup_singleton _))
  exact ⟨⟨hf, hsource, hcollected, _, hresult, rfl⟩, hpost⟩

/-- Both scans of the sample complete and find the column nullable. -/
theorem sampleSteps_persist {default : Option String} (hfits : Fits (sampleNullable default))
    (hchanges : sampleTables.driftChanges sampleSource (sampleTables.baseline 0)
      (sampleNullable default) = [sampleRenulled default])
    (hobserved : columnAt (sampleNullable default) sampleDrifting =
      some { sampleColumn "users" "id" "integer" true with default := default }) :
    DriftScans sampleSource sampleTables (sampleSteps default) ∧
      Persists sampleSource sampleDrifting .nullabilityChange (sampleSteps default) := by
  have hwf : sampleTables.WellFormed := sampleTables_reachable.wellFormed
  have hfirst : sampleTables.driftChanges sampleSource (sampleTables.baseline 0)
      (sampleNullable none) = [sampleRenulled none] := by decide +kernel
  obtain ⟨hcompletes, hpost⟩ := completes_of_single
    (s := ⟨sampleTables, sampleScan (sampleNullable none), sampleNullable none⟩) hwf rfl
    (by decide) rfl (by decide) (by decide) (by decide +kernel) hfirst (by decide +kernel)
  -- the second scan meets the baseline, the dependencies and the datasets of the first
  have hwf' : (postScans (sampleScan (sampleNullable none)) sampleTables).WellFormed :=
    scan_wellFormed hwf rfl
  have hbefore : postScans (sampleScan (sampleNullable none)) sampleTables =
      (sampleScan (sampleNullable none)).drifted sampleSource (sampleTables.baseline 0)
        (sampleNullable none) sampleTables := hpost
  have hbase : (postScans (sampleScan (sampleNullable none)) sampleTables).baseline 0 =
      sampleTables.baseline 0 := by rw [hbefore, baseline_drifted hwf]
  have hsecond : DriftStep.changes sampleSource
      ⟨postScans (sampleScan (sampleNullable none)) sampleTables,
        sampleScan (sampleNullable default), sampleNullable default⟩ = [sampleRenulled default] := by
    rw [← hchanges, DriftStep.changes, DB.driftChanges, DB.driftChanges]
    show diffColumns (DB.baseline _ 0) _ (DB.dependencies _ 0) = _
    rw [hbase, hbefore, dependencies_drifted hwf]
    rfl
  obtain ⟨hcompletes', -⟩ := completes_of_single
    (s := ⟨postScans (sampleScan (sampleNullable none)) sampleTables,
      sampleScan (sampleNullable default), sampleNullable default⟩) hwf' rfl
    (by
      rw [hbefore, drifted_eq hwf]
      show sampleTables.sourceOf? "crm" = some sampleSource
      decide) rfl (by simp [sampleNullable]) hfits
    (by
      show DB.baseline _ 0 ≠ []
      rw [hbase]
      decide +kernel) hsecond
    (by
      rw [hbefore, drifted_eq hwf]
      show (⟨"public", "users"⟩ : DatasetRef) ∈ Dict.keys (sampleTables.datasetsByRef 0)
      decide +kernel)
  have hnone : columnAt (sampleNullable none) sampleDrifting =
      some (sampleColumn "users" "id" "integer" true) := by decide
  refine ⟨⟨rfl, hcompletes, rfl, hcompletes', trivial⟩, fun s hs => ?_, fun s hs s' hs' => ?_⟩
  · rcases List.mem_pair.1 hs with rfl | rfl
    · exact ⟨_, hfirst ▸ List.mem_singleton_self _, rfl, rfl⟩
    · exact ⟨_, hsecond ▸ List.mem_singleton_self _, rfl, rfl⟩
  · rcases List.mem_pair.1 hs with rfl | rfl <;> rcases List.mem_pair.1 hs' with rfl | rfl <;>
      simp [hnone, hobserved]

/-- **A new default alerts again**: in the sample one drift, observed with
another default, is opened by the second scan too. -/
theorem new_default_alerts_again :
    sampleTables.Reachable (fun _ => True) ∧
    DriftScans sampleSource sampleTables (sampleSteps (some "0")) ∧
    Persists sampleSource sampleDrifting .nullabilityChange (sampleSteps (some "0")) ∧
    ¬ AlertsOnce sampleSource sampleDrifting .nullabilityChange (sampleSteps (some "0")) := by
  have := Hashlib.collisionFree_plain
  obtain ⟨hscans, hpersists⟩ : DriftScans sampleSource sampleTables (sampleSteps (some "0")) ∧
      Persists sampleSource sampleDrifting .nullabilityChange (sampleSteps (some "0")) :=
    sampleSteps_persist (by decide) (by decide +kernel) (by decide)
  refine ⟨sampleTables_reachable.any, hscans, hpersists, fun honce => ?_⟩
  have hsame := honce.sameDetails _ List.mem_cons_self _ (List.mem_cons_of_mem _ List.mem_cons_self)
  exact absurd hsame (by decide)

/-- In the sample a drift observed alike twice alerts once. -/
theorem alertsOnce_iff_sample :
    AlertsOnce sampleSource sampleDrifting .nullabilityChange (sampleSteps none) ↔
      SameDetails sampleDrifting (sampleSteps none) := by
  have := Hashlib.collisionFree_plain
  obtain ⟨hscans, hpersists⟩ : DriftScans sampleSource sampleTables (sampleSteps none) ∧
      Persists sampleSource sampleDrifting .nullabilityChange (sampleSteps none) :=
    sampleSteps_persist (by decide) (by decide +kernel) (by decide)
  exact alertsOnce_iff sampleTables_reachable.any hscans (by simp [sampleSteps]) hpersists

end Sample

end SchemaSentry
