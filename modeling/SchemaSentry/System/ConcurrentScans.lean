import SchemaSentry.Application.Locks
import SchemaSentry.System.Progress
/-!
# Schema Sentry — concurrent scans

Any number of scans of one source, statement by statement in any order, each
of which may end at any point without a commit. `concurrent_scans`: what is
committed is what those that got the lock and committed leave one after
another, with one first baseline at most and no difference OPEN twice.
-/

namespace SchemaSentry

open Lib DbM

section Concurrent

variable [Hashlib]

/-! ## One after another -/

/-- The transactions of scan requests. -/
def scanTx (reqs : ℕ → ScanRequest) (i : ℕ) :
    Tx DB Uuid String (Except PyException ScanReport × Session) :=
  runScan (reqs i) Session.new

omit [Hashlib] in
/-- The scan returned and had created the baseline. -/
def createsBaseline (outcome : Except PyException ScanReport × Session) : Bool :=
  match outcome.1 with
  | .ok report => report.baselineCreated
  | .error _ => false

variable {reqs : ℕ → ScanRequest} {sourceKey : String} {first db : DB}

/-- What scans one after another keep: the tables are well-formed with the
sources there were, and there is a baseline once one has been created. -/
structure ScanHistory (sourceKey : String) (first : DB)
    (commits : List (ℕ × (Except PyException ScanReport × Session))) (db : DB) : Prop where
  wellFormed : db.WellFormed
  sources : db.sources = first.sources
  once : (commits.filter fun h => createsBaseline h.2).length ≤ 1
  based : ∀ source, db.sourceOf? sourceKey = some source →
    (∃ h ∈ commits, createsBaseline h.2 = true) → db.baseline source.id ≠ []

/-- One scan more. -/
theorem ScanHistory.snoc {commits : List (ℕ × (Except PyException ScanReport × Session))}
    (h : ScanHistory sourceKey first commits db) {i : ℕ} (hkey : (reqs i).sourceKey = sourceKey)
    (hf : (reqs i).faults = noFaults) :
    ScanHistory sourceKey first (commits ++ [(i, (scanTx reqs i).run db)])
      (scanPublish ((scanTx reqs i).run db) db) := by
  have hwf := h.wellFormed
  have hwf' : (postScans (reqs i) db).WellFormed := scan_wellFormed hwf hf
  have hresult : createsBaseline ((scanTx reqs i).run db) =
      match scanResult (reqs i) db with
      | .ok report => report.baselineCreated
      | .error _ => false := rfl
  have heff := scanEffect hwf hf
  show ScanHistory sourceKey first _ (postScans (reqs i) db)
  generalize (scanTx reqs i).run db = outcome at hresult
  generalize scanResult (reqs i) db = result at heff hresult
  generalize postScans (reqs i) db = after at heff hwf'
  have hold : createsBaseline outcome = false → after.sources = db.sources →
      (∀ sourceId, after.baseline sourceId = db.baseline sourceId) →
      ScanHistory sourceKey first (commits ++ [(i, outcome)]) after := by
    intro hnot hsources hbaseline
    refine ⟨hwf', hsources.trans h.sources, ?_, fun source hsource hex => ?_⟩
    · rw [List.filter_append, List.filter_singleton, hnot]
      simpa using h.once
    · rw [hbaseline]
      refine h.based source (by unfold DB.sourceOf? at hsource ⊢; rwa [hsources] at hsource) ?_
      obtain ⟨x, hx, hcreates⟩ := hex
      rcases List.mem_append.1 hx with hmem | hnew
      · exact ⟨x, hmem, hcreates⟩
      · rw [List.mem_singleton.1 hnew, hnot] at hcreates
        cases hcreates
  rcases heff with _ | _ | @⟨source, observed, hsource, -, hne, hempty, hc⟩ | ⟨_, _, _, _, _, _⟩
  · exact hold hresult rfl fun _ => rfl
  · refine hold hresult ?_ fun sourceId => baseline_congr ?_ ?_ sourceId
    all_goals rw [failed_eq hwf.linked.scanFresh]
  · -- the first baseline: none was created before it
    rw [hkey] at hsource
    have hnone : commits.filter (fun h => createsBaseline h.2) = [] := by
      refine List.filter_eq_nil_iff.2 fun x hx hcreates => ?_
      exact h.based source hsource ⟨x, hx, hcreates⟩ hempty
    obtain ⟨next, added, rows, -, heq⟩ := baselined_eq hwf (reqs i) source observed
    have hsources : ((reqs i).baselined source observed db).sources = db.sources := by rw [heq]
    refine ⟨hwf', hsources.trans h.sources, ?_, fun source' hsource' _ => ?_⟩
    · have hcreates : createsBaseline (i, outcome).2 = true := hresult
      rw [List.filter_append, hnone, List.filter_singleton, hcreates]
      exact Nat.le_refl _
    · unfold DB.sourceOf? at hsource hsource'
      rw [hsources] at hsource'
      obtain rfl : source = source' := Option.some.inj (hsource.symm.trans hsource')
      obtain ⟨column, hcolumn⟩ := List.exists_mem_of_ne_nil observed hne
      have hmem := (mem_baseline_baselined hwf (mem_of_sourceOf? hsource).1 hempty hc column).2
        hcolumn
      exact List.ne_nil_of_mem hmem
  · refine hold hresult ?_ (baseline_drifted hwf)
    rw [drifted_eq hwf]

/-- Scans one after another. -/
theorem scanHistory_of_serial (hkey : ∀ i, (reqs i).sourceKey = sourceKey)
    (hf : ∀ i, (reqs i).faults = noFaults) (hwf : first.WellFormed)
    {commits : List (ℕ × (Except PyException ScanReport × Session))}
    (h : Serial (scanTx reqs) scanPublish first commits db) :
    ScanHistory sourceKey first commits db := by
  induction h with
  | nil =>
    refine ⟨hwf, rfl, Nat.zero_le _, fun _ _ hex => ?_⟩
    obtain ⟨x, hx, -⟩ := hex
    cases hx
  | snoc _ ih => exact ih.snoc (hkey _) (hf _)

/-! ## Side by side -/

open Classical in
/-- **Scans of a source side by side**: the committed state is that of
running those that got the lock and committed one after another, the first
baseline is created once at most, no difference is OPEN in two rows, and a
scan that does not get the lock raises `ScanAlreadyRunning` and leaves
nothing. -/
structure ConcurrentScans (reqs : ℕ → ScanRequest) (sourceKey : String) (first : DB)
    (es : List (Event ℕ))
    (cfg : Config ℕ DB Uuid String (Except PyException ScanReport × Session)) : Prop where
  serial : Serial (scanTx reqs) scanPublish first (cfg.history.filter fun h =>
    Acquired scanPublish (Config.init (scanTx reqs) first) es h.1) cfg.shared
  once : (cfg.history.filter fun h => createsBaseline h.2).length ≤ 1
  openRows : cfg.shared.openFingerprints.Nodup
  refused : ∀ i, ¬ Acquired scanPublish (Config.init (scanTx reqs) first) es i →
    cfg.phase i = .running (scanTx reqs i) ∨ cfg.phase i = .running (.ret (refusal sourceKey)) ∨
      cfg.phase i = .committed (refusal sourceKey) ∨ cfg.phase i = .aborted
  traceless : ∀ db, scanPublish (refusal sourceKey) db = db

/-- **Concurrent scans of one source run one at a time**, in every schedule
of their statements, commits and rollbacks. -/
theorem concurrent_scans (hkey : ∀ i, (reqs i).sourceKey = sourceKey)
    (hf : ∀ i, (reqs i).faults = noFaults) (hwf : first.WellFormed) {es : List (Event ℕ)}
    {cfg : Config ℕ DB Uuid String (Except PyException ScanReport × Session)}
    (hexec : Config.exec scanPublish es (Config.init (scanTx reqs) first) = some cfg) :
    ConcurrentScans reqs sourceKey first es cfg := by
  classical
  have hprog : ∀ i, (scanTx reqs i).UnderKey sourceKey (refusal sourceKey) := by
    intro i
    have hunder := underKey_runScan (reqs i)
    rwa [hkey i] at hunder
  have hquiet : ∀ db, scanPublish (refusal sourceKey) db = db := scanPublish_refusal
  have hexcl := exclusive_exec hprog hquiet es first hexec
  have hhistory := scanHistory_of_serial hkey hf hwf hexcl.serial
  refine ⟨hexcl.serial, ?_, hhistory.wellFormed.constraints.openFingerprint, hexcl.others, hquiet⟩
  -- what a refused scan ended with created nothing
  have hsame : cfg.history.filter (fun h => createsBaseline h.2) =
      (cfg.history.filter fun h => Acquired scanPublish (Config.init (scanTx reqs) first) es
        h.1).filter fun h => createsBaseline h.2 := by
    rw [List.filter_filter]
    refine List.filter_congr fun h hh => ?_
    by_cases hacq : Acquired scanPublish (Config.init (scanTx reqs) first) es h.1
    · simp [hacq]
    · have hended := hexcl.ended h hh
      have hrefusal : h.2 = refusal sourceKey := by
        rcases hexcl.others h.1 hacq with heq | heq | heq | heq
        · cases hended.symm.trans heq
        · cases hended.symm.trans heq
        · exact Phase.committed.inj (hended.symm.trans heq)
        · cases hended.symm.trans heq
      rw [hrefusal]
      simp [hacq, createsBaseline, refusal]
  rw [hsame]
  exact hhistory.once

end Concurrent

section Sample

attribute [local instance] Hashlib.plain

/-- Scans of the source that find its one column. -/
def sampleScans (_ : ℕ) : ScanRequest := sampleScan [sampleColumn "users" "id" "integer" false]

/-- A second scan comes while the first one has the lock, and a third is
rolled back. -/
def sampleSchedule : List (Event ℕ) :=
  .advance 0 :: .advance 1 :: .advance 1 :: List.replicate 13 (.advance 0) ++
    [.advance 2, .advance 2, .abort 2]

theorem concurrent_scans_sample :
    ∃ cfg, Config.exec scanPublish sampleSchedule (Config.init (scanTx sampleScans) sampleStart) =
      some cfg ∧ ConcurrentScans sampleScans "crm" sampleStart sampleSchedule cfg := by
  have hsome : (Config.exec scanPublish sampleSchedule
      (Config.init (scanTx sampleScans) sampleStart)).isSome = true := by decide +kernel
  obtain ⟨cfg, hexec⟩ := Option.isSome_iff_exists.1 hsome
  exact ⟨cfg, hexec, concurrent_scans (fun _ => rfl) (fun _ => rfl) sampleStart_initial.wellFormed
    hexec⟩

end Sample

end SchemaSentry
