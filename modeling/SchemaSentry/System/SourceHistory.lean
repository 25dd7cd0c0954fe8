import SchemaSentry.System.Runs
/-!
# Schema Sentry — what a source's requests keep

Scans of one source and acceptances, one after another. From a moment of
their history to a later one (`Follows`) the sources keep their ids and
keys, a change row that is not OPEN stays as it is, one that is OPEN stays
or is closed, and the rows that come are the source's.
-/

namespace SchemaSentry

open Lib

/-- The tables `t` come after `s` in the history of a source's requests. -/
structure Follows (sourceId : Uuid) (s t : DB) : Prop where
  sources : t.sources.map (fun x => (x.id, x.key)) = s.sources.map fun x => (x.id, x.key)
  rows : ∀ c ∈ s.schemaChanges, c ∈ t.schemaChanges ∨
    c.state = .open ∧ ∃ c' ∈ t.schemaChanges, c'.id = c.id ∧ c'.state ≠ .open
  owned : ∀ c ∈ t.schemaChanges, c.sourceId = sourceId ∨
    ∃ b ∈ s.schemaChanges, b.id = c.id ∧ b.sourceId = c.sourceId

variable {sourceId : Uuid} {s t u : DB}

namespace Follows

theorem refl (sourceId : Uuid) (s : DB) : Follows sourceId s s :=
  ⟨rfl, fun _ hc => Or.inl hc, fun c hc => Or.inr ⟨c, hc, rfl, rfl⟩⟩

theorem trans (h : Follows sourceId s t) (h' : Follows sourceId t u) : Follows sourceId s u := by
  refine ⟨h'.sources.trans h.sources, fun c hc => ?_, fun c hc => ?_⟩
  · rcases h.rows c hc with hkept | ⟨hopen, c', hc', hid, hclosed⟩
    · exact h'.rows c hkept
    · -- what is closed stays
      rcases h'.rows c' hc' with hkept | ⟨hopen', -⟩
      · exact Or.inr ⟨hopen, c', hkept, hid, hclosed⟩
      · exact absurd hopen' hclosed
  · rcases h'.owned c hc with hown | ⟨b, hb, hid, hs⟩
    · exact Or.inl hown
    · rcases h.owned b hb with hown | ⟨a, ha, hid', hs'⟩
      · exact Or.inl (hs.symm.trans hown)
      · exact Or.inr ⟨a, ha, hid'.trans hid, hs'.trans hs⟩

/-- **A row that is not OPEN stays as it is.** -/
theorem closed (h : Follows sourceId s t) {c : SchemaChangeModel} (hc : c ∈ s.schemaChanges)
    (hclosed : c.state ≠ .open) : c ∈ t.schemaChanges := by
  rcases h.rows c hc with hkept | ⟨hopen, -⟩
  · exact hkept
  · exact absurd hopen hclosed

/-- A row that is OPEN still is the row it was. -/
theorem open_eq (h : Follows sourceId s t) (hl : t.Linked) {changeId : Uuid}
    {c c' : SchemaChangeModel} (hc : s.openChange? changeId = some c)
    (hc' : t.openChange? changeId = some c') : c' = c := by
  obtain ⟨hmem, hid, -⟩ := openChange?_eq_some hc
  obtain ⟨hmem', hid', hopen'⟩ := openChange?_eq_some hc'
  rcases h.rows c hmem with hkept | ⟨-, b, hb, hbid, hclosed⟩
  · exact eq_of_nodup_map hl.changeIds hmem' hkept (hid'.trans hid.symm)
  · obtain rfl : b = c' := eq_of_nodup_map hl.changeIds hb hmem'
      (hbid.trans (hid.trans hid'.symm))
    exact absurd hopen' hclosed

/-- A source's key is that of the source it was. -/
theorem sourceOf? (h : Follows sourceId s t) (hc : s.Constraints) {sourceKey : String}
    {x y : DataSourceModel} (hx : s.sourceOf? sourceKey = some x)
    (hy : t.sourceOf? sourceKey = some y) : y.id = x.id := by
  obtain ⟨hxmem, hxkey⟩ := mem_of_sourceOf? hx
  obtain ⟨hymem, hykey⟩ := mem_of_sourceOf? hy
  have hmem : (y.id, y.key) ∈ s.sources.map fun x => (x.id, x.key) := by
    rw [← h.sources]
    exact List.mem_map_of_mem hymem
  obtain ⟨z, hz, heq⟩ := List.mem_map.1 hmem
  obtain ⟨hid, hkey⟩ := Prod.mk.inj heq
  have hzx : z = x := eq_of_nodup_map hc.sourceKey hz hxmem (hkey.trans (hykey.trans hxkey.symm))
  rw [← hid, hzx]

/-- A source there was there is. -/
theorem exists_sourceOf? (h : Follows sourceId s t) {sourceKey : String} {x : DataSourceModel}
    (hx : s.sourceOf? sourceKey = some x) : ∃ y, t.sourceOf? sourceKey = some y := by
  obtain ⟨hxmem, hxkey⟩ := mem_of_sourceOf? hx
  have hmem : (x.id, x.key) ∈ t.sources.map fun x => (x.id, x.key) := by
    rw [h.sources]
    exact List.mem_map_of_mem hxmem
  obtain ⟨z, hz, heq⟩ := List.mem_map.1 hmem
  refine Option.isSome_iff_exists.1 (List.find?_isSome.2 ⟨z, hz, ?_⟩)
  simpa using (Prod.mk.inj heq).2.trans hxkey

end Follows

section Requests

variable [Hashlib] {req : ScanRequest}

/-- **What a scan leaves comes after what it met.** -/
theorem follows_postScans (hwf : s.WellFormed) (hf : req.faults = noFaults)
    (hsource : ∀ x, s.sourceOf? req.sourceKey = some x → x.id = sourceId) :
    Follows sourceId s (postScans req s) := by
  have heff := scanEffect hwf hf
  generalize scanResult req s = result at heff
  generalize postScans req s = after at heff
  have hsame : ∀ {t : DB}, t.sources = s.sources → t.schemaChanges = s.schemaChanges →
      Follows sourceId s t := by
    intro t hsources hchanges
    refine ⟨by rw [hsources], fun c hc => Or.inl (by rwa [hchanges]), fun c hc => ?_⟩
    exact Or.inr ⟨c, by rwa [← hchanges], rfl, rfl⟩
  rcases heff with _ | _ | ⟨-, -, -, -, -⟩ |
    @⟨source, observed, hmine, -, -, -, -, -⟩
  · exact .refl sourceId s
  · exact hsame (by rw [failed_eq hwf.linked.scanFresh]) (by rw [failed_eq hwf.linked.scanFresh])
  · obtain ⟨next, added, rows, -, heq⟩ := baselined_eq hwf req _ _
    exact hsame (by rw [heq]) (by rw [heq])
  · rw [drifted_eq hwf]
    refine ⟨rfl, fun c hc => ?_, fun c hc => ?_⟩
    · -- a row is settled, if at all, while it is OPEN
      have hmem := List.mem_map_of_mem (f := settle source
        (s.activeFingerprints source (s.baseline source.id) observed) req.finishedAt) hc
      unfold settle at hmem
      split at hmem
      · rename_i habsent
        exact Or.inr ⟨habsent.2.1, _, List.mem_append_left _ hmem, rfl, by
          simp [SchemaChangeModel.resolve]⟩
      · exact Or.inl (List.mem_append_left _ hmem)
    · rcases List.mem_append.1 hc with hold | hnew
      · obtain ⟨b, hb, rfl⟩ := List.mem_map.1 hold
        refine Or.inr ⟨b, hb, (id_settle b).symm, ?_⟩
        unfold settle
        split <;> rfl
      · obtain ⟨b, -, d, -, -, -, -, heq⟩ := mem_openedRows hwf hnew
        left
        rw [heq]
        exact hsource _ hmine

/-- **What an acceptance leaves comes after what it met.** -/
theorem follows_postAccept (hwf : s.WellFormed) (req : AcceptRequest) :
    Follows sourceId s (postAccept req s) := by
  have heff := acceptEffect hwf req
  generalize acceptResult req s = result at heff
  generalize postAccept req s = after at heff
  rcases heff with _ | @⟨change, source, _, _, rows, hmem, -, hopen, -, -, -, -⟩
  · exact .refl sourceId s
  · rw [accepted_eq]
    refine ⟨?_, fun c hc => ?_, fun c hc => ?_⟩
    · simp [List.map_map, Function.comp_def]
    · have hclose := List.mem_map_of_mem (f := closeRow change req.acceptedAt) hc
      unfold closeRow at hclose
      split at hclose
      · rename_i hid
        obtain rfl : c = change := eq_of_nodup_map hwf.linked.changeIds hc hmem hid
        exact Or.inr ⟨hopen, _, hclose, rfl, by simp [SchemaChangeModel.accept]⟩
      · exact Or.inl hclose
    · obtain ⟨b, hb, rfl⟩ := List.mem_map.1 hc
      refine Or.inr ⟨b, hb, (id_closeRow b).symm, ?_⟩
      unfold closeRow
      split <;> rfl

end Requests

end SchemaSentry
