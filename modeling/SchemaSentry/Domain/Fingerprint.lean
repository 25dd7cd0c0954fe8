import SchemaSentry.Domain.Models
/-!
# Schema Sentry — fingerprints

`change_fingerprint`: the digest of a change's canonical text under its
source's key. The text tells the key, and the change but for one thing: a
dot of a quoted name may stand for the one between schema and table
(`payload_eq_iff`). Where digests do not collide, equal fingerprints are
equal keys and equal dictionaries (`changeFingerprint_inj`).
-/

namespace SchemaSentry

open Lib

/-- `hashlib`: the hexadecimal SHA-256 digest of a text's UTF-8 bytes. -/
class Hashlib where
  sha256 : String → String

/-- No two texts have one digest. -/
class Hashlib.CollisionFree [Hashlib] : Prop where
  inj : Function.Injective Hashlib.sha256

/-- Texts that are their own digests. -/
@[reducible] def Hashlib.plain : Hashlib := ⟨id⟩

theorem Hashlib.collisionFree_plain : @Hashlib.CollisionFree Hashlib.plain :=
  @Hashlib.CollisionFree.mk Hashlib.plain Function.injective_id

variable [Hashlib]

/-- The text a fingerprint digests. -/
def fingerprintPayload (sourceKey : String) (c : SchemaChange) : Json :=
  .obj [("source", .str sourceKey), ("change", .obj c.toCanonicalDict)]

def changeFingerprint (sourceKey : String) (c : SchemaChange) : String :=
  Hashlib.sha256 (fingerprintPayload sourceKey c).dumps

omit [Hashlib] in
/-- **The text hashed is the source's key and the change's dictionary.** -/
theorem payload_inj {k k' : String} {c c' : SchemaChange}
    (h : (fingerprintPayload k c).dumps = (fingerprintPayload k' c').dumps) :
    k = k' ∧ c.toCanonicalDict = c'.toCanonicalDict := by
  have hsorted := Json.sortKeys_eq_of_dumps_eq h
  have hkeys : ["source", "change"].Nodup := by decide
  have look := @Json.get?_of_sortKeys_eq
    [("source", .str k), ("change", .obj c.toCanonicalDict)]
    [("source", .str k'), ("change", .obj c'.toCanonicalDict)] hkeys hkeys hsorted
  exact ⟨str_eq_of_sortKeys (Option.some.inj (look "source")),
    SchemaChange.toCanonicalDict_eq_of_sortKeys (Option.some.inj (look "change"))⟩

/-- **A fingerprint is its source's key and its change's dictionary.** -/
theorem changeFingerprint_inj [Hashlib.CollisionFree] {k k' : String} {c c' : SchemaChange}
    (h : changeFingerprint k c = changeFingerprint k' c') :
    k = k' ∧ c.toCanonicalDict = c'.toCanonicalDict :=
  payload_inj (Hashlib.CollisionFree.inj h)

omit [Hashlib] in
theorem qualifiedName_of_toCanonicalDict {c c' : SchemaChange}
    (h : c.toCanonicalDict = c'.toCanonicalDict) :
    c.dataset.qualifiedName = c'.dataset.qualifiedName := by
  simp only [SchemaChange.toCanonicalDict, List.cons.injEq, Prod.mk.injEq, Json.str.injEq] at h
  exact h.1.2

/-- **Without dots a fingerprint is its change.** -/
theorem eq_of_changeFingerprint_eq [Hashlib.CollisionFree] {k k' : String} {c c' : SchemaChange}
    (hc : c.Filed) (hc' : c'.Filed) (hd : c.dataset.Dotless) (hd' : c'.dataset.Dotless)
    (h : changeFingerprint k c = changeFingerprint k' c') : c = c' := by
  have hdict := (changeFingerprint_inj h).2
  refine SchemaChange.eq_of_toCanonicalDict hc hc' hdict (DatasetRef.qualifiedName_inj hd hd' ?_)
  exact qualifiedName_of_toCanonicalDict hdict

/-! ## Changes of one fingerprint -/

section Confusable

omit [Hashlib]

/-- The change in another dataset. -/
def SchemaChange.moved (c : SchemaChange) (d : DatasetRef) : SchemaChange :=
  { c with
    dataset := d
    before := c.before.map fun b => { b with dataset := d }
    after := c.after.map fun a => { a with dataset := d } }

/-- One change in two datasets that have one qualified name. -/
structure Confusable (c c' : SchemaChange) : Prop where
  dataset : c.dataset ≠ c'.dataset
  qualifiedName : c.dataset.qualifiedName = c'.dataset.qualifiedName
  moved : c.moved c'.dataset = c'

variable {c c' : SchemaChange} {d : DatasetRef} {k k' : String}

theorem filed_moved (h : c.Filed) : (c.moved d).Filed := by
  refine ⟨fun b hb => ?_, fun a ha => ?_⟩
  · obtain ⟨b, hmem, rfl⟩ := Option.mem_map.1 hb
    exact congrArg (ColumnRef.mk d) (congrArg ColumnRef.name (h.before b hmem))
  · obtain ⟨a, hmem, rfl⟩ := Option.mem_map.1 ha
    exact congrArg (ColumnRef.mk d) (congrArg ColumnRef.name (h.after a hmem))

theorem snapshot_moved {column : Option ColumnDefinition}
    (hname : c.dataset.qualifiedName = d.qualifiedName)
    (h : ∀ x ∈ column, x.ref = c.ref) :
    snapshot (column.map fun x => { x with dataset := d }) = snapshot column := by
  cases column with
  | none => rfl
  | some x =>
    have hdataset : x.dataset = c.dataset := congrArg ColumnRef.dataset (h x rfl)
    simp only [Option.map_some, snapshot, ColumnDefinition.toCanonicalDict, hdataset, hname]

/-- The move is not seen in the dictionary. -/
theorem toCanonicalDict_moved (h : c.Filed) (hname : c.dataset.qualifiedName = d.qualifiedName) :
    (c.moved d).toCanonicalDict = c.toCanonicalDict := by
  rw [SchemaChange.toCanonicalDict, SchemaChange.toCanonicalDict, SchemaChange.moved,
    snapshot_moved hname h.before, snapshot_moved hname h.after, hname]

/-- **A dictionary is of one change**, up to the split of the qualified
name. -/
theorem toCanonicalDict_eq_iff (hc : c.Filed) (hc' : c'.Filed) :
    c.toCanonicalDict = c'.toCanonicalDict ↔ c = c' ∨ Confusable c c' := by
  constructor
  · intro h
    by_cases hdataset : c.dataset = c'.dataset
    · exact Or.inl (SchemaChange.eq_of_toCanonicalDict hc hc' h hdataset)
    · have hname := qualifiedName_of_toCanonicalDict h
      exact Or.inr ⟨hdataset, hname, SchemaChange.eq_of_toCanonicalDict (filed_moved hc) hc'
        ((toCanonicalDict_moved hc hname).trans h) rfl⟩
  · rintro (rfl | ⟨-, hname, hmoved⟩)
    · rfl
    · rw [← toCanonicalDict_moved hc hname, hmoved]

/-- **Two texts hashed are equal** for one key and one change, or two that
are confusable. -/
theorem payload_eq_iff (hc : c.Filed) (hc' : c'.Filed) :
    (fingerprintPayload k c).dumps = (fingerprintPayload k' c').dumps ↔
      k = k' ∧ (c = c' ∨ Confusable c c') := by
  constructor
  · intro h
    exact (payload_inj h).imp_right (toCanonicalDict_eq_iff hc hc').1
  · rintro ⟨rfl, h⟩
    rw [fingerprintPayload, fingerprintPayload, (toCanonicalDict_eq_iff hc hc').2 h]

end Confusable

theorem changeFingerprint_eq_iff [Hashlib.CollisionFree] {k k' : String} {c c' : SchemaChange}
    (hc : c.Filed) (hc' : c'.Filed) :
    changeFingerprint k c = changeFingerprint k' c' ↔ k = k' ∧ (c = c' ∨ Confusable c c') :=
  Hashlib.CollisionFree.inj.eq_iff.trans (payload_eq_iff hc hc')

end SchemaSentry
