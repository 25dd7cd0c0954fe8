import SchemaSentry.Lib.Json
import Mathlib.Data.Prod.Lex
/-!
# Schema Sentry — the domain's data

References to datasets and columns, canonical types, column definitions
and schema changes, with the enumerations they use and the dictionaries
`to_canonical_dict` makes of them. A dictionary gives its value back up to
the one thing it joins, the dataset's schema and table
(`SchemaChange.eq_of_toCanonicalDict`).
-/

namespace SchemaSentry

open Lib

/-! ## Enumerations -/

inductive ScanStatus where
  | running
  | completed
  | failed
  deriving DecidableEq, Repr

inductive ScanTrigger where
  | manual
  | scheduled
  deriving DecidableEq, Repr

inductive ChangeType where
  | addColumn
  | dropColumn
  | typeChange
  | nullabilityChange
  deriving DecidableEq, Repr

inductive Severity where
  | info
  | warning
  | breaking
  deriving DecidableEq, Repr

inductive ChangeState where
  | open
  | accepted
  | resolved
  deriving DecidableEq, Repr

inductive PipelineCriticality where
  | low
  | medium
  | high
  | critical
  deriving DecidableEq, Repr

inductive AlertChannel where
  | slack
  | email
  deriving DecidableEq, Repr

inductive AlertStatus where
  | pending
  | sent
  | failed
  deriving DecidableEq, Repr

/-- The member's string value. -/
def ChangeType.value : ChangeType → String
  | .addColumn => "ADD_COLUMN"
  | .dropColumn => "DROP_COLUMN"
  | .typeChange => "TYPE_CHANGE"
  | .nullabilityChange => "NULLABILITY_CHANGE"

/-- The member's string value. -/
def Severity.value : Severity → String
  | .info => "INFO"
  | .warning => "WARNING"
  | .breaking => "BREAKING"

theorem ChangeType.value_inj {a b : ChangeType} (h : a.value = b.value) : a = b := by
  revert h
  cases a <;> cases b <;> decide

theorem Severity.value_inj {a b : Severity} (h : a.value = b.value) : a = b := by
  revert h
  cases a <;> cases b <;> decide

/-! ## References -/

structure DatasetRef where
  schema : String
  table : String
  deriving DecidableEq, Repr

/-- `schema.table`: one string, in which a dot of a quoted name and the dot
between the two parts look alike. -/
def DatasetRef.qualifiedName (d : DatasetRef) : String := d.schema ++ "." ++ d.table

structure ColumnRef where
  dataset : DatasetRef
  name : String
  deriving DecidableEq, Repr

def ColumnRef.qualifiedName (c : ColumnRef) : String := c.dataset.qualifiedName ++ "." ++ c.name

/-- Dataclass order: by schema, then table. -/
def DatasetRef.orderKey (d : DatasetRef) : String ×ₗ String := toLex (d.schema, d.table)

/-- Dataclass order: by dataset, then name. -/
def ColumnRef.orderKey (c : ColumnRef) : (String ×ₗ String) ×ₗ String :=
  toLex (c.dataset.orderKey, c.name)

/-- Neither name holds a dot. -/
def DatasetRef.Dotless (d : DatasetRef) : Prop := '.' ∉ d.schema.toList ∧ '.' ∉ d.table.toList

instance (d : DatasetRef) : Decidable d.Dotless := inferInstanceAs (Decidable (_ ∧ _))

/-- A text is split at its first dot in one way. -/
theorem append_dot_inj {a b c d : List Char} (ha : '.' ∉ a) (hc : '.' ∉ c)
    (h : a ++ '.' :: b = c ++ '.' :: d) : a = c ∧ b = d := by
  induction a generalizing c with
  | nil =>
    cases c with
    | nil => exact ⟨rfl, by simpa using h⟩
    | cons x c =>
      rw [List.nil_append, List.cons_append] at h
      rw [← (List.cons.inj h).1] at hc
      exact absurd List.mem_cons_self hc
  | cons y a ih =>
    cases c with
    | nil =>
      rw [List.nil_append, List.cons_append] at h
      rw [(List.cons.inj h).1] at ha
      exact absurd List.mem_cons_self ha
    | cons x c =>
      rw [List.cons_append, List.cons_append] at h
      obtain ⟨hx, hrest⟩ := List.cons.inj h
      obtain ⟨hac, hbd⟩ := ih (fun hm => ha (List.mem_cons_of_mem _ hm))
        (fun hm => hc (List.mem_cons_of_mem _ hm)) hrest
      exact ⟨by rw [hx, hac], hbd⟩

/-- **Without dots the qualified name tells datasets apart.** -/
theorem DatasetRef.qualifiedName_inj {d e : DatasetRef} (hd : d.Dotless) (he : e.Dotless)
    (h : d.qualifiedName = e.qualifiedName) : d = e := by
  obtain ⟨ds, dt⟩ := d
  obtain ⟨es, et⟩ := e
  have hl : ds.toList ++ '.' :: dt.toList = es.toList ++ '.' :: et.toList := by
    simpa [DatasetRef.qualifiedName, String.toList_append] using congrArg String.toList h
  obtain ⟨hschema, htable⟩ := append_dot_inj hd.1 he.1 hl
  exact congrArg₂ DatasetRef.mk (String.toList_injective hschema) (String.toList_injective htable)

/-- Where the datasets are without dots, so does a column's. -/
theorem ColumnRef.qualifiedName_inj {c d : ColumnRef} (hc : c.dataset.Dotless)
    (hd : d.dataset.Dotless) (h : c.qualifiedName = d.qualifiedName) : c = d := by
  obtain ⟨⟨cs, ct⟩, cn⟩ := c
  obtain ⟨⟨ds, dt⟩, dn⟩ := d
  have hl : cs.toList ++ '.' :: (ct.toList ++ '.' :: cn.toList) =
      ds.toList ++ '.' :: (dt.toList ++ '.' :: dn.toList) := by
    simpa [ColumnRef.qualifiedName, DatasetRef.qualifiedName, String.toList_append] using
      congrArg String.toList h
  obtain ⟨hschema, hrest⟩ := append_dot_inj hc.1 hd.1 hl
  obtain ⟨htable, hname⟩ := append_dot_inj hc.2 hd.2 hrest
  obtain rfl := String.toList_injective hschema
  obtain rfl := String.toList_injective htable
  obtain rfl := String.toList_injective hname
  rfl

/-! ## Column definitions -/

structure CanonicalType where
  name : String
  length : Option ℤ := none
  precision : Option ℤ := none
  scale : Option ℤ := none
  deriving DecidableEq, Repr

/-- `int | None` as JSON. -/
def optionalInt : Option ℤ → Json
  | none => .null
  | some n => .int n

/-- `str | None` as JSON. -/
def optionalStr : Option String → Json
  | none => .null
  | some s => .str s

def CanonicalType.toCanonicalDict (t : CanonicalType) : JsonObject :=
  [("name", .str t.name),
   ("length", optionalInt t.length),
   ("precision", optionalInt t.precision),
   ("scale", optionalInt t.scale)]

/-- `render`: the name and, in brackets, the length or the precision with
the scale. -/
def CanonicalType.render (t : CanonicalType) : String :=
  match t.length, t.precision, t.scale with
  | some length, _, _ => s!"{t.name}({length})"
  | none, some precision, some scale => s!"{t.name}({precision},{scale})"
  | none, some precision, none => s!"{t.name}({precision})"
  | none, none, _ => t.name

structure ColumnDefinition where
  dataset : DatasetRef
  name : String
  dataType : CanonicalType
  nullable : Bool
  default : Option String
  ordinal : ℤ := 0
  deriving DecidableEq, Repr

def ColumnDefinition.ref (c : ColumnDefinition) : ColumnRef := ⟨c.dataset, c.name⟩

def ColumnDefinition.toCanonicalDict (c : ColumnDefinition) : JsonObject :=
  [("dataset", .str c.dataset.qualifiedName),
   ("name", .str c.name),
   ("data_type", .obj c.dataType.toCanonicalDict),
   ("nullable", .bool c.nullable),
   ("default", optionalStr c.default),
   ("ordinal", .int c.ordinal)]

/-! ## Changes -/

structure SchemaChange where
  dataset : DatasetRef
  columnName : String
  changeType : ChangeType
  severity : Severity
  before : Option ColumnDefinition
  after : Option ColumnDefinition
  deriving DecidableEq, Repr

def SchemaChange.ref (c : SchemaChange) : ColumnRef := ⟨c.dataset, c.columnName⟩

/-- A snapshot, or JSON's `null` where there is none. -/
def snapshot : Option ColumnDefinition → Json
  | none => .null
  | some c => .obj c.toCanonicalDict

def SchemaChange.toCanonicalDict (c : SchemaChange) : JsonObject :=
  [("dataset", .str c.dataset.qualifiedName),
   ("column_name", .str c.columnName),
   ("change_type", .str c.changeType.value),
   ("severity", .str c.severity.value),
   ("before", snapshot c.before),
   ("after", snapshot c.after)]

/-! ## What a dictionary gives back

Two dictionaries that agree up to the order of their keys agree outright:
every `to_canonical_dict` lists one set of keys in one order. -/

theorem optionalInt_eq_of_sortKeys {a b : Option ℤ}
    (h : (optionalInt a).sortKeys = (optionalInt b).sortKeys) : a = b := by
  cases a <;> cases b <;> simp_all [optionalInt, Json.sortKeys]

theorem optionalStr_eq_of_sortKeys {a b : Option String}
    (h : (optionalStr a).sortKeys = (optionalStr b).sortKeys) : a = b := by
  cases a <;> cases b <;> simp_all [optionalStr, Json.sortKeys]

theorem str_eq_of_sortKeys {a b : String}
    (h : (Json.str a).sortKeys = (Json.str b).sortKeys) : a = b := by
  simpa [Json.sortKeys] using h

theorem nodup_keys_type (t : CanonicalType) : (Dict.keys t.toCanonicalDict).Nodup :=
  (by decide : ["name", "length", "precision", "scale"].Nodup)

theorem nodup_keys_column (c : ColumnDefinition) : (Dict.keys c.toCanonicalDict).Nodup :=
  (by decide : ["dataset", "name", "data_type", "nullable", "default", "ordinal"].Nodup)

theorem nodup_keys_change (c : SchemaChange) : (Dict.keys c.toCanonicalDict).Nodup :=
  (by decide :
    ["dataset", "column_name", "change_type", "severity", "before", "after"].Nodup)

/-- A type is what its dictionary says. -/
theorem CanonicalType.eq_of_sortKeys {s t : CanonicalType}
    (h : (Json.obj s.toCanonicalDict).sortKeys = (Json.obj t.toCanonicalDict).sortKeys) :
    s = t := by
  have look := Json.get?_of_sortKeys_eq (nodup_keys_type s) (nodup_keys_type t) h
  have hname : s.name = t.name := str_eq_of_sortKeys (Option.some.inj (look "name"))
  have hlength : s.length = t.length :=
    optionalInt_eq_of_sortKeys (Option.some.inj (look "length"))
  have hprecision : s.precision = t.precision :=
    optionalInt_eq_of_sortKeys (Option.some.inj (look "precision"))
  have hscale : s.scale = t.scale := optionalInt_eq_of_sortKeys (Option.some.inj (look "scale"))
  cases s
  cases t
  simp_all

/-- Two column dictionaries that agree up to key order agree. -/
theorem ColumnDefinition.toCanonicalDict_eq_of_sortKeys {a b : ColumnDefinition}
    (h : (Json.obj a.toCanonicalDict).sortKeys = (Json.obj b.toCanonicalDict).sortKeys) :
    a.toCanonicalDict = b.toCanonicalDict := by
  have look := Json.get?_of_sortKeys_eq (nodup_keys_column a) (nodup_keys_column b) h
  have hdataset : a.dataset.qualifiedName = b.dataset.qualifiedName :=
    str_eq_of_sortKeys (Option.some.inj (look "dataset"))
  have hname : a.name = b.name := str_eq_of_sortKeys (Option.some.inj (look "name"))
  have htype : a.dataType = b.dataType :=
    CanonicalType.eq_of_sortKeys (Option.some.inj (look "data_type"))
  have hnullable : a.nullable = b.nullable := by
    have := Option.some.inj (look "nullable")
    simpa [Json.sortKeys] using this
  have hdefault : a.default = b.default :=
    optionalStr_eq_of_sortKeys (Option.some.inj (look "default"))
  have hordinal : a.ordinal = b.ordinal := by
    have := Option.some.inj (look "ordinal")
    simpa [Json.sortKeys] using this
  rw [toCanonicalDict, toCanonicalDict, hdataset, hname, htype, hnullable, hdefault, hordinal]

theorem snapshot_eq_of_sortKeys {a b : Option ColumnDefinition}
    (h : (snapshot a).sortKeys = (snapshot b).sortKeys) : snapshot a = snapshot b := by
  cases a with
  | none =>
    cases b with
    | none => rfl
    | some b => simp [snapshot, Json.sortKeys] at h
  | some a =>
    cases b with
    | none => simp [snapshot, Json.sortKeys] at h
    | some b => rw [snapshot, snapshot, ColumnDefinition.toCanonicalDict_eq_of_sortKeys h]

/-- **Two change dictionaries that agree up to key order agree.** -/
theorem SchemaChange.toCanonicalDict_eq_of_sortKeys {a b : SchemaChange}
    (h : (Json.obj a.toCanonicalDict).sortKeys = (Json.obj b.toCanonicalDict).sortKeys) :
    a.toCanonicalDict = b.toCanonicalDict := by
  have look := Json.get?_of_sortKeys_eq (nodup_keys_change a) (nodup_keys_change b) h
  have hdataset : a.dataset.qualifiedName = b.dataset.qualifiedName :=
    str_eq_of_sortKeys (Option.some.inj (look "dataset"))
  have hname : a.columnName = b.columnName :=
    str_eq_of_sortKeys (Option.some.inj (look "column_name"))
  have htype : a.changeType.value = b.changeType.value :=
    str_eq_of_sortKeys (Option.some.inj (look "change_type"))
  have hseverity : a.severity.value = b.severity.value :=
    str_eq_of_sortKeys (Option.some.inj (look "severity"))
  have hbefore : snapshot a.before = snapshot b.before :=
    snapshot_eq_of_sortKeys (Option.some.inj (look "before"))
  have hafter : snapshot a.after = snapshot b.after :=
    snapshot_eq_of_sortKeys (Option.some.inj (look "after"))
  rw [toCanonicalDict, toCanonicalDict, hdataset, hname, htype, hseverity, hbefore, hafter]

/-- What a column's dictionary says of the column: everything but how the
qualified name splits. -/
theorem ColumnDefinition.eq_of_toCanonicalDict {a b : ColumnDefinition}
    (h : a.toCanonicalDict = b.toCanonicalDict) (hd : a.dataset = b.dataset) : a = b := by
  have htype : a.dataType = b.dataType := by
    simp only [toCanonicalDict, List.cons.injEq, Prod.mk.injEq, Json.obj.injEq] at h
    exact CanonicalType.eq_of_sortKeys (by rw [h.2.2.1.2])
  have hdefault : a.default = b.default := by
    simp only [toCanonicalDict, List.cons.injEq, Prod.mk.injEq] at h
    exact optionalStr_eq_of_sortKeys (by rw [h.2.2.2.2.1.2])
  simp only [toCanonicalDict, List.cons.injEq, Prod.mk.injEq, Json.str.injEq, Json.bool.injEq,
    Json.int.injEq] at h
  cases a
  cases b
  simp_all

theorem eq_of_snapshot_eq {a b : Option ColumnDefinition} {d : DatasetRef}
    (h : snapshot a = snapshot b) (ha : ∀ c ∈ a, c.dataset = d) (hb : ∀ c ∈ b, c.dataset = d) :
    a = b := by
  cases a with
  | none =>
    cases b with
    | none => rfl
    | some b => simp [snapshot] at h
  | some a =>
    cases b with
    | none => simp [snapshot] at h
    | some b =>
      simp only [snapshot, Json.obj.injEq] at h
      rw [ColumnDefinition.eq_of_toCanonicalDict h ((ha a rfl).trans (hb b rfl).symm)]

/-- The snapshots of a change are of the column it is filed under. -/
structure SchemaChange.Filed (c : SchemaChange) : Prop where
  before : ∀ b ∈ c.before, b.ref = c.ref
  after : ∀ a ∈ c.after, a.ref = c.ref

/-- **A change is its dictionary and its dataset.** -/
theorem SchemaChange.eq_of_toCanonicalDict {a b : SchemaChange} (ha : a.Filed) (hb : b.Filed)
    (h : a.toCanonicalDict = b.toCanonicalDict) (hd : a.dataset = b.dataset) : a = b := by
  simp only [toCanonicalDict, List.cons.injEq, Prod.mk.injEq, Json.str.injEq, and_true,
    true_and] at h
  obtain ⟨-, hname, htype, hseverity, hbefore, hafter⟩ := h
  have hb' : a.before = b.before :=
    eq_of_snapshot_eq (d := b.dataset) hbefore
      (fun c hc => (congrArg ColumnRef.dataset (ha.before c hc)).trans hd)
      (fun c hc => congrArg ColumnRef.dataset (hb.before c hc))
  have ha' : a.after = b.after :=
    eq_of_snapshot_eq (d := b.dataset) hafter
      (fun c hc => (congrArg ColumnRef.dataset (ha.after c hc)).trans hd)
      (fun c hc => congrArg ColumnRef.dataset (hb.after c hc))
  have ht := ChangeType.value_inj htype
  have hs := Severity.value_inj hseverity
  cases a
  cases b
  simp_all

end SchemaSentry
