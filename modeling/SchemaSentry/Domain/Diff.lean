import SchemaSentry.Domain.TypeRules
import Mathlib.Data.List.Sort
/-!
# Schema Sentry — the diff

`diff_columns` and what it lists. A difference is one column's
(`mem_diffColumns`): what a column contributes depends on its definition
on either side and on whether it is a dependency, and on nothing else, so
the two sides may list their columns in any order.
-/

namespace SchemaSentry

open Lib

/-- `_change`: filed under the column before, or under the one after where
there is none; with neither it raises. -/
def change (changeType : ChangeType) (severity : Severity)
    (before after : Option ColumnDefinition) : Option SchemaChange :=
  (before <|> after).map fun column =>
    { dataset := column.dataset
      columnName := column.name
      changeType := changeType
      severity := severity
      before := before
      after := after }

def compareColumn (ref : ColumnRef) (before after : Option ColumnDefinition)
    (dependencies : List ColumnRef) : List SchemaChange :=
  match before, after with
  | none, some a =>
    let severity := if a.nullable then .info else .warning
    (change .addColumn severity none (some a)).toList
  | some b, none =>
    let severity := if ref ∈ dependencies then .breaking else .warning
    (change .dropColumn severity (some b) none).toList
  | none, none => []
  | some b, some a =>
    (if b.dataType ≠ a.dataType then
      let assessment := classifyTypeChange b.dataType a.dataType
      (change .typeChange assessment.severity (some b) (some a)).toList
    else []) ++
    (if b.nullable ≠ a.nullable then
      let severity :=
        if ¬ b.nullable ∧ a.nullable ∧ ref ∈ dependencies then .breaking else .warning
      (change .nullabilityChange severity (some b) (some a)).toList
    else [])

def changeSortKey (c : SchemaChange) : String ×ₗ (String ×ₗ (String ×ₗ String)) :=
  toLex (c.dataset.schema, toLex (c.dataset.table, toLex (c.columnName, c.changeType.value)))

/-- `{column.ref: column for column in columns}`. -/
def byRef (columns : List ColumnDefinition) : Dict ColumnRef ColumnDefinition :=
  Dict.ofItems (columns.map fun column => (column.ref, column))

def diffColumns (expected observed : List ColumnDefinition) (dependencies : List ColumnRef) :
    List SchemaChange :=
  let expectedByRef := byRef expected
  let observedByRef := byRef observed
  let refs := Dict.keys expectedByRef ++
    (Dict.keys observedByRef).filter fun ref => ref ∉ Dict.keys expectedByRef
  let changes := (refs.insertionSort fun a b => a.orderKey ≤ b.orderKey).flatMap fun ref =>
    compareColumn ref (Dict.get? ref expectedByRef) (Dict.get? ref observedByRef) dependencies
  changes.insertionSort fun a b => changeSortKey a ≤ changeSortKey b

/-! ## One column's differences -/

/-- The definition a list of columns gives a reference. -/
def columnAt (columns : List ColumnDefinition) (ref : ColumnRef) : Option ColumnDefinition :=
  Dict.get? ref (byRef columns)

/-- No reference is listed twice. -/
def DistinctRefs (columns : List ColumnDefinition) : Prop :=
  (columns.map ColumnDefinition.ref).Nodup

instance (columns : List ColumnDefinition) : Decidable (DistinctRefs columns) :=
  inferInstanceAs (Decidable (List.Nodup _))

variable {expected observed : List ColumnDefinition} {dependencies : List ColumnRef}
variable {ref : ColumnRef} {c : SchemaChange}

/-- What a reference is given is one of its own definitions. -/
theorem mem_of_columnAt {columns : List ColumnDefinition} {column : ColumnDefinition}
    (h : columnAt columns ref = some column) : column ∈ columns ∧ column.ref = ref := by
  obtain ⟨other, hother, heq⟩ :=
    List.mem_map.1 (Dict.mem_of_mem_ofItems (Dict.mem_of_get?_eq_some h))
  obtain ⟨href, rfl⟩ := Prod.mk.inj heq
  exact ⟨hother, href⟩

theorem ref_of_columnAt {columns : List ColumnDefinition} :
    ∀ column ∈ columnAt columns ref, column.ref = ref :=
  fun _ hc => (mem_of_columnAt hc).2

/-- A column listed has a definition. -/
theorem exists_columnAt {columns : List ColumnDefinition} {column : ColumnDefinition}
    (h : column ∈ columns) : ∃ other, columnAt columns column.ref = some other := by
  have hitem : (column.ref, column) ∈ columns.map fun column => (column.ref, column) :=
    List.mem_map_of_mem h
  exact Dict.exists_get?_ofItems hitem

theorem columnAt_eq_some_iff {columns : List ColumnDefinition} (h : DistinctRefs columns)
    {column : ColumnDefinition} :
    columnAt columns ref = some column ↔ column ∈ columns ∧ column.ref = ref :=
  Dict.get?_ofItems_map h

theorem columnAt_eq_none_iff {columns : List ColumnDefinition} (h : DistinctRefs columns) :
    columnAt columns ref = none ↔ ∀ column ∈ columns, column.ref ≠ ref := by
  constructor
  · intro hnone column hmem hc
    rw [(columnAt_eq_some_iff h).2 ⟨hmem, hc⟩] at hnone
    cases hnone
  · intro hall
    cases hat : columnAt columns ref with
    | none => rfl
    | some column =>
      obtain ⟨hmem, hc⟩ := (columnAt_eq_some_iff h).1 hat
      exact absurd hc (hall column hmem)

/-- Two lists of the same columns give every reference the same
definition. -/
theorem columnAt_congr {xs ys : List ColumnDefinition} (hx : DistinctRefs xs)
    (hy : DistinctRefs ys) (h : ∀ column, column ∈ xs ↔ column ∈ ys) :
    columnAt xs ref = columnAt ys ref := by
  ext column
  rw [columnAt_eq_some_iff hx, columnAt_eq_some_iff hy, h]

theorem mem_keys_of_columnAt {columns : List ColumnDefinition} {column : ColumnDefinition}
    (h : columnAt columns ref = some column) : ref ∈ Dict.keys (byRef columns) := by
  by_contra hnot
  rw [columnAt, Dict.get?_eq_none_iff.2 hnot] at h
  cases h

/-- A column with no difference is listed on neither side or on both
alike. -/
theorem mem_keys_of_mem_compareColumn
    (h : c ∈ compareColumn ref (columnAt expected ref) (columnAt observed ref) dependencies) :
    ref ∈ Dict.keys (byRef expected) ∨ ref ∈ Dict.keys (byRef observed) := by
  cases he : columnAt expected ref with
  | some column => exact Or.inl (mem_keys_of_columnAt he)
  | none =>
    cases ho : columnAt observed ref with
    | some column => exact Or.inr (mem_keys_of_columnAt ho)
    | none =>
      rw [he, ho] at h
      cases h

/-- The addition of a column. -/
def SchemaChange.add (a : ColumnDefinition) : SchemaChange :=
  { dataset := a.dataset, columnName := a.name, changeType := .addColumn
    severity := if a.nullable then .info else .warning, before := none, after := some a }

/-- The removal of a column. -/
def SchemaChange.drop (b : ColumnDefinition) (dependencies : List ColumnRef) : SchemaChange :=
  { dataset := b.dataset, columnName := b.name, changeType := .dropColumn
    severity := if b.ref ∈ dependencies then .breaking else .warning
    before := some b, after := none }

/-- The change of a column's type. -/
def SchemaChange.retype (b a : ColumnDefinition) : SchemaChange :=
  { dataset := b.dataset, columnName := b.name, changeType := .typeChange
    severity := (classifyTypeChange b.dataType a.dataType).severity
    before := some b, after := some a }

/-- The change of a column's nullability. -/
def SchemaChange.renull (b a : ColumnDefinition) (dependencies : List ColumnRef) : SchemaChange :=
  { dataset := b.dataset, columnName := b.name, changeType := .nullabilityChange
    severity :=
      if ¬ b.nullable ∧ a.nullable ∧ b.ref ∈ dependencies then .breaking else .warning
    before := some b, after := some a }

@[simp] theorem compareColumn_neither : compareColumn ref none none dependencies = [] := rfl

@[simp] theorem compareColumn_add (a : ColumnDefinition) :
    compareColumn ref none (some a) dependencies = [.add a] := rfl

theorem compareColumn_drop {b : ColumnDefinition} (hb : b.ref = ref) :
    compareColumn ref (some b) none dependencies = [.drop b dependencies] := by
  subst hb
  rfl

theorem compareColumn_both {b : ColumnDefinition} (hb : b.ref = ref) (a : ColumnDefinition) :
    compareColumn ref (some b) (some a) dependencies =
      (if b.dataType ≠ a.dataType then [.retype b a] else []) ++
        (if b.nullable ≠ a.nullable then [.renull b a dependencies] else []) := by
  subst hb
  rfl

/-- **What a column contributes**: its addition, its removal, or, where it
is on both sides, the change of its type and the change of its
nullability. -/
theorem mem_compareColumn {before after : Option ColumnDefinition}
    (hb : ∀ b ∈ before, b.ref = ref) :
    c ∈ compareColumn ref before after dependencies ↔
      (∃ a, before = none ∧ after = some a ∧ c = .add a) ∨
      (∃ b, before = some b ∧ after = none ∧ c = .drop b dependencies) ∨
      (∃ b a, before = some b ∧ after = some a ∧ b.dataType ≠ a.dataType ∧ c = .retype b a) ∨
      (∃ b a, before = some b ∧ after = some a ∧ b.nullable ≠ a.nullable ∧
        c = .renull b a dependencies) := by
  cases before with
  | none => cases after <;> simp
  | some b =>
    cases after with
    | none => simp [compareColumn_drop (hb b rfl)]
    | some a =>
      rw [compareColumn_both (hb b rfl)]
      by_cases htype : b.dataType = a.dataType <;> by_cases hnull : b.nullable = a.nullable <;>
        simp [htype, hnull]

/-- A column's differences are filed under it and carry its definitions on
either side. -/
theorem of_mem_compareColumn {before after : Option ColumnDefinition}
    (hb : ∀ b ∈ before, b.ref = ref) (ha : ∀ a ∈ after, a.ref = ref)
    (h : c ∈ compareColumn ref before after dependencies) :
    c.ref = ref ∧ c.before = before ∧ c.after = after := by
  rcases (mem_compareColumn hb).1 h with ⟨a, rfl, rfl, rfl⟩ | ⟨b, rfl, rfl, rfl⟩ |
    ⟨b, a, rfl, rfl, -, rfl⟩ | ⟨b, a, rfl, rfl, -, rfl⟩
  · exact ⟨ha a rfl, rfl, rfl⟩
  · exact ⟨hb b rfl, rfl, rfl⟩
  · exact ⟨hb b rfl, rfl, rfl⟩
  · exact ⟨hb b rfl, rfl, rfl⟩

/-- The diff lists what each column contributes. -/
theorem mem_diffColumns_iff_exists :
    c ∈ diffColumns expected observed dependencies ↔
      ∃ ref, c ∈ compareColumn ref (columnAt expected ref) (columnAt observed ref)
        dependencies := by
  simp only [diffColumns, List.mem_insertionSort, List.mem_flatMap, List.mem_append,
    List.mem_filter, decide_eq_true_eq]
  constructor
  · rintro ⟨ref, -, h⟩
    exact ⟨ref, h⟩
  · rintro ⟨ref, h⟩
    refine ⟨ref, ?_, h⟩
    by_cases hmem : ref ∈ Dict.keys (byRef expected)
    · exact Or.inl hmem
    · exact Or.inr ⟨(mem_keys_of_mem_compareColumn h).resolve_left hmem, hmem⟩

/-- **A difference is its own column's.** -/
theorem mem_diffColumns :
    c ∈ diffColumns expected observed dependencies ↔
      c ∈ compareColumn c.ref (columnAt expected c.ref) (columnAt observed c.ref)
        dependencies := by
  rw [mem_diffColumns_iff_exists]
  constructor
  · rintro ⟨ref, h⟩
    have hc := (of_mem_compareColumn ref_of_columnAt ref_of_columnAt h).1
    exact hc ▸ h
  · exact fun h => ⟨c.ref, h⟩

/-- A difference carries its column's definitions on either side. -/
theorem sides_of_mem_diffColumns (h : c ∈ diffColumns expected observed dependencies) :
    c.before = columnAt expected c.ref ∧ c.after = columnAt observed c.ref :=
  (of_mem_compareColumn ref_of_columnAt ref_of_columnAt (mem_diffColumns.1 h)).2

theorem filed_of_mem_diffColumns (h : c ∈ diffColumns expected observed dependencies) :
    c.Filed := by
  obtain ⟨hb, ha⟩ := sides_of_mem_diffColumns h
  exact ⟨fun b hbm => ref_of_columnAt b (hb ▸ hbm), fun a ham => ref_of_columnAt a (ha ▸ ham)⟩

/-- **A column has one difference of a kind.** -/
theorem eq_of_mem_diffColumns {d : SchemaChange}
    (hc : c ∈ diffColumns expected observed dependencies)
    (hd : d ∈ diffColumns expected observed dependencies)
    (href : c.ref = d.ref) (htype : c.changeType = d.changeType) : c = d := by
  have hc' := mem_diffColumns.1 hc
  have hd' := mem_diffColumns.1 hd
  rw [← href] at hd'
  rcases (mem_compareColumn ref_of_columnAt).1 hc' with ⟨a, hb, ha, rfl⟩ | ⟨b, hb, ha, rfl⟩ |
    ⟨b, a, hb, ha, -, rfl⟩ | ⟨b, a, hb, ha, -, rfl⟩ <;>
  rcases (mem_compareColumn ref_of_columnAt).1 hd' with ⟨a', hb', ha', rfl⟩ |
    ⟨b', hb', ha', rfl⟩ | ⟨b', a', hb', ha', -, rfl⟩ | ⟨b', a', hb', ha', -, rfl⟩ <;>
  simp_all [SchemaChange.add, SchemaChange.drop, SchemaChange.retype, SchemaChange.renull]

theorem nodup_compareColumn {before after : Option ColumnDefinition}
    (hb : ∀ b ∈ before, b.ref = ref) :
    (compareColumn ref before after dependencies).Nodup := by
  cases before with
  | none => cases after <;> simp
  | some b =>
    cases after with
    | none => simp [compareColumn_drop (hb b rfl)]
    | some a =>
      rw [compareColumn_both (hb b rfl)]
      by_cases htype : b.dataType = a.dataType <;> by_cases hnull : b.nullable = a.nullable <;>
        simp [htype, hnull, SchemaChange.retype, SchemaChange.renull]

/-- **No difference is listed twice.** -/
theorem nodup_diffColumns : (diffColumns expected observed dependencies).Nodup := by
  simp only [diffColumns]
  refine (List.perm_insertionSort _ _).nodup_iff.2 (List.nodup_flatMap.2 ⟨fun ref _ => ?_, ?_⟩)
  · exact nodup_compareColumn ref_of_columnAt
  · have hrefs : (Dict.keys (byRef expected) ++ (Dict.keys (byRef observed)).filter
        fun ref => ref ∉ Dict.keys (byRef expected)).Nodup := by
      refine List.Nodup.append (Dict.nodup_keys_ofItems _)
        ((Dict.nodup_keys_ofItems _).filter _) ?_
      intro ref hmem hfilter
      exact absurd hmem (by simpa using (List.mem_filter.1 hfilter).2)
    refine ((List.perm_insertionSort _ _).nodup_iff.2 hrefs).imp ?_
    intro ref ref' hne d hd hd'
    exact hne ((of_mem_compareColumn ref_of_columnAt ref_of_columnAt hd).1.symm.trans
      (of_mem_compareColumn ref_of_columnAt ref_of_columnAt hd').1)

/-- **What breaks**: the removal of a dependency, a type change the policy
calls breaking, and a dependency's turning nullable. -/
theorem breaking_iff :
    (c ∈ diffColumns expected observed dependencies ∧ c.severity = .breaking) ↔
      (∃ b, columnAt expected c.ref = some b ∧ columnAt observed c.ref = none ∧
        c.ref ∈ dependencies ∧ c = .drop b dependencies) ∨
      (∃ b a, columnAt expected c.ref = some b ∧ columnAt observed c.ref = some a ∧
        (classifyTypeChange b.dataType a.dataType).severity = .breaking ∧ c = .retype b a) ∨
      (∃ b a, columnAt expected c.ref = some b ∧ columnAt observed c.ref = some a ∧
        b.nullable = false ∧ a.nullable = true ∧ c.ref ∈ dependencies ∧
        c = .renull b a dependencies) := by
  rw [mem_diffColumns, mem_compareColumn ref_of_columnAt]
  constructor
  · rintro ⟨⟨a, hb, ha, hc⟩ | ⟨b, hb, ha, hc⟩ | ⟨b, a, hb, ha, hne, hc⟩ | ⟨b, a, hb, ha, hne, hc⟩,
      hsev⟩
    · rw [hc, SchemaChange.add] at hsev
      split at hsev <;> cases hsev
    · refine Or.inl ⟨b, hb, ha, ?_, hc⟩
      by_contra hdep
      rw [← ref_of_columnAt b hb] at hdep
      rw [hc, SchemaChange.drop] at hsev
      simp [hdep] at hsev
    · exact Or.inr (Or.inl ⟨b, a, hb, ha, by rw [hc] at hsev; exact hsev, hc⟩)
    · have hcond : ¬ b.nullable ∧ a.nullable ∧ b.ref ∈ dependencies := by
        by_contra hnot
        rw [hc, SchemaChange.renull] at hsev
        simp only [if_neg hnot] at hsev
        cases hsev
      refine Or.inr (Or.inr ⟨b, a, hb, ha, by simpa using hcond.1, hcond.2.1, ?_, hc⟩)
      rw [← ref_of_columnAt b hb]
      exact hcond.2.2
  · rintro (⟨b, hb, ha, hdep, hc⟩ | ⟨b, a, hb, ha, hsev, hc⟩ | ⟨b, a, hb, ha, hbn, han, hdep, hc⟩)
    · refine ⟨Or.inr (Or.inl ⟨b, hb, ha, hc⟩), ?_⟩
      rw [← ref_of_columnAt b hb] at hdep
      rw [hc, SchemaChange.drop]
      simp [hdep]
    · refine ⟨Or.inr (Or.inr (Or.inl ⟨b, a, hb, ha, fun heq => ?_, hc⟩)), by rw [hc]; exact hsev⟩
      simp [classifyTypeChange, heq] at hsev
    · refine ⟨Or.inr (Or.inr (Or.inr ⟨b, a, hb, ha, by simp [hbn, han], hc⟩)), ?_⟩
      rw [← ref_of_columnAt b hb] at hdep
      rw [hc, SchemaChange.renull]
      simp [hbn, han, hdep]

end SchemaSentry
