import SchemaSentry.Application.AcceptOutcome
import SchemaSentry.Domain.Promotion
import SchemaSentry.System.WellFormed
/-!
# Schema Sentry — the tables after an acceptance

An acceptance in well-formed tables rewrites one column of one source's
baseline, whatever the kind of the change (`columnAt_accepted`), raises
that source's version by one and closes the change's row.
-/

namespace SchemaSentry

open Lib

variable {db applied : DB} {change : SchemaChangeModel} {source : DataSourceModel}
variable {dataset : DatasetModel} {c : SchemaChange}

/-! ## Snapshots as rows -/

theorem optionalString_toCanonicalDict (a : ColumnDefinition) :
    optionalString "default" a.toCanonicalDict = a.default := by
  cases hd : a.default <;> simp [optionalString, ColumnDefinition.toCanonicalDict, Dict.get?, hd,
    optionalStr]

/-- A snapshot of an added column is its baseline row. -/
theorem addedColumn_toCanonicalDict {a : ColumnDefinition} (hid : dataset.id = change.datasetId)
    (hname : change.columnName = a.name) :
    addedColumn change a.toCanonicalDict = .ok (expectedRow dataset.id a) := by
  have hok : addedColumn change a.toCanonicalDict =
      .ok { datasetId := change.datasetId, name := change.columnName
            dataTypeJson := a.dataType.toCanonicalDict, nullable := a.nullable
            defaultExpression := optionalString "default" a.toCanonicalDict
            ordinal := a.ordinal } := rfl
  rw [hok, optionalString_toCanonicalDict, hname, ← hid, expectedRow]

/-- What a change writes of its column after it. -/
def ExpectedColumnModel.promote (a : ColumnDefinition) (row : ExpectedColumnModel) :
    ExpectedColumnModel :=
  { row with
    dataTypeJson := a.dataType.toCanonicalDict
    nullable := a.nullable
    defaultExpression := a.default }

theorem changedColumn_toCanonicalDict (a : ColumnDefinition) :
    changedColumn a.toCanonicalDict = .ok (ExpectedColumnModel.promote a) := by
  have hok : changedColumn a.toCanonicalDict = .ok fun row =>
      { row with
        dataTypeJson := a.dataType.toCanonicalDict
        nullable := a.nullable
        defaultExpression := optionalString "default" a.toCanonicalDict } := rfl
  rw [hok]
  congr
  funext row
  rw [optionalString_toCanonicalDict, ExpectedColumnModel.promote]

/-- Rows of columns of one dataset are the same only if the columns are. -/
theorem expectedRow_inj {i j : Uuid} {x y : ColumnDefinition} (hd : x.dataset = y.dataset)
    (h : expectedRow i x = expectedRow j y) : i = j ∧ x = y := by
  simp only [expectedRow, ExpectedColumnModel.mk.injEq] at h
  obtain ⟨hid, hname, htype, hnull, hdefault, hordinal⟩ := h
  have ht : x.dataType = y.dataType := CanonicalType.eq_of_sortKeys (by rw [htype])
  cases x
  cases y
  simp_all

/-- A baseline row is a column's. -/
theorem exists_column_of_row (hl : db.Linked) {row : ExpectedColumnModel}
    (hrow : row ∈ db.expectedColumns) (d : DatasetModel) (hid : d.id = row.datasetId) :
    ∃ b : ColumnDefinition, b.ref = ⟨d.ref, row.name⟩ ∧ row = expectedRow d.id b := by
  obtain ⟨type, ht⟩ := hl.expectedTyped row hrow
  refine ⟨⟨d.ref, row.name, type, row.nullable, row.defaultExpression, row.ordinal⟩, rfl, ?_⟩
  rw [expectedRow, hid, ← ht]

/-! ## The baseline's rows -/

theorem expectedColumn?_eq_some {row : ExpectedColumnModel}
    (h : db.expectedColumn? change = some row) :
    row ∈ db.expectedColumns ∧ row.datasetId = change.datasetId ∧
      row.name = change.columnName := by
  have hfound := List.find?_some h
  simp only [decide_eq_true_eq] at hfound
  exact ⟨List.mem_of_find?_eq_some h, hfound.1, hfound.2⟩

theorem expectedColumn?_eq_none (h : db.expectedColumn? change = none) :
    ∀ row ∈ db.expectedColumns,
      ¬ (row.datasetId = change.datasetId ∧ row.name = change.columnName) := by
  intro row hrow
  simpa using (List.find?_eq_none.1 h) row hrow

section Recorded

variable [Hashlib]
variable (hl : db.Linked) (hc : db.Constraints) (hrec : Records db change source dataset c)

include hl hc hrec

/-- The definition the baseline gives a recorded change's column is in the
row of the change's dataset. -/
theorem columnAt_recorded {b : ColumnDefinition} :
    columnAt (db.baseline source.id) c.ref = some b ↔
      b.ref = c.ref ∧ expectedRow dataset.id b ∈ db.expectedColumns := by
  rw [columnAt_baseline hl hc]
  refine and_congr_right fun href => ⟨?_, fun hrow => ?_⟩
  · rintro ⟨d, hd, hs, hr, hrow⟩
    have hdr : d.ref = dataset.ref := by
      rw [hr, hrec.ref]
      exact congrArg ColumnRef.dataset href
    rw [← eq_dataset hc hd hrec.dataset_mem (hs.trans hrec.owner.symm) hdr]
    exact hrow
  · refine ⟨dataset, hrec.dataset_mem, hrec.owner, ?_, hrow⟩
    rw [hrec.ref]
    exact (congrArg ColumnRef.dataset href).symm

/-- Rows of the change's column are the baseline's definition of it. -/
theorem columnAt_of_row {row : ExpectedColumnModel} (hrow : row ∈ db.expectedColumns)
    (hid : row.datasetId = change.datasetId) (hname : row.name = change.columnName) :
    ∃ b, columnAt (db.baseline source.id) c.ref = some b ∧ row = expectedRow dataset.id b := by
  obtain ⟨b, href, rfl⟩ := exists_column_of_row hl hrow dataset (hrec.dataset_id.trans hid.symm)
  refine ⟨b, (columnAt_recorded hl hc hrec).2 ⟨?_, hrow⟩, rfl⟩
  rw [href, hrec.ref, hname, hrec.columnName]
  rfl

end Recorded

/-- What an acceptance leaves of the baseline's rows: rows of datasets there
are, with a type each, and of the change's column the change's promotion. -/
structure Promoted (db : DB) (change : SchemaChangeModel) (source : DataSourceModel)
    (c : SchemaChange) (rows : List ExpectedColumnModel) : Prop where
  dataset : ∀ row ∈ rows, ∃ d ∈ db.datasets, d.id = row.datasetId
  typed : ∀ row ∈ rows, ∃ type : CanonicalType, row.dataTypeJson = type.toCanonicalDict
  other : ∀ d ∈ db.datasets, ∀ column : ColumnDefinition, column.dataset = d.ref →
    ¬ (d.id = change.datasetId ∧ column.name = change.columnName) →
    (expectedRow d.id column ∈ rows ↔ expectedRow d.id column ∈ db.expectedColumns)
  own : ∀ d ∈ db.datasets, ∀ column : ColumnDefinition, column.dataset = d.ref →
    d.id = change.datasetId → column.name = change.columnName →
    (expectedRow d.id column ∈ rows ↔
      c.promote (columnAt (db.baseline source.id) c.ref) = some column)

section Applied

variable [Hashlib]
variable (hl : db.Linked) (hc : db.Constraints) (hrec : Records db change source dataset c)

include hl hc hrec

omit hc in
/-- The dataset of the change's rows is the one it was recorded in. -/
theorem dataset_eq_of_id {d : DatasetModel} (hd : d ∈ db.datasets)
    (hid : d.id = change.datasetId) : d = dataset :=
  eq_of_nodup_map hl.datasetIds hd hrec.dataset_mem (hid.trans hrec.dataset_id.symm)

omit hc in
theorem ref_eq_of_own {d : DatasetModel} {column : ColumnDefinition} (hd : d ∈ db.datasets)
    (hr : column.dataset = d.ref) (hid : d.id = change.datasetId)
    (hname : column.name = change.columnName) : column.ref = c.ref := by
  rw [ColumnDefinition.ref, hr, dataset_eq_of_id hl hrec hd hid, hrec.ref, hname,
    hrec.columnName]
  rfl

/-- An addition accepted where the column is missing. -/
theorem promoted_added {a : ColumnDefinition} (htype : c.changeType = .addColumn)
    (hafter : c.after = some a) (hnone : db.expectedColumn? change = none) :
    Promoted db change source c (db.expectedColumns ++ [expectedRow dataset.id a]) := by
  have haref : a.ref = c.ref := hrec.genuine.filed.after a hafter
  have hadataset : a.dataset = dataset.ref := by
    rw [hrec.ref]
    exact congrArg ColumnRef.dataset haref
  have haname : a.name = change.columnName := by
    rw [hrec.columnName]
    exact congrArg ColumnRef.name haref
  have hmissing : columnAt (db.baseline source.id) c.ref = none := by
    cases hat : columnAt (db.baseline source.id) c.ref with
    | none => rfl
    | some b =>
      obtain ⟨href, hrow⟩ := (columnAt_recorded hl hc hrec).1 hat
      refine absurd ⟨hrec.dataset_id, ?_⟩ (expectedColumn?_eq_none hnone _ hrow)
      rw [hrec.columnName]
      exact congrArg ColumnRef.name href
  refine ⟨fun row hrow => ?_, fun row hrow => ?_, fun d hd column hr hnot => ?_,
    fun d hd column hr hid hname => ?_⟩
  · rcases List.mem_append.1 hrow with hold | hnew
    · exact hl.expectedDataset row hold
    · exact ⟨dataset, hrec.dataset_mem, by rw [List.mem_singleton.1 hnew]; rfl⟩
  · rcases List.mem_append.1 hrow with hold | hnew
    · exact hl.expectedTyped row hold
    · exact ⟨a.dataType, by rw [List.mem_singleton.1 hnew]; rfl⟩
  · rw [List.mem_append, List.mem_singleton]
    refine or_iff_left fun heq => hnot ⟨?_, ?_⟩
    · exact (congrArg ExpectedColumnModel.datasetId heq).trans hrec.dataset_id
    · exact (congrArg ExpectedColumnModel.name heq).trans haname
  · obtain rfl := dataset_eq_of_id hl hrec hd hid
    have hold : expectedRow d.id column ∉ db.expectedColumns :=
      fun hmem => expectedColumn?_eq_none hnone _ hmem ⟨hid, hname⟩
    rw [List.mem_append, List.mem_singleton, SchemaChange.promote, htype, hmissing, hafter]
    constructor
    · rintro (hmem | heq)
      · exact absurd hmem hold
      · rw [(expectedRow_inj (hr.trans hadataset.symm) heq).2]
        rfl
    · intro heq
      obtain rfl : a = column := by simpa using heq
      exact Or.inr rfl

/-- An addition accepted where the column is there. -/
theorem promoted_kept {row : ExpectedColumnModel} (htype : c.changeType = .addColumn)
    (hsome : db.expectedColumn? change = some row) :
    Promoted db change source c db.expectedColumns := by
  obtain ⟨hrow, hid, hname⟩ := expectedColumn?_eq_some hsome
  obtain ⟨b, hat, -⟩ := columnAt_of_row hl hc hrec hrow hid hname
  refine ⟨hl.expectedDataset, hl.expectedTyped, fun _ _ _ _ _ => Iff.rfl,
    fun d hd column hr hid hname => ?_⟩
  have hpromote : c.promote (columnAt (db.baseline source.id) c.ref) =
      columnAt (db.baseline source.id) c.ref := by
    rw [SchemaChange.promote, htype, hat]
    rfl
  rw [hpromote, columnAt_recorded hl hc hrec, dataset_eq_of_id hl hrec hd hid]
  exact (and_iff_right (ref_eq_of_own hl hrec hd hr hid hname)).symm

omit [Hashlib] hc hrec in
/-- A removal accepted. -/
theorem promoted_dropped (htype : c.changeType = .dropColumn) :
    Promoted db change source c
      (db.deleteExpectedColumn change.datasetId change.columnName).expectedColumns := by
  refine ⟨fun row hrow => hl.expectedDataset row (List.mem_of_mem_filter hrow),
    fun row hrow => hl.expectedTyped row (List.mem_of_mem_filter hrow),
    fun d hd column hr hnot => ?_, fun d hd column hr hid hname => ?_⟩
  · rw [DB.deleteExpectedColumn, List.mem_filter]
    exact and_iff_left (decide_eq_true hnot)
  · rw [DB.deleteExpectedColumn, List.mem_filter, SchemaChange.promote, htype]
    simp [expectedRow, hid, hname]

/-- A change of the type or of the nullability accepted: the row takes the
type, the nullability and the default the change saw. -/
theorem promoted_changed {a : ColumnDefinition} (hadd : c.changeType ≠ .addColumn)
    (hdrop : c.changeType ≠ .dropColumn) (hafter : c.after = some a) :
    Promoted db change source c
      (db.updateExpectedColumn change.datasetId change.columnName
        (ExpectedColumnModel.promote a)).expectedColumns := by
  have hpromote : ∀ x, c.promote x = x.map fun b =>
      { b with dataType := a.dataType, nullable := a.nullable, default := a.default } := by
    intro x
    unfold SchemaChange.promote
    cases htype : c.changeType with
    | addColumn => exact absurd htype hadd
    | dropColumn => exact absurd htype hdrop
    | typeChange | nullabilityChange => cases x <;> simp [hafter]
  refine ⟨fun row hrow => ?_, fun row hrow => ?_, fun d hd column hr hnot => ?_,
    fun d hd column hr hid hname => ?_⟩
  · obtain ⟨old, hold, rfl⟩ := List.mem_map.1 hrow
    obtain ⟨d, hd, hid⟩ := hl.expectedDataset old hold
    exact ⟨d, hd, by split <;> exact hid⟩
  · obtain ⟨old, hold, rfl⟩ := List.mem_map.1 hrow
    split
    · exact ⟨a.dataType, rfl⟩
    · exact hl.expectedTyped old hold
  · rw [DB.updateExpectedColumn, List.mem_map]
    constructor
    · rintro ⟨old, hold, heq⟩
      split at heq
      · rename_i hown
        refine absurd ⟨?_, ?_⟩ hnot
        · exact (congrArg ExpectedColumnModel.datasetId heq).symm.trans hown.1
        · exact (congrArg ExpectedColumnModel.name heq).symm.trans hown.2
      · exact heq ▸ hold
    · intro hmem
      refine ⟨_, hmem, if_neg ?_⟩
      simpa [expectedRow] using hnot
  · obtain rfl := dataset_eq_of_id hl hrec hd hid
    have href := ref_eq_of_own hl hrec hd hr hid hname
    rw [DB.updateExpectedColumn, List.mem_map, hpromote, Option.map_eq_some_iff]
    constructor
    · rintro ⟨old, hold, heq⟩
      have hown : old.datasetId = change.datasetId ∧ old.name = change.columnName := by
        by_contra hnot
        rw [if_neg hnot] at heq
        refine hnot ⟨?_, ?_⟩
        · exact (congrArg ExpectedColumnModel.datasetId heq).trans hid
        · exact (congrArg ExpectedColumnModel.name heq).trans hname
      rw [if_pos hown] at heq
      obtain ⟨b, hat, rfl⟩ := columnAt_of_row hl hc hrec hold hown.1 hown.2
      refine ⟨b, hat, ?_⟩
      have hbref := (columnAt_recorded hl hc hrec).1 hat
      have hbdataset : b.dataset = column.dataset :=
        congrArg ColumnRef.dataset (hbref.1.trans href.symm)
      exact (expectedRow_inj (i := d.id) (j := d.id)
        (x := { b with dataType := a.dataType, nullable := a.nullable, default := a.default })
        hbdataset heq).2
    · rintro ⟨b, hat, rfl⟩
      obtain ⟨-, hrow⟩ := (columnAt_recorded hl hc hrec).1 hat
      refine ⟨_, hrow, ?_⟩
      rw [if_pos ⟨hid, hname⟩]
      rfl

/-- **An acceptance promotes its change** and writes nothing else. -/
theorem AppliesTo.promoted (happly : AppliesTo change db applied) :
    ∃ rows, applied = { db with expectedColumns := rows } ∧ Promoted db change source c rows := by
  have htype := hrec.changeType
  have hafter := hrec.after
  rcases happly with ⟨hadd, hjson, hnone, hok⟩ | ⟨hadd, hjson, hsome⟩ | ⟨hdrop, -⟩ |
    ⟨hadd, hdrop, -, hjson, hok⟩
  · obtain ⟨a, hsome, rfl⟩ := Option.map_eq_some_iff.1 (hafter.symm.trans hjson)
    have hname : change.columnName = a.name := by
      rw [hrec.columnName]
      exact (congrArg ColumnRef.name (hrec.genuine.filed.after a hsome)).symm
    rw [addedColumn_toCanonicalDict hrec.dataset_id hname] at hok
    cases hok
    exact ⟨_, rfl, promoted_added hl hc hrec (htype.symm.trans hadd) hsome hnone⟩
  · exact ⟨_, rfl, promoted_kept hl hc hrec (htype.symm.trans hadd) hsome⟩
  · exact ⟨_, rfl, promoted_dropped hl (htype.symm.trans hdrop)⟩
  · obtain ⟨a, hsome, rfl⟩ := Option.map_eq_some_iff.1 (hafter.symm.trans hjson)
    rw [changedColumn_toCanonicalDict] at hok
    cases hok
    exact ⟨_, rfl, promoted_changed hl hc hrec (fun h => hadd (htype.trans h))
      (fun h => hdrop (htype.trans h)) hsome⟩

omit hl hc in
/-- A promotion is of the change's column. -/
theorem ref_of_promote {column : ColumnDefinition}
    (h : c.promote (columnAt (db.baseline source.id) c.ref) = some column) :
    column.ref = c.ref := by
  have hbefore : ∀ b ∈ columnAt (db.baseline source.id) c.ref, b.ref = c.ref := ref_of_columnAt
  have hafter := hrec.genuine.filed.after
  unfold SchemaChange.promote at h
  cases htype : c.changeType with
  | addColumn =>
    simp only [htype] at h
    cases hat : columnAt (db.baseline source.id) c.ref with
    | none =>
      rw [hat] at h
      exact hafter column h
    | some b =>
      rw [hat] at h
      exact hbefore column (hat.trans h)
  | dropColumn =>
    simp only [htype] at h
    cases h
  | typeChange | nullabilityChange =>
    simp only [htype, Option.bind_eq_some_iff, Option.map_eq_some_iff] at h
    obtain ⟨b, hb, a, -, rfl⟩ := h
    exact hbefore b hb

/-- **The baseline after an acceptance** is the one before it but for the
change's column. -/
theorem columnAt_promoted {db' : DB} (hl' : db'.Linked) (hc' : db'.Constraints)
    (hdatasets : db'.datasets = db.datasets)
    (hp : Promoted db change source c db'.expectedColumns) (sourceId : Uuid) (ref : ColumnRef) :
    columnAt (db'.baseline sourceId) ref =
      if sourceId = source.id ∧ ref = c.ref then c.promote (columnAt (db.baseline sourceId) ref)
      else columnAt (db.baseline sourceId) ref := by
  ext column
  rw [columnAt_baseline hl' hc', hdatasets]
  split
  · rename_i hown
    obtain ⟨rfl, rfl⟩ := hown
    constructor
    · rintro ⟨href, d, hd, hs, hr, hrow⟩
      have hdr : d.ref = dataset.ref := by
        rw [hr, hrec.ref]
        exact congrArg ColumnRef.dataset href
      obtain rfl := eq_dataset hc hd hrec.dataset_mem (hs.trans hrec.owner.symm) hdr
      have hname : column.name = change.columnName :=
        (congrArg ColumnRef.name href).trans hrec.columnName.symm
      exact (hp.own d hd column hr.symm hrec.dataset_id hname).1 hrow
    · intro hcolumn
      have href := ref_of_promote hrec hcolumn
      have hr : column.dataset = dataset.ref :=
        (congrArg ColumnRef.dataset href).trans hrec.ref.symm
      have hname : column.name = change.columnName :=
        (congrArg ColumnRef.name href).trans hrec.columnName.symm
      exact ⟨href, dataset, hrec.dataset_mem, hrec.owner, hr.symm,
        (hp.own dataset hrec.dataset_mem column hr hrec.dataset_id hname).2 hcolumn⟩
  · rename_i hother
    rw [columnAt_baseline hl hc]
    refine and_congr_right fun href => exists_congr fun d => and_congr_right fun hd =>
      and_congr_right fun hs => and_congr_right fun hr =>
        hp.other d hd column hr.symm fun hown => hother ⟨?_, ?_⟩
    · rw [← hs, dataset_eq_of_id hl hrec hd hown.1, hrec.owner]
    · exact href.symm.trans (ref_eq_of_own hl hrec hd hr.symm hown.1 hown.2)

end Applied

end SchemaSentry
