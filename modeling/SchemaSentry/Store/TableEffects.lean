import SchemaSentry.Store.ScanEffects
/-!
# Schema Sentry — bulk writes in closed form

The loops of the scan repository write rows one at a time; here each is
one rewriting of one table, so that what it leaves alone can be read off.
-/

namespace SchemaSentry

open Lib

variable {db : DB}

/-! ## Rows added -/

/-- Rows get the next keys in turn. -/
def keyed {α : Type} (setId : Uuid → α → α) (next : Uuid) (rows : List α) : List α :=
  rows.mapIdx fun i row => setId (next + i) row

theorem keyed_cons {α : Type} (setId : Uuid → α → α) (next : Uuid) (row : α) (rows : List α) :
    keyed setId next (row :: rows) = setId next row :: keyed setId (next + 1) rows := by
  simp [keyed, List.mapIdx_cons, Nat.add_assoc, Nat.add_comm 1]

theorem mem_keyed {α : Type} {setId : Uuid → α → α} {next : Uuid} {rows : List α} {row : α}
    (h : row ∈ keyed setId next rows) :
    ∃ i < rows.length, ∃ r ∈ rows, row = setId (next + i) r := by
  obtain ⟨i, hi, rfl⟩ := List.mem_mapIdx.1 h
  exact ⟨i, hi, _, List.getElem_mem hi, rfl⟩

/-- Every row gets a key. -/
theorem exists_mem_keyed {α : Type} {setId : Uuid → α → α} {next : Uuid} {rows : List α} {r : α}
    (h : r ∈ rows) : ∃ i < rows.length, setId (next + i) r ∈ keyed setId next rows := by
  obtain ⟨i, hi, rfl⟩ := List.getElem_of_mem h
  exact ⟨i, hi, List.mem_mapIdx.2 ⟨i, hi, rfl⟩⟩

/-- The keys given are the next ones. -/
theorem map_keyed {α : Type} {setId : Uuid → α → α} {id : α → Uuid}
    (hid : ∀ n row, id (setId n row) = n) (next : Uuid) (rows : List α) :
    (keyed setId next rows).map id = List.range' next rows.length := by
  induction rows generalizing next with
  | nil => rfl
  | cons row rows ih => rw [keyed_cons, List.map_cons, ih, hid, List.length_cons, List.range'_succ]

/-- What does not depend on its key a row has before and after. -/
theorem map_keyed_of_frame {α β : Type} {setId : Uuid → α → α} {f : α → β}
    (hf : ∀ n row, f (setId n row) = f row) (next : Uuid) (rows : List α) :
    (keyed setId next rows).map f = rows.map f := by
  induction rows generalizing next with
  | nil => rfl
  | cons row rows ih => rw [keyed_cons, List.map_cons, ih, hf, List.map_cons]

/-- A change row's key is set. -/
def SchemaChangeModel.withId (id : Uuid) (c : SchemaChangeModel) : SchemaChangeModel :=
  { c with id := id }

theorem addSchemaChanges_eq (rows : List SchemaChangeModel) :
    db.addSchemaChanges rows =
      { db with
        schemaChanges := db.schemaChanges ++ keyed SchemaChangeModel.withId db.nextId rows
        nextId := db.nextId + rows.length } := by
  induction rows generalizing db with
  | nil => simp [DB.addSchemaChanges, keyed]
  | cons row rows ih =>
    have hstep : db.addSchemaChanges (row :: rows) =
        (db.addSchemaChange row).addSchemaChanges rows := rfl
    rw [hstep, ih, keyed_cons]
    simp [DB.addSchemaChange, SchemaChangeModel.withId, Nat.add_assoc, Nat.add_comm 1]

/-- The deliveries of a scan, one a channel. -/
def pendingDeliveries (next scanId : Uuid) (channels : List AlertChannel) :
    List AlertDeliveryModel :=
  channels.mapIdx fun i channel => { id := next + i, scanId := scanId, channel := channel }

theorem addDeliveries_eq (scanId : Uuid) (channels : List AlertChannel) :
    db.addDeliveries scanId channels =
      { db with
        alertDeliveries := db.alertDeliveries ++ pendingDeliveries db.nextId scanId channels
        nextId := db.nextId + channels.length } := by
  induction channels generalizing db with
  | nil => simp [DB.addDeliveries, pendingDeliveries]
  | cons channel channels ih =>
    have hstep : db.addDeliveries scanId (channel :: channels) =
        (db.addDelivery scanId channel).addDeliveries scanId channels := rfl
    rw [hstep, ih]
    simp [DB.addDelivery, pendingDeliveries, List.mapIdx_cons, Nat.add_assoc, Nat.add_comm 1]

/-! ## Rows resolved -/

/-- The rows of `openChanges` that are not active. -/
def absentIds (openChanges : Dict String SchemaChangeModel) (active : List String) : List Uuid :=
  (openChanges.filter fun item => item.1 ∉ active).map fun item => item.2.id

theorem resolveAbsent_eq (openChanges : Dict String SchemaChangeModel) (active : List String)
    (finishedAt : Timestamp) :
    db.resolveAbsent openChanges active finishedAt =
      { db with schemaChanges := db.schemaChanges.map fun c =>
          if c.id ∈ absentIds openChanges active then c.resolve finishedAt else c } := by
  induction openChanges generalizing db with
  | nil => simp [DB.resolveAbsent, absentIds]
  | cons item rest ih =>
    have hstep : db.resolveAbsent (item :: rest) active finishedAt =
        (if item.1 ∉ active then db.updateChange item.2.id (SchemaChangeModel.resolve finishedAt)
          else db).resolveAbsent rest active finishedAt := rfl
    rw [hstep]
    by_cases hactive : item.1 ∈ active
    · have hids : absentIds (item :: rest) active = absentIds rest active := by
        simp [absentIds, hactive]
      rw [if_neg (by simpa using hactive), ih, hids]
    · have hids : absentIds (item :: rest) active = item.2.id :: absentIds rest active := by
        simp [absentIds, hactive]
      rw [if_pos hactive, ih, hids]
      simp only [DB.updateChange, List.map_map, DB.mk.injEq, true_and, and_true]
      refine List.map_congr_left fun c _ => ?_
      -- a row named twice is resolved once
      by_cases hfirst : c.id = item.2.id <;> by_cases hlater : c.id ∈ absentIds rest active <;>
        simp_all [SchemaChangeModel.resolve]

/-! ## One scan -/

theorem updateScan_of_fresh {scan : ScanRunModel} {f : ScanRunModel → ScanRunModel}
    {runs : List ScanRunModel} (h : ∀ x ∈ runs, x.id < scan.id) :
    (runs ++ [scan]).map (fun x => if x.id = scan.id then f x else x) = runs ++ [f scan] := by
  rw [List.map_append, List.map_cons, List.map_nil, if_pos rfl]
  congr 1
  conv_rhs => rw [← List.map_id runs]
  refine List.map_congr_left fun x hx => ?_
  rw [if_neg (Nat.ne_of_lt (h x hx))]
  rfl

end SchemaSentry
