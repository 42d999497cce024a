/-
**The table manager.**

`table_manager.cpp`: a catalog on the default factory, and a factory for each type of table, made
when it is first used. `Op` is a call of the manager, or a call on a handle that `GetTable` just
gave.

`Call.Moves` follows what a call can do to the storage however it ends. Rows that go through a
handle are rows of its schema, so every call keeps typed tables typed (`insertRow_moves`,
`addTable_moves`, `removeTable_moves`).
-/

import Yadb.Table.CatalogRefinement

namespace Yadb

open Foundation

namespace TableManager

/-- `GetFactory`: the disk factory opens its mapping table when it is made. -/
def getFactory (type : TableType) : Call Unit :=
  Call.returning () fun storage => match type with
    | .inMemory => storage
    | .disk => DiskTableFactory.openMappingTable storage

/-- The constructor. -/
def construct (engine : TableType) (setup : Catalog.Setup) : Call Catalog := do
  getFactory engine
  Catalog.construct engine setup

def createTable (catalog : Catalog) (name : Bytes) (type : TableType) (schema : Schema)
    (choices : Choices) : Call (Bool × Catalog) := do
  if (catalog.tableInfo name).isSome then return (false, catalog)
  else
    getFactory type
    let created ← Factory.createTable type name choices.draw choices.mapping
    if created then catalog.addTable name type schema choices
    else return (false, catalog)

def deleteTable (catalog : Catalog) (name : Bytes) : Call (Bool × Catalog) := do
  match catalog.tableInfo name with
  | none => return (false, catalog)
  | some info =>
      let (removed, catalog) ← catalog.removeTable name
      if removed then
        getFactory info.type
        return (← Factory.deleteTable info.type name, catalog)
      else return (false, catalog)

def tableExists (catalog : Catalog) (name : Bytes) : Bool := (catalog.tableInfo name).isSome

def getTable (catalog : Catalog) (name : Bytes) : Call (Option TableHandle) := do
  match catalog.tableInfo name with
  | none => return none
  | some info =>
      getFactory info.type
      return (← Factory.getTable info.type name).map fun ref => ⟨ref, info.schema⟩

inductive Op
  | createTable (name : Bytes) (type : TableType) (schema : Schema) (choices : Choices)
  | deleteTable (name : Bytes)
  | insertRow (name : Bytes) (values : List Value) (place : Placement)
  | updateRow (name : Bytes) (rowId : RowId) (values : List Value) (place : Placement)
  | deleteRow (name : Bytes) (rowId : RowId)

/-- The name that the call is about. -/
def Op.name : Op → Bytes
  | .createTable name _ _ _ | .deleteTable name | .insertRow name _ _ | .updateRow name _ _ _
  | .deleteRow name _ => name

/-- A call on the handle of a table; whether there is one. -/
def withTable (catalog : Catalog) (name : Bytes) (body : TableHandle → Call Unit) :
    Call (Bool × Catalog) := do
  match ← getTable catalog name with
  | none => return (false, catalog)
  | some handle =>
      body handle
      return (true, catalog)

def call (catalog : Catalog) : Op → Call (Bool × Catalog)
  | .createTable name type schema choices => createTable catalog name type schema choices
  | .deleteTable name => deleteTable catalog name
  | .insertRow name values place => withTable catalog name fun handle => do
      let _ ← handle.insertRow values place
  | .updateRow name rowId values place => withTable catalog name fun handle => do
      let _ ← handle.updateRow rowId values place
  | .deleteRow name rowId => withTable catalog name fun handle => handle.deleteRow rowId

/-- A call that throws leaves the map of the catalog. -/
def step (state : Catalog × Storage) (op : Op) : Except CallFailure Bool × (Catalog × Storage) :=
  match call state.1 op state.2 with
  | (.ok (answer, catalog), storage) => (.ok answer, (catalog, storage))
  | (.error failure, storage) => (.error failure, (state.1, storage))

def machine : Machine (Catalog × Storage) Op (Except CallFailure Bool) := ⟨step⟩

/-- **A new manager over the files of another one** has its catalog. -/
theorem construct_again {names : Bytes → Option TableRef} {catalog : Catalog} {storage : Storage}
    {tables : List (RowId × TableRecord)} {columns : List (RowId × ColumnRecord)}
    (view : Factory.View .disk storage names) (attached : Catalog.Attached names catalog)
    (stored : Catalog.Stored catalog storage tables columns) (setup : Catalog.Setup) :
    construct .disk setup storage = (.ok catalog, storage) := by
  obtain ⟨mappings, mapped, _⟩ := id view
  have opened : getFactory .disk storage = (.ok (), storage) :=
    congrArg (Prod.mk _) (DiskTableFactory.opened_found mapped.rows)
  rw [construct, Call.bind_ok opened]
  exact Catalog.construct_stored view attached stored setup

theorem createTable_known {catalog : Catalog} {name : Bytes} {info : TableInfo}
    (known : catalog.tableInfo name = some info) (type : TableType) (schema : Schema)
    (choices : Choices) (storage : Storage) :
    createTable catalog name type schema choices storage = (.ok (false, catalog), storage) := by
  rw [createTable, if_pos (by rw [known]; rfl)]
  rfl

theorem createTable_unknown {catalog : Catalog} {name : Bytes}
    (unknown : catalog.tableInfo name = none) (type : TableType) (schema : Schema)
    (choices : Choices) :
    createTable catalog name type schema choices = (getFactory type >>= fun _ =>
      Factory.createTable type name choices.draw choices.mapping >>= fun created =>
        if created then catalog.addTable name type schema choices
        else pure (false, catalog)) := by
  rw [createTable, if_neg (by rw [unknown]; exact Bool.false_ne_true)]

theorem deleteTable_unknown {catalog : Catalog} {name : Bytes}
    (unknown : catalog.tableInfo name = none) (storage : Storage) :
    deleteTable catalog name storage = (.ok (false, catalog), storage) := by
  rw [deleteTable, unknown]
  rfl

theorem getTable_unknown {catalog : Catalog} {name : Bytes}
    (unknown : catalog.tableInfo name = none) (storage : Storage) :
    getTable catalog name storage = (.ok none, storage) := by
  rw [getTable, unknown]
  rfl

end TableManager

/-! ### What a call can do to the storage -/

namespace Call

variable {First Second : Type} {Moved : Storage → Storage → Prop}

/-- However the call ends, its storage has moved like this. -/
def Moves (Moved : Storage → Storage → Prop) (call : Call First) : Prop :=
  ∀ storage, Moved storage (call storage).2

theorem moves_pure (same : ∀ storage, Moved storage storage) (result : First) :
    Moves Moved (pure result : Call First) := fun storage => same storage

theorem moves_fail (same : ∀ storage, Moved storage storage) (failure : CallFailure) :
    Moves Moved (fail failure : Call First) := fun storage => same storage

theorem moves_bind (compose : ∀ first second third, Moved first second → Moved second third →
    Moved first third) {first : Call First} {next : First → Call Second} (moves : Moves Moved first)
    (continues : ∀ result, Moves Moved (next result)) : Moves Moved (first >>= next) := by
  intro storage
  have moved := moves storage
  cases run : first storage with
  | mk outcome storage' =>
      rw [run] at moved
      cases outcome with
      | error failure =>
          rw [bind_error run]
          exact moved
      | ok result =>
          rw [bind_ok run]
          exact compose _ _ _ moved (continues result storage')

end Call

/-- Rows of the schema, each under an id of its own. -/
def Typed (schema : Schema) (rows : List Row) : Prop :=
  (rows.map Row.rowId).Nodup ∧ ∀ row ∈ rows, Encodes schema row.data

theorem typed_nil (schema : Schema) : Typed schema [] := ⟨.nil, List.forall_mem_nil _⟩

/-- Some tables got other rows, and typed tables stayed typed. -/
structure Rewrites (touched : TableRef → Prop) (schemaOf : TableRef → Schema)
    (storage storage' : Storage) : Prop where
  frame : Touches touched storage storage'
  typed : ∀ ref, (∀ rows, storage.rowsOf ref = some rows → Typed (schemaOf ref) rows) →
    ∀ rows, storage'.rowsOf ref = some rows → Typed (schemaOf ref) rows

namespace Rewrites

variable {touched touched' : TableRef → Prop} {schemaOf : TableRef → Schema}
  {storage storage' storage'' : Storage} {ref : TableRef}

theorem refl (touched : TableRef → Prop) (schemaOf : TableRef → Schema) (storage : Storage) :
    Rewrites touched schemaOf storage storage :=
  ⟨Touches.refl _ _, fun _ typed => typed⟩

theorem trans (first : Rewrites touched schemaOf storage storage')
    (second : Rewrites touched schemaOf storage' storage'') :
    Rewrites touched schemaOf storage storage'' :=
  ⟨first.frame.trans second.frame, fun ref typed => second.typed ref (first.typed ref typed)⟩

theorem mono (rewrites : Rewrites touched schemaOf storage storage')
    (wider : ∀ ref, touched ref → touched' ref) : Rewrites touched' schemaOf storage storage' :=
  ⟨rewrites.frame.mono wider, rewrites.typed⟩

theorem of_setRows {rows rows' : List Row} (found : storage.rowsOf ref = some rows)
    (typed : Typed (schemaOf ref) rows → Typed (schemaOf ref) rows') :
    Rewrites (· = ref) schemaOf storage (storage.setRows ref rows') := by
  refine ⟨Touches.setRows _ _ _, fun other wasTyped rows'' isRows => ?_⟩
  rw [Storage.rowsOf_setRows] at isRows
  by_cases same : other = ref
  · subst same
    rw [Function.update_self, Option.some.injEq] at isRows
    rw [← isRows]
    exact typed (wasTyped rows found)
  · rw [Function.update_of_ne same] at isRows
    exact wasTyped rows'' isRows

theorem bind {First Second : Type} {first : Call First} {next : First → Call Second}
    (moves : first.Moves (Rewrites touched schemaOf))
    (continues : ∀ result, (next result).Moves (Rewrites touched schemaOf)) :
    (first >>= next).Moves (Rewrites touched schemaOf) :=
  Call.moves_bind (fun _ _ _ first second => first.trans second) moves continues

end Rewrites

section Moves

variable {schemaOf : TableRef → Schema} {ref : TableRef}

theorem scan_moves {touched : TableRef → Prop} (other : TableRef) :
    (Storage.scan other).Moves (Rewrites touched schemaOf) := by
  intro storage
  rw [Storage.scan_storage]
  exact Rewrites.refl _ _ _

/-- An insert of a row of the schema. -/
theorem storageInsert_moves (place : Placement) {row : Bytes} (encodes : Encodes (schemaOf ref) row) :
    (Storage.insertRow ref place row).Moves (Rewrites (· = ref) schemaOf) := by
  intro storage
  cases run : Storage.insertRow ref place row storage with
  | mk outcome storage' =>
      cases outcome with
      | ok rowId =>
          obtain ⟨rows, found, new, _, _, rfl⟩ := Storage.of_insertRow_ok run
          refine Rewrites.of_setRows found fun typed => ⟨?_, fun other member => ?_⟩
          · rw [map_insertAt]
            exact (perm_insertAt _ _ _).nodup_iff.mpr (List.nodup_cons.mpr ⟨new, typed.1⟩)
          · rcases mem_insertAt.mp member with rfl | member
            · exact encodes
            · exact typed.2 other member
      | error failure =>
          rw [Storage.insertRow_error run]
          exact Rewrites.refl _ _ _

theorem storageDelete_moves (schemaOf : TableRef → Schema) (ref : TableRef) (rowId : RowId) :
    (Storage.deleteRow ref rowId).Moves (Rewrites (· = ref) schemaOf) := by
  intro storage
  cases run : Storage.deleteRow ref rowId storage with
  | mk outcome storage' =>
      cases outcome with
      | ok result =>
          obtain ⟨rows, found, rfl⟩ := Storage.of_deleteRow_ok run
          exact Rewrites.of_setRows found fun typed =>
            ⟨typed.1.sublist (List.filter_sublist.map _), fun row member =>
              typed.2 row (List.mem_of_mem_filter member)⟩
      | error failure =>
          rw [Storage.deleteRow_error run]
          exact Rewrites.refl _ _ _

variable {handle : TableHandle} {values : List Value}

/-- **A row that goes through a handle** is a row of its schema, or the call throws and nothing
moves. -/
theorem buildRow_then {Result : Type} {next : Bytes → Call Result}
    {Moved : Storage → Storage → Prop} (same : ∀ storage, Moved storage storage)
    (continues : ∀ row, Encodes handle.schema row → (next row).Moves Moved) :
    (handle.buildRow values >>= next).Moves Moved := by
  intro storage
  by_cases matching : Matches handle.schema values
  · rw [Call.bind_ok (TableHandle.buildRow_ok matching storage)]
    exact continues _ ⟨values, matching, rfl⟩ storage
  · obtain ⟨error, failed⟩ := TableHandle.buildRow_throws matching storage
    rw [Call.bind_error failed]
    exact same storage

theorem insertRow_moves (handle : TableHandle) (values : List Value)
    (isSchema : schemaOf handle.storage = handle.schema) (place : Placement) :
    (handle.insertRow values place).Moves (Rewrites (· = handle.storage) schemaOf) :=
  buildRow_then (Rewrites.refl _ _) fun _ encodes => storageInsert_moves place (isSchema ▸ encodes)

theorem updateRow_moves (handle : TableHandle) (values : List Value)
    (isSchema : schemaOf handle.storage = handle.schema) (rowId : RowId) (place : Placement) :
    (handle.updateRow rowId values place).Moves (Rewrites (· = handle.storage) schemaOf) :=
  buildRow_then (Rewrites.refl _ _) fun _ encodes =>
    Rewrites.bind (storageDelete_moves schemaOf _ rowId) fun _ =>
      storageInsert_moves place (isSchema ▸ encodes)

namespace Catalog

variable {catalog : Catalog}

theorem addColumns_moves (handle : TableHandle)
    (isSchema : schemaOf handle.storage = handle.schema) (place : Nat → Placement)
    (records : List ColumnRecord) :
    (addColumns handle place records).Moves (Rewrites (· = handle.storage) schemaOf) := by
  induction records with
  | nil => exact Call.moves_pure (Rewrites.refl _ _) ()
  | cons record records ih =>
      refine Rewrites.bind (insertRow_moves handle _ isSchema _) fun _ => ?_
      by_cases overflow : record.position + 1 = 2 ^ 31
      · rw [if_pos overflow]
        exact Call.moves_fail (Rewrites.refl _ _) _
      · rw [if_neg overflow]
        exact ih

theorem deleteRows_moves (schemaOf : TableRef → Schema) (handle : TableHandle) (rowIds : List RowId) :
    (deleteRows handle rowIds).Moves (Rewrites (· = handle.storage) schemaOf) := by
  induction rowIds with
  | nil => exact Call.moves_pure (Rewrites.refl _ _) ()
  | cons rowId rowIds ih =>
      exact Rewrites.bind (storageDelete_moves schemaOf _ rowId) fun _ => ih

/-- The tables of the catalog have its schemas. -/
structure OwnSchemas (catalog : Catalog) (schemaOf : TableRef → Schema) : Prop where
  tables : schemaOf catalog.tableCatalog = tableCatalogSchema
  columns : schemaOf catalog.columnCatalog = columnCatalogSchema

/-- **`AddTable`** moves the tables of the catalog only, and keeps them typed. -/
theorem addTable_moves (schemas : catalog.OwnSchemas schemaOf) (name : Bytes) (type : TableType)
    (schema : Schema) (choices : Choices) :
    (addTable catalog name type schema choices).Moves (Rewrites catalog.Owns schemaOf) := by
  rw [addTable]
  by_cases known : (catalog.tableInfo name).isSome
  · rw [if_pos known]
    exact Call.moves_pure (Rewrites.refl _ _) _
  · rw [if_neg known]
    have tables := insertRow_moves catalog.tableHandle
      (TableRecord.values ⟨name, type, schema.length⟩) schemas.tables choices.table
    have columns := addColumns_moves catalog.columnHandle schemas.columns choices.column
      (columnsOf name 0 schema)
    refine Rewrites.bind (fun storage => (tables storage).mono fun _ => Or.inl)
      fun _ => Rewrites.bind
        (fun storage => (columns storage).mono fun _ => Or.inr) fun _ => ?_
    exact Call.moves_pure (Rewrites.refl _ _) _

/-- **`RemoveTable`** moves the tables of the catalog only, and keeps them typed. -/
theorem removeTable_moves (catalog : Catalog) (schemaOf : TableRef → Schema) (name : Bytes) :
    (removeTable catalog name).Moves (Rewrites catalog.Owns schemaOf) := by
  rw [removeTable]
  by_cases unknown : (catalog.tableInfo name).isNone
  · rw [if_pos unknown]
    exact Call.moves_pure (Rewrites.refl _ _) _
  · rw [if_neg unknown]
    refine Rewrites.bind (scan_moves _) fun _ => ?_
    refine Rewrites.bind (fun storage => Rewrites.refl _ _ storage) fun rows => ?_
    refine Rewrites.bind (fun storage =>
      (deleteRows_moves schemaOf catalog.columnHandle _ storage).mono fun _ => Or.inr) fun _ => ?_
    refine Rewrites.bind (scan_moves _) fun _ => ?_
    refine Rewrites.bind (fun storage => Rewrites.refl _ _ storage) fun found => ?_
    cases found with
    | none => exact Call.moves_pure (Rewrites.refl _ _) _
    | some row =>
        exact Rewrites.bind (fun storage =>
          (storageDelete_moves schemaOf catalog.tableCatalog row.rowId storage).mono
            fun _ => Or.inl) fun _ => Call.moves_pure (Rewrites.refl _ _) _

/-- What an `AddTable` that returned answers. -/
theorem of_addTable_ok {name : Bytes} {type : TableType} {schema : Schema} {choices : Choices}
    {added : Bool} {catalog' : Catalog} {storage storage' : Storage}
    (run : addTable catalog name type schema choices storage = (.ok (added, catalog'), storage')) :
    added = (catalog.tableInfo name).isNone ∧
      catalog' = if added then withInfo catalog name (some ⟨type, schema⟩) else catalog := by
  cases known : catalog.tableInfo name with
  | some table =>
      rw [addTable, if_pos (by rw [known]; rfl)] at run
      cases run
      exact ⟨rfl, rfl⟩
  | none =>
      rw [addTable, if_neg (by rw [known]; exact Bool.false_ne_true)] at run
      obtain ⟨_, middle, _, rest⟩ := Call.of_bind_ok run
      obtain ⟨_, middle', _, rest⟩ := Call.of_bind_ok rest
      cases rest
      exact ⟨rfl, rfl⟩

/-- What a `RemoveTable` that returned answers. -/
theorem of_removeTable_ok {name : Bytes} {removed : Bool} {catalog' : Catalog}
    {storage storage' : Storage}
    (run : removeTable catalog name storage = (.ok (removed, catalog'), storage')) :
    removed = (catalog.tableInfo name).isSome ∧
      catalog' = if removed then withInfo catalog name none else catalog := by
  cases known : catalog.tableInfo name with
  | none =>
      rw [removeTable, if_pos (by rw [known]; rfl)] at run
      cases run
      exact ⟨rfl, rfl⟩
  | some table =>
      rw [removeTable, if_neg (by rw [known]; exact Bool.false_ne_true)] at run
      obtain ⟨_, _, _, rest⟩ := Call.of_bind_ok run
      obtain ⟨_, _, _, rest⟩ := Call.of_bind_ok rest
      obtain ⟨_, _, _, rest⟩ := Call.of_bind_ok rest
      obtain ⟨_, _, _, rest⟩ := Call.of_bind_ok rest
      obtain ⟨found, _, _, rest⟩ := Call.of_bind_ok rest
      cases found with
      | none =>
          cases rest
          exact ⟨rfl, rfl⟩
      | some row =>
          obtain ⟨_, _, _, rest⟩ := Call.of_bind_ok rest
          cases rest
          exact ⟨rfl, rfl⟩

end Catalog

end Moves

end Yadb
