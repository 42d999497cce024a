/-
**A table that exists can be opened.**

The catalog records its own tables as tables in memory. With the disk engine they are files, so the
factory of ephemeral tables, which `GetTable` and `DeleteTable` ask, does not know them. With the
engine in memory every table of the catalog is one that its factory knows, and this stays so
whatever calls do, also when they fail halfway (`Serves`).

* `tables_openable`: every table of every state can be opened and deleted exactly when the default
  engine is the one in memory.
-/

import Yadb.Table.Isolation

namespace Yadb

open Foundation

/-! ### Removing from typed tables -/

theorem allWhere_found {test : Bytes → Except ReadFailure Bool} {rows : List Row}
    (reads : ∀ row ∈ rows, ∃ answer, test row.data = .ok answer) :
    ∃ found, allWhere test rows = .ok found ∧ found.Sublist rows := by
  induction rows with
  | nil => exact ⟨[], rfl, .slnil⟩
  | cons row rows ih =>
      obtain ⟨answer, read⟩ := reads row List.mem_cons_self
      obtain ⟨found, rest, sub⟩ := ih fun other member =>
        reads other (List.mem_cons_of_mem row member)
      refine ⟨if answer then row :: found else found, ?_, ?_⟩
      · rw [allWhere, bind_of_ok read, bind_of_ok rest]
        rfl
      · cases answer with
        | true => exact sub.cons_cons row
        | false => exact sub.cons row

theorem firstWhere_found {test : Bytes → Except ReadFailure Bool} {rows : List Row}
    (reads : ∀ row ∈ rows, ∃ answer, test row.data = .ok answer) :
    ∃ found, firstWhere test rows = .ok found ∧ ∀ row, found = some row → row ∈ rows := by
  induction rows with
  | nil => exact ⟨none, rfl, nofun⟩
  | cons row rows ih =>
      obtain ⟨answer, read⟩ := reads row List.mem_cons_self
      obtain ⟨found, rest, inside⟩ := ih fun other member =>
        reads other (List.mem_cons_of_mem row member)
      cases answer with
      | true =>
          refine ⟨some row, ?_, fun other same => ?_⟩
          · rw [firstWhere, bind_of_ok read]
            rfl
          · cases same
            exact List.mem_cons_self
      | false =>
          refine ⟨found, ?_, fun other same => List.mem_cons_of_mem row (inside other same)⟩
          rw [firstWhere, bind_of_ok read]
          exact rest

/-- A column of strings reads as a string. -/
theorem getString_encodes {schema : Schema} {data : Bytes} (pos : Nat) {attr : RelationAttribute}
    (encodes : Encodes schema data) (isAttr : schema[pos]? = some attr)
    (isString : attr.type = DataType.string.typeId) :
    ∃ value, RowReader.getString ⟨data, schema⟩ pos = .ok value := by
  obtain ⟨values, matching, rfl⟩ := encodes
  obtain ⟨inside, rfl⟩ := List.getElem?_eq_some_iff.mp isAttr
  have inside' : pos < values.length := matching.length_eq ▸ inside
  have isType := (matching.get inside inside').1
  have found := List.getElem?_eq_getElem inside'
  have same : values[pos].type = .string :=
    DataType.typeId_injective (isType.trans isString)
  cases isValue : values[pos] with
  | string value =>
      rw [isValue] at found
      exact ⟨value, getString_encode matching found⟩
  | _ =>
      rw [isValue] at same
      cases same

namespace Catalog

variable {catalog : Catalog} {storage : Storage} {ref : TableRef} {name : Bytes}

theorem deleteRows_present (schema : Schema) {rows : List Row} (rowIds : List RowId)
    (found : storage.rowsOf ref = some rows) (once : rowIds.Nodup)
    (present : ∀ rowId ∈ rowIds, rowId ∈ rows.map Row.rowId) :
    ∃ storage', deleteRows ⟨ref, schema⟩ rowIds storage = (.ok (), storage') := by
  induction rowIds generalizing storage rows with
  | nil => exact ⟨storage, rfl⟩
  | cons rowId rowIds ih =>
      have deleted := Storage.deleteRow_ok found (present rowId List.mem_cons_self)
      obtain ⟨notLater, once⟩ := List.nodup_cons.mp once
      let left := rows.filter fun row => row.rowId ≠ rowId
      have foundLeft : (storage.setRows ref left).rowsOf ref = some left := by
        rw [Storage.rowsOf_setRows, Function.update_self]
      obtain ⟨storage', rest⟩ := ih foundLeft once fun other member => by
          obtain ⟨row, listed, isOther⟩ :=
            List.mem_map.mp (present other (List.mem_cons_of_mem rowId member))
          refine List.mem_map.mpr ⟨row, List.mem_filter.mpr ⟨listed, decide_eq_true ?_⟩, isOther⟩
          rintro same
          exact notLater (same ▸ isOther ▸ member)
      exact ⟨storage', (Call.bind_ok deleted _).trans rest⟩

/-- **`RemoveTable`** on typed tables returns. -/
theorem removeTable_typed {tables columns : List Row}
    (different : catalog.tableCatalog ≠ catalog.columnCatalog)
    (isTables : storage.rowsOf catalog.tableCatalog = some tables)
    (tablesTyped : Typed tableCatalogSchema tables)
    (isColumns : storage.rowsOf catalog.columnCatalog = some columns)
    (columnsTyped : Typed columnCatalogSchema columns) (known : (catalog.tableInfo name).isSome) :
    ∃ storage', removeTable catalog name storage
      = (.ok (true, catalog.withInfo name none), storage') := by
  have columnsRead : ∀ row ∈ columns, ∃ answer, ofRelation name row.data = .ok answer := by
    intro row member
    obtain ⟨value, read⟩ := getString_encodes 1 (columnsTyped.2 row member) rfl rfl
    exact ⟨_, bind_of_ok read _⟩
  have tablesRead : ∀ row ∈ tables, ∃ answer, hasName name row.data = .ok answer := by
    intro row member
    obtain ⟨value, read⟩ := getString_encodes 0 (tablesTyped.2 row member) rfl rfl
    exact ⟨_, bind_of_ok read _⟩
  obtain ⟨toDelete, isFound, sub⟩ := allWhere_found columnsRead
  obtain ⟨middle, deleted⟩ := deleteRows_present columnCatalogSchema (toDelete.map Row.rowId) isColumns
    (columnsTyped.1.sublist (sub.map _)) fun rowId member => (sub.map _).subset member
  have unmoved : middle.rowsOf catalog.tableCatalog = some tables := by
    have moved := deleteRows_moves (fun _ => []) catalog.columnHandle
      (toDelete.map Row.rowId) storage
    have same : (deleteRows catalog.columnHandle (toDelete.map Row.rowId) storage).2 = middle :=
      congrArg Prod.snd deleted
    rw [same] at moved
    rw [moved.frame.rows _ different, isTables]
  obtain ⟨first, isFirst, inside⟩ := firstWhere_found tablesRead
  obtain ⟨info, isInfo⟩ := Option.isSome_iff_exists.mp known
  rw [removeTable, if_neg (by rw [isInfo]; exact Bool.false_ne_true)]
  rw [Call.bind_ok (Storage.scan_ok isColumns), Call.bind_ok (Call.read_ok isFound storage)]
  have deleted : deleteRows catalog.columnHandle (toDelete.map Row.rowId) storage
    = (.ok (), middle) := deleted
  rw [Call.bind_ok deleted, Call.bind_ok (Storage.scan_ok unmoved),
    Call.bind_ok (Call.read_ok isFirst middle)]
  cases first with
  | none => exact ⟨middle, rfl⟩
  | some row =>
      have removed := Storage.deleteRow_ok unmoved (List.mem_map_of_mem (inside row rfl))
      have removed : catalog.tableHandle.deleteRow row.rowId middle = _ := removed
      exact ⟨_, Call.bind_ok removed _⟩

end Catalog

/-! ### The engine in memory -/

namespace TableManager

/-- The factory of the type has the name. -/
def Knows (names : Bytes → Option TableRef) (mappings : List (RowId × Mapping)) (type : TableType)
    (name : Bytes) : Prop :=
  match type with
  | .inMemory => names name ≠ none
  | .disk => DiskTableFactory.fileOf mappings name ≠ none

/-- **A manager whose tables can be opened**: the catalog is in memory, with rows of its schemas,
and the factories have the tables that it records. -/
structure Serves (names : Bytes → Option TableRef) (mappings : List (RowId × Mapping))
    (schemaOf : TableRef → Schema) (catalog : Catalog) (storage : Storage) : Prop where
  memory : Factory.View .inMemory storage names
  disk : DiskTableFactory.Listed storage mappings ∨
    storage.files diskTableMappingFileId = none ∧ mappings = []
  schemas : catalog.OwnSchemas schemaOf
  owned : ∀ ref, catalog.Owns ref → storage.Allocated ref ∧ ref.isMemory = true
  typed : ∀ ref, ref.isMemory = true → ∀ rows, storage.rowsOf ref = some rows →
    Typed (schemaOf ref) rows
  recorded : ∀ name info ref, catalog.tableInfo name = some info → info.type = .inMemory →
    names name = some ref → schemaOf ref = info.schema
  known : ∀ name info, catalog.tableInfo name = some info → Knows names mappings info.type name

variable {names : Bytes → Option TableRef} {mappings mappings' : List (RowId × Mapping)}
  {schemaOf : TableRef → Schema} {catalog catalog' : Catalog} {storage storage' : Storage}
  {type : TableType} {name : Bytes} {ref : TableRef}

namespace Serves

theorem notMapping (serves : Serves names mappings schemaOf catalog storage)
    (owned : catalog.Owns ref) : ref ≠ DiskTableFactory.mappingTable.storage := by
  rintro rfl
  exact Bool.false_ne_true (serves.owned _ owned).2

/-- Rows that were rewritten. -/
theorem rewrite {touched : TableRef → Prop} (serves : Serves names mappings schemaOf catalog storage)
    (rewrites : Rewrites touched schemaOf storage storage')
    (outside : ¬ touched DiskTableFactory.mappingTable.storage) :
    Serves names mappings schemaOf catalog storage' where
  memory := serves.memory.frame rewrites.frame outside
  disk := DiskTableFactory.listed_congr (rewrites.frame.rows _ outside) serves.disk
  schemas := serves.schemas
  owned ref owned := ⟨rewrites.frame.allocated (serves.owned ref owned).1,
    (serves.owned ref owned).2⟩
  typed ref isMemory := rewrites.typed ref (serves.typed ref isMemory)
  recorded := serves.recorded
  known := serves.known

/-- Files that were changed, and the mapping table with them. -/
theorem onDisk (serves : Serves names mappings schemaOf catalog storage)
    (listed : DiskTableFactory.Listed storage' mappings') (tables : storage'.tables = storage.tables)
    (registry : storage'.registry = storage.registry)
    (nextTable : storage'.nextTable = storage.nextTable)
    (keeps : ∀ name info, catalog.tableInfo name = some info → info.type = .disk →
      DiskTableFactory.fileOf mappings' name ≠ none) :
    Serves names mappings' schemaOf catalog storage' where
  memory := serves.memory.memory registry nextTable
  disk := Or.inl listed
  schemas := serves.schemas
  owned ref owned := by
    obtain ⟨allocated, isMemory⟩ := serves.owned ref owned
    cases ref with
    | memory address =>
        refine ⟨?_, isMemory⟩
        show address < storage'.nextTable
        rw [nextTable]
        exact allocated
    | file fileId => cases isMemory
  typed ref isMemory rows isRows := by
    cases ref with
    | memory address =>
        have isRows : some (storage'.tables address) = some rows := isRows
        rw [tables] at isRows
        exact serves.typed (.memory address) isMemory rows isRows
    | file fileId => cases isMemory
  recorded := serves.recorded
  known name info known := by
    have knows := serves.known name info known
    cases isType : info.type with
    | inMemory =>
        rw [isType] at knows
        exact knows
    | disk => exact keeps name info known isType

/-- The schema of a file is no concern of the catalog. -/
theorem forFile (serves : Serves names mappings schemaOf catalog storage) (fileId : FileId)
    (schema : Schema) :
    Serves names mappings (Function.update schemaOf (.file fileId) schema) catalog storage := by
  have same : ∀ ref, ref.isMemory = true →
      Function.update schemaOf (.file fileId) schema ref = schemaOf ref := by
    intro ref isMemory
    refine Function.update_of_ne ?_ ..
    rintro rfl
    cases isMemory
  refine ⟨serves.memory, serves.disk, ⟨?_, ?_⟩, serves.owned, fun ref isMemory => ?_,
    fun name info ref known isType found => ?_, serves.known⟩
  · rw [same _ (serves.owned _ (Or.inl rfl)).2, serves.schemas.tables]
  · rw [same _ (serves.owned _ (Or.inr rfl)).2, serves.schemas.columns]
  · rw [same ref isMemory]
    exact serves.typed ref isMemory
  · rw [same ref ((serves.memory.isMemory found).mpr rfl)]
    exact serves.recorded name info ref known isType found

/-- The catalog has another entry. -/
theorem withInfo (serves : Serves names mappings schemaOf catalog storage) {info : Option TableInfo}
    (isSchema : ∀ found, info = some found → found.type = .inMemory → ∀ ref, names name = some ref →
      schemaOf ref = found.schema)
    (knows : ∀ found, info = some found → Knows names mappings found.type name) :
    Serves names mappings schemaOf (catalog.withInfo name info) storage := by
  refine ⟨serves.memory, serves.disk, ⟨serves.schemas.tables, serves.schemas.columns⟩, serves.owned,
    serves.typed, fun other found ref known isType isRef => ?_, fun other found known => ?_⟩
  · have known : Function.update catalog.tableInfo name info other = some found := known
    by_cases same : other = name
    · rw [same, Function.update_self] at known
      exact isSchema found known isType ref (same ▸ isRef)
    · rw [Function.update_of_ne same] at known
      exact serves.recorded other found ref known isType isRef
  · have known : Function.update catalog.tableInfo name info other = some found := known
    by_cases same : other = name
    · rw [same, Function.update_self] at known
      rw [same]
      exact knows found known
    · rw [Function.update_of_ne same] at known
      exact serves.known other found known

/-- A factory that is made, when it was not. -/
theorem open_ (serves : Serves names mappings schemaOf catalog storage) (type : TableType) :
    ∃ storage', getFactory type storage = (.ok (), storage') ∧
      Serves names mappings schemaOf catalog storage' ∧
      (type = .disk → DiskTableFactory.Listed storage' mappings) := by
  cases type with
  | inMemory => exact ⟨storage, rfl, serves, TableType.noConfusion⟩
  | disk =>
      have frame := Touches.opened storage
      have listed := DiskTableFactory.listed_opened serves.disk
      have tables : (DiskTableFactory.openMappingTable storage).tables = storage.tables :=
        funext fun address => Option.some.inj (frame.rows (.memory address) TableRef.noConfusion)
      refine ⟨DiskTableFactory.openMappingTable storage, rfl, serves.onDisk listed tables
        frame.registry frame.nextTable fun name info known isDisk => ?_, fun _ => listed⟩
      have knows := serves.known name info known
      rw [isDisk] at knows
      exact knows

end Serves

/-- What the factory of a type answers for a name, once it is made. -/
theorem getTable_serves (serves : Serves names mappings schemaOf catalog storage)
    (listed : type = .disk → DiskTableFactory.Listed storage mappings)
    (knows : Knows names mappings type name) :
    ∃ ref, Factory.getTable type name storage = (.ok (some ref), storage) ∧
      ref ≠ DiskTableFactory.mappingTable.storage ∧
      (type = .inMemory → names name = some ref) ∧ (type = .disk → ref.isMemory = false) := by
  cases type with
  | inMemory =>
      obtain ⟨ref, isRef⟩ := Option.ne_none_iff_exists'.mp knows
      have got := Factory.getTable_view serves.memory name
      rw [isRef] at got
      exact ⟨ref, got, (serves.memory.present isRef).2, fun _ => isRef, nofun⟩
  | disk =>
      obtain ⟨fileId, isFile⟩ := Option.ne_none_iff_exists'.mp knows
      have got := DiskTableFactory.getFileId_listed (listed rfl) name
      rw [isFile] at got
      obtain ⟨mapping, member, _, rfl⟩ := Factory.fileOf_eq_some isFile
      exact ⟨.file mapping.2.2, Call.bind_ok got _,
        fun same => (listed rfl).notMapping mapping member (TableRef.file.inj same), nofun,
        fun _ => rfl⟩

/-- **`GetTable`** of a name of the catalog gives a handle. -/
theorem getTable_known (serves : Serves names mappings schemaOf catalog storage) {info : TableInfo}
    (known : catalog.tableInfo name = some info) :
    ∃ ref storage', getTable catalog name storage = (.ok (some ⟨ref, info.schema⟩), storage') ∧
      Serves names mappings schemaOf catalog storage' ∧
      ref ≠ DiskTableFactory.mappingTable.storage ∧
      (info.type = .inMemory → names name = some ref) ∧
      (info.type = .disk → ref.isMemory = false) := by
  obtain ⟨opened, isOpened, serves', listed⟩ := serves.open_ info.type
  obtain ⟨ref, got, rest⟩ := getTable_serves serves' listed (serves.known name info known)
  refine ⟨ref, opened, ?_, serves', rest⟩
  rw [getTable, known]
  show (getFactory info.type >>= fun _ => _) storage = _
  rw [Call.bind_ok isOpened, Call.bind_ok got]
  rfl

theorem ownSchemas_different (schemas : catalog.OwnSchemas schemaOf) :
    catalog.tableCatalog ≠ catalog.columnCatalog := by
  intro same
  have schema : tableCatalogSchema = columnCatalogSchema := by
    rw [← schemas.tables, ← schemas.columns, same]
  exact absurd schema (by decide)

/-- A table in memory that was deleted, after the catalog forgot it. -/
theorem Serves.delete (serves : Serves names mappings schemaOf catalog storage)
    (deleted : Factory.Deleted .inMemory names name storage storage')
    (forgotten : catalog.tableInfo name = none) :
    Serves (Function.update names name none) mappings schemaOf catalog storage' := by
  have different : ∀ {other info}, catalog.tableInfo other = some info → other ≠ name := by
    rintro other info known rfl
    rw [forgotten] at known
    cases known
  refine ⟨deleted.view,
    DiskTableFactory.listed_congr (congrFun (deleted.apart.present rfl) _) serves.disk,
    serves.schemas, fun ref owned => ⟨deleted.allocated ref (serves.owned ref owned).1
      TableType.noConfusion, (serves.owned ref owned).2⟩,
    fun ref isMemory rows isRows => ?_, fun other info ref known isMemory isRef => ?_,
    fun other info known => ?_⟩
  · have same : storage'.rowsOf ref = storage.rowsOf ref := by
      by_cases this : names name = some ref
      · rcases deleted.gone ref this with gone | same
        · rw [gone] at isRows
          cases isRows
        · exact same
      · refine deleted.rows ref this ?_
        rintro rfl
        cases isMemory
    rw [same] at isRows
    exact serves.typed ref isMemory rows isRows
  · rw [Function.update_of_ne (different known)] at isRef
    exact serves.recorded other info ref known isMemory isRef
  · have knows := serves.known other info known
    cases isKind : info.type with
    | inMemory =>
        rw [isKind] at knows
        show Function.update names name none other ≠ none
        rw [Function.update_of_ne (different known)]
        exact knows
    | disk =>
        rw [isKind] at knows
        exact knows

/-- What `DeleteTable` does with a name of the catalog, call by call. -/
theorem deleteTable_run {info : TableInfo} (known : catalog.tableInfo name = some info)
    {middle opened : Storage}
    (removed : catalog.removeTable name storage = (.ok (true, catalog.withInfo name none), middle))
    (isOpened : getFactory info.type middle = (.ok (), opened)) {deleted : Bool}
    (run : Factory.deleteTable info.type name opened = (.ok deleted, storage')) :
    deleteTable catalog name storage = (.ok (deleted, catalog.withInfo name none), storage') := by
  rw [deleteTable, known]
  show (catalog.removeTable name >>= fun _ => _) storage = _
  rw [Call.bind_ok removed]
  show (getFactory info.type >>= fun _ => _) middle = _
  rw [Call.bind_ok isOpened, Call.bind_ok run]
  rfl

/-- **`DeleteTable`** of a name of the catalog returns true. -/
theorem deleteTable_known (serves : Serves names mappings schemaOf catalog storage) {info : TableInfo}
    (known : catalog.tableInfo name = some info) :
    ∃ names' mappings' storage', deleteTable catalog name storage
        = (.ok (true, catalog.withInfo name none), storage') ∧
      Serves names' mappings' schemaOf (catalog.withInfo name none) storage' := by
  obtain ⟨tables, isTables⟩ := rowsOf_of_allocated (serves.owned _ (Or.inl rfl)).1
  obtain ⟨columns, isColumns⟩ := rowsOf_of_allocated (serves.owned _ (Or.inr rfl)).1
  have tablesTyped := serves.typed _ (serves.owned _ (Or.inl rfl)).2 tables isTables
  have columnsTyped := serves.typed _ (serves.owned _ (Or.inr rfl)).2 columns isColumns
  rw [serves.schemas.tables] at tablesTyped
  rw [serves.schemas.columns] at columnsTyped
  obtain ⟨middle, removed⟩ := Catalog.removeTable_typed (ownSchemas_different serves.schemas) isTables
    tablesTyped isColumns columnsTyped (by rw [known]; rfl : (catalog.tableInfo name).isSome)
  have rewrites := Catalog.removeTable_moves catalog schemaOf name storage
  rw [removed] at rewrites
  have serves₁ : Serves names mappings schemaOf (catalog.withInfo name none) middle :=
    (serves.rewrite rewrites fun owned => serves.notMapping owned rfl).withInfo (by rintro _ ⟨⟩)
      (by rintro _ ⟨⟩)
  obtain ⟨opened, isOpened, serves₂, listed⟩ := serves₁.open_ info.type
  have forgotten : (catalog.withInfo name none).tableInfo name = none := Function.update_self ..
  have knows := serves.known name info known
  suffices ended : ∃ names' mappings' storage', Factory.deleteTable info.type name opened
      = (.ok true, storage') ∧
      Serves names' mappings' schemaOf (catalog.withInfo name none) storage' by
    obtain ⟨names', mappings', storage', deleted, serves'⟩ := ended
    exact ⟨names', mappings', storage', deleteTable_run known removed isOpened deleted, serves'⟩
  cases isType : info.type with
  | inMemory =>
      rw [isType] at knows
      obtain ⟨ref, isRef⟩ := Option.ne_none_iff_exists'.mp knows
      obtain ⟨storage', deleted, isDeleted⟩ := Factory.deleteTable_view serves₂.memory isRef
      exact ⟨_, mappings, storage', deleted, serves₂.delete isDeleted forgotten⟩
  | disk =>
      rw [isType] at knows
      obtain ⟨fileId, isFile⟩ := Option.ne_none_iff_exists'.mp knows
      obtain ⟨row, isRow, _⟩ := Option.map_eq_some_iff.mp isFile
      obtain ⟨storage', deleted, listed', registry, tables, nextTable, _⟩ :=
        DiskTableFactory.deleteTable_listed (listed isType) isRow
      refine ⟨names, _, storage', deleted, serves₂.onDisk listed' tables registry nextTable
        fun other found isFound isDisk => ?_⟩
      have knows := serves₂.known other found isFound
      rw [isDisk] at knows
      refine DiskTableFactory.fileOf_filter_rowId (listed isType).rowIds isRow ?_ knows
      rintro rfl
      cases forgotten.symm.trans isFound

/-- A table that was created. -/
theorem Serves.create (serves : Serves names mappings schemaOf catalog storage)
    (created : Factory.Created .inMemory names name ref storage storage')
    (unknown : catalog.tableInfo name = none) (schema : Schema) :
    Serves (Function.update names name (some ref)) mappings (Function.update schemaOf ref schema)
      catalog storage' := by
  have notOwned : ∀ owned, catalog.Owns owned → owned ≠ ref := fun owned isOwned same =>
    created.new (same ▸ (serves.owned owned isOwned).1)
  have different : ∀ {other info}, catalog.tableInfo other = some info → other ≠ name := by
    rintro other info known rfl
    rw [unknown] at known
    cases known
  refine ⟨created.view,
    DiskTableFactory.listed_congr (congrFun (created.apart.present rfl) _) serves.disk, ⟨?_, ?_⟩,
    fun owned isOwned => ⟨created.allocated owned (serves.owned owned isOwned).1,
      (serves.owned owned isOwned).2⟩,
    fun other isMemory rows isRows => ?_, fun other info found known isMemory isRef => ?_,
    fun other info known => ?_⟩
  · rw [Function.update_of_ne (notOwned _ (Or.inl rfl)), serves.schemas.tables]
  · rw [Function.update_of_ne (notOwned _ (Or.inr rfl)), serves.schemas.columns]
  · by_cases same : other = ref
    · rw [same, created.empty, Option.some.injEq] at isRows
      rw [← isRows]
      exact typed_nil _
    · have notMapping : other ≠ DiskTableFactory.mappingTable.storage := by
        rintro rfl
        cases isMemory
      rw [created.rows other same notMapping] at isRows
      rw [Function.update_of_ne same]
      exact serves.typed other isMemory rows isRows
  · rw [Function.update_of_ne (different known)] at isRef
    have notNew : found ≠ ref := by
      rintro rfl
      exact created.new (serves.memory.present isRef).1
    rw [Function.update_of_ne notNew]
    exact serves.recorded other info found known isMemory isRef
  · have knows := serves.known other info known
    cases isType : info.type with
    | inMemory =>
        rw [isType] at knows
        show Function.update names name (some ref) other ≠ none
        rw [Function.update_of_ne (different known)]
        exact knows
    | disk =>
        rw [isType] at knows
        exact knows

/-- The storage after a `CreateTable` of the disk factory, however it ends. -/
structure DiskCreated (mappings mappings' : List (RowId × Mapping)) (storage storage' : Storage) :
    Prop where
  listed : DiskTableFactory.Listed storage' mappings'
  tables : storage'.tables = storage.tables
  registry : storage'.registry = storage.registry
  nextTable : storage'.nextTable = storage.nextTable
  keeps : ∀ name, DiskTableFactory.fileOf mappings name ≠ none →
    DiskTableFactory.fileOf mappings' name ≠ none

theorem diskCreate_listed (listed : DiskTableFactory.Listed storage mappings) (name : Bytes)
    (draw : FileId)
    (place : Placement) :
    ∃ mappings', DiskCreated mappings mappings' storage
        (DiskTableFactory.createTable name draw place storage).2 ∧
      (∀ created, (DiskTableFactory.createTable name draw place storage).1 = .ok created →
        DiskTableFactory.fileOf mappings' name ≠ none) := by
  cases run : DiskTableFactory.createTable name draw place storage with
  | mk outcome storage' =>
      cases outcome with
      | ok created =>
          obtain ⟨_, notMapping, _, fits, newRow, rfl⟩ :=
            DiskTableFactory.of_createTable_ok listed run
          have short := DiskTableFactory.short_of_fits fits
          have keeps : ∀ other, other = name ∨ DiskTableFactory.fileOf mappings other ≠ none →
              DiskTableFactory.fileOf
                (insertAt place.position (place.rowId, (name, draw)) mappings) other ≠ none := by
            intro other named
            rw [Ne, DiskTableFactory.fileOf_eq_none, not_not, map_insertAt, mem_insertAt]
            refine named.imp id fun known => ?_
            rwa [Ne, DiskTableFactory.fileOf_eq_none, not_not] at known
          exact ⟨insertAt place.position (place.rowId, (name, draw)) mappings,
            ⟨listed.insert notMapping short newRow, rfl, rfl, rfl,
              fun other known => keeps other (Or.inr known)⟩, fun _ _ => keeps name (Or.inl rfl)⟩
      | error failure =>
          refine ⟨mappings, ?_, nofun⟩
          rw [DiskTableFactory.createTable] at run
          by_cases blocked : isReservedFileId draw ∨ storage.files draw ≠ none
          · have refused : DiskTableFactory.createFile draw storage
                = (.error (.createFile draw), storage) := if_pos blocked
            rw [Call.bind_error refused] at run
            cases run
            exact ⟨listed, rfl, rfl, rfl, fun _ => id⟩
          · have drawn : DiskTableFactory.createFile draw storage
                = (.ok (), storage.setRows (.file draw) []) := if_neg blocked
            have notMapping : draw ≠ diskTableMappingFileId := fun same =>
              blocked (Or.inl (beq_iff_eq.mpr same))
            rw [Call.bind_ok drawn] at run
            cases saved : DiskTableFactory.mappingTable.insertRow [.string name, .u32 draw] place
                (storage.setRows (.file draw) []) with
            | mk outcome middle =>
                cases outcome with
                | ok rowId =>
                    have done : DiskTableFactory.saveMapping name draw place
                        (storage.setRows (.file draw) []) = (.ok true, middle) :=
                      Call.bind_ok saved _
                    rw [Call.bind_ok done] at run
                    cases run
                | error failure' =>
                    have failed : DiskTableFactory.saveMapping name draw place
                        (storage.setRows (.file draw) []) = (.error failure', middle) :=
                      Call.bind_error saved _
                    rw [Call.bind_error failed] at run
                    cases run
                    rw [TableHandle.insertRow_error saved]
                    exact ⟨listed.draw notMapping, rfl, rfl, rfl, fun _ => id⟩

/-- A `CreateTable` of the disk factory, however it ends, serves on. -/
theorem diskCreate_serves (serves : Serves names mappings schemaOf catalog storage)
    (listed : DiskTableFactory.Listed storage mappings) (name : Bytes) (draw : FileId)
    (place : Placement) :
    ∃ mappings', Serves names mappings' schemaOf catalog
        (DiskTableFactory.createTable name draw place storage).2 ∧
      (∀ created, (DiskTableFactory.createTable name draw place storage).1 = .ok created →
        Knows names mappings' .disk name) := by
  obtain ⟨mappings', created, knows⟩ := diskCreate_listed listed name draw place
  refine ⟨mappings', serves.onDisk created.listed created.tables created.registry created.nextTable
    fun other info known isDisk => created.keeps other ?_, knows⟩
  have knows := serves.known other info known
  rw [isDisk] at knows
  exact knows

/-- The catalog after a call. -/
def after (catalog : Catalog) : Except CallFailure (Bool × Catalog) → Catalog
  | .ok result => result.2
  | .error _ => catalog

/-- **`AddTable`** of a new name that the factory has, however it ends. -/
theorem addTable_serves (serves : Serves names mappings schemaOf catalog storage)
    (unknown : catalog.tableInfo name = none) {schema : Schema} (knows : Knows names mappings type name)
    (isSchema : type = .inMemory → ∀ ref, names name = some ref → schemaOf ref = schema)
    (choices : Choices) :
    Serves names mappings schemaOf
      (after catalog (catalog.addTable name type schema choices storage).1)
      (catalog.addTable name type schema choices storage).2 := by
  have rewrites := Catalog.addTable_moves serves.schemas name type schema choices storage
  have moved := serves.rewrite rewrites fun owned => serves.notMapping owned rfl
  cases run : catalog.addTable name type schema choices storage with
  | mk outcome storage' =>
      rw [run] at moved
      cases outcome with
      | error failure => exact moved
      | ok result =>
          obtain ⟨isAdded, isCatalog⟩ := Catalog.of_addTable_ok run
          rw [unknown] at isAdded
          have isAdded : result.1 = true := isAdded
          rw [isAdded] at isCatalog
          have isCatalog : result.2 = catalog.withInfo name (some ⟨type, schema⟩) := isCatalog
          show Serves names mappings schemaOf result.2 storage'
          rw [isCatalog]
          refine moved.withInfo (fun found isFound isMemory ref isRef => ?_)
            fun found isFound => ?_
          · cases isFound
            exact isSchema isMemory ref isRef
          · cases isFound
            exact knows

/-- **`CreateTable`**, however it ends. -/
theorem createTable_serves (serves : Serves names mappings schemaOf catalog storage) (name : Bytes)
    (type : TableType) (schema : Schema) (choices : Choices) :
    ∃ names' mappings' schemaOf', Serves names' mappings' schemaOf'
      (after catalog (createTable catalog name type schema choices storage).1)
      (createTable catalog name type schema choices storage).2 := by
  cases unknown : catalog.tableInfo name with
  | some info =>
      rw [createTable_known unknown]
      exact ⟨names, mappings, schemaOf, serves⟩
  | none =>
      obtain ⟨opened, isOpened, serves₁, listed⟩ := serves.open_ type
      rw [createTable_unknown unknown, Call.bind_ok isOpened]
      cases type with
      | inMemory =>
          cases lacks : names name with
          | some ref =>
              rw [Call.bind_ok (Factory.createTable_present serves₁.memory lacks _ _)]
              exact ⟨names, mappings, schemaOf, serves₁⟩
          | none =>
              rw [Call.bind_ok (Factory.createTable_absent serves₁.memory lacks _ _)]
              have created := serves₁.create (.inMemory serves₁.memory) unknown schema
              refine ⟨_, mappings, _, addTable_serves created unknown ?_ (fun _ other isOther => ?_)
                choices⟩
              · show Function.update names name _ name ≠ none
                rw [Function.update_self]
                exact Option.some_ne_none _
              · rw [Function.update_self] at isOther
                cases isOther
                exact Function.update_self ..
      | disk =>
          obtain ⟨mappings', serves₂, knows⟩ := diskCreate_serves serves₁ (listed rfl) name
            choices.draw choices.mapping
          cases making : DiskTableFactory.createTable name choices.draw choices.mapping opened with
          | mk outcome middle =>
              rw [making] at serves₂ knows
              have making : Factory.createTable .disk name choices.draw choices.mapping opened
                  = (outcome, middle) := making
              cases outcome with
              | error failure =>
                  rw [Call.bind_error making]
                  exact ⟨names, mappings', schemaOf, serves₂⟩
              | ok created =>
                  rw [Call.bind_ok making]
                  cases created with
                  | false => exact ⟨names, mappings', schemaOf, serves₂⟩
                  | true =>
                      exact ⟨names, mappings', schemaOf, addTable_serves serves₂ unknown
                        (knows true rfl) TableType.noConfusion choices⟩

/-- A call on a handle, however it ends. -/
theorem withTable_serves (serves : Serves names mappings schemaOf catalog storage) (name : Bytes)
    {body : TableHandle → Call Unit}
    (moves : ∀ (schemaOf : TableRef → Schema) (handle : TableHandle),
      schemaOf handle.storage = handle.schema →
        (body handle).Moves (Rewrites (· = handle.storage) schemaOf)) :
    ∃ schemaOf', Serves names mappings schemaOf'
      (after catalog (withTable catalog name body storage).1)
      (withTable catalog name body storage).2 := by
  cases known : catalog.tableInfo name with
  | none =>
      rw [withTable, Call.bind_ok (getTable_unknown known storage)]
      exact ⟨schemaOf, serves⟩
  | some info =>
      obtain ⟨ref, opened, got, serves', notMapping, isMemory, onDisk⟩ := getTable_known serves known
      obtain ⟨schemaOf', serves', isSchema⟩ : ∃ schemaOf', Serves names mappings schemaOf' catalog
          opened ∧ schemaOf' ref = info.schema := by
        cases isType : info.type with
        | inMemory =>
            exact ⟨schemaOf, serves', serves.recorded name info ref known isType (isMemory isType)⟩
        | disk =>
            cases ref with
            | memory address => cases onDisk isType
            | file fileId =>
                exact ⟨_, serves'.forFile fileId info.schema, Function.update_self ..⟩
      have moved := serves'.rewrite (moves schemaOf' ⟨ref, info.schema⟩ isSchema opened)
        fun same => notMapping same.symm
      have isRun : withTable catalog name body storage = (body ⟨ref, info.schema⟩ >>= fun _ =>
          (pure (true, catalog) : Call (Bool × Catalog))) opened := Call.bind_ok got _
      refine ⟨schemaOf', ?_⟩
      rw [isRun]
      cases run : body ⟨ref, info.schema⟩ opened with
      | mk outcome final =>
          rw [run] at moved
          cases outcome with
          | error failure =>
              rw [Call.bind_error run]
              exact moved
          | ok result =>
              rw [Call.bind_ok run]
              exact moved

/-! ### Runs with restarts -/

/-- A call, or the end of the manager and a new one on the same directory. -/
inductive Event
  | call (op : Op)
  | restart (setup : Catalog.Setup)

/-- What is in memory goes with the manager. -/
def reboot (storage : Storage) : Storage :=
  { storage with tables := fun _ => [], nextTable := 0, registry := fun _ => none }

def eventStep (engine : TableType) (state : Catalog × Storage) :
    Event → Except CallFailure Bool × (Catalog × Storage)
  | .call op => step state op
  | .restart setup => match construct engine setup (reboot state.2) with
    | (.ok catalog, storage) => (.ok true, (catalog, storage))
    | (.error failure, storage) => (.error failure, (state.1, storage))

def eventMachine (engine : TableType) :
    Machine (Catalog × Storage) Event (Except CallFailure Bool) := ⟨eventStep engine⟩

/-- Only managers with the disk engine are made again. -/
def RestartsOnDisk (engine : TableType) (_ : Catalog × Storage) : Event → Prop
  | .call _ => True
  | .restart _ => engine = .disk

/-- **Every table that exists can be opened, and deleted.** -/
def Openable (state : Catalog × Storage) : Prop :=
  ∀ name, (tableExists state.1 name = true ↔
      ∃ handle, (getTable state.1 name state.2).1 = .ok (some handle)) ∧
    (tableExists state.1 name = true → machine.answer state (.deleteTable name) = .ok true)

theorem Serves.openable (serves : Serves names mappings schemaOf catalog storage) :
    Openable (catalog, storage) := by
  intro name
  cases known : catalog.tableInfo name with
  | none =>
      have absent : tableExists catalog name = false := by
        rw [tableExists, known]
        rfl
      refine ⟨iff_of_false (by rw [absent]; exact Bool.false_ne_true) ?_, fun exists_ => ?_⟩
      · rintro ⟨handle, got⟩
        have got : (getTable catalog name storage).1 = .ok (some handle) := got
        rw [getTable_unknown known] at got
        cases got
      · rw [absent] at exists_
        cases exists_
  | some info =>
      obtain ⟨ref, opened, got, _⟩ := getTable_known serves known
      obtain ⟨_, _, storage', deleted, _⟩ := deleteTable_known serves known
      refine ⟨iff_of_true ?_ ⟨_, congrArg Prod.fst got⟩, fun _ => ?_⟩
      · show (catalog.tableInfo name).isSome = true
        rw [known]
        rfl
      · show (step (catalog, storage) (.deleteTable name)).1 = _
        rw [step, call, deleted]

theorem next_eq (catalog : Catalog) (storage : Storage) (op : Op) :
    machine.next (catalog, storage) op
      = (after catalog (call catalog op storage).1, (call catalog op storage).2) := by
  show (step (catalog, storage) op).2 = _
  rw [step]
  cases call catalog op storage with
  | mk outcome storage' => cases outcome <;> rfl

/-- The state after a call. -/
theorem step_serves (serves : Serves names mappings schemaOf catalog storage) (op : Op) :
    ∃ names' mappings' schemaOf',
      Serves names' mappings' schemaOf' (machine.next (catalog, storage) op).1
        (machine.next (catalog, storage) op).2 := by
  rw [next_eq]
  cases op with
  | createTable name type schema choices => exact createTable_serves serves name type schema choices
  | deleteTable name =>
      cases known : catalog.tableInfo name with
      | none =>
          rw [call, deleteTable_unknown known]
          exact ⟨names, mappings, schemaOf, serves⟩
      | some info =>
          obtain ⟨names', mappings', storage', deleted, serves'⟩ := deleteTable_known serves known
          rw [call, deleted]
          exact ⟨names', mappings', schemaOf, serves'⟩
  | insertRow name values place =>
      obtain ⟨schemaOf', serves'⟩ := withTable_serves serves name
        fun schemaOf handle isSchema => moves_unit (insertRow_moves handle values isSchema place)
      exact ⟨names, mappings, schemaOf', serves'⟩
  | updateRow name rowId values place =>
      obtain ⟨schemaOf', serves'⟩ := withTable_serves serves name
        fun schemaOf handle isSchema => moves_unit (updateRow_moves handle values isSchema rowId place)
      exact ⟨names, mappings, schemaOf', serves'⟩
  | deleteRow name rowId =>
      obtain ⟨schemaOf', serves'⟩ := withTable_serves serves name
        fun schemaOf handle _ => storageDelete_moves schemaOf handle.storage rowId
      exact ⟨names, mappings, schemaOf', serves'⟩

/-- **A new manager with the engine in memory.** -/
theorem construct_serves {setup : Catalog.Setup}
    (made : construct .inMemory setup .empty = (.ok catalog, storage)) :
    ∃ names mappings schemaOf, Serves names mappings schemaOf catalog storage := by
  obtain ⟨names, schemaOf, good, _, attached, isInfo⟩ := construct_good made
  obtain ⟨mappings, onDisk⟩ := good.disk.listed
  refine ⟨names .inMemory, mappings, schemaOf, good.memory, onDisk, good.schemas,
    fun ref owned => ⟨(good.owned ref owned).1, (good.owned ref owned).2.2.mpr rfl⟩,
    fun ref isMemory => good.typed ref ?_, fun name info ref known isMemory found =>
      good.recorded name info ref known (isMemory ▸ found), fun name info known => ?_⟩
  · rintro rfl
    cases isMemory
  · rw [isInfo] at known
    rcases Catalog.initialInfo_cases known with ⟨rfl, rfl⟩ | ⟨rfl, rfl⟩
    · show names .inMemory tableCatalogName ≠ none
      rw [attached.tables]
      exact Option.some_ne_none _
    · show names .inMemory columnCatalogName ≠ none
      rw [attached.columns]
      exact Option.some_ne_none _

/-- **A new manager with the disk engine** has a table that cannot be opened. -/
theorem construct_disk_breaks {setup : Catalog.Setup} {state : Catalog × Storage}
    (made : construct .disk setup .empty = (.ok state.1, state.2)) : ¬ Openable state := by
  intro openable
  obtain ⟨names, schemaOf, good, noNames, _, isInfo⟩ := construct_good made
  have known : state.1.tableInfo tableCatalogName = some ⟨.inMemory, tableCatalogSchema⟩ := by
    rw [isInfo, Catalog.initialInfo_tables]
  obtain ⟨handle, got⟩ := (openable tableCatalogName).1.mp (by
    show (state.1.tableInfo tableCatalogName).isSome = true
    rw [known]
    rfl)
  obtain ⟨opened, run, _⟩ := getTable_good good tableCatalogName
  have got : (getTable state.1 tableCatalogName state.2).1 = .ok (some handle) := got
  rw [run, known, Option.bind_some, noNames .inMemory TableType.noConfusion] at got
  cases got

/-- **A table that exists can be opened**, in every state of every run, exactly when the default
engine is the one in memory. -/
theorem tables_openable (engine : TableType) {setup : Catalog.Setup} {state : Catalog × Storage}
    (made : construct engine setup .empty = (.ok state.1, state.2)) (events : List Event)
    (restarts : (eventMachine engine).Along (RestartsOnDisk engine) state events) :
    (eventMachine engine).Always Openable state events ↔ engine = .inMemory := by
  cases engine with
  | disk =>
      refine iff_of_false (fun always => ?_) TableType.noConfusion
      exact construct_disk_breaks made always.first
  | inMemory =>
      refine iff_of_true ?_ rfl
      have first : ∃ names mappings schemaOf, Serves names mappings schemaOf state.1 state.2 :=
        construct_serves made
      have keeps : ∀ (state : Catalog × Storage) (event : Event),
          (∃ names mappings schemaOf, Serves names mappings schemaOf state.1 state.2) →
          RestartsOnDisk .inMemory state event →
          ∃ names mappings schemaOf, Serves names mappings schemaOf
            ((eventMachine .inMemory).next state event).1
            ((eventMachine .inMemory).next state event).2 := by
        rintro state event ⟨names, mappings, schemaOf, serves⟩ allowed
        cases event with
        | call op => exact step_serves serves op
        | restart setup => cases allowed
      refine (Machine.always_of_step keeps first restarts).imp ?_
      rintro state ⟨names, mappings, schemaOf, serves⟩
      exact serves.openable

/-- Tables of both types, one of which fails halfway. -/
def twoTypes : List Event :=
  [.call (.createTable [7] .disk [⟨[1], 0⟩] (sampleChoices 7 2)), .call (.insertRow [7] [.i32 5]
      (Catalog.counted 0)), .call (.createTable [8] .inMemory [⟨[1], 1⟩] (sampleChoices 8 3)),
    .call (.deleteTable tableCatalogName), .call (.insertRow [8] [.i32 5] (Catalog.counted 0))]

theorem twoTypes_openable :
    (eventMachine .inMemory).Always Openable (started .inMemory) twoTypes ↔
      TableType.inMemory = .inMemory :=
  tables_openable .inMemory (construct_started .inMemory) twoTypes
    ⟨trivial, trivial, trivial, trivial, trivial, trivial⟩

/-- With the disk engine the table catalog exists and cannot be opened, from the start. -/
theorem started_breaks :
    construct .disk Catalog.sampleSetup .empty = (.ok (started .disk).1, (started .disk).2) ∧
      ¬ (eventMachine .disk).Always Openable (started .disk) [] :=
  ⟨construct_started .disk, fun always => construct_disk_breaks (construct_started .disk) always.first⟩

end TableManager

end Yadb
