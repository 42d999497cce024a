/-
**What a `CreateTable` that fails leaves.**

`CreateTable` asks the factory first and the catalog then, and nothing takes the factory's table
back when the catalog throws: a name or a column of more than 65535 bytes leaves it, and for the
factory of ephemeral tables every later `CreateTable` of the name answers false. `Executor` lets the
exception out.

* `createTable_allOrNothing`: a `CreateTable` is all or nothing exactly when the catalog has the
  name, or the factory of ephemeral tables has it not and every row of the catalog can be built.
-/

import Yadb.Table.Openable

namespace Yadb

open Foundation

/-- A failure by which the process does not go on. -/
def Aborts {Result : Type} : Except CallFailure Result → Prop
  | .ok _ => False
  | .error failure => failure.Throws = false

instance {Result : Type} : DecidablePred (Aborts : Except CallFailure Result → Prop)
  | .ok _ => .isFalse id
  | .error _ => inferInstanceAs (Decidable (_ = _))

/-! ### Calls that return or abort -/

namespace Call

/-- The call returns a result like this, or aborts. -/
def Succeeds {Result : Type} (call : Call Result) (like : Result → Prop) : Prop :=
  ∀ storage, (∃ result storage', call storage = (.ok result, storage') ∧ like result) ∨
    Aborts (call storage).1

theorem succeeds_bind {First Second : Type} {first : Call First} {next : First → Call Second}
    {likeFirst : First → Prop} {like : Second → Prop} (succeeds : first.Succeeds likeFirst)
    (continues : ∀ result, likeFirst result → (next result).Succeeds like) :
    (first >>= next).Succeeds like := by
  intro storage
  rcases succeeds storage with ⟨result, storage', run, isLike⟩ | aborts
  · rw [bind_ok run]
    exact continues result isLike storage'
  · cases run : first storage with
    | mk outcome storage' =>
        rw [run] at aborts
        cases outcome with
        | ok result => exact absurd aborts id
        | error failure =>
            rw [bind_error run]
            exact Or.inr aborts

theorem succeeds_pure {Result : Type} {like : Result → Prop} {result : Result} (isLike : like result) :
    (pure result : Call Result).Succeeds like := fun storage =>
  Or.inl ⟨result, storage, rfl, isLike⟩

end Call

theorem scan_succeeds (ref : TableRef) : (Storage.scan ref).Succeeds fun _ => True := by
  intro storage
  cases found : storage.rowsOf ref with
  | some rows => exact Or.inl ⟨rows, storage, Storage.scan_ok found, trivial⟩
  | none =>
      cases ref with
      | memory address => cases found
      | file fileId =>
          refine Or.inr ?_
          simp only [Storage.scan, found]
          rfl

/-- **A row that matches the schema** is inserted, or the process aborts. -/
theorem insertRow_succeeds (handle : TableHandle) {values : List Value}
    (matching : Matches handle.schema values) (place : Placement) :
    (handle.insertRow values place).Succeeds fun _ => True := by
  intro storage
  rw [TableHandle.insertRow, Call.bind_ok (TableHandle.buildRow_ok matching storage)]
  refine Call.succeeds_bind (scan_succeeds handle.storage) (fun rows _ => ?_) storage
  intro storage
  by_cases blocked : place.rowId ∈ rows.map Row.rowId ∨
      ¬ Storage.Fits handle.storage (rowCode.encodeAll values)
  · rw [if_pos blocked]
    exact Or.inr rfl
  · rw [if_neg blocked]
    exact Or.inl ⟨_, _, rfl, trivial⟩

namespace Catalog

variable {catalog catalog' : Catalog} {storage storage' : Storage} {name : Bytes} {schema : Schema}
  {type : TableType} {choices : Choices}

/-- The rows of the catalog for the table can be built. -/
def Buildable (name : Bytes) (schema : Schema) : Prop :=
  name.length ≤ maxStringLength ∧ ∀ attr ∈ schema, attr.name.length ≤ maxStringLength

instance (name : Bytes) (schema : Schema) : Decidable (Buildable name schema) :=
  inferInstanceAs (Decidable (_ ∧ _))

theorem addColumns_succeeds (handle : TableHandle) (place : Nat → Placement)
    {records : List ColumnRecord}
    (matching : ∀ record ∈ records, Matches handle.schema record.values) :
    (addColumns handle place records).Succeeds fun _ => True := by
  induction records with
  | nil => exact Call.succeeds_pure trivial
  | cons record records ih =>
      refine Call.succeeds_bind (insertRow_succeeds handle (matching record List.mem_cons_self) _)
        fun _ _ => ?_
      by_cases overflow : record.position + 1 = 2 ^ 31
      · rw [if_pos overflow]
        exact fun _ => Or.inr rfl
      · rw [if_neg overflow]
        exact ih fun other member => matching other (List.mem_cons_of_mem record member)

/-- **`AddTable`** of a table whose rows can be built returns true, or the process aborts. -/
theorem addTable_succeeds (type : TableType) (choices : Choices)
    (unknown : catalog.tableInfo name = none) (buildable : Buildable name schema) :
    (addTable catalog name type schema choices).Succeeds fun result => result.1 = true := by
  rw [addTable, if_neg (by rw [unknown]; exact Bool.false_ne_true)]
  have matching : Matches catalog.tableHandle.schema
      (TableRecord.values ⟨name, type, schema.length⟩) := TableRecord.matches_ buildable.1
  refine Call.succeeds_bind (insertRow_succeeds catalog.tableHandle matching _) fun _ _ => ?_
  refine Call.succeeds_bind (addColumns_succeeds catalog.columnHandle _
    fun record member => ?_) fun _ _ => Call.succeeds_pure rfl
  obtain ⟨isRelation, _, isAttr⟩ := mem_columnsOf.mp member
  refine ColumnRecord.matches_ (buildable.2 _ (List.mem_of_getElem? isAttr)) ?_
  rw [isRelation]
  exact buildable.1

theorem matches_of_addColumns {handle : TableHandle} {place : Nat → Placement}
    {records : List ColumnRecord}
    (run : addColumns handle place records storage = (.ok (), storage')) :
    ∀ record ∈ records, Matches handle.schema record.values := by
  induction records generalizing storage with
  | nil => exact nofun
  | cons record records ih =>
      obtain ⟨_, middle, inserted, rest⟩ := Call.of_bind_ok run
      have matching := (TableHandle.of_insertRow_ok inserted).1
      by_cases overflow : record.position + 1 = 2 ^ 31
      · rw [if_pos overflow] at rest
        cases rest
      · rw [if_neg overflow] at rest
        intro other member
        rcases List.mem_cons.mp member with rfl | member
        · exact matching
        · exact ih rest other member

/-- The rows of a table that was added have been built. -/
theorem buildable_of_addTable (unknown : catalog.tableInfo name = none) {added : Bool}
    (run : addTable catalog name type schema choices storage = (.ok (added, catalog'), storage')) :
    Buildable name schema := by
  rw [addTable, if_neg (by rw [unknown]; exact Bool.false_ne_true)] at run
  obtain ⟨_, middle, inserted, rest⟩ := Call.of_bind_ok run
  obtain ⟨_, middle', addedColumns, _⟩ := Call.of_bind_ok rest
  have matching := matches_of_addColumns addedColumns
  refine ⟨TableRecord.name_of_matches (TableHandle.of_insertRow_ok inserted).1, fun attr member => ?_⟩
  obtain ⟨position, inside, rfl⟩ := List.getElem_of_mem member
  have listed : (⟨schema[position], name, position⟩ : ColumnRecord) ∈ columnsOf name 0 schema :=
    mem_columnsOf.mpr ⟨rfl, Nat.zero_le _, List.getElem?_eq_getElem inside⟩
  exact (ColumnRecord.names_of_matches (matching _ listed)).1

end Catalog

namespace TableManager

variable {catalog catalog' : Catalog} {storage storage' : Storage} {name : Bytes} {schema : Schema}
  {type : TableType} {choices : Choices} {mappings mappings' : List (RowId × Mapping)}

/-- `Executor::execute(CreateTableStmt)`, which creates tables in memory and catches nothing: the
field `success` of its result. -/
def executeCreateTable (catalog : Catalog) (name : Bytes) (columns : Schema) (choices : Choices) :
    Call (Bool × Catalog) := do
  let (success, catalog) ← createTable catalog name .inMemory columns choices
  return (success, catalog)

/-- Nothing is left of the name: the catalog and the factory do not know it, no row of the catalog
mentions it, a new catalog does not load it, and it can be created. -/
structure NothingLeft (engine : TableType) (state : Catalog × Storage) (name : Bytes)
    (type : TableType) : Prop where
  unknown : tableExists state.1 name = false
  factory : ((getFactory type >>= fun _ => Factory.tableExists type name) state.2).1 = .ok false
  tableRows : ∀ rows, (Storage.scan state.1.tableCatalog state.2).1 = .ok rows →
    ∀ row ∈ rows, Catalog.hasName name row.data ≠ .ok true
  columnRows : ∀ rows, (Storage.scan state.1.columnCatalog state.2).1 = .ok rows →
    ∀ row ∈ rows, Catalog.ofRelation name row.data ≠ .ok true
  fresh : ∀ setup made, (Catalog.construct engine setup state.2).1 = .ok made →
    made.tableInfo name = none
  again : ∀ schema, (∀ attr ∈ schema, isValidTypeId attr.type.toNat ∧
      attr.name.length ≤ maxStringLength) →
    ∃ choices, machine.answer state (.createTable name type schema choices) = .ok true

/-- **`CREATE TABLE` is all or nothing**: a call that does not create a new name leaves nothing of
it, and the executor reports it. -/
def AllOrNothing (engine : TableType) (state : Catalog × Storage) (name : Bytes) (type : TableType)
    (schema : Schema) (choices : Choices) : Prop :=
  tableExists state.1 name = false →
    machine.answer state (.createTable name type schema choices) ≠ .ok true →
      NothingLeft engine (machine.next state (.createTable name type schema choices)) name type ∧
        (type = .inMemory →
          ∃ catalog', (executeCreateTable state.1 name schema choices state.2).1
            = .ok (false, catalog'))

/-! ### The state of a manager -/

/-- The mapping table is no table of the catalog, and its rows are mappings. -/
structure Rooted (mappings : List (RowId × Mapping)) (catalog : Catalog) (storage : Storage) : Prop
    where
  disk : DiskTableFactory.Listed storage mappings ∨
    storage.files diskTableMappingFileId = none ∧ mappings = []
  different : catalog.tableCatalog ≠ catalog.columnCatalog
  notMapping : ∀ ref, catalog.Owns ref → ref ≠ DiskTableFactory.mappingTable.storage

namespace Rooted

theorem mapping (rooted : Rooted mappings catalog storage)
    (same : storage'.files diskTableMappingFileId = storage.files diskTableMappingFileId) :
    Rooted mappings catalog storage' where
  disk := DiskTableFactory.listed_congr same rooted.disk
  different := rooted.different
  notMapping := rooted.notMapping

theorem withInfo (rooted : Rooted mappings catalog storage) (name : Bytes)
    (info : Option TableInfo) :
    Rooted mappings (catalog.withInfo name info) storage :=
  ⟨rooted.disk, rooted.different, rooted.notMapping⟩

/-- Schemas for the two tables of the catalog. -/
theorem schemas (rooted : Rooted mappings catalog storage) :
    ∃ schemaOf, catalog.OwnSchemas schemaOf := by
  refine ⟨Function.update (fun _ => tableCatalogSchema) catalog.columnCatalog columnCatalogSchema,
    ?_, Function.update_self ..⟩
  rw [Function.update_of_ne rooted.different]

/-- A factory that is made, when it was not. -/
theorem open_ (rooted : Rooted mappings catalog storage) (type : TableType) :
    ∃ storage', getFactory type storage = (.ok (), storage') ∧ Rooted mappings catalog storage' ∧
      (type = .disk → DiskTableFactory.Listed storage' mappings) ∧
      storage'.registry = storage.registry := by
  cases type with
  | inMemory => exact ⟨storage, rfl, rooted, TableType.noConfusion, rfl⟩
  | disk =>
      have listed := DiskTableFactory.listed_opened rooted.disk
      exact ⟨DiskTableFactory.openMappingTable storage, rfl,
        ⟨Or.inl listed, rooted.different, rooted.notMapping⟩, fun _ => listed,
        (Touches.opened storage).registry⟩

/-- `AddTable`, however it ends. -/
theorem addTable_frame (rooted : Rooted mappings catalog storage) (name : Bytes) (type : TableType)
    (schema : Schema) (choices : Choices) :
    Touches catalog.Owns storage (catalog.addTable name type schema choices storage).2 := by
  obtain ⟨schemaOf, schemas⟩ := rooted.schemas
  exact (Catalog.addTable_moves schemas name type schema choices storage).frame

end Rooted

/-! ### What a creation does -/

/-- A name that was created has rows that could be built. -/
theorem buildable_of_createTable (unknown : catalog.tableInfo name = none)
    (run : createTable catalog name type schema choices storage = (.ok (true, catalog'), storage')) :
    Catalog.Buildable name schema := by
  rw [createTable_unknown unknown] at run
  obtain ⟨_, opened, _, rest⟩ := Call.of_bind_ok run
  obtain ⟨created, middle, _, rest⟩ := Call.of_bind_ok rest
  cases created with
  | false => cases rest
  | true => exact Catalog.buildable_of_addTable unknown rest

/-- The disk factory creates every name that can be built. -/
theorem diskCreate_succeeds (short : name.length ≤ maxStringLength) (draw : FileId)
    (place : Placement) :
    (DiskTableFactory.createTable name draw place).Succeeds fun created => created = true := by
  have drawn : (DiskTableFactory.createFile draw).Succeeds fun _ => True := by
    intro storage
    rw [DiskTableFactory.createFile]
    by_cases blocked : isReservedFileId draw ∨ storage.files draw ≠ none
    · rw [if_pos blocked]
      exact Or.inr rfl
    · rw [if_neg blocked]
      exact Or.inl ⟨_, _, rfl, trivial⟩
  have saved : (DiskTableFactory.saveMapping name draw place).Succeeds fun _ => True :=
    Call.succeeds_bind (insertRow_succeeds DiskTableFactory.mappingTable
      (DiskTableFactory.matches_mapping short draw) place) fun _ _ => Call.succeeds_pure trivial
  exact Call.succeeds_bind drawn fun _ _ => Call.succeeds_bind saved fun _ _ =>
    Call.succeeds_pure rfl

/-- **A creation whose rows can be built** returns true, or the process aborts. -/
theorem createTable_succeeds (type : TableType) (choices : Choices)
    (unknown : catalog.tableInfo name = none)
    (free : type = .inMemory → storage.registry name = none)
    (buildable : Catalog.Buildable name schema) :
    (∃ catalog' storage', createTable catalog name type schema choices storage
        = (.ok (true, catalog'), storage')) ∨
      Aborts (createTable catalog name type schema choices storage).1 := by
  have added := Catalog.addTable_succeeds type choices unknown buildable
  have rest : ∀ opened, (∃ created storage', Factory.createTable type name choices.draw
        choices.mapping opened = (.ok created, storage') ∧ created = true) ∨
        Aborts (Factory.createTable type name choices.draw choices.mapping opened).1 →
      (∃ catalog' storage', (Factory.createTable type name choices.draw choices.mapping >>=
        fun created => if created then catalog.addTable name type schema choices
          else pure (false, catalog)) opened = (.ok (true, catalog'), storage')) ∨
        Aborts ((Factory.createTable type name choices.draw choices.mapping >>=
          fun created => if created then catalog.addTable name type schema choices
            else pure (false, catalog)) opened).1 := by
    rintro opened (⟨created, middle, run, rfl⟩ | aborts)
    · rw [Call.bind_ok run]
      rcases added middle with ⟨result, storage', done, isTrue⟩ | aborts
      · refine Or.inl ⟨result.2, storage', done.trans ?_⟩
        rw [← isTrue]
      · exact Or.inr aborts
    · cases run : Factory.createTable type name choices.draw choices.mapping opened with
      | mk outcome middle =>
          rw [run] at aborts
          cases outcome with
          | ok created => exact absurd aborts id
          | error failure =>
              rw [Call.bind_error run]
              exact Or.inr aborts
  rw [createTable_unknown unknown]
  have isOpened : getFactory type storage = (.ok (), (getFactory type storage).2) := rfl
  rw [Call.bind_ok isOpened]
  refine rest _ ?_
  cases type with
  | inMemory =>
      refine Or.inl ⟨true, _, if_neg ?_, rfl⟩
      show ¬ (storage.registry name).isSome = true
      rw [free rfl]
      exact Bool.false_ne_true
  | disk => exact diskCreate_succeeds buildable.1 _ _ _

/-! ### Every call keeps the mapping table -/

/-- `AddTable`, however it ends. -/
theorem addTable_rooted (rooted : Rooted mappings catalog storage) (name : Bytes) (type : TableType)
    (schema : Schema) (choices : Choices) :
    Rooted mappings (after catalog (catalog.addTable name type schema choices storage).1)
      (catalog.addTable name type schema choices storage).2 := by
  have frame := rooted.addTable_frame name type schema choices
  have moved := rooted.mapping (frame.rows DiskTableFactory.mappingTable.storage fun owned =>
    rooted.notMapping _ owned rfl)
  cases run : catalog.addTable name type schema choices storage with
  | mk outcome storage' =>
      rw [run] at moved
      cases outcome with
      | error failure => exact moved
      | ok result =>
          obtain ⟨_, isCatalog⟩ := Catalog.of_addTable_ok run
          show Rooted mappings result.2 storage'
          rw [isCatalog]
          cases result.1 with
          | true => exact moved.withInfo name _
          | false => exact moved

theorem createTable_rooted (rooted : Rooted mappings catalog storage) (name : Bytes)
    (type : TableType) (schema : Schema) (choices : Choices) :
    ∃ mappings', Rooted mappings'
      (after catalog (createTable catalog name type schema choices storage).1)
      (createTable catalog name type schema choices storage).2 := by
  cases unknown : catalog.tableInfo name with
  | some info =>
      rw [createTable_known unknown]
      exact ⟨mappings, rooted⟩
  | none =>
      obtain ⟨opened, isOpened, rooted₁, listed, _⟩ := rooted.open_ type
      rw [createTable_unknown unknown, Call.bind_ok isOpened]
      obtain ⟨mappings', rooted₂⟩ : ∃ mappings', Rooted mappings' catalog
          (Factory.createTable type name choices.draw choices.mapping opened).2 := by
        cases type with
        | inMemory =>
            refine ⟨mappings, rooted₁.mapping ?_⟩
            show (EphemeralTableFactory.createTable name opened).2.files _ = _
            rw [EphemeralTableFactory.createTable]
            by_cases taken : (opened.registry name).isSome
            · rw [if_pos taken]
            · rw [if_neg taken]
              rfl
        | disk =>
            obtain ⟨mappings', created, _⟩ := diskCreate_listed (listed rfl) name
              choices.draw choices.mapping
            exact ⟨mappings', Or.inl created.listed, rooted.different, rooted.notMapping⟩
      refine ⟨mappings', ?_⟩
      cases making : Factory.createTable type name choices.draw choices.mapping opened with
      | mk outcome middle =>
          rw [making] at rooted₂
          cases outcome with
          | error failure =>
              rw [Call.bind_error making]
              exact rooted₂
          | ok created =>
              rw [Call.bind_ok making]
              cases created with
              | false => exact rooted₂
              | true => exact addTable_rooted rooted₂ name type schema choices

theorem deleteTable_rooted (rooted : Rooted mappings catalog storage) (name : Bytes) :
    ∃ mappings', Rooted mappings' (after catalog (deleteTable catalog name storage).1)
      (deleteTable catalog name storage).2 := by
  cases known : catalog.tableInfo name with
  | none =>
      rw [deleteTable_unknown known]
      exact ⟨mappings, rooted⟩
  | some info =>
      have isRun : deleteTable catalog name storage = (catalog.removeTable name >>= fun result =>
          if result.1 then getFactory info.type >>= fun _ =>
            Factory.deleteTable info.type name >>= fun answer =>
              (pure (answer, result.2) : Call (Bool × Catalog))
          else pure (false, result.2)) storage := by
        rw [deleteTable, known]
      rw [isRun]
      have moved : Rooted mappings catalog (catalog.removeTable name storage).2 := by
        have frame := (Catalog.removeTable_moves catalog (fun _ => []) name storage).frame
        exact rooted.mapping (frame.rows DiskTableFactory.mappingTable.storage fun owned =>
          rooted.notMapping _ owned rfl)
      cases removing : catalog.removeTable name storage with
      | mk outcome middle =>
          rw [removing] at moved
          cases outcome with
          | error failure =>
              rw [Call.bind_error removing]
              exact ⟨mappings, moved⟩
          | ok result =>
              rw [Call.bind_ok removing]
              obtain ⟨isRemoved, isCatalog⟩ := Catalog.of_removeTable_ok removing
              rw [known] at isRemoved
              have isRemoved : result.1 = true := isRemoved
              rw [isRemoved] at isCatalog ⊢
              have isCatalog : result.2 = catalog.withInfo name none := isCatalog
              rw [if_pos rfl, isCatalog]
              obtain ⟨opened, isOpened, rooted₁, listed, _⟩ :=
                (moved.withInfo name none).open_ info.type
              rw [Call.bind_ok isOpened]
              suffices ended : ∃ mappings' answer storage', Factory.deleteTable info.type name opened
                  = (.ok answer, storage') ∧ Rooted mappings' (catalog.withInfo name none) storage' by
                obtain ⟨mappings', answer, storage', deleted, rooted'⟩ := ended
                rw [Call.bind_ok deleted]
                exact ⟨mappings', rooted'⟩
              cases isType : info.type with
              | inMemory =>
                  by_cases known : (opened.registry name).isSome
                  · exact ⟨mappings, true, _, if_pos known, rooted₁.mapping rfl⟩
                  · exact ⟨mappings, false, opened, if_neg known, rooted₁⟩
              | disk =>
                  have found := DiskTableFactory.getFileId_listed (listed isType) name
                  cases isRow : mappings.find? fun mapping => mapping.2.1 == name with
                  | none =>
                      rw [DiskTableFactory.fileOf, isRow] at found
                      exact ⟨mappings, false, opened, Call.bind_ok found _, rooted₁⟩
                  | some row =>
                      obtain ⟨storage', deleted, listed', _⟩ :=
                        DiskTableFactory.deleteTable_listed (listed isType) isRow
                      exact ⟨_, true, storage', deleted, Or.inl listed', rooted₁.different,
                        rooted₁.notMapping⟩

/-- A handle is never one of the mapping table. -/
theorem getTable_rooted (rooted : Rooted mappings catalog storage) (name : Bytes) :
    ∃ found storage', getTable catalog name storage = (.ok found, storage') ∧
      Rooted mappings catalog storage' ∧
      ∀ handle, found = some handle → handle.storage ≠ DiskTableFactory.mappingTable.storage := by
  cases known : catalog.tableInfo name with
  | none => exact ⟨none, storage, getTable_unknown known storage, rooted, nofun⟩
  | some info =>
      obtain ⟨opened, isOpened, rooted', listed, _⟩ := rooted.open_ info.type
      have isRun : getTable catalog name storage = (Factory.getTable info.type name >>= fun found =>
          (pure (found.map fun ref => ⟨ref, info.schema⟩) : Call (Option TableHandle))) opened := by
        rw [getTable, known]
        exact Call.bind_ok isOpened _
      suffices got : ∃ found, Factory.getTable info.type name opened = (.ok found, opened) ∧
          ∀ ref, found = some ref → ref ≠ DiskTableFactory.mappingTable.storage by
        obtain ⟨found, got, notMapping⟩ := got
        refine ⟨_, opened, isRun.trans (Call.bind_ok got _), rooted', fun handle isHandle => ?_⟩
        obtain ⟨ref, isRef, rfl⟩ := Option.map_eq_some_iff.mp isHandle
        exact notMapping ref isRef
      cases isType : info.type with
      | inMemory =>
          refine ⟨_, rfl, fun ref isRef => ?_⟩
          obtain ⟨address, _, rfl⟩ := Option.map_eq_some_iff.mp isRef
          exact TableRef.noConfusion
      | disk =>
          refine ⟨_, Call.bind_ok (DiskTableFactory.getFileId_listed (listed isType) name) _,
            fun ref isRef => ?_⟩
          obtain ⟨fileId, isFile, rfl⟩ := Option.map_eq_some_iff.mp isRef
          obtain ⟨mapping, member, _, rfl⟩ := Factory.fileOf_eq_some isFile
          exact fun same => (listed isType).notMapping mapping member (TableRef.file.inj same)

theorem withTable_rooted (rooted : Rooted mappings catalog storage) {body : TableHandle → Call Unit}
    (moves : ∀ (schemaOf : TableRef → Schema) (handle : TableHandle),
      schemaOf handle.storage = handle.schema →
        (body handle).Moves (Rewrites (· = handle.storage) schemaOf)) :
    Rooted mappings (after catalog (withTable catalog name body storage).1)
      (withTable catalog name body storage).2 := by
  obtain ⟨found, opened, got, rooted', notMapping⟩ := getTable_rooted rooted name
  cases found with
  | none =>
      have isRun : withTable catalog name body storage = (.ok (false, catalog), opened) :=
        Call.bind_ok got _
      rw [isRun]
      exact rooted'
  | some handle =>
      have isRun : withTable catalog name body storage = (body handle >>= fun _ =>
          (pure (true, catalog) : Call (Bool × Catalog))) opened := Call.bind_ok got _
      have frame := (moves (fun _ => handle.schema) handle rfl opened).frame
      have moved := rooted'.mapping (frame.rows DiskTableFactory.mappingTable.storage
        (Ne.symm (notMapping handle rfl)))
      rw [isRun]
      cases run : body handle opened with
      | mk outcome final =>
          rw [run] at moved
          cases outcome with
          | error failure =>
              rw [Call.bind_error run]
              exact moved
          | ok result =>
              rw [Call.bind_ok run]
              exact moved

/-- **One call**, however it ends. -/
theorem step_rooted (rooted : Rooted mappings catalog storage) (op : Op) :
    ∃ mappings', Rooted mappings' (machine.next (catalog, storage) op).1
      (machine.next (catalog, storage) op).2 := by
  rw [next_eq]
  cases op with
  | createTable name type schema choices => exact createTable_rooted rooted name type schema choices
  | deleteTable name => exact deleteTable_rooted rooted name
  | insertRow name values place =>
      exact ⟨mappings, withTable_rooted rooted fun _ handle isSchema =>
        moves_unit (insertRow_moves handle values isSchema place)⟩
  | updateRow name rowId values place =>
      exact ⟨mappings, withTable_rooted rooted fun _ handle isSchema =>
        moves_unit (updateRow_moves handle values isSchema rowId place)⟩
  | deleteRow name rowId =>
      exact ⟨mappings, withTable_rooted rooted fun schemaOf handle _ =>
        storageDelete_moves schemaOf handle.storage rowId⟩

theorem construct_rooted {engine : TableType} {setup : Catalog.Setup} {state : Catalog × Storage}
    (made : construct engine setup .empty = (.ok state.1, state.2)) :
    ∃ mappings, Rooted mappings state.1 state.2 := by
  obtain ⟨names, schemaOf, good, _⟩ := construct_good made
  obtain ⟨mappings, onDisk⟩ := good.disk.listed
  exact ⟨mappings, onDisk, ownSchemas_different good.schemas,
    fun ref owned => (good.owned ref owned).2.1⟩

/-! ### All or nothing -/

theorem answer_createTable (catalog : Catalog) (storage : Storage) (name : Bytes) (type : TableType)
    (schema : Schema) (choices : Choices) :
    machine.answer (catalog, storage) (.createTable name type schema choices)
      = (createTable catalog name type schema choices storage).1.map Prod.fst := by
  show (step (catalog, storage) _).1 = _
  rw [step, call]
  cases createTable catalog name type schema choices storage with
  | mk outcome storage' => cases outcome <;> rfl

theorem of_answer_true
    (answer : machine.answer (catalog, storage) (.createTable name type schema choices) = .ok true) :
    ∃ catalog' storage', createTable catalog name type schema choices storage
      = (.ok (true, catalog'), storage') := by
  rw [answer_createTable] at answer
  cases run : createTable catalog name type schema choices storage with
  | mk outcome storage' =>
      rw [run] at answer
      cases outcome with
      | error failure => cases answer
      | ok result =>
          obtain ⟨created, catalog'⟩ := result
          cases answer
          exact ⟨catalog', storage', rfl⟩

/-- **A creation that fails behind the factory** leaves its table there. -/
theorem factory_keeps (rooted : Rooted mappings catalog storage)
    (unknown : catalog.tableInfo name = none)
    (short : type = .disk → name.length ≤ maxStringLength)
    (survives : ¬ Aborts (createTable catalog name type schema choices storage).1) :
    ((getFactory type >>= fun _ => Factory.tableExists type name)
      (createTable catalog name type schema choices storage).2).1 = .ok true := by
  obtain ⟨opened, isOpened, rooted₁, listed, _⟩ := rooted.open_ type
  rw [createTable_unknown unknown, Call.bind_ok isOpened] at survives ⊢
  cases type with
  | inMemory =>
      have exists_ : ∀ final : Storage, (final.registry name).isSome = true →
          ((getFactory .inMemory >>= fun _ => Factory.tableExists .inMemory name) final).1
            = .ok true := by
        intro final known
        show Except.ok (final.registry name).isSome = _
        rw [known]
      refine exists_ _ ?_
      by_cases taken : (opened.registry name).isSome
      · have refused : Factory.createTable .inMemory name choices.draw choices.mapping opened
            = (.ok false, opened) := if_pos taken
        rw [Call.bind_ok refused]
        exact taken
      · have made : Factory.createTable .inMemory name choices.draw choices.mapping opened
            = (.ok true, EphemeralTableFactory.withTable opened name) := if_neg taken
        rw [Call.bind_ok made]
        have rooted₂ : Rooted mappings catalog (EphemeralTableFactory.withTable opened name) :=
          rooted₁.mapping rfl
        have frame := rooted₂.addTable_frame name .inMemory schema choices
        show ((catalog.addTable name .inMemory schema choices
          (EphemeralTableFactory.withTable opened name)).2.registry name).isSome = true
        rw [frame.registry]
        show (Function.update opened.registry name (some opened.nextTable) name).isSome = true
        rw [Function.update_self]
        rfl
  | disk =>
      obtain ⟨mappings', created, knows⟩ := diskCreate_listed (listed rfl) name
        choices.draw choices.mapping
      rcases diskCreate_succeeds (short rfl) choices.draw choices.mapping opened with
        ⟨_, middle, run, rfl⟩ | aborts
      · rw [run] at created knows
        have run : Factory.createTable .disk name choices.draw choices.mapping opened
          = (.ok true, middle) := run
        rw [Call.bind_ok run]
        have rooted₂ : Rooted mappings' catalog middle :=
          ⟨Or.inl created.listed, rooted.different, rooted.notMapping⟩
        have frame := rooted₂.addTable_frame name .disk schema choices
        have rooted₃ := rooted₂.mapping (frame.rows DiskTableFactory.mappingTable.storage
          fun owned => rooted.notMapping _ owned rfl)
        obtain ⟨final, isFinal, _, listed', _⟩ := rooted₃.open_ .disk
        show ((getFactory .disk >>= fun _ => Factory.tableExists .disk name)
          (catalog.addTable name .disk schema choices middle).2).1 = _
        rw [Call.bind_ok isFinal]
        have found := DiskTableFactory.getFileId_listed (listed' rfl) name
        have answer : Factory.tableExists .disk name final
            = (.ok (DiskTableFactory.fileOf mappings' name).isSome, final) := Call.bind_ok found _
        rw [answer, Option.isSome_iff_ne_none.mpr (knows true rfl)]
      · cases run : DiskTableFactory.createTable name choices.draw choices.mapping opened with
        | mk outcome middle =>
            rw [run] at aborts
            have run : Factory.createTable .disk name choices.draw choices.mapping opened
              = (outcome, middle) := run
            cases outcome with
            | ok result => exact absurd aborts id
            | error failure =>
                rw [Call.bind_error run] at survives
                exact absurd aborts survives

/-- **`CREATE TABLE` is all or nothing** exactly when the catalog has the name already, or the
factory of ephemeral tables has it not and the rows of the catalog can be built. -/
theorem createTable_allOrNothing (engine : TableType) {setup : Catalog.Setup}
    {state : Catalog × Storage} (made : construct engine setup .empty = (.ok state.1, state.2))
    (ops : List Op) (name : Bytes) (type : TableType) (schema : Schema) (choices : Choices)
    (survives : ¬ Aborts (machine.answer (machine.exec state ops)
      (.createTable name type schema choices))) :
    AllOrNothing engine (machine.exec state ops) name type schema choices ↔
      tableExists (machine.exec state ops).1 name = true ∨
        (type = .inMemory → (machine.exec state ops).2.registry name = none) ∧
          Catalog.Buildable name schema := by
  have anyCall : machine.Along (fun _ _ => True) state ops :=
    Machine.along_of_mem fun _ _ _ => trivial
  have always : machine.Always (fun reached => ∃ mappings, Rooted mappings reached.1 reached.2) state
      ops :=
    Machine.always_of_step (fun _ op ⟨_, rooted⟩ _ => step_rooted rooted op) (construct_rooted made)
      anyCall
  obtain ⟨mappings, rooted⟩ := always.last
  generalize machine.exec state ops = reached at survives rooted ⊢
  obtain ⟨catalog, storage⟩ := reached
  have survives : ¬ Aborts (createTable catalog name type schema choices storage).1 := by
    rw [answer_createTable] at survives
    intro aborts
    refine survives ?_
    cases run : (createTable catalog name type schema choices storage).1 with
    | ok result =>
        rw [run] at aborts
        exact absurd aborts id
    | error failure =>
        rw [run] at aborts
        exact aborts
  cases unknown : catalog.tableInfo name with
  | some info =>
      have exists_ : tableExists catalog name = true := by
        rw [tableExists, unknown]
        rfl
      refine iff_of_true (fun absent => ?_) (Or.inl exists_)
      have absent : tableExists catalog name = false := absent
      rw [exists_] at absent
      cases absent
  | none =>
      have absent : tableExists catalog name = false := by
        rw [tableExists, unknown]
        rfl
      constructor
      · intro allOrNothing
        refine Or.inr (by_contra fun fails => ?_)
        have notCreated : machine.answer (catalog, storage) (.createTable name type schema choices)
            ≠ .ok true := by
          intro answer
          obtain ⟨catalog', storage', run⟩ := of_answer_true answer
          refine fails ⟨fun isMemory => ?_, buildable_of_createTable unknown run⟩
          by_contra taken
          subst isMemory
          have refused : Factory.createTable .inMemory name choices.draw choices.mapping storage
              = (.ok false, storage) := if_pos (Option.isSome_iff_ne_none.mpr taken)
          have isOpened : getFactory .inMemory storage = (.ok (), storage) := rfl
          rw [createTable_unknown unknown, Call.bind_ok isOpened, Call.bind_ok refused] at run
          cases run
        obtain ⟨nothing, _⟩ := allOrNothing absent notCreated
        have isNext := next_eq catalog storage (.createTable name type schema choices)
        by_cases short : type = .disk → name.length ≤ maxStringLength
        · have keeps := factory_keeps rooted unknown short survives
          have gone := nothing.factory
          rw [isNext] at gone
          rw [show ((getFactory type >>= fun _ => Factory.tableExists type name)
            (createTable catalog name type schema choices storage).2).1 = .ok false from gone]
            at keeps
          cases keeps
        · obtain ⟨again, answer⟩ := nothing.again [] (List.forall_mem_nil _)
          rw [isNext] at answer
          obtain ⟨catalog', storage', run⟩ := of_answer_true answer
          have stillUnknown := nothing.unknown
          rw [isNext] at stillUnknown
          have buildable := buildable_of_createTable (Option.not_isSome_iff_eq_none.mp
            (Bool.eq_false_iff.mp stillUnknown)) run
          exact short fun _ => buildable.1
      · rintro (exists_ | ⟨free, buildable⟩) _ notCreated
        · have exists_ : tableExists catalog name = true := exists_
          rw [absent] at exists_
          cases exists_
        · rcases createTable_succeeds type choices unknown free buildable with
            ⟨catalog', storage', run⟩ | aborts
          · refine absurd ?_ notCreated
            rw [answer_createTable, run]
            rfl
          · exact absurd aborts survives

/-- A table that can be created, after another one. -/
theorem created_allOrNothing :
    AllOrNothing .disk (machine.exec (started .disk) twoTables) [9] .disk [⟨[1], 0⟩] (sampleChoices 9 5) ↔
      tableExists (machine.exec (started .disk) twoTables).1 [9] = true ∨
        (TableType.disk = .inMemory →
          (machine.exec (started .disk) twoTables).2.registry [9] = none) ∧
          Catalog.Buildable [9] [⟨[1], 0⟩] :=
  createTable_allOrNothing .disk (construct_started .disk) twoTables [9] .disk [⟨[1], 0⟩]
    (sampleChoices 9 5) (by decide +kernel)

/-- A column with a name of 65536 bytes. -/
def longColumn : Schema := [⟨List.replicate 65536 97, 0⟩]

theorem longColumn_fails {engine : TableType} (absent : tableExists catalog [9] = false)
    (free : (storage.registry [9]).isSome = false) (choices : Choices) :
    ¬ AllOrNothing engine (catalog, storage) [9] .inMemory longColumn choices := by
  intro allOrNothing
  have unknown : catalog.tableInfo [9] = none :=
    Option.not_isSome_iff_eq_none.mp (Bool.eq_false_iff.mp absent)
  have notBuildable : ¬ Catalog.Buildable [9] longColumn := fun buildable =>
    absurd (buildable.2 _ List.mem_cons_self) (by
      rw [List.length_replicate]
      decide)
  obtain ⟨_, reported⟩ := allOrNothing absent fun answer => by
    obtain ⟨catalog', storage', run⟩ := of_answer_true answer
    exact notBuildable (buildable_of_createTable unknown run)
  obtain ⟨catalog', reported⟩ := reported rfl
  have reported : (executeCreateTable catalog [9] longColumn choices storage).1
      = .ok (false, catalog') := reported
  -- the executor can only return false where `CreateTable` does
  cases run : executeCreateTable catalog [9] longColumn choices storage with
  | mk outcome storage' =>
      rw [run] at reported
      subst reported
      obtain ⟨⟨success, catalog⟩, middle, creating, rest⟩ := Call.of_bind_ok run
      cases rest
      have isOpened : getFactory .inMemory storage = (.ok (), storage) := rfl
      have made : Factory.createTable .inMemory [9] choices.draw choices.mapping storage
          = (.ok true, EphemeralTableFactory.withTable storage [9]) :=
        if_neg (Bool.eq_false_iff.mp free)
      rw [createTable_unknown unknown, Call.bind_ok isOpened, Call.bind_ok made] at creating
      have added := (Catalog.of_addTable_ok creating).1
      rw [unknown] at added
      cases added

/-- The table is left in the factory, and the executor throws. -/
theorem longColumn_breaks :
    construct .inMemory Catalog.sampleSetup .empty
        = (.ok (started .inMemory).1, (started .inMemory).2) ∧
      ¬ AllOrNothing .inMemory (started .inMemory) [9] .inMemory longColumn (sampleChoices 0 5) := by
  refine ⟨construct_started .inMemory, ?_⟩
  have absent : tableExists (started .inMemory).1 [9] = false := by decide +kernel
  have free : ((started .inMemory).2.registry [9]).isSome = false := by decide +kernel
  cases isStarted : started .inMemory with
  | mk catalog storage =>
      rw [isStarted] at absent free
      exact longColumn_fails absent free _

end TableManager

end Yadb
