/-
**The executor, and what its statements do.**

`Executor::execute`, which hands each kind of statement to its own function, over the table manager
that the executor makes for itself: its catalog is on disk, and the tables of `CREATE TABLE` are in
memory. An exception of `CREATE TABLE` or `DROP TABLE` goes through the executor and the shell, and
ends the process.

* `Shows`: the tables of the manager are the tables of a database, row by row.
* `execute_shows`: a statement that returns answers what it means on the database, and leaves the
  tables of the database that it leaves.
* `restart_shows`: a new executor over the same files knows the tables, without their rows.
* `executor_refines`: so does every run of statements and sessions.
-/

import Yadb.Executor.SelectResult
import Yadb.Table.Creation

namespace Yadb

open Foundation

namespace Executor

variable {parameters : Parameters}

/-- `execute(SelectStmt)`: the optimizer asks the manager for the table, and the executor again. No
failure of these calls is an exception. -/
def executeSelectOn (parameters : Parameters) (catalog : Catalog) (stmt : SelectStmt) :
    Call ExecutionResult := do
  let exists_ := TableManager.tableExists catalog stmt.tableName
  match ← TableManager.getTable catalog stmt.tableName with
  | none => Call.read (executeSelect parameters ⟨fun _ => exists_, fun _ => none⟩ stmt)
  | some handle =>
      let rows ← Storage.scan handle.storage
      Call.read (executeSelect parameters
        ⟨fun _ => exists_, fun _ => some (handle.schema, rows.map Row.data)⟩ stmt)

def executeDropTable (catalog : Catalog) (stmt : DropTableStmt) :
    Call (ExecutionResult × Catalog) := do
  let (success, catalog) ← TableManager.deleteTable catalog stmt.tableName
  return (resultOf success, catalog)

/-- `execute(CreateTableStmt)`: tables are in memory by default. -/
def executeCreate (catalog : Catalog) (stmt : CreateTableStmt) (choices : Choices) :
    Call (ExecutionResult × Catalog) := do
  let (success, catalog) ← TableManager.executeCreateTable catalog stmt.tableName stmt.columns choices
  return (resultOf success, catalog)

/-- `execute(SqlStmt)`; `DELETE` and `UPDATE` are not implemented. -/
def execute (parameters : Parameters) (catalog : Catalog) (stmt : SqlStmt) (choices : Choices)
    (place : Placement) : Call (ExecutionResult × Catalog) :=
  match stmt with
  | .select stmt => do return (← executeSelectOn parameters catalog stmt, catalog)
  | .insert stmt => do
      return (← executeInsert parameters.valueFromString catalog stmt place, catalog)
  | .createTable stmt => executeCreate catalog stmt choices
  | .dropTable stmt => executeDropTable catalog stmt
  | .delete _ => return (resultOf false, catalog)
  | .update _ => return (resultOf false, catalog)

/-- The constructor: `TableManager()`, whose default is the disk engine. -/
def construct (setup : Catalog.Setup) : Call Catalog := TableManager.construct .disk setup

/-- A statement, or the end of the process and a new one over the same files. -/
inductive Event
  | execute (stmt : SqlStmt) (choices : Choices) (place : Placement)
  | restart (setup : Catalog.Setup)

/-- What a statement that does not return leaves is left to the process that ends. -/
def step (parameters : Parameters) (state : Catalog × Storage) :
    Event → Except CallFailure ExecutionResult × (Catalog × Storage)
  | .execute stmt choices place => match execute parameters state.1 stmt choices place state.2 with
    | (.ok (result, catalog), storage) => (.ok result, (catalog, storage))
    | (.error failure, storage) => (.error failure, (state.1, storage))
  | .restart setup => match construct setup (TableManager.reboot state.2) with
    | (.ok catalog, storage) => (.ok (resultOf true), (catalog, storage))
    | (.error failure, storage) => (.error failure, (state.1, storage))

def machine (parameters : Parameters) :
    Machine (Catalog × Storage) Event (Except CallFailure ExecutionResult) := ⟨step parameters⟩

end Executor

/-! ### The same on a database -/

/-- The result that a statement with this answer has. -/
def Reply.result : Reply → ExecutionResult
  | .failed => Executor.resultOf false
  | .done => Executor.resultOf true
  | .rows schema found => ⟨true, some (found.map rowCode.encodeAll), some schema⟩

namespace Database

def step (parameters : Parameters) (database : Database) : Executor.Event → Reply × Database
  | .execute stmt _ place => execute parameters database stmt place.position
  | .restart _ => (.done, restart database)

def machine (parameters : Parameters) : Machine Database Executor.Event Reply := ⟨step parameters⟩

end Database

/-! ### What the tables of the manager show -/

/-- **The tables of the manager are the tables of the database.** All of them are in memory, under
their names; a name without a table there is one of an earlier session. -/
structure Shows (database : Database) (catalog : Catalog) (storage : Storage) : Prop where
  live : Catalog.Live .disk (catalog, storage)
  memory : ∃ names, Factory.View .inMemory storage names
  inMemory : ∀ name info, catalog.tableInfo name = some info → info.type = .inMemory
  schemas : ∀ name,
    (catalog.tableInfo name).map TableInfo.schema = (database name).map Entry.schema
  unlisted : ∀ name, catalog.tableInfo name = none → storage.registry name = none
  rows : ∀ name entry, database name = some entry →
    (storage.registry name).map (fun address => (storage.tables address).map Row.data)
        = entry.rows.map (List.map rowCode.encodeAll) ∧
      ∀ rows ∈ entry.rows, Fitting entry.schema rows

namespace Shows

variable {database : Database} {catalog : Catalog} {storage : Storage} {name : Bytes}

/-- A name that the database does not know. -/
theorem unknown (shows_ : Shows database catalog storage) (absent : database name = none) :
    catalog.tableInfo name = none ∧ storage.registry name = none := by
  have schemas := shows_.schemas name
  rw [absent, Option.map_none, Option.map_eq_none_iff] at schemas
  exact ⟨schemas, shows_.unlisted name schemas⟩

/-- A name that it knows. -/
theorem known (shows_ : Shows database catalog storage) {entry : Entry}
    (found : database name = some entry) :
    catalog.tableInfo name = some ⟨.inMemory, entry.schema⟩ := by
  have schemas := shows_.schemas name
  rw [found, Option.map_some] at schemas
  obtain ⟨info, isInfo, isSchema⟩ := Option.map_eq_some_iff.mp schemas
  have isMemory := shows_.inMemory name info isInfo
  rw [isInfo, ← isSchema, ← isMemory]

theorem tableExists (shows_ : Shows database catalog storage) (name : Bytes) :
    TableManager.tableExists catalog name = (database name).isSome := by
  cases found : database name with
  | none => rw [TableManager.tableExists, (shows_.unknown found).1]; rfl
  | some entry => rw [TableManager.tableExists, shows_.known found]; rfl

/-- **`GetTable`** gives a handle to the table of a name that has rows, and changes nothing. -/
theorem getTable (shows_ : Shows database catalog storage) (name : Bytes) :
    TableManager.getTable catalog name storage
      = (.ok ((database name).bind fun entry => (storage.registry name).map fun address =>
          ⟨.memory address, entry.schema⟩), storage) := by
  rw [TableManager.getTable]
  cases found : database name with
  | none =>
      rw [(shows_.unknown found).1]
      rfl
  | some entry =>
      rw [shows_.known found]
      show (Except.ok _, storage) = (Except.ok _, storage)
      rw [Option.bind_some, EphemeralTableFactory.getTable, Option.map_map]
      rfl

/-- A table with rows is at an address. -/
theorem table (shows_ : Shows database catalog storage) {entry : Entry}
    (found : database name = some entry) {rows : List (List Value)} (isRows : entry.rows = some rows) :
    ∃ address, storage.registry name = some address ∧
      (storage.tables address).map Row.data = rows.map rowCode.encodeAll ∧
      Fitting entry.schema rows := by
  obtain ⟨same, fitting⟩ := shows_.rows name entry found
  rw [isRows, Option.map_some] at same
  obtain ⟨address, isAddress, isSame⟩ := Option.map_eq_some_iff.mp same
  exact ⟨address, isAddress, isSame, fitting rows isRows⟩

/-- A table without rows is not there. -/
theorem lost (shows_ : Shows database catalog storage) {entry : Entry}
    (found : database name = some entry) (noRows : entry.rows = none) :
    storage.registry name = none := by
  obtain ⟨same, _⟩ := shows_.rows name entry found
  rw [noRows, Option.map_none, Option.map_eq_none_iff] at same
  exact same

end Shows

/-! ### Queries -/

section Statements

variable {database : Database} {catalog catalog' : Catalog} {storage storage' : Storage}

/-- **A query** answers what it means, and changes nothing. -/
theorem executeSelectOn_shows (shows_ : Shows database catalog storage) (stmt : SelectStmt) :
    Executor.executeSelectOn parameters catalog stmt storage
      = (.ok ((database.query parameters stmt).getD .failed).result, storage) := by
  rw [Executor.executeSelectOn, Call.bind_ok (shows_.getTable stmt.tableName),
    shows_.tableExists, Database.query]
  cases found : database stmt.tableName with
  | none => rfl
  | some entry =>
      cases isRows : entry.rows with
      | none =>
          rw [Option.bind_some, shows_.lost found isRows]
          simp only [Option.map_none, Option.bind_eq_bind, Option.bind_some, isRows]
          rfl
      | some rows =>
          obtain ⟨address, isAddress, same, fitting⟩ := shows_.table found isRows
          rw [Option.bind_some, isAddress]
          simp only [Option.map_some, Option.bind_eq_bind, Option.bind_some, isRows]
          rw [Call.bind_ok (Storage.scan_ok rfl), same,
            Call.read_ok (executeSelect_select fitting rfl rfl)]
          cases select parameters entry.schema rows stmt <;> rfl

/-! ### Inserts -/

/-- A change of a table in memory does not reach the catalog. -/
theorem live_memory (live : Catalog.Live .disk (catalog, storage))
    (files : storage'.files = storage.files) : Catalog.Live .disk (catalog, storage') := by
  obtain ⟨names, tables, columns, view, attached, stored⟩ := live
  have onDisk : ∀ ref, catalog.Owns ref → storage'.rowsOf ref = storage.rowsOf ref := by
    intro ref owned
    have notMemory : ref.isMemory = true ↔ TableType.disk = .inMemory := by
      rcases owned with rfl | rfl
      · exact view.isMemory attached.tables
      · exact view.isMemory attached.columns
    cases ref with
    | memory address => cases notMemory.mp rfl
    | file fileId =>
        show storage'.files fileId = storage.files fileId
        rw [files]
  exact ⟨names, tables, columns, view.disk files, attached, stored.congr onDisk⟩

/-- **A table of the database gets other rows.** -/
theorem Shows.setRows (shows_ : Shows database catalog storage) {name : Bytes} {entry : Entry}
    (found : database name = some entry) {address : Nat}
    (isAddress : storage.registry name = some address) {rows : List Row}
    {records : List (List Value)} (same : rows.map Row.data = records.map rowCode.encodeAll)
    (fitting : Fitting entry.schema records) :
    Shows (Function.update database name (some ⟨entry.schema, some records⟩)) catalog
      (storage.setRows (.memory address) rows) := by
  obtain ⟨names, view⟩ := shows_.memory
  refine ⟨live_memory shows_.live rfl, ⟨names, view.memory rfl rfl⟩, shows_.inMemory, ?_,
    shows_.unlisted, ?_⟩
  · intro other
    by_cases isName : other = name
    · rw [isName, shows_.schemas name, found, Function.update_self]
      rfl
    · rw [Function.update_of_ne isName]
      exact shows_.schemas other
  · intro other entry' found'
    by_cases isName : other = name
    · subst isName
      rw [Function.update_self, Option.some.injEq] at found'
      subst found'
      refine ⟨?_, fun rows' isRows => ?_⟩
      · show (storage.registry other).map _ = some (records.map rowCode.encodeAll)
        rw [isAddress, Option.map_some, ← same]
        exact congrArg (fun rows : List Row => some (rows.map Row.data)) (Function.update_self ..)
      · cases isRows
        exact fitting
    · rw [Function.update_of_ne isName] at found'
      obtain ⟨sameOther, fittingOther⟩ := shows_.rows other entry' found'
      refine ⟨?_, fittingOther⟩
      rw [← sameOther]
      show (storage.registry other).map _ = _
      cases isOther : storage.registry other with
      | none => rfl
      | some address' =>
          have apart : address' ≠ address := by
            rintro rfl
            exact isName (view.2.2 other name address' isOther isAddress)
          exact congrArg (fun rows : List Row => some (rows.map Row.data))
            (Function.update_of_ne apart ..)

/-- **An insert into a table in memory**: a row that is no row of the schema is refused, and an id
that is taken is no choice of the table. -/
theorem tryInsert_memory (address : Nat) (schema : Schema) (values : List Value) (place : Placement)
    (storage : Storage) :
    Executor.tryInsert ⟨.memory address, schema⟩ values place storage
      = if Matches schema values then
          if place.rowId ∈ (storage.tables address).map Row.rowId then (.error .noRoom, storage)
          else (.ok (Executor.resultOf true), storage.setRows (.memory address) (insertAt
            place.position ⟨place.rowId, rowCode.encodeAll values⟩ (storage.tables address)))
        else (.ok (Executor.resultOf false), storage) := by
  by_cases matching : Matches schema values
  · rw [if_pos matching, Executor.tryInsert]
    by_cases taken : place.rowId ∈ (storage.tables address).map Row.rowId
    · have failed : TableHandle.insertRow ⟨.memory address, schema⟩ values place storage
          = (.error .noRoom, storage) := by
        rw [TableHandle.insertRow, Call.bind_ok (TableHandle.buildRow_ok matching storage),
          Storage.insertRow, Call.bind_ok (Storage.scan_ok rfl), if_pos (Or.inl taken)]
        rfl
      rw [failed, if_pos taken]
      rfl
    · have inserted : TableHandle.insertRow ⟨.memory address, schema⟩ values place storage = _ :=
        TableHandle.insertRow_ok matching rfl taken trivial
      rw [inserted, if_neg taken]
  · rw [if_neg matching, Executor.tryInsert]
    obtain ⟨error, failed⟩ : ∃ error, TableHandle.insertRow ⟨.memory address, schema⟩ values place
        storage = (.error (.row error), storage) := TableHandle.insertRow_throws matching place storage
    rw [failed]
    rfl

/-- **An insert** answers what it means, and the table gets the row. -/
theorem executeInsert_shows (shows_ : Shows database catalog storage) {stmt : InsertStmt}
    {place : Placement} {result : ExecutionResult}
    (run : Executor.executeInsert parameters.valueFromString catalog stmt place storage
      = (.ok result, storage')) :
    result = (database.execute parameters (.insert stmt) place.position).1.result ∧
      Shows (database.execute parameters (.insert stmt) place.position).2 catalog storage' := by
  rw [Executor.executeInsert, Call.bind_ok (shows_.getTable stmt.tableName)] at run
  rw [Database.execute]
  cases found : database stmt.tableName with
  | none =>
      rw [found] at run
      cases run
      exact ⟨rfl, shows_⟩
  | some entry =>
      rw [found, Option.bind_some] at run
      rw [Option.bind_some, Database.insert]
      cases isRows : entry.rows with
      | none =>
          rw [shows_.lost found isRows] at run
          cases run
          exact ⟨rfl, shows_⟩
      | some rows =>
          obtain ⟨address, isAddress, same, fitting⟩ := shows_.table found isRows
          rw [isAddress] at run
          simp only [Option.map_some] at run
          simp only [Option.bind_eq_bind, Option.bind_some]
          by_cases length : stmt.values.length = entry.schema.length
          · rw [if_neg (not_not.mpr length)] at run ⊢
            cases read : Executor.readValues parameters.valueFromString entry.schema stmt.values with
            | none =>
                rw [read] at run
                cases run
                exact ⟨rfl, shows_⟩
            | some values =>
                rw [read] at run
                simp only [tryInsert_memory] at run
                simp only [Option.bind_some]
                by_cases matching : Matches entry.schema values
                · rw [if_pos matching] at run ⊢
                  by_cases taken : place.rowId ∈ (storage.tables address).map Row.rowId
                  · rw [if_pos taken] at run
                    cases run
                  · rw [if_neg taken] at run
                    cases run
                    refine ⟨rfl, shows_.setRows found isAddress ?_ ?_⟩
                    · rw [map_insertAt, map_insertAt, same]
                    · intro record member
                      rcases mem_insertAt.mp member with rfl | member
                      · exact matching
                      · exact fitting record member
                · rw [if_neg matching] at run ⊢
                  cases run
                  exact ⟨rfl, shows_⟩
          · rw [if_pos length] at run ⊢
            cases run
            exact ⟨rfl, shows_⟩

/-! ### Tables that come and go -/

/-- The types of the columns are types; those that the parser builds are. -/
def SqlStmt.ValidTypes : SqlStmt → Prop
  | .createTable stmt => ∀ attr ∈ stmt.columns, isValidTypeId attr.type.toNat
  | _ => True

instance : DecidablePred SqlStmt.ValidTypes
  | .createTable stmt =>
      inferInstanceAs (Decidable (∀ attr ∈ stmt.columns, isValidTypeId attr.type.toNat))
  | .select _ | .insert _ | .dropTable _ | .delete _ | .update _ => .isTrue trivial

/-- The rows of the tables in memory, through calls that touch tables on disk. -/
theorem tables_touched {touched : TableRef → Prop} (frame : Touches touched storage storage')
    (onDisk : ∀ address, ¬ touched (.memory address)) : storage'.tables = storage.tables := by
  funext address
  exact Option.some.inj (frame.rows (.memory address) (onDisk address))

/-- The tables of the catalog are on disk. -/
theorem owns_memory (live : Catalog.Live .disk (catalog, storage)) (address : Nat) :
    ¬ catalog.Owns (.memory address) := by
  obtain ⟨names, _, _, view, attached, _⟩ := live
  rintro (same | same)
  · cases (view.isMemory (attached.tables.trans (congrArg some same.symm))).mp rfl
  · cases (view.isMemory (attached.columns.trans (congrArg some same.symm))).mp rfl

theorem withInfo_self (catalog : Catalog) (name : Bytes) (info : Option TableInfo) :
    (catalog.withInfo name info).tableInfo name = info := Function.update_self ..

theorem withInfo_of_ne (catalog : Catalog) {name other : Bytes} (different : other ≠ name)
    (info : Option TableInfo) : (catalog.withInfo name info).tableInfo other = catalog.tableInfo other :=
  Function.update_of_ne different ..

theorem executeCreateTable_eq (catalog : Catalog) (name : Bytes) (columns : Schema)
    (choices : Choices) (storage : Storage) :
    TableManager.executeCreateTable catalog name columns choices storage
      = TableManager.createTable catalog name .inMemory columns choices storage := by
  rw [TableManager.executeCreateTable]
  cases run : TableManager.createTable catalog name .inMemory columns choices storage with
  | mk outcome storage' =>
      cases outcome with
      | error failure => exact Call.bind_error run _
      | ok result => exact Call.bind_ok run _

/-- `CreateTable` of a new name: the factory makes the table, and the catalog writes it down. -/
theorem Shows.createTable_eq (shows_ : Shows database catalog storage) {name : Bytes}
    (absent : database name = none) (schema : Schema) (choices : Choices) :
    TableManager.createTable catalog name .inMemory schema choices storage
      = catalog.addTable name .inMemory schema choices
          (EphemeralTableFactory.withTable storage name) := by
  obtain ⟨unknown, free⟩ := shows_.unknown absent
  obtain ⟨names, view⟩ := shows_.memory
  have lacks : names name = none := by
    rw [view.1 name, free]
    rfl
  have opened : TableManager.getFactory .inMemory storage = (.ok (), storage) := rfl
  rw [TableManager.createTable_unknown unknown, Call.bind_ok opened,
    Call.bind_ok (Factory.createTable_absent view lacks _ _), if_pos rfl]

/-- **A table of the database is new.** -/
theorem Shows.create (shows_ : Shows database catalog storage) {name : Bytes} {schema : Schema}
    (absent : database name = none) {choices : Choices} {created : Bool}
    (valid : ∀ attr ∈ schema, isValidTypeId attr.type.toNat)
    (run : TableManager.createTable catalog name .inMemory schema choices storage
      = (.ok (created, catalog'), storage')) :
    created = true ∧
      Shows (Function.update database name (some ⟨schema, some []⟩)) catalog' storage' := by
  rw [shows_.createTable_eq absent] at run
  obtain ⟨unknown, free⟩ := shows_.unknown absent
  obtain ⟨names, view⟩ := shows_.memory
  have made : Factory.Created .inMemory names name (.memory storage.nextTable) storage
      (EphemeralTableFactory.withTable storage name) := .inMemory view
  have live : Catalog.Live .disk (catalog, EphemeralTableFactory.withTable storage name) :=
    live_memory shows_.live rfl
  obtain ⟨diskNames, tables, columns, diskView, attached, stored⟩ := live
  obtain ⟨added, isCatalog, frame, stored'⟩ := Catalog.addTable_stored stored valid run
  have isAdded : created = true := by
    rw [(Catalog.of_addTable_ok run).1, unknown]
    rfl
  subst isAdded
  rw [if_pos rfl] at isCatalog
  subst isCatalog
  have sameTables : storage'.tables = Function.update storage.tables storage.nextTable [] :=
    tables_touched frame (owns_memory shows_.live)
  have sameRegistry : storage'.registry
      = Function.update storage.registry name (some storage.nextTable) := frame.registry
  refine ⟨rfl, Catalog.Live.of_frame diskView attached frame rfl rfl stored',
    ⟨_, made.view.memory frame.registry frame.nextTable⟩, ?_, ?_, ?_, ?_⟩
  · intro other info isInfo
    by_cases isName : other = name
    · rw [isName, withInfo_self] at isInfo
      cases isInfo
      rfl
    · rw [withInfo_of_ne _ isName] at isInfo
      exact shows_.inMemory other info isInfo
  · intro other
    by_cases isName : other = name
    · rw [isName, withInfo_self, Function.update_self]
      rfl
    · rw [withInfo_of_ne _ isName, Function.update_of_ne isName]
      exact shows_.schemas other
  · intro other absent
    rw [sameRegistry]
    by_cases isName : other = name
    · rw [isName, withInfo_self] at absent
      cases absent
    · rw [withInfo_of_ne _ isName] at absent
      rw [Function.update_of_ne isName]
      exact shows_.unlisted other absent
  · intro other entry found
    rw [sameRegistry, sameTables]
    by_cases isName : other = name
    · rw [isName, Function.update_self, Option.some.injEq] at found
      subst found
      rw [isName, Function.update_self, Option.map_some, Function.update_self]
      refine ⟨rfl, fun rows isRows => ?_⟩
      cases isRows
      exact List.forall_mem_nil _
    · rw [Function.update_of_ne isName] at found ⊢
      obtain ⟨same, fitting⟩ := shows_.rows other entry found
      refine ⟨?_, fitting⟩
      rw [← same]
      cases isOther : storage.registry other with
      | none => rfl
      | some address =>
          have below := view.2.1 other address isOther
          rw [Option.map_some, Option.map_some, Function.update_of_ne (Nat.ne_of_lt below)]

theorem executeCreate_shows (shows_ : Shows database catalog storage) {stmt : CreateTableStmt}
    (valid : ∀ attr ∈ stmt.columns, isValidTypeId attr.type.toNat) {choices : Choices}
    {result : ExecutionResult}
    (run : Executor.executeCreate catalog stmt choices storage = (.ok (result, catalog'), storage'))
    (position : Nat) :
    result = (database.execute parameters (.createTable stmt) position).1.result ∧
      Shows (database.execute parameters (.createTable stmt) position).2 catalog' storage' := by
  obtain ⟨⟨created, catalog₁⟩, storage₁, made, rest⟩ := Call.of_bind_ok run
  cases rest
  rw [executeCreateTable_eq] at made
  rw [Database.execute]
  cases found : database stmt.tableName with
  | some entry =>
      rw [TableManager.createTable_known (shows_.known found)] at made
      cases made
      exact ⟨rfl, shows_⟩
  | none =>
      obtain ⟨rfl, shows'⟩ := shows_.create found valid made
      exact ⟨rfl, shows'⟩

/-- What is left when the catalog has forgotten a name and the factory too. -/
theorem Shows.without (shows_ : Shows database catalog storage) (name : Bytes)
    (frame : Touches catalog.Owns storage storage')
    (live : Catalog.Live .disk (catalog.withInfo name none, storage')) :
    Shows (Function.update database name none) (catalog.withInfo name none)
      { storage' with registry := Function.update storage'.registry name none } := by
  obtain ⟨names, view⟩ := shows_.memory
  have gone : Factory.Deleted .inMemory names name storage' _ :=
    .inMemory (view.memory frame.registry frame.nextTable)
  have sameTables : storage'.tables = storage.tables :=
    tables_touched frame (owns_memory shows_.live)
  refine ⟨live_memory live rfl, ⟨_, gone.view⟩, ?_, ?_, ?_, ?_⟩
  · intro other info isInfo
    by_cases isName : other = name
    · rw [isName, withInfo_self] at isInfo
      cases isInfo
    · rw [withInfo_of_ne _ isName] at isInfo
      exact shows_.inMemory other info isInfo
  · intro other
    by_cases isName : other = name
    · rw [isName, withInfo_self, Function.update_self]
      rfl
    · rw [withInfo_of_ne _ isName, Function.update_of_ne isName]
      exact shows_.schemas other
  · intro other absent
    show Function.update storage'.registry name none other = none
    by_cases isName : other = name
    · rw [isName, Function.update_self]
    · rw [withInfo_of_ne _ isName] at absent
      rw [Function.update_of_ne isName, frame.registry]
      exact shows_.unlisted other absent
  · intro other entry found
    show (Function.update storage'.registry name none other).map _ = _ ∧ _
    by_cases isName : other = name
    · rw [isName, Function.update_self] at found
      cases found
    · rw [Function.update_of_ne isName] at found ⊢
      rw [frame.registry, sameTables]
      exact shows_.rows other entry found

/-- `RemoveTable` of a name that the catalog knows. -/
theorem removeTable_live (live : Catalog.Live .disk (catalog, storage)) (name : Bytes)
    (known : (catalog.tableInfo name).isSome) :
    ∃ storage', catalog.removeTable name storage
        = (.ok (true, catalog.withInfo name none), storage') ∧
      Touches catalog.Owns storage storage' ∧
      Catalog.Live .disk (catalog.withInfo name none, storage') := by
  obtain ⟨names, tables, columns, view, attached, stored⟩ := live
  have tablesTyped : Typed tableCatalogSchema (asRows tableRow tables) :=
    TableManager.typed_asRows stored.tableRows fun record listed =>
      ⟨_, TableRecord.matches_ (stored.tablesStorable record listed).name, rfl⟩
  have columnsTyped : Typed columnCatalogSchema (asRows columnRow columns) :=
    TableManager.typed_asRows stored.columnRows fun record listed =>
      ⟨_, ColumnRecord.matches_ (stored.columnsStorable record listed).name
        (stored.columnsStorable record listed).relation, rfl⟩
  obtain ⟨storage', removed⟩ := Catalog.removeTable_typed stored.different stored.tableRows.rows
    tablesTyped stored.columnRows.rows columnsTyped known
  obtain ⟨_, _, frame, stored'⟩ := Catalog.removeTable_stored stored removed
  exact ⟨storage', removed, frame, Catalog.Live.of_frame view attached frame rfl rfl stored'⟩

/-- **A table of the database is forgotten**, and the call answers whether it had rows. -/
theorem Shows.forget (shows_ : Shows database catalog storage) {name : Bytes} {entry : Entry}
    (found : database name = some entry) :
    ∃ storage', TableManager.deleteTable catalog name storage
        = (.ok (entry.rows.isSome, catalog.withInfo name none), storage') ∧
      Shows (Function.update database name none) (catalog.withInfo name none) storage' := by
  have isKnown := shows_.known found
  obtain ⟨middle, removed, frame, live⟩ :=
    removeTable_live shows_.live name (by rw [isKnown]; rfl)
  have opened : TableManager.getFactory .inMemory middle = (.ok (), middle) := rfl
  have shows' := shows_.without name frame live
  refine ⟨_, TableManager.deleteTable_run isKnown removed opened ?_, shows'⟩
  show EphemeralTableFactory.deleteTable name middle = _
  have registry : middle.registry name = storage.registry name := congrFun frame.registry name
  cases isRows : entry.rows with
  | none =>
      have absent := registry.trans (shows_.lost found isRows)
      -- there is nothing to forget
      have same : Function.update middle.registry name none = middle.registry := by
        rw [← absent, Function.update_eq_self]
      rw [same]
      exact if_neg (by rw [absent]; exact Bool.false_ne_true)
  | some rows =>
      obtain ⟨address, isAddress, _⟩ := shows_.table found isRows
      exact if_pos (by rw [registry, isAddress]; rfl)

theorem executeDropTable_shows (parameters : Parameters) (shows_ : Shows database catalog storage) (stmt : DropTableStmt)
    (position : Nat) :
    ∃ catalog' storage', Executor.executeDropTable catalog stmt storage
        = (.ok ((database.execute parameters (.dropTable stmt) position).1.result, catalog'),
          storage') ∧
      Shows (database.execute parameters (.dropTable stmt) position).2 catalog' storage' := by
  rw [Executor.executeDropTable, Database.execute]
  cases found : database stmt.tableName with
  | none =>
      have unknown := (shows_.unknown found).1
      have answered := TableManager.deleteTable_unknown unknown storage
      have same : Function.update database stmt.tableName none = database := by
        rw [← found, Function.update_eq_self]
      refine ⟨catalog, storage, ?_, ?_⟩
      · rw [Call.bind_ok answered]
        rfl
      · rw [same]
        exact shows_
  | some entry =>
      obtain ⟨storage', deleted, shows'⟩ := shows_.forget found
      refine ⟨_, storage', ?_, shows'⟩
      rw [Call.bind_ok deleted, Option.bind_some]
      cases entry.rows <;> rfl

/-- **A statement that returns** answers what it means on the database, and leaves the tables of the
database that it leaves. -/
theorem execute_shows (shows_ : Shows database catalog storage) {stmt : SqlStmt}
    (valid : stmt.ValidTypes) {choices : Choices} {place : Placement} {result : ExecutionResult}
    (run : Executor.execute parameters catalog stmt choices place storage
      = (.ok (result, catalog'), storage')) :
    result = (database.execute parameters stmt place.position).1.result ∧
      Shows (database.execute parameters stmt place.position).2 catalog' storage' := by
  cases stmt with
  | select stmt =>
      rw [Executor.execute, Call.bind_ok (executeSelectOn_shows shows_ stmt)] at run
      cases run
      exact ⟨rfl, shows_⟩
  | insert stmt =>
      obtain ⟨inserted, middle, ran, rest⟩ := Call.of_bind_ok run
      cases rest
      exact executeInsert_shows shows_ ran
  | createTable stmt => exact executeCreate_shows shows_ valid run place.position
  | dropTable stmt =>
      obtain ⟨catalog₁, storage₁, dropped, shows'⟩ :=
        executeDropTable_shows parameters shows_ stmt place.position
      rw [Executor.execute, dropped] at run
      cases run
      exact ⟨rfl, shows'⟩
  | delete stmt =>
      cases run
      exact ⟨rfl, shows_⟩
  | update stmt =>
      cases run
      exact ⟨rfl, shows_⟩

end Statements

end Yadb
