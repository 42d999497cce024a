/-
**The catalog.**

`catalog.cpp`: the tables with their types and schemas, cached in a map and kept in two tables of
the default factory, one row for each table and one for each column. The constructor creates the two
tables if they are missing, and loads the map from their rows.

The choices of an environment (file ids, row ids, positions of rows) are arguments. A loader that
writes outside a schema, reads a type that no table has or is given a negative number of attributes
is undefined, and so is the 2³¹-th position of an attribute.
-/

import Yadb.Table.Factories

namespace Yadb

open Foundation

namespace Factory

def tableExists (engine : TableType) (name : Bytes) : Call Bool :=
  match engine with
  | .inMemory => fun storage => (.ok (EphemeralTableFactory.tableExists storage name), storage)
  | .disk => DiskTableFactory.tableExists name

def createTable (engine : TableType) (name : Bytes) (draw : FileId) (place : Placement) : Call Bool :=
  match engine with
  | .inMemory => EphemeralTableFactory.createTable name
  | .disk => DiskTableFactory.createTable name draw place

def getTable (engine : TableType) (name : Bytes) : Call (Option TableRef) :=
  match engine with
  | .inMemory => fun storage => (.ok (EphemeralTableFactory.getTable storage name), storage)
  | .disk => DiskTableFactory.getTable name

def deleteTable (engine : TableType) (name : Bytes) : Call Bool :=
  match engine with
  | .inMemory => EphemeralTableFactory.deleteTable name
  | .disk => DiskTableFactory.deleteTable name

end Factory

structure TableInfo where
  type : TableType
  schema : Schema
  deriving DecidableEq

/-- `table_catalog`. -/
def tableCatalogName : Bytes := [116, 97, 98, 108, 101, 95, 99, 97, 116, 97, 108, 111, 103]

/-- `column_catalog`. -/
def columnCatalogName : Bytes := [99, 111, 108, 117, 109, 110, 95, 99, 97, 116, 97, 108, 111, 103]

/-- `table_name`, `type` and `num_attributes`. -/
def tableCatalogSchema : Schema :=
  [⟨[116, 97, 98, 108, 101, 95, 110, 97, 109, 101], DataType.string.typeId⟩,
    ⟨[116, 121, 112, 101], DataType.i32.typeId⟩,
    ⟨[110, 117, 109, 95, 97, 116, 116, 114, 105, 98, 117, 116, 101, 115], DataType.i32.typeId⟩]

/-- `attr_name`, `rel_name`, `type` and `position`. -/
def columnCatalogSchema : Schema :=
  [⟨[97, 116, 116, 114, 95, 110, 97, 109, 101], DataType.string.typeId⟩,
    ⟨[114, 101, 108, 95, 110, 97, 109, 101], DataType.string.typeId⟩,
    ⟨[116, 121, 112, 101], DataType.i32.typeId⟩,
    ⟨[112, 111, 115, 105, 116, 105, 111, 110], DataType.i32.typeId⟩]

/-- The handles are kept as the storage they hold. -/
structure Catalog where
  tableInfo : Bytes → Option TableInfo
  tableCatalog : TableRef
  columnCatalog : TableRef

/-- A row of the table catalog. -/
structure TableRecord where
  name : Bytes
  type : TableType
  numAttributes : Nat

/-- A row of the column catalog. -/
structure ColumnRecord where
  attr : RelationAttribute
  relation : Bytes
  position : Nat

/-- `static_cast<std::int32_t>(type)`. -/
def tableTypeNumber : TableType → Int32
  | .inMemory => 0
  | .disk => 1

/-- `static_cast<TableType>(number)`. A number that is none of them is kept there, and `GetFactory`
throws when the table is first used; here it throws when it is read. -/
def tableTypeOfNumber (number : Int32) : Except CallFailure TableType :=
  if number = 0 then .ok .inMemory
  else if number = 1 then .ok .disk
  else .error (.unknownTableType number)

def TableRecord.values (record : TableRecord) : List Value :=
  [.string record.name, .i32 (tableTypeNumber record.type), .i32 (Int32.ofNat record.numAttributes)]

def ColumnRecord.values (record : ColumnRecord) : List Value :=
  [.string record.attr.name, .string record.relation, .i32 (Int32.ofNat record.attr.type.toNat),
    .i32 (Int32.ofNat record.position)]

/-- The columns of a table, from a position on. -/
def columnsOf (relation : Bytes) : Nat → Schema → List ColumnRecord
  | _, [] => []
  | position, attr :: schema => ⟨attr, relation, position⟩ :: columnsOf relation (position + 1) schema

/-- What the environment chooses when a table is created. -/
structure Choices where
  draw : FileId
  mapping : Placement
  table : Placement
  column : Nat → Placement

namespace Catalog

def tableHandle (catalog : Catalog) : TableHandle := ⟨catalog.tableCatalog, tableCatalogSchema⟩

def columnHandle (catalog : Catalog) : TableHandle := ⟨catalog.columnCatalog, columnCatalogSchema⟩

/-! ### Adding and removing tables -/

/-- The loop of `AddTable` over the attributes. -/
def addColumns (handle : TableHandle) (place : Nat → Placement) : List ColumnRecord → Call Unit
  | [] => return ()
  | record :: records => do
      let _ ← handle.insertRow record.values (place record.position)
      -- `position++`
      if record.position + 1 = 2 ^ 31 then Call.fail .undefined
      else addColumns handle place records

def addTable (catalog : Catalog) (name : Bytes) (type : TableType) (schema : Schema)
    (choices : Choices) : Call (Bool × Catalog) := do
  if (catalog.tableInfo name).isSome then return (false, catalog)
  else
    let _ ← catalog.tableHandle.insertRow
      (TableRecord.values ⟨name, type, schema.length⟩) choices.table
    addColumns catalog.columnHandle choices.column (columnsOf name 0 schema)
    return (true,
      { catalog with tableInfo := Function.update catalog.tableInfo name (some ⟨type, schema⟩) })

/-- The test of the loop over the columns. -/
def ofRelation (name : Bytes) (data : Bytes) : Except ReadFailure Bool := do
  return (← RowReader.getString ⟨data, columnCatalogSchema⟩ 1) == name

/-- The test of the loop over the tables. -/
def hasName (name : Bytes) (data : Bytes) : Except ReadFailure Bool := do
  return (← RowReader.getString ⟨data, tableCatalogSchema⟩ 0) == name

def deleteRows (handle : TableHandle) : List RowId → Call Unit
  | [] => return ()
  | rowId :: rowIds => do
      handle.deleteRow rowId
      deleteRows handle rowIds

def removeTable (catalog : Catalog) (name : Bytes) : Call (Bool × Catalog) := do
  if (catalog.tableInfo name).isNone then return (false, catalog)
  else
    let columns ← Storage.scan catalog.columnCatalog
    let toDelete ← Call.read (allWhere (ofRelation name) columns)
    deleteRows catalog.columnHandle (toDelete.map Row.rowId)
    let tables ← Storage.scan catalog.tableCatalog
    match ← Call.read (firstWhere (hasName name) tables) with
    | none => pure ()
    | some row => catalog.tableHandle.deleteRow row.rowId
    return (true, { catalog with tableInfo := Function.update catalog.tableInfo name none })

/-! ### Loading -/

/-- One turn of `LoadTableSchemas`. -/
def loadTable (info : Bytes → Option TableInfo) (row : Row) :
    Except CallFailure (Bytes → Option TableInfo) := do
  let reader : RowReader := ⟨row.data, tableCatalogSchema⟩
  let name ← (reader.getString 0).mapError .unreadable
  let number ← (reader.getI32 1).mapError .unreadable
  let numAttributes ← (reader.getI32 2).mapError .unreadable
  let type ← tableTypeOfNumber number
  -- `static_cast<std::size_t>` of a negative number is more than a vector can hold.
  if numAttributes < 0 then throw .lengthError
  return Function.update info name
    (some ⟨type, List.replicate numAttributes.toInt.toNat ⟨[], 0⟩⟩)

/-- One turn of `LoadColumnSchemas`. -/
def loadColumn (info : Bytes → Option TableInfo) (row : Row) :
    Except CallFailure (Bytes → Option TableInfo) := do
  let reader : RowReader := ⟨row.data, columnCatalogSchema⟩
  let attributeName ← (reader.getString 0).mapError .unreadable
  let relationName ← (reader.getString 1).mapError .unreadable
  let attributeType ← (reader.getI32 2).mapError .unreadable
  if !isValidTypeId attributeType.toInt then throw (.unknownTypeId attributeName attributeType)
  let position ← (reader.getI32 3).mapError .unreadable
  match info relationName with
  | none => throw .undefined
  | some table =>
      if position < 0 ∨ table.schema.length ≤ position.toInt.toNat then throw .undefined
      return Function.update info relationName (some { table with
        schema := table.schema.set position.toInt.toNat
          ⟨attributeName, UInt8.ofNat attributeType.toInt.toNat⟩ })

/-- `LoadTableSchemas` and `LoadColumnSchemas`. -/
def load (tables columns : List Row) : Except CallFailure (Bytes → Option TableInfo) := do
  columns.foldlM loadColumn (← tables.foldlM loadTable fun _ => none)

/-! ### Construction -/

/-- What the environment chooses when a catalog is made: the file and the mapping row of each of its
tables, and the places of their rows. -/
structure Setup where
  tables : Choices
  columns : Choices
  tableRow : Nat → Placement

def insertRecords (handle : TableHandle) (place : Nat → Placement) : Nat → List (List Value) → Call Unit
  | _, [] => return ()
  | index, values :: rest => do
      let _ ← handle.insertRow values (place index)
      insertRecords handle place (index + 1) rest

/-- `InitializeTableCatalogTable`; the catalog tables are recorded as tables in memory. -/
def initializeTableCatalogTable (handle : TableHandle) (place : Nat → Placement) : Call Unit :=
  insertRecords handle place 0
    [TableRecord.values ⟨tableCatalogName, .inMemory, tableCatalogSchema.length⟩,
      TableRecord.values ⟨columnCatalogName, .inMemory, columnCatalogSchema.length⟩]

/-- `InitializeColumnCatalogTable`. -/
def initializeColumnCatalogTable (handle : TableHandle) (place : Nat → Placement) : Call Unit :=
  insertRecords handle place 0
    ((columnsOf tableCatalogName 0 tableCatalogSchema
      ++ columnsOf columnCatalogName 0 columnCatalogSchema).map ColumnRecord.values)

/-- Creates one of the two tables if it is missing, and says whether it was. -/
def createIfMissing (engine : TableType) (name : Bytes) (label : String) (choices : Choices) :
    Call Bool := do
  let exists_ ← Factory.tableExists engine name
  if exists_ then return false
  else
    let created ← Factory.createTable engine name choices.draw choices.mapping
    if created then return true
    else Call.fail (.catalogInitialization ("could not create " ++ label ++ " table"))

def getStorage (engine : TableType) (name : Bytes) (label : String) : Call TableRef := do
  match ← Factory.getTable engine name with
  | none => Call.fail (.catalogInitialization ("could not get " ++ label ++ " table"))
  | some ref => return ref

/-- The constructor. -/
def construct (engine : TableType) (setup : Setup) : Call Catalog := do
  let tableCatalogNew ← createIfMissing engine tableCatalogName "table_catalog" setup.tables
  let columnCatalogNew ← createIfMissing engine columnCatalogName "column_catalog" setup.columns
  let tableCatalog ← getStorage engine tableCatalogName "table_catalog"
  let columnCatalog ← getStorage engine columnCatalogName "column_catalog"
  if tableCatalogNew then
    initializeTableCatalogTable ⟨tableCatalog, tableCatalogSchema⟩ setup.tableRow
  if columnCatalogNew then
    initializeColumnCatalogTable ⟨columnCatalog, columnCatalogSchema⟩ setup.columns.column
  let tables ← Storage.scan tableCatalog
  let columns ← Storage.scan columnCatalog
  match load tables columns with
  | .error failure => Call.fail failure
  | .ok tableInfo => return ⟨tableInfo, tableCatalog, columnCatalog⟩

end Catalog

end Yadb
