/-
**The two table factories.**

`disk_table_factory.cpp` and `ephemeral_table_factory.cpp`: the one keeps a row for each table, its
name and its file, in the mapping table, the other a map from names to tables.

A new file takes the id that `CreateFile` draws; ids that are reserved or taken are drawn again, so
a `draw` is the id it settles on.

* `Mapped`: the mapping table holds one row for each name, and its files exist.
* `factories_agree_iff`: the two factories answer alike throughout a run exactly when it creates new
  names only, which fit a page with their file id.
* `createTwice_breaks`: the disk factory creates a name again.
-/

import Yadb.Foundation.Machine
import Yadb.Table.Storage

namespace Yadb

open Foundation

namespace EphemeralTableFactory

def tableExists (storage : Storage) (name : Bytes) : Bool := (storage.registry name).isSome

/-- The storage with a new table under the name. -/
def withTable (storage : Storage) (name : Bytes) : Storage :=
  { storage with
    tables := Function.update storage.tables storage.nextTable []
    nextTable := storage.nextTable + 1
    registry := Function.update storage.registry name (some storage.nextTable) }

def createTable (name : Bytes) : Call Bool := fun storage =>
  if (storage.registry name).isSome then (.ok false, storage)
  else (.ok true, withTable storage name)

def getTable (storage : Storage) (name : Bytes) : Option TableRef :=
  (storage.registry name).map .memory

def deleteTable (name : Bytes) : Call Bool := fun storage =>
  if (storage.registry name).isSome then
    (.ok true, { storage with registry := Function.update storage.registry name none })
  else (.ok false, storage)

end EphemeralTableFactory

namespace DiskTableFactory

/-- `MAPPING_SCHEMA`: `file_name` and `file_id`. -/
def mappingSchema : Schema :=
  [⟨[102, 105, 108, 101, 95, 110, 97, 109, 101], DataType.string.typeId⟩,
    ⟨[102, 105, 108, 101, 95, 105, 100], DataType.u32.typeId⟩]

def mappingTable : TableHandle := ⟨.file diskTableMappingFileId, mappingSchema⟩

/-- `OpenOrCreateMappingTable`. -/
def openMappingTable (storage : Storage) : Storage :=
  match storage.files diskTableMappingFileId with
  | some _ => storage
  | none => storage.setRows mappingTable.storage []

/-- The test of the loops over the mapping table. -/
def hasName (name : Bytes) (data : Bytes) : Except ReadFailure Bool := do
  return (← RowReader.getString ⟨data, mappingSchema⟩ 0) == name

/-- `MappingManager::GetFileId`. -/
def getFileId (name : Bytes) : Call (Option FileId) := do
  let rows ← Storage.scan mappingTable.storage
  match ← Call.read (firstWhere (hasName name) rows) with
  | none => return none
  | some row => return some (← Call.read (RowReader.getU32 ⟨row.data, mappingSchema⟩ 1))

/-- `MappingManager::SaveMapping`. -/
def saveMapping (name : Bytes) (fileId : FileId) (place : Placement) : Call Bool := do
  let _ ← mappingTable.insertRow [.string name, .u32 fileId] place
  return true

/-- `MappingManager::DeleteMapping`. -/
def deleteMapping (name : Bytes) : Call Bool := do
  let rows ← Storage.scan mappingTable.storage
  match ← Call.read (firstWhere (hasName name) rows) with
  | none => return false
  | some row =>
      mappingTable.deleteRow row.rowId
      return true

def tableExists (name : Bytes) : Call Bool := do
  return (← getFileId name).isSome

/-- `CreateFile()`, and the root page that `InitTableRootPage` gives the file. -/
def createFile (draw : FileId) : Call Unit := fun storage =>
  if isReservedFileId draw ∨ storage.files draw ≠ none then (.error (.createFile draw), storage)
  else (.ok (), storage.setRows (.file draw) [])

/-- `CreateTable`, without a look at the names there are. -/
def createTable (name : Bytes) (draw : FileId) (place : Placement) : Call Bool := do
  createFile draw
  let _ ← saveMapping name draw place
  return true

def getTable (name : Bytes) : Call (Option TableRef) := do
  return (← getFileId name).map .file

/-- `PageBufferManager::DeleteFile` of a file no page of which is pinned. -/
def deleteFile (fileId : FileId) : Call Unit :=
  Call.returning () fun storage =>
    { storage with files := Function.update storage.files fileId none }

def deleteTable (name : Bytes) : Call Bool := do
  match ← getFileId name with
  | none => return false
  | some fileId =>
      deleteFile fileId
      let _ ← deleteMapping name
      return true

end DiskTableFactory

/-! ### The mapping table -/

/-- A name and its file. -/
abbrev Mapping := Bytes × FileId

namespace DiskTableFactory

def mappingRow (mapping : Mapping) : Bytes :=
  rowCode.encodeAll [.string mapping.1, .u32 mapping.2]

theorem mappingRow_length (mapping : Mapping) : (mappingRow mapping).length = mapping.1.length + 6 := by
  show ((Value.string mapping.1).encode ++ ((Value.u32 mapping.2).encode ++ [])).length = _
  rw [List.length_append, List.append_nil, Value.length_encode, Value.length_encode]
  show 2 + mapping.1.length + 4 = _
  omega

/-- **The mapping table holds one row for each name**, and the files of the names exist. -/
structure Mapped (storage : Storage) (mappings : List (RowId × Mapping)) : Prop where
  rows : storage.files diskTableMappingFileId = some (asRows mappingRow mappings)
  short : ∀ mapping ∈ mappings, mapping.2.1.length ≤ maxStringLength
  rowIds : (mappings.map Prod.fst).Nodup
  names : (mappings.map fun mapping => mapping.2.1).Nodup
  notMapping : ∀ mapping ∈ mappings, mapping.2.2 ≠ diskTableMappingFileId

/-- The mapping table, in which a name may have several rows. -/
structure Listed (storage : Storage) (mappings : List (RowId × Mapping)) : Prop where
  rows : storage.files diskTableMappingFileId = some (asRows mappingRow mappings)
  short : ∀ mapping ∈ mappings, mapping.2.1.length ≤ maxStringLength
  rowIds : (mappings.map Prod.fst).Nodup
  notMapping : ∀ mapping ∈ mappings, mapping.2.2 ≠ diskTableMappingFileId

theorem Mapped.listed {storage : Storage} {mappings : List (RowId × Mapping)}
    (mapped : Mapped storage mappings) : Listed storage mappings :=
  ⟨mapped.rows, mapped.short, mapped.rowIds, mapped.notMapping⟩

/-! ### The mapping table is opened -/

theorem opened_found {storage : Storage} {rows : List Row}
    (found : storage.files diskTableMappingFileId = some rows) :
    openMappingTable storage = storage := by
  rw [openMappingTable, found]

theorem opened_new {storage : Storage} (absent : storage.files diskTableMappingFileId = none) :
    openMappingTable storage = storage.setRows mappingTable.storage [] := by
  rw [openMappingTable, absent]

/-- A new mapping table. -/
theorem mapped_new {storage : Storage} (absent : storage.files diskTableMappingFileId = none) :
    Mapped (openMappingTable storage) [] where
  rows := by
    rw [opened_new absent]
    show Function.update storage.files diskTableMappingFileId _ diskTableMappingFileId = _
    exact Function.update_self ..
  short := List.forall_mem_nil _
  rowIds := .nil
  names := .nil
  notMapping := List.forall_mem_nil _

/-- The mapping table after it was opened, whether it was there or not. -/
theorem listed_opened {storage : Storage} {mappings : List (RowId × Mapping)}
    (known : Listed storage mappings ∨
      storage.files diskTableMappingFileId = none ∧ mappings = []) :
    Listed (openMappingTable storage) mappings := by
  rcases known with listed | ⟨absent, rfl⟩
  · rw [opened_found listed.rows]
    exact listed
  · exact (mapped_new absent).listed

/-- A mapping table that no call touched. -/
theorem listed_congr {storage storage' : Storage} {mappings : List (RowId × Mapping)}
    (same : storage'.files diskTableMappingFileId = storage.files diskTableMappingFileId)
    (known : Listed storage mappings ∨
      storage.files diskTableMappingFileId = none ∧ mappings = []) :
    Listed storage' mappings ∨ storage'.files diskTableMappingFileId = none ∧ mappings = [] := by
  rcases known with listed | ⟨absent, none_⟩
  · exact Or.inl ⟨same.trans listed.rows, listed.short, listed.rowIds, listed.notMapping⟩
  · exact Or.inr ⟨same.trans absent, none_⟩

/-- The file under a name. -/
def fileOf (mappings : List (RowId × Mapping)) (name : Bytes) : Option FileId :=
  (mappings.find? fun mapping => mapping.2.1 == name).map fun mapping => mapping.2.2

variable {storage storage' : Storage} {mappings : List (RowId × Mapping)} {name other : Bytes}

theorem matches_mapping (short : name.length ≤ maxStringLength) (fileId : FileId) :
    Matches mappingSchema [.string name, .u32 fileId] :=
  .cons ⟨rfl, short⟩ (.cons ⟨rfl, trivial⟩ .nil)

theorem hasName_mappingRow {mapping : Mapping} (short : mapping.1.length ≤ maxStringLength) :
    hasName name (mappingRow mapping) = .ok (mapping.1 == name) :=
  bind_of_ok (getString_encode (matches_mapping short mapping.2) rfl) _

theorem asRows_rowIds {Record : Type} (encode : Record → Bytes) (records : List (RowId × Record)) :
    (asRows encode records).map Row.rowId = records.map Prod.fst := by
  rw [asRows, List.map_map]
  rfl

/-- The first row with the name. -/
theorem firstWhere_listed (mapped : Listed storage mappings) (name : Bytes) :
    firstWhere (hasName name) (asRows mappingRow mappings)
      = .ok ((mappings.find? fun mapping => mapping.2.1 == name).map fun mapping =>
          ⟨mapping.1, mappingRow mapping.2⟩) :=
  firstWhere_asRows (fun mapping : Mapping => mapping.1 == name)
    fun mapping member => hasName_mappingRow (mapped.short mapping member)

/-- **`GetFileId`** reads the file under the name. -/
theorem getFileId_listed (listed : Listed storage mappings) (name : Bytes) :
    getFileId name storage = (.ok (fileOf mappings name), storage) := by
  have scanned : Storage.scan mappingTable.storage storage
      = (.ok (asRows mappingRow mappings), storage) := Storage.scan_ok listed.rows
  rw [getFileId, Call.bind_ok scanned,
    Call.bind_ok (Call.read_ok (firstWhere_listed listed name) storage), fileOf]
  cases found : mappings.find? fun mapping => mapping.2.1 == name with
  | none => rfl
  | some mapping =>
      have short := listed.short mapping (List.mem_of_find?_eq_some found)
      exact Call.bind_ok (Call.read_ok (getU32_encode (matches_mapping short mapping.2.2) rfl) storage) _

theorem getFileId_mapped (mapped : Mapped storage mappings) (name : Bytes) :
    getFileId name storage = (.ok (fileOf mappings name), storage) :=
  getFileId_listed mapped.listed name

theorem fileOf_eq_none : fileOf mappings name = none ↔
    name ∉ mappings.map fun mapping => mapping.2.1 := by
  rw [fileOf, Option.map_eq_none_iff, List.find?_eq_none]
  simp only [beq_iff_eq, List.mem_map, not_exists, not_and]

/-- Of records with distinct keys, one is removed by its row id or by its key alike. -/
theorem filter_key {Record Key : Type} [DecidableEq Key] {records : List (RowId × Record)}
    (key : Record → Key) (rowIds : (records.map Prod.fst).Nodup)
    (keys : (records.map fun record => key record.2).Nodup) {found : RowId × Record}
    (member : found ∈ records) : (records.filter fun record => record.1 ≠ found.1)
      = records.filter fun record => key record.2 ≠ key found.2 := by
  refine List.filter_congr fun record listed => decide_eq_decide.mpr (not_congr ⟨?_, ?_⟩)
  · intro same
    rw [List.inj_on_of_nodup_map rowIds listed member same]
  · intro same
    rw [List.inj_on_of_nodup_map keys listed member same]

/-- Removing the first row with the name removes the name. -/
theorem filter_found (mapped : Mapped storage mappings) {found : RowId × Mapping}
    (isFound : mappings.find? (fun mapping => mapping.2.1 == name) = some found) :
    (mappings.filter fun mapping => mapping.1 ≠ found.1)
      = mappings.filter fun mapping => mapping.2.1 ≠ name := by
  have isName : found.2.1 = name := by simpa using List.find?_some isFound
  rw [filter_key Prod.fst mapped.rowIds mapped.names (List.mem_of_find?_eq_some isFound), isName]

theorem asRows_filter {Record : Type} (encode : Record → Bytes) (records : List (RowId × Record))
    (rowId : RowId) : (asRows encode records).filter (fun row => row.rowId ≠ rowId)
      = asRows encode (records.filter fun record => record.1 ≠ rowId) := by
  rw [asRows, List.filter_map]
  rfl

/-- The mapping table without a name. -/
theorem Mapped.filter (mapped : Mapped storage mappings) (keep : RowId × Mapping → Bool)
    (rows : storage'.files diskTableMappingFileId = some (asRows mappingRow (mappings.filter keep))) :
    Mapped storage' (mappings.filter keep) where
  rows := rows
  short mapping member := mapped.short mapping (List.mem_of_mem_filter member)
  rowIds := mapped.rowIds.sublist (List.filter_sublist.map _)
  names := mapped.names.sublist (List.filter_sublist.map _)
  notMapping mapping member := mapped.notMapping mapping (List.mem_of_mem_filter member)

/-- The mapping table without some of its rows. -/
theorem Listed.filter (listed : Listed storage mappings) (keep : RowId × Mapping → Bool)
    (rows : storage'.files diskTableMappingFileId = some (asRows mappingRow (mappings.filter keep))) :
    Listed storage' (mappings.filter keep) where
  rows := rows
  short mapping member := listed.short mapping (List.mem_of_mem_filter member)
  rowIds := listed.rowIds.sublist (List.filter_sublist.map _)
  notMapping mapping member := listed.notMapping mapping (List.mem_of_mem_filter member)

/-- **`DeleteTable`** of a name that is there removes its first row and the file of that row, and
nothing else. -/
theorem deleteTable_listed (listed : Listed storage mappings) {row : RowId × Mapping}
    (isRow : mappings.find? (fun mapping => mapping.2.1 == name) = some row) :
    ∃ storage', deleteTable name storage = (.ok true, storage') ∧
      Listed storage' (mappings.filter fun mapping => mapping.1 ≠ row.1) ∧
      storage'.registry = storage.registry ∧ storage'.tables = storage.tables ∧
      storage'.nextTable = storage.nextTable ∧
      (∀ other, other ≠ diskTableMappingFileId → storage'.files other
        = Function.update storage.files row.2.2 none other) := by
  have found : fileOf mappings name = some row.2.2 := by
    rw [fileOf, isRow]
    rfl
  have member := List.mem_of_find?_eq_some isRow
  have notMapping : row.2.2 ≠ diskTableMappingFileId := listed.notMapping row member
  have deleted : (Function.update storage.files row.2.2 none) diskTableMappingFileId
      = some (asRows mappingRow mappings) := by
    rw [Function.update_of_ne (Ne.symm notMapping), listed.rows]
  let middle : Storage := { storage with files := Function.update storage.files row.2.2 none }
  have middleListed : Listed middle mappings :=
    ⟨deleted, listed.short, listed.rowIds, listed.notMapping⟩
  have scanned : Storage.scan mappingTable.storage middle
      = (.ok (asRows mappingRow mappings), middle) := Storage.scan_ok deleted
  have first := firstWhere_listed middleListed name
  rw [isRow] at first
  have present : row.1 ∈ (asRows mappingRow mappings).map Row.rowId := by
    rw [asRows_rowIds]
    exact List.mem_map_of_mem member
  have isRows : middle.rowsOf mappingTable.storage = some (asRows mappingRow mappings) := deleted
  have removed := Storage.deleteRow_ok isRows present
  rw [asRows_filter] at removed
  refine ⟨middle.setRows mappingTable.storage
    (asRows mappingRow (mappings.filter fun mapping => mapping.1 ≠ row.1)), ?_, ?_, rfl, rfl, rfl, ?_⟩
  · rw [deleteTable, Call.bind_ok (getFileId_listed listed name), found]
    have run : deleteMapping name middle = (.ok true, middle.setRows mappingTable.storage
        (asRows mappingRow (mappings.filter fun mapping => mapping.1 ≠ row.1))) := by
      rw [deleteMapping, Call.bind_ok scanned, Call.bind_ok (Call.read_ok first middle)]
      exact Call.bind_ok removed _
    have fileGone : deleteFile row.2.2 storage = (.ok (), middle) := rfl
    exact (Call.bind_ok fileGone _).trans (Call.bind_ok run _)
  · refine listed.filter _ ?_
    show Function.update middle.files diskTableMappingFileId _ diskTableMappingFileId = _
    exact Function.update_self ..
  · intro other notZero
    exact Function.update_of_ne notZero ..

/-- `DeleteTable` where each name has one row. -/
theorem deleteTable_mapped (mapped : Mapped storage mappings) {fileId : FileId}
    (found : fileOf mappings name = some fileId) :
    ∃ storage', deleteTable name storage = (.ok true, storage') ∧
      Mapped storage' (mappings.filter fun mapping => mapping.2.1 ≠ name) ∧
      storage'.registry = storage.registry ∧ storage'.tables = storage.tables ∧
      storage'.nextTable = storage.nextTable ∧
      (∀ other, other ≠ diskTableMappingFileId → storage'.files other
        = Function.update storage.files fileId none other) := by
  obtain ⟨row, isRow, rfl⟩ := Option.map_eq_some_iff.mp found
  obtain ⟨storage', run, listed, rest⟩ := deleteTable_listed mapped.listed isRow
  rw [filter_found mapped isRow] at listed
  exact ⟨storage', run, mapped.filter _ listed.rows, rest⟩

/-- A file that was drawn is not the one of the mapping table. -/
theorem Listed.draw (listed : Listed storage mappings) {draw : FileId}
    (notMapping : draw ≠ diskTableMappingFileId) :
    Listed (storage.setRows (.file draw) []) mappings := by
  refine ⟨?_, listed.short, listed.rowIds, listed.notMapping⟩
  show Function.update storage.files draw (some []) diskTableMappingFileId = _
  rw [Function.update_of_ne (Ne.symm notMapping), listed.rows]

/-- A row for it. -/
theorem Listed.insert (listed : Listed storage mappings) {draw : FileId} {place : Placement}
    (notMapping : draw ≠ diskTableMappingFileId) (short : name.length ≤ maxStringLength)
    (newRow : place.rowId ∉ mappings.map Prod.fst) :
    Listed ((storage.setRows (.file draw) []).setRows mappingTable.storage
        (asRows mappingRow (insertAt place.position (place.rowId, (name, draw)) mappings)))
      (insertAt place.position (place.rowId, (name, draw)) mappings) where
  rows := by
    show Function.update (storage.setRows (.file draw) []).files diskTableMappingFileId _
      diskTableMappingFileId = _
    exact Function.update_self ..
  short mapping member := by
    rcases mem_insertAt.mp member with rfl | member
    · exact short
    · exact listed.short mapping member
  rowIds := by
    rw [map_insertAt]
    exact (perm_insertAt _ _ _).nodup_iff.mpr (List.nodup_cons.mpr ⟨newRow, listed.rowIds⟩)
  notMapping mapping member := by
    rcases mem_insertAt.mp member with rfl | member
    · exact notMapping
    · exact listed.notMapping mapping member

/-- A name whose row fits a page is no longer than a string may be. -/
theorem short_of_fits (fits : name.length ≤ 4062) : name.length ≤ maxStringLength :=
  fits.trans (by decide)

/-- **What a `CreateTable` that returned did**: a file that was not there, and a row for it. -/
theorem of_createTable_ok {draw : FileId} {place : Placement} {created : Bool}
    (mapped : Listed storage mappings)
    (run : createTable name draw place storage = (.ok created, storage')) :
    created = true ∧ draw ≠ diskTableMappingFileId ∧ storage.files draw = none ∧
      name.length ≤ 4062 ∧
      place.rowId ∉ mappings.map Prod.fst ∧
      storage' = (storage.setRows (.file draw) []).setRows mappingTable.storage
        (asRows mappingRow (insertAt place.position (place.rowId, (name, draw)) mappings)) := by
  obtain ⟨_, middle, drawn, rest⟩ := Call.of_bind_ok run
  rw [createFile] at drawn
  by_cases blocked : isReservedFileId draw ∨ storage.files draw ≠ none
  · rw [if_pos blocked] at drawn
    cases drawn
  · rw [if_neg blocked] at drawn
    cases drawn
    have notMapping : draw ≠ diskTableMappingFileId := fun same =>
      blocked (Or.inl (beq_iff_eq.mpr same))
    have free : storage.files draw = none := not_not.mp fun taken => blocked (Or.inr taken)
    obtain ⟨saved, middle, saving, rest⟩ := Call.of_bind_ok rest
    obtain ⟨rowId, after, inserted, saving⟩ := Call.of_bind_ok saving
    obtain ⟨_, rows, found, new, rowFits, isStorage⟩ := TableHandle.of_insertRow_ok inserted
    have rowFits : (mappingRow (name, draw)).length ≤ 4062 + 6 := rowFits
    have found : (storage.setRows (.file draw) []).files diskTableMappingFileId = some rows := found
    rw [(mapped.draw notMapping).rows, Option.some.injEq] at found
    subst found
    cases saving
    cases rest
    rw [asRows_rowIds] at new
    refine ⟨rfl, notMapping, free, ?_, new, ?_⟩
    · rw [mappingRow_length] at rowFits
      exact Nat.le_of_add_le_add_right rowFits
    · rw [isStorage, asRows, asRows, map_insertAt]
      rfl

/-- A `CreateTable` with a free file and room for its row returns. -/
theorem createTable_ok {draw : FileId} {place : Placement} (mapped : Mapped storage mappings)
    (notMapping : draw ≠ diskTableMappingFileId) (free : storage.files draw = none)
    (short : name.length ≤ maxStringLength) (newRow : place.rowId ∉ mappings.map Prod.fst)
    (fits : name.length ≤ 4062) :
    createTable name draw place storage = (.ok true,
      (storage.setRows (.file draw) []).setRows mappingTable.storage
        (asRows mappingRow (insertAt place.position (place.rowId, (name, draw)) mappings))) := by
  have drawn : createFile draw storage = (.ok (), storage.setRows (.file draw) []) := by
    rw [createFile, if_neg]
    rintro (reserved | taken)
    · exact notMapping (beq_iff_eq.mp reserved)
    · exact taken free
  have isRows : (storage.setRows (.file draw) []).rowsOf mappingTable.storage
      = some (asRows mappingRow mappings) := (mapped.listed.draw notMapping).rows
  have matching : Matches mappingTable.schema [.string name, .u32 draw] := matches_mapping short draw
  have newId : place.rowId ∉ (asRows mappingRow mappings).map Row.rowId := by
    rwa [asRows_rowIds]
  have rowFits : Storage.Fits mappingTable.storage (mappingRow (name, draw)) := by
    show (mappingRow (name, draw)).length ≤ 4068
    rw [mappingRow_length]
    exact Nat.add_le_add_right fits 6
  have inserted := TableHandle.insertRow_ok matching isRows newId rowFits
  have saved : saveMapping name draw place (storage.setRows (.file draw) [])
      = (.ok true, _) := Call.bind_ok inserted _
  rw [createTable, Call.bind_ok drawn, Call.bind_ok saved, asRows, asRows, map_insertAt]
  rfl

theorem fileOf_insertAt (mappings : List (RowId × Mapping)) (position : Nat) (rowId : RowId)
    (new : Mapping) (absent : fileOf mappings new.1 = none) :
    fileOf (insertAt position (rowId, new) mappings)
      = Function.update (fileOf mappings) new.1 (some new.2) := by
  funext name
  rw [fileOf_eq_none] at absent
  have before : ∀ mapping ∈ mappings.take position, mapping.2.1 ≠ new.1 := fun mapping member same =>
    absent (List.mem_map.mpr ⟨mapping, List.mem_of_mem_take member, same⟩)
  unfold fileOf insertAt
  rw [List.find?_append]
  by_cases same : name = new.1
  · subst same
    have none_ : (mappings.take position).find? (fun mapping => mapping.2.1 == new.1) = none :=
      List.find?_eq_none.mpr fun mapping member => by simpa using before mapping member
    rw [none_, Option.none_or, List.find?_cons_of_pos (by simp), Function.update_self,
      Option.map_some]
  · rw [List.find?_cons_of_neg (by simpa using Ne.symm same), Function.update_of_ne same,
      ← List.find?_append, List.take_append_drop]

/-- The row of a new name. -/
theorem Mapped.insert (mapped : Mapped storage mappings) {draw : FileId} {place : Placement}
    (notMapping : draw ≠ diskTableMappingFileId) (short : name.length ≤ maxStringLength)
    (newRow : place.rowId ∉ mappings.map Prod.fst) (newName : fileOf mappings name = none) :
    Mapped ((storage.setRows (.file draw) []).setRows mappingTable.storage
        (asRows mappingRow (insertAt place.position (place.rowId, (name, draw)) mappings)))
      (insertAt place.position (place.rowId, (name, draw)) mappings) := by
  have listed := mapped.listed.insert notMapping short newRow
  refine ⟨listed.rows, listed.short, listed.rowIds, ?_, listed.notMapping⟩
  rw [map_insertAt]
  exact (perm_insertAt _ _ _).nodup_iff.mpr
    (List.nodup_cons.mpr ⟨fileOf_eq_none.mp newName, mapped.names⟩)

theorem fileOf_filter (mappings : List (RowId × Mapping)) (name : Bytes) :
    fileOf (mappings.filter fun mapping => mapping.2.1 ≠ name)
      = Function.update (fileOf mappings) name none := by
  funext other
  by_cases same : other = name
  · rw [same, Function.update_self, fileOf_eq_none]
    intro member
    obtain ⟨mapping, kept, isName⟩ := List.mem_map.mp member
    exact of_decide_eq_true (List.mem_filter.mp kept).2 isName
  · rw [Function.update_of_ne same, fileOf, fileOf, List.find?_filter]
    refine congrArg (fun test => (mappings.find? test).map fun mapping => mapping.2.2)
      (funext fun mapping => ?_)
    by_cases isOther : mapping.2.1 = other
    · simp [isOther, same]
    · simp [isOther]

/-- One row of a name is gone; every other name has the file it had, or another one. -/
theorem fileOf_filter_rowId (rowIds : (mappings.map Prod.fst).Nodup) {row : RowId × Mapping}
    (isRow : mappings.find? (fun mapping => mapping.2.1 == name) = some row)
    (different : other ≠ name) (found : fileOf mappings other ≠ none) :
    fileOf (mappings.filter fun mapping => mapping.1 ≠ row.1) other ≠ none := by
  obtain ⟨fileId, isFile⟩ := Option.ne_none_iff_exists'.mp found
  obtain ⟨mapping, isMapping, _⟩ := Option.map_eq_some_iff.mp isFile
  have member := List.mem_of_find?_eq_some isMapping
  have isName : mapping.2.1 = other := by simpa using List.find?_some isMapping
  rw [Ne, fileOf_eq_none, not_not]
  refine List.mem_map.mpr ⟨mapping, List.mem_filter.mpr ⟨member, decide_eq_true ?_⟩, isName⟩
  intro same
  have isThis := List.inj_on_of_nodup_map rowIds member (List.mem_of_find?_eq_some isRow) same
  have foundName : row.2.1 = name := by simpa using List.find?_some isRow
  exact different (by rw [← isName, isThis, foundName])

/-! ### Both factories at once -/

theorem mapped_empty : Mapped (openMappingTable Storage.empty) [] := mapped_new rfl

end DiskTableFactory

inductive FactoryOp
  | tableExists (name : Bytes)
  | createTable (name : Bytes) (draw : FileId) (place : Placement)
  | getTable (name : Bytes)
  | deleteTable (name : Bytes)

namespace Factories

/-- The answer of the disk factory; of a table, whether there is one. -/
def onDisk : FactoryOp → Call Bool
  | .tableExists name => DiskTableFactory.tableExists name
  | .createTable name draw place => DiskTableFactory.createTable name draw place
  | .getTable name => do return (← DiskTableFactory.getTable name).isSome
  | .deleteTable name => DiskTableFactory.deleteTable name

/-- The answer of the factory of ephemeral tables. -/
def inMemory : FactoryOp → Call Bool
  | .tableExists name => fun storage => (.ok (EphemeralTableFactory.tableExists storage name), storage)
  | .createTable name _ _ => EphemeralTableFactory.createTable name
  | .getTable name => fun storage =>
      (.ok (EphemeralTableFactory.getTable storage name).isSome, storage)
  | .deleteTable name => EphemeralTableFactory.deleteTable name

abbrev Answer := Except CallFailure Bool × Except CallFailure Bool

/-- The disk factory works on the files of the storage, the other one on its registry. -/
def step (storage : Storage) (op : FactoryOp) : Answer × Storage :=
  let disk := onDisk op storage
  let memory := inMemory op disk.2
  ((disk.1, memory.1), memory.2)

def machine : Machine Storage FactoryOp Answer := ⟨step⟩

/-- Both factories on an empty directory. -/
def initial : Storage := DiskTableFactory.openMappingTable .empty

/-- Both return the same. -/
def Agrees (storage : Storage) (op : FactoryOp) : Prop :=
  ∃ answer, machine.answer storage op = (.ok answer, .ok answer)

/-- A name that was created again is refused and nothing changes, and a name that was deleted is
gone. -/
def KeepsContract (storage : Storage) (op : FactoryOp) : Prop :=
  match op with
  | .createTable name _ _ => (onDisk (.tableExists name) storage).1 = .ok true →
      machine.answer storage op = (.ok false, .ok false) ∧ machine.next storage op = storage
  | .deleteTable name => machine.answer storage op = (.ok true, .ok true) →
      machine.answer (machine.next storage op) (.tableExists name) = (.ok false, .ok false)
  | _ => True

/-- Every name has at most one row in the mapping table. -/
def OneEntry (storage : Storage) : Prop :=
  ∃ mappings, storage.files diskTableMappingFileId
      = some (asRows DiskTableFactory.mappingRow mappings) ∧
    (mappings.map fun mapping => mapping.2.1).Nodup

/-- The disk hands out a file that is not there, and the mapping table a row id that is not. -/
def DiskServes (storage : Storage) : FactoryOp → Prop
  | .createTable _ draw place => draw ≠ diskTableMappingFileId ∧ storage.files draw = none ∧
      ∀ rows ∈ storage.files diskTableMappingFileId, place.rowId ∉ rows.map Row.rowId
  | _ => True

/-- The name is new, and fits a page with its file id. -/
def CreatesNew (storage : Storage) : FactoryOp → Prop
  | .createTable name _ _ => storage.registry name = none ∧ name.length ≤ 4062
  | _ => True

instance (storage : Storage) : DecidablePred (DiskServes storage)
  | .createTable _ _ _ => inferInstanceAs (Decidable (_ ∧ _ ∧ _))
  | .tableExists _ | .getTable _ | .deleteTable _ => .isTrue trivial

instance (storage : Storage) : DecidablePred (CreatesNew storage)
  | .createTable _ _ _ => inferInstanceAs (Decidable (_ ∧ _))
  | .tableExists _ | .getTable _ | .deleteTable _ => .isTrue trivial

/-- The names of the mapping table are those of the registry. -/
structure SameNames (storage : Storage) (mappings : List (RowId × Mapping)) : Prop where
  mapped : DiskTableFactory.Mapped storage mappings
  same : ∀ name, (DiskTableFactory.fileOf mappings name).isSome = (storage.registry name).isSome

variable {storage : Storage} {mappings : List (RowId × Mapping)}

theorem ran {op : FactoryOp} {answer : Answer} {storage' : Storage}
    (run : step storage op = (answer, storage')) :
    machine.answer storage op = answer ∧ machine.next storage op = storage' :=
  ⟨congrArg Prod.fst run, congrArg Prod.snd run⟩

theorem SameNames.tableExists (names : SameNames storage mappings) (name : Bytes) :
    DiskTableFactory.tableExists name storage
      = (.ok (storage.registry name).isSome, storage) := by
  rw [DiskTableFactory.tableExists,
    Call.bind_ok (DiskTableFactory.getFileId_mapped names.mapped name), names.same]
  rfl

theorem SameNames.step_tableExists (names : SameNames storage mappings) (name : Bytes) :
    step storage (.tableExists name)
      = ((.ok (storage.registry name).isSome, .ok (storage.registry name).isSome), storage) := by
  rw [step, onDisk, names.tableExists]
  rfl

theorem SameNames.step_getTable (names : SameNames storage mappings) (name : Bytes) :
    step storage (.getTable name)
      = ((.ok (storage.registry name).isSome, .ok (storage.registry name).isSome), storage) := by
  have found := DiskTableFactory.getFileId_mapped names.mapped name
  have got : DiskTableFactory.getTable name storage
      = (.ok ((DiskTableFactory.fileOf mappings name).map .file), storage) :=
    Call.bind_ok found _
  have disk : onDisk (.getTable name) storage = (.ok (storage.registry name).isSome, storage) := by
    rw [onDisk, Call.bind_ok got, ← names.same]
    cases DiskTableFactory.fileOf mappings name <;> rfl
  rw [step, disk]
  show ((_, Except.ok ((storage.registry name).map TableRef.memory).isSome), storage) = _
  rw [Option.isSome_map]

/-- Both maps get another value for the name, or none. -/
theorem isSome_update {First Second : Type} {first : Bytes → Option First}
    {second : Bytes → Option Second} (same : ∀ name, (first name).isSome = (second name).isSome)
    {value : Option First} {value' : Option Second} (alike : value.isSome = value'.isSome)
    (name other : Bytes) : (Function.update first name value other).isSome
      = (Function.update second name value' other).isSome := by
  by_cases isName : other = name
  · rw [isName, Function.update_self, Function.update_self, alike]
  · rw [Function.update_of_ne isName, Function.update_of_ne isName, same]

/-- **A new name** gets a table from both factories. -/
theorem SameNames.create (names : SameNames storage mappings) {name : Bytes} {draw : FileId}
    {place : Placement} (serves : DiskServes storage (.createTable name draw place))
    (new : CreatesNew storage (.createTable name draw place)) :
    ∃ created, step storage (.createTable name draw place) = ((.ok true, .ok true), created) ∧
      SameNames created (insertAt place.position (place.rowId, (name, draw)) mappings) := by
  obtain ⟨notMapping, free, room⟩ := serves
  obtain ⟨unused, fits⟩ := new
  have newName : DiskTableFactory.fileOf mappings name = none := by
    have same := names.same name
    rw [unused] at same
    exact Option.not_isSome_iff_eq_none.mp (by rw [same]; exact Bool.false_ne_true)
  have short := DiskTableFactory.short_of_fits fits
  have newRow := room _ names.mapped.rows
  rw [DiskTableFactory.asRows_rowIds] at newRow
  have disk := DiskTableFactory.createTable_ok names.mapped notMapping free short newRow fits
  have mapped := names.mapped.insert notMapping short newRow newName
  let created := (storage.setRows (.file draw) []).setRows DiskTableFactory.mappingTable.storage
    (asRows DiskTableFactory.mappingRow
      (insertAt place.position (place.rowId, (name, draw)) mappings))
  have memory : EphemeralTableFactory.createTable name created
      = (.ok true, EphemeralTableFactory.withTable created name) := by
    refine if_neg fun isSome => ?_
    have isSome : (storage.registry name).isSome := isSome
    rw [unused] at isSome
    cases isSome
  refine ⟨EphemeralTableFactory.withTable created name, ?_,
    ⟨mapped.rows, mapped.short, mapped.rowIds, mapped.names, mapped.notMapping⟩, fun other => ?_⟩
  · rw [step, onDisk, disk, inMemory, memory]
  · rw [DiskTableFactory.fileOf_insertAt _ _ _ _ newName]
    exact isSome_update names.same rfl name other

theorem SameNames.delete_absent (names : SameNames storage mappings) {name : Bytes}
    (absent : DiskTableFactory.fileOf mappings name = none) :
    step storage (.deleteTable name) = ((.ok false, .ok false), storage) := by
  have same := names.same name
  rw [absent] at same
  have unused : storage.registry name = none :=
    Option.not_isSome_iff_eq_none.mp (by rw [← same]; exact Bool.false_ne_true)
  have disk : onDisk (.deleteTable name) storage = (.ok false, storage) := by
    rw [onDisk, DiskTableFactory.deleteTable,
      Call.bind_ok (DiskTableFactory.getFileId_mapped names.mapped name), absent]
    rfl
  rw [step, disk, inMemory, EphemeralTableFactory.deleteTable, if_neg (by simp [unused])]

/-- **A name that is there** loses its table in both factories. -/
theorem SameNames.delete (names : SameNames storage mappings) {name : Bytes} {fileId : FileId}
    (found : DiskTableFactory.fileOf mappings name = some fileId) :
    ∃ deleted, step storage (.deleteTable name) = ((.ok true, .ok true), deleted) ∧
      SameNames deleted (mappings.filter fun mapping => mapping.2.1 ≠ name) ∧
      deleted.registry name = none := by
  have same := names.same name
  rw [found] at same
  obtain ⟨storage', disk, mapped, registry, _⟩ :=
    DiskTableFactory.deleteTable_mapped names.mapped found
  refine ⟨{ storage' with registry := Function.update storage'.registry name none }, ?_,
    ⟨⟨mapped.rows, mapped.short, mapped.rowIds, mapped.names, mapped.notMapping⟩, fun other => ?_⟩,
    Function.update_self ..⟩
  · rw [step, onDisk, disk, inMemory, EphemeralTableFactory.deleteTable]
    rw [if_pos (by rw [registry, ← same]; rfl)]
  · rw [DiskTableFactory.fileOf_filter]
    show _ = (Function.update storage'.registry name none other).isSome
    rw [registry]
    exact isSome_update names.same rfl name other

/-- **One step keeps the names the same**, and both factories answer alike. -/
theorem step_agrees (names : SameNames storage mappings) {op : FactoryOp}
    (serves : DiskServes storage op) (new : CreatesNew storage op) :
    Agrees storage op ∧ KeepsContract storage op ∧
      ∃ mappings', SameNames (machine.next storage op) mappings' := by
  cases op with
  | tableExists name =>
      obtain ⟨answer, next⟩ := ran (names.step_tableExists name)
      exact ⟨⟨_, answer⟩, trivial, mappings, next.symm ▸ names⟩
  | getTable name =>
      obtain ⟨answer, next⟩ := ran (names.step_getTable name)
      exact ⟨⟨_, answer⟩, trivial, mappings, next.symm ▸ names⟩
  | createTable name draw place =>
      obtain ⟨created, run, names'⟩ := names.create serves new
      obtain ⟨answer, next⟩ := ran run
      refine ⟨⟨true, answer⟩, fun exists_ => ?_, _, next.symm ▸ names'⟩
      have absent := names.tableExists name
      rw [new.1] at absent
      rw [onDisk, absent] at exists_
      cases exists_
  | deleteTable name =>
      cases found : DiskTableFactory.fileOf mappings name with
      | none =>
          obtain ⟨answer, next⟩ := ran (names.delete_absent found)
          refine ⟨⟨false, answer⟩, fun deleted => ?_, mappings, next.symm ▸ names⟩
          rw [answer] at deleted
          cases deleted
      | some fileId =>
          obtain ⟨deleted, run, names', gone⟩ := names.delete found
          obtain ⟨answer, next⟩ := ran run
          refine ⟨⟨true, answer⟩, fun _ => ?_, _, next.symm ▸ names'⟩
          have lacks := names'.step_tableExists name
          rw [gone] at lacks
          rw [next]
          exact (ran lacks).1

/-- **A name that is there, or that fits no page, is created by at most one of them.** -/
theorem createsNew_of_agrees (names : SameNames storage mappings) {op : FactoryOp}
    (agrees : Agrees storage op) : CreatesNew storage op := by
  cases op with
  | createTable name draw place =>
      obtain ⟨answer, same⟩ := agrees
      have disk : (DiskTableFactory.createTable name draw place storage).1 = .ok answer :=
        congrArg Prod.fst same
      have memory : (EphemeralTableFactory.createTable name
          (DiskTableFactory.createTable name draw place storage).2).1 = .ok answer :=
        congrArg Prod.snd same
      cases run : DiskTableFactory.createTable name draw place storage with
      | mk outcome storage' =>
          rw [run] at disk memory
          cases disk
          obtain ⟨rfl, _, _, fits, _, rfl⟩ :=
            DiskTableFactory.of_createTable_ok names.mapped.listed run
          refine ⟨?_, fits⟩
          by_contra used
          have isSome : (storage.registry name).isSome := Option.isSome_iff_ne_none.mpr used
          have refused : ∀ created : Storage, created.registry = storage.registry →
              (EphemeralTableFactory.createTable name created).1 = .ok false := by
            intro created same
            rw [EphemeralTableFactory.createTable, same, if_pos isSome]
          cases memory.symm.trans (refused _ rfl)
  | tableExists name => trivial
  | getTable name => trivial
  | deleteTable name => trivial

theorem sameNames_initial : SameNames initial [] := ⟨DiskTableFactory.mapped_empty, fun _ => rfl⟩

/-- **The two factories implement one contract exactly in the runs** that create new names only,
which fit a page with their file id. -/
theorem factories_agree_iff (ops : List FactoryOp)
    (serves : machine.Along DiskServes initial ops) :
    machine.Along (fun storage op => Agrees storage op ∧ KeepsContract storage op) initial ops ∧
        machine.Always OneEntry initial ops ↔
      machine.Along CreatesNew initial ops := by
  have keeps : ∀ storage op, (∃ mappings, SameNames storage mappings) → DiskServes storage op →
      CreatesNew storage op → ∃ mappings, SameNames (machine.next storage op) mappings := by
    rintro storage op ⟨mappings, names⟩ serves new
    exact (step_agrees names serves new).2.2
  have exactly : machine.Along (fun storage op => Agrees storage op ∧ KeepsContract storage op)
      initial ops ↔ machine.Along CreatesNew initial ops := by
    refine Machine.along_iff_along keeps ?_ ⟨_, sameNames_initial⟩ serves
    rintro storage op ⟨mappings, names⟩ serves
    refine ⟨fun both => createsNew_of_agrees names both.1, fun new => ?_⟩
    exact ⟨(step_agrees names serves new).1, (step_agrees names serves new).2.1⟩
  refine ⟨fun both => exactly.mp both.1, fun new => ⟨exactly.mpr new, ?_⟩⟩
  refine (Machine.always_of_step (fun storage op names both => keeps storage op names both.1 both.2)
    ⟨_, sameNames_initial⟩ (serves.and new)).imp ?_
  rintro storage ⟨mappings, names⟩
  exact ⟨mappings, names.mapped.rows, names.mapped.names⟩

/-- A table that is created, found, deleted and created again. -/
def createAgain : List FactoryOp :=
  [.createTable [7] 5 ⟨1, 0⟩, .tableExists [7], .createTable [8] 6 ⟨2, 0⟩, .deleteTable [7],
    .getTable [7], .createTable [7] 5 ⟨1, 0⟩, .getTable [8]]

theorem createAgain_agrees :
    machine.Along (fun storage op => Agrees storage op ∧ KeepsContract storage op) initial
        createAgain ∧
      machine.Always OneEntry initial createAgain :=
  (factories_agree_iff createAgain (by decide +kernel)).mpr (by decide +kernel)

/-- The same name twice. -/
def createTwice : List FactoryOp := [.createTable [7] 5 ⟨1, 0⟩, .createTable [7] 6 ⟨2, 0⟩]

/-- The disk factory creates the table again, and the other one refuses. -/
theorem createTwice_breaks : machine.Along DiskServes initial createTwice ∧
    ¬ machine.Along (fun storage op => Agrees storage op ∧ KeepsContract storage op) initial
      createTwice := by
  refine ⟨by decide +kernel, ?_⟩
  rintro ⟨_, ⟨⟨answer, agrees⟩, _⟩, _⟩
  have disk : (machine.answer (machine.next initial (.createTable [7] 5 ⟨1, 0⟩))
      (.createTable [7] 6 ⟨2, 0⟩)).1.toOption = some true := by decide +kernel
  have memory : (machine.answer (machine.next initial (.createTable [7] 5 ⟨1, 0⟩))
      (.createTable [7] 6 ⟨2, 0⟩)).2.toOption = some false := by decide +kernel
  rw [agrees] at disk memory
  cases disk
  cases memory

end Factories

end Yadb
