/-
**The tables that catalogs and factories work on.**

Each table is a row store: the rows with their ids, in the order in which a scan yields them. A
table in memory lives at an address, and is kept by the handles to it when its name is forgotten; a
disk table is its file. Where an insert puts a row, and under which id, is the store's choice
(`Placement`). `DiskTable.diskTable_refines` is this view of a disk table.

`Call` is a call that changes the storage, also when it throws. `Handle` rows go through `buildRow`,
so a table only ever gets rows of the schema it is written under (`insertRow_data`).
-/

import Yadb.Core.RowReader
import Yadb.Storage.Ephemeral.Table
import Yadb.Storage.Table.Content

namespace Yadb

open Foundation

inductive TableRef
  | memory (address : Nat)
  | file (fileId : FileId)
  deriving DecidableEq

def TableRef.isMemory : TableRef → Bool
  | .memory _ => true
  | .file _ => false

/-- How a call on tables ends when it does not return. -/
inductive CallFailure
  | row (error : RowError)
  | invalidRowId
  | catalogInitialization (what : String)
  | unknownTypeId (attributeName : Bytes) (typeId : Int32)
  /-- A number that is no `TableType`. -/
  | unknownTableType (number : Int32)
  /-- A `std::length_error`. -/
  | lengthError
  /-- A page of a file that is not there. -/
  | getPage (fileId : FileId)
  | createFile (fileId : FileId)
  | unreadable (failure : ReadFailure)
  /-- The row does not fit a page, or its id is taken. -/
  | noRoom
  /-- A signed overflow, or an access outside a vector. -/
  | undefined
  deriving DecidableEq

/-- The failures that are exceptions; the others abort the process, or are undefined. -/
def CallFailure.Throws : CallFailure → Bool
  | .row _ | .invalidRowId | .catalogInitialization _ | .unknownTypeId _ _ | .unknownTableType _
  | .lengthError => true
  | .getPage _ | .createFile _ | .unreadable _ | .noRoom | .undefined => false

/-- `registry` is the map of the factory of ephemeral tables. -/
structure Storage where
  tables : Nat → List Row
  nextTable : Nat
  registry : Bytes → Option Nat
  files : FileId → Option (List Row)

/-- Where a row store puts a row. -/
structure Placement where
  rowId : RowId
  position : Nat

/-- A call on the storage. -/
def Call (Result : Type) := Storage → Except CallFailure Result × Storage

namespace Call

variable {First Second : Type}

instance : Monad Call where
  pure result storage := (.ok result, storage)
  bind first next storage := match first storage with
    | (.ok result, storage) => next result storage
    | (.error failure, storage) => (.error failure, storage)

def fail (failure : CallFailure) : Call First := fun storage => (.error failure, storage)

/-- The call returns and changes the storage. -/
def returning (result : First) (change : Storage → Storage) : Call First := fun storage =>
  (.ok result, change storage)

/-- What a reader gives. -/
def read (result : Except ReadFailure First) : Call First := fun storage =>
  (result.mapError .unreadable, storage)

theorem bind_ok {first : Call First} {storage storage' : Storage} {result : First}
    (run : first storage = (.ok result, storage')) (next : First → Call Second) :
    (first >>= next) storage = next result storage' := by
  show (match first storage with
    | (.ok result, storage) => next result storage
    | (.error failure, storage) => (.error failure, storage)) = _
  rw [run]

theorem bind_error {first : Call First} {storage storage' : Storage} {failure : CallFailure}
    (run : first storage = (.error failure, storage')) (next : First → Call Second) :
    (first >>= next) storage = (.error failure, storage') := by
  show (match first storage with
    | (.ok result, storage) => next result storage
    | (.error failure, storage) => (.error failure, storage)) = _
  rw [run]

/-- What a call that returned went through. -/
theorem of_bind_ok {first : Call First} {next : First → Call Second} {storage final : Storage}
    {result : Second} (run : (first >>= next) storage = (.ok result, final)) :
    ∃ middle storage', first storage = (.ok middle, storage') ∧
      next middle storage' = (.ok result, final) := by
  cases stepped : first storage with
  | mk outcome storage' =>
      cases outcome with
      | error failure =>
          rw [bind_error stepped] at run
          cases run
      | ok middle =>
          rw [bind_ok stepped] at run
          exact ⟨middle, storage', rfl, run⟩

theorem read_ok {result : Except ReadFailure First} {value : First} (ok : result = .ok value)
    (storage : Storage) : read result storage = (.ok value, storage) := by
  rw [read, ok]
  rfl

end Call

/-- The list with an element put at a position, or at the end. -/
def insertAt {Element : Type} (position : Nat) (element : Element) (list : List Element) :
    List Element := list.take position ++ element :: list.drop position

theorem mem_insertAt {Element : Type} {position : Nat} {element other : Element}
    {list : List Element} : other ∈ insertAt position element list ↔ other = element ∨ other ∈ list := by
  rw [insertAt, List.mem_append, List.mem_cons]
  conv_rhs => rw [← List.take_append_drop position list, List.mem_append]
  tauto

theorem perm_insertAt {Element : Type} (position : Nat) (element : Element) (list : List Element) :
    (insertAt position element list).Perm (element :: list) := by
  have moved : (list.take position ++ element :: list.drop position).Perm
      (element :: (list.take position ++ list.drop position)) := List.perm_middle
  rwa [List.take_append_drop] at moved

theorem map_insertAt {Element Image : Type} (f : Element → Image) (position : Nat)
    (element : Element) (list : List Element) :
    (insertAt position element list).map f = insertAt position (f element) (list.map f) := by
  rw [insertAt, List.map_append, List.map_cons, List.map_take, List.map_drop]
  rfl

namespace Storage

def empty : Storage := ⟨fun _ => [], 0, fun _ => none, fun _ => none⟩

/-- The rows of a table, unless its file is gone. -/
def rowsOf (storage : Storage) : TableRef → Option (List Row)
  | .memory address => some (storage.tables address)
  | .file fileId => storage.files fileId

def setRows (storage : Storage) (ref : TableRef) (rows : List Row) : Storage :=
  match ref with
  | .memory address => { storage with tables := Function.update storage.tables address rows }
  | .file fileId => { storage with files := Function.update storage.files fileId (some rows) }

theorem rowsOf_setRows (storage : Storage) (ref : TableRef) (rows : List Row) :
    (storage.setRows ref rows).rowsOf = Function.update storage.rowsOf ref (some rows) := by
  funext other
  cases ref with
  | memory address =>
      cases other with
      | memory address' =>
          by_cases same : address' = address
          · rw [same, Function.update_self]
            exact congrArg some (Function.update_self ..)
          · rw [Function.update_of_ne fun isSame => same (TableRef.memory.inj isSame)]
            exact congrArg some (Function.update_of_ne same ..)
      | file fileId =>
          rw [Function.update_of_ne TableRef.noConfusion]
          rfl
  | file fileId =>
      cases other with
      | memory address =>
          rw [Function.update_of_ne TableRef.noConfusion]
          rfl
      | file fileId' =>
          by_cases same : fileId' = fileId
          · rw [same, Function.update_self]
            exact Function.update_self ..
          · rw [Function.update_of_ne fun isSame => same (TableRef.file.inj isSame)]
            exact Function.update_of_ne same ..

@[simp] theorem registry_setRows (storage : Storage) (ref : TableRef) (rows : List Row) :
    (storage.setRows ref rows).registry = storage.registry := by
  cases ref <;> rfl

@[simp] theorem nextTable_setRows (storage : Storage) (ref : TableRef) (rows : List Row) :
    (storage.setRows ref rows).nextTable = storage.nextTable := by
  cases ref <;> rfl

/-- A scan of a table. -/
def scan (ref : TableRef) : Call (List Row) := fun storage =>
  match storage.rowsOf ref, ref with
  | some rows, _ => (.ok rows, storage)
  | none, .file fileId => (.error (.getPage fileId), storage)
  | none, .memory _ => (.ok [], storage)

/-- A row of a disk table has to fit a page. -/
def Fits (ref : TableRef) (row : Bytes) : Prop :=
  match ref with
  | .memory _ => True
  | .file _ => FitsFreshPage row

instance (ref : TableRef) (row : Bytes) : Decidable (Fits ref row) := by
  cases ref <;> unfold Fits <;> infer_instance

/-- `Table::insert_row`. -/
def insertRow (ref : TableRef) (place : Placement) (row : Bytes) : Call RowId := do
  let rows ← scan ref
  if place.rowId ∈ rows.map Row.rowId ∨ ¬ Fits ref row then Call.fail .noRoom
  else Call.returning place.rowId fun storage =>
    storage.setRows ref (insertAt place.position ⟨place.rowId, row⟩ rows)

/-- `Table::delete_row`; a disk table also takes the id of a row that is gone. -/
def deleteRow (ref : TableRef) (rowId : RowId) : Call Unit := do
  let rows ← scan ref
  if ref.isMemory ∧ rowId ∉ rows.map Row.rowId then Call.fail .invalidRowId
  else Call.returning () fun storage =>
    storage.setRows ref (rows.filter fun row => row.rowId ≠ rowId)

variable {storage storage' : Storage} {ref : TableRef} {rows : List Row}

theorem scan_ok (found : storage.rowsOf ref = some rows) : scan ref storage = (.ok rows, storage) := by
  simp only [scan, found]

theorem of_scan_ok (run : scan ref storage = (.ok rows, storage')) :
    storage.rowsOf ref = some rows ∧ storage' = storage := by
  cases found : storage.rowsOf ref with
  | some rows' =>
      rw [scan_ok found] at run
      cases run
      exact ⟨rfl, rfl⟩
  | none =>
      cases ref with
      | memory address => cases found
      | file fileId =>
          simp only [scan, found] at run
          cases run

/-- An insert with room for the row. -/
theorem insertRow_ok (found : storage.rowsOf ref = some rows) {place : Placement} {row : Bytes}
    (new : place.rowId ∉ rows.map Row.rowId) (fits : Fits ref row) :
    insertRow ref place row storage
      = (.ok place.rowId, storage.setRows ref (insertAt place.position ⟨place.rowId, row⟩ rows)) := by
  rw [insertRow, Call.bind_ok (scan_ok found), if_neg]
  · rfl
  · rintro (taken | tooLong)
    · exact new taken
    · exact tooLong fits

/-- **What an insert that returned did.** -/
theorem of_insertRow_ok {place : Placement} {row : Bytes} {rowId : RowId}
    (run : insertRow ref place row storage = (.ok rowId, storage')) :
    ∃ rows, storage.rowsOf ref = some rows ∧ place.rowId ∉ rows.map Row.rowId ∧ Fits ref row ∧
      rowId = place.rowId ∧
      storage' = storage.setRows ref (insertAt place.position ⟨place.rowId, row⟩ rows) := by
  obtain ⟨rows, middle, scanned, rest⟩ := Call.of_bind_ok run
  obtain ⟨found, rfl⟩ := of_scan_ok scanned
  by_cases blocked : place.rowId ∈ rows.map Row.rowId ∨ ¬ Fits ref row
  · rw [if_pos blocked] at rest
    cases rest
  · rw [if_neg blocked] at rest
    cases rest
    exact ⟨rows, found, fun taken => blocked (Or.inl taken),
      not_not.mp fun tooLong => blocked (Or.inr tooLong), rfl, rfl⟩

/-- A delete of a row that is there. -/
theorem deleteRow_ok (found : storage.rowsOf ref = some rows) {rowId : RowId}
    (present : rowId ∈ rows.map Row.rowId) : deleteRow ref rowId storage
      = (.ok (), storage.setRows ref (rows.filter fun row => row.rowId ≠ rowId)) := by
  rw [deleteRow, Call.bind_ok (scan_ok found), if_neg fun absent => absent.2 present]
  rfl

/-- **What a delete that returned did.** -/
theorem of_deleteRow_ok {rowId : RowId} (run : deleteRow ref rowId storage = (.ok (), storage')) :
    ∃ rows, storage.rowsOf ref = some rows ∧
      storage' = storage.setRows ref (rows.filter fun row => row.rowId ≠ rowId) := by
  obtain ⟨rows, middle, scanned, rest⟩ := Call.of_bind_ok run
  obtain ⟨found, rfl⟩ := of_scan_ok scanned
  refine ⟨rows, found, ?_⟩
  by_cases absent : ref.isMemory ∧ rowId ∉ rows.map Row.rowId
  · rw [if_pos absent] at rest
    cases rest
  · rw [if_neg absent] at rest
    cases rest
    rfl

/-- A scan changes nothing. -/
theorem scan_storage (ref : TableRef) (storage : Storage) : (scan ref storage).2 = storage := by
  cases found : storage.rowsOf ref <;> cases ref <;> simp only [scan, found]

/-- A call that scans first and fails, when it can only fail before it changes anything. -/
theorem of_scan_error {Result : Type} {next : List Row → Call Result} {failure : CallFailure}
    (unmoved : ∀ rows failure storage', next rows storage = (.error failure, storage') →
      storage' = storage)
    (run : (scan ref >>= next) storage = (.error failure, storage')) : storage' = storage := by
  cases scanned : scan ref storage with
  | mk outcome middle =>
      have same : middle = storage := by
        rw [← scan_storage ref storage, scanned]
      cases outcome with
      | error failure =>
          rw [Call.bind_error scanned] at run
          cases run
          exact same
      | ok rows =>
          rw [Call.bind_ok scanned, same] at run
          exact unmoved rows failure storage' run

theorem insertRow_error {place : Placement} {row : Bytes} {failure : CallFailure}
    (run : insertRow ref place row storage = (.error failure, storage')) : storage' = storage := by
  refine of_scan_error (fun rows failure storage' next => ?_) run
  by_cases blocked : place.rowId ∈ rows.map Row.rowId ∨ ¬ Fits ref row
  · rw [if_pos blocked] at next
    cases next
    rfl
  · rw [if_neg blocked] at next
    cases next

theorem deleteRow_error {rowId : RowId} {failure : CallFailure}
    (run : deleteRow ref rowId storage = (.error failure, storage')) : storage' = storage := by
  refine of_scan_error (fun rows failure storage' next => ?_) run
  by_cases absent : ref.isMemory ∧ rowId ∉ rows.map Row.rowId
  · rw [if_pos absent] at next
    cases next
    rfl
  · rw [if_neg absent] at next
    cases next

end Storage

/-! ### Handles -/

structure TableHandle where
  storage : TableRef
  schema : Schema
  deriving DecidableEq

namespace TableHandle

/-- `BuildRow`, inside a call. -/
def buildRow (handle : TableHandle) (values : List Value) : Call Bytes := fun storage =>
  match Yadb.buildRow handle.schema values with
  | .error error => (.error (.row error), storage)
  | .ok builder => (.ok builder.data, storage)

def insertRow (handle : TableHandle) (values : List Value) (place : Placement) : Call RowId := do
  let row ← handle.buildRow values
  Storage.insertRow handle.storage place row

def deleteRow (handle : TableHandle) (rowId : RowId) : Call Unit :=
  Storage.deleteRow handle.storage rowId

/-- `update_row` of a handle builds the row before the table deletes the old one. -/
def updateRow (handle : TableHandle) (rowId : RowId) (values : List Value) (place : Placement) :
    Call RowId := do
  let row ← handle.buildRow values
  Storage.deleteRow handle.storage rowId
  Storage.insertRow handle.storage place row

variable {handle : TableHandle} {values : List Value} {storage storage' : Storage}

theorem buildRow_ok (matching : Matches handle.schema values) (storage : Storage) :
    handle.buildRow values storage = (.ok (rowCode.encodeAll values), storage) := by
  obtain ⟨built, run, data⟩ := Yadb.buildRow_ok matching
  simp only [buildRow, run, data]

theorem buildRow_throws (mismatch : ¬ Matches handle.schema values) (storage : Storage) :
    ∃ error, handle.buildRow values storage = (.error (.row error), storage) := by
  cases run : Yadb.buildRow handle.schema values with
  | ok built => exact absurd (matches_of_buildRow run) mismatch
  | error error =>
      refine ⟨error, ?_⟩
      rw [buildRow, run]

theorem of_buildRow_ok {row : Bytes} (run : handle.buildRow values storage = (.ok row, storage')) :
    Matches handle.schema values ∧ row = rowCode.encodeAll values ∧ storage' = storage := by
  by_cases matching : Matches handle.schema values
  · rw [buildRow_ok matching] at run
    cases run
    exact ⟨matching, rfl, rfl⟩
  · obtain ⟨error, failed⟩ := buildRow_throws matching storage
    rw [failed] at run
    cases run

/-- **What an insert that returned did.** -/
theorem of_insertRow_ok {place : Placement} {rowId : RowId}
    (run : handle.insertRow values place storage = (.ok rowId, storage')) :
    Matches handle.schema values ∧ ∃ rows, storage.rowsOf handle.storage = some rows ∧
      place.rowId ∉ rows.map Row.rowId ∧ Storage.Fits handle.storage (rowCode.encodeAll values) ∧
      storage' = storage.setRows handle.storage
        (insertAt place.position ⟨place.rowId, rowCode.encodeAll values⟩ rows) := by
  obtain ⟨row, middle, built, rest⟩ := Call.of_bind_ok run
  obtain ⟨matching, rfl, rfl⟩ := of_buildRow_ok built
  obtain ⟨rows, found, new, fits, _, isStorage⟩ := Storage.of_insertRow_ok rest
  exact ⟨matching, rows, found, new, fits, isStorage⟩

theorem insertRow_ok (matching : Matches handle.schema values) {rows : List Row}
    (found : storage.rowsOf handle.storage = some rows) {place : Placement}
    (new : place.rowId ∉ rows.map Row.rowId)
    (fits : Storage.Fits handle.storage (rowCode.encodeAll values)) :
    handle.insertRow values place storage = (.ok place.rowId, storage.setRows handle.storage
      (insertAt place.position ⟨place.rowId, rowCode.encodeAll values⟩ rows)) := by
  rw [insertRow, Call.bind_ok (buildRow_ok matching storage)]
  exact Storage.insertRow_ok found new fits

/-- An insert that fails changes nothing. -/
theorem insertRow_error {place : Placement} {failure : CallFailure}
    (run : handle.insertRow values place storage = (.error failure, storage')) :
    storage' = storage := by
  by_cases matching : Matches handle.schema values
  · rw [insertRow, Call.bind_ok (buildRow_ok matching storage)] at run
    exact Storage.insertRow_error run
  · obtain ⟨error, failed⟩ := buildRow_throws matching storage
    rw [insertRow, Call.bind_error failed] at run
    cases run
    rfl

theorem insertRow_throws (mismatch : ¬ Matches handle.schema values) (place : Placement)
    (storage : Storage) :
    ∃ error, handle.insertRow values place storage = (.error (.row error), storage) := by
  obtain ⟨error, failed⟩ := buildRow_throws mismatch storage
  exact ⟨error, Call.bind_error failed _⟩

end TableHandle

/-! ### Loops over the rows of a table -/

/-- The first row that passes a test. -/
def firstWhere (test : Bytes → Except ReadFailure Bool) : List Row → Except ReadFailure (Option Row)
  | [] => .ok none
  | row :: rows => do
      if ← test row.data then return some row else firstWhere test rows

/-- The rows that pass a test. -/
def allWhere (test : Bytes → Except ReadFailure Bool) : List Row → Except ReadFailure (List Row)
  | [] => .ok []
  | row :: rows => do
      let passes ← test row.data
      let rest ← allWhere test rows
      return if passes then row :: rest else rest

/-- The rows of some records. -/
def asRows {Record : Type} (encode : Record → Bytes) (records : List (RowId × Record)) : List Row :=
  records.map fun record => ⟨record.1, encode record.2⟩

section Records

variable {Record : Type} {encode : Record → Bytes} {records : List (RowId × Record)}
  {test : Bytes → Except ReadFailure Bool}

theorem firstWhere_asRows (passes : Record → Bool)
    (reads : ∀ record ∈ records, test (encode record.2) = .ok (passes record.2)) :
    firstWhere test (asRows encode records)
      = .ok ((records.find? fun record => passes record.2).map fun record =>
          ⟨record.1, encode record.2⟩) := by
  induction records with
  | nil => rfl
  | cons record records ih =>
      have rest := ih fun other member => reads other (List.mem_cons_of_mem record member)
      show (test (encode record.2) >>= fun passes =>
        if passes then pure (some ⟨record.1, encode record.2⟩)
        else firstWhere test (asRows encode records)) = _
      rw [bind_of_ok (reads record List.mem_cons_self)]
      by_cases pass : passes record.2 = true
      · rw [if_pos pass, List.find?_cons_of_pos (p := fun record : RowId × Record =>
          passes record.2) pass]
        rfl
      · rw [if_neg pass, List.find?_cons_of_neg (p := fun record : RowId × Record =>
          passes record.2) pass, rest]

theorem allWhere_asRows (passes : Record → Bool)
    (reads : ∀ record ∈ records, test (encode record.2) = .ok (passes record.2)) :
    allWhere test (asRows encode records)
      = .ok (asRows encode (records.filter fun record => passes record.2)) := by
  induction records with
  | nil => rfl
  | cons record records ih =>
      have rest := ih fun other member => reads other (List.mem_cons_of_mem record member)
      show (test (encode record.2) >>= fun passes => allWhere test (asRows encode records) >>=
        fun rest => pure (if passes then ⟨record.1, encode record.2⟩ :: rest else rest)) = _
      rw [bind_of_ok (reads record List.mem_cons_self), bind_of_ok rest]
      by_cases pass : passes record.2 = true
      · rw [if_pos pass, List.filter_cons_of_pos (p := fun record : RowId × Record =>
          passes record.2) pass]
        rfl
      · rw [if_neg pass, List.filter_cons_of_neg (p := fun record : RowId × Record =>
          passes record.2) pass]
        rfl

end Records

end Yadb
