/-
**Tables in memory and on disk, and the storage they are.**

Catalogs, factories and the executor work on a `Storage`, where a row store puts a row wherever it
likes. `TableSpace` has the tables themselves: those in memory by their addresses, and the pages of
the files, on which a call is a program (`RowCall.program`).

* `Storage.Step`: a call on the storage, or a process that starts and finds the tables in memory
  empty.
* `Backs`: the tables have the rows of the storage, in the same order.
* `memory_refines`, `disk_refines`: a call on a table is a step of the storage, and on disk it asks
  for at most two pages at a time.
-/

import Yadb.Storage.Ephemeral.Order
import Yadb.Storage.RowOrder
import Yadb.Storage.Table.Programs
import Yadb.Table.Openable

namespace Yadb

open Foundation

/-! ### Calls -/

inductive RowCall
  /-- A new table. Its file gets a root page. -/
  | create (fresh : FreshPage)
  | change (op : TableOp)
  | scan

inductive RowReply
  | done
  | rowId (rowId : RowId)
  | rows (rows : List Row)
  | throws
  /-- The process aborts. -/
  | stopped

inductive StorageEvent
  /-- A process starts. -/
  | start
  | call (ref : TableRef) (call : RowCall)

namespace Storage

/-- What a factory does for a new table, its name apart. -/
def newTable (ref : TableRef) : Call Unit := fun storage =>
  match ref with
  | .memory _ => (.ok (), storage.setRows ref [])
  | .file fileId =>
      if storage.files fileId = none then (.ok (), storage.setRows ref [])
      else (.error (.createFile fileId), storage)

def perform (place : Placement) (ref : TableRef) : RowCall → Call RowReply
  | .create _ => do
      newTable ref
      return .done
  | .change (.insertRow row _) => do
      let rowId ← insertRow ref place row
      return .rowId rowId
  | .change (.updateRow old row _) => do
      deleteRow ref old
      let rowId ← insertRow ref place row
      return .rowId rowId
  | .change (.deleteRow old) => do
      deleteRow ref old
      return .done
  | .scan => do
      let rows ← scan ref
      return .rows rows

def reply : Except CallFailure RowReply → RowReply
  | .ok reply => reply
  | .error failure => if failure.Throws then .throws else .stopped

/-- **A step of the storage**, wherever it puts a row. -/
inductive Step (storage : Storage) : StorageEvent → RowReply → Storage → Prop
  | start : Step storage .start .done (TableManager.reboot storage)
  | call (place : Placement) {ref : TableRef} {call : RowCall}
      {outcome : Except CallFailure RowReply} {storage' : Storage} :
      perform place ref call storage = (outcome, storage') →
      Step storage (.call ref call) (reply outcome) storage'

end Storage

/-! ### The tables -/

/-- In memory there is no page to hand out. -/
def TableOp.inMemory : TableOp → EphemeralOp
  | insertRow row _ => .insertRow row
  | updateRow rowId row _ => .updateRow rowId row
  | deleteRow rowId => .deleteRow rowId

def EphemeralTable.serve (table : EphemeralTable) : RowCall → RowReply × EphemeralTable
  | .create _ => (.done, .empty)
  | .scan => (.rows table.scan, table)
  | .change op =>
      match table.perform op.inMemory with
      | (.ok (some rowId), table) => (.rowId rowId, table)
      | (.ok none, table) => (.done, table)
      | (.error _, table) => (.throws, table)

section Serve

variable {table middle : EphemeralTable} {old : RowId} {row : List UInt8}

theorem EphemeralTable.serve_updateRow (deleted : table.deleteRow old = .ok middle)
    {fresh : FreshPage} : table.serve (.change (.updateRow old row fresh))
      = (.rowId (middle.insertRow row).1, (middle.insertRow row).2) := by
  simp only [serve, TableOp.inMemory, perform, call, updateRow, deleted]
  rfl

theorem EphemeralTable.serve_deleteRow (deleted : table.deleteRow old = .ok middle) :
    table.serve (.change (.deleteRow old)) = (.done, middle) := by
  simp only [serve, TableOp.inMemory, perform, call, deleted]
  rfl

theorem EphemeralTable.serve_updateRow_dead (dead : table.tableData.find old = none)
    {fresh : FreshPage} : table.serve (.change (.updateRow old row fresh)) = (.throws, table) := by
  simp only [serve, TableOp.inMemory, perform, call, updateRow, deleteRow_dead dead]
  rfl

theorem EphemeralTable.serve_deleteRow_dead (dead : table.tableData.find old = none) :
    table.serve (.change (.deleteRow old)) = (.throws, table) := by
  simp only [serve, TableOp.inMemory, perform, call, deleteRow_dead dead]
  rfl

end Serve

namespace RowCall

/-- `create` is `CreateTableFile` with a file id. -/
def program (fileId : FileId) : RowCall → PageProgram RowReply
  | create fresh => do
      PageProgram.createFile fileId
      PageProgram.initTableRootPage fileId fresh
      return .done
  | change (.insertRow row fresh) => do
      let rowId ← PageProgram.insertRow fileId row fresh
      return .rowId rowId
  | change (.updateRow old row fresh) => do
      let rowId ← PageProgram.updateRow fileId old row fresh
      return .rowId rowId
  | change (.deleteRow old) => do
      PageProgram.deleteRow fileId old
      return .done
  | scan => do
      let rows ← PageProgram.scan fileId
      return .rows rows

end RowCall

structure TableSpace where
  memory : Nat → EphemeralTable
  disk : PageStore

namespace TableSpace

/-- A new disk. -/
def empty : TableSpace := ⟨fun _ => .empty, System.emptyStore⟩

def step (space : TableSpace) : StorageEvent → RowReply × TableSpace
  | .start => (.done, { space with memory := fun _ => .empty })
  | .call (.memory address) call =>
      let (reply, table) := (space.memory address).serve call
      (reply, { space with memory := Function.update space.memory address table })
  | .call (.file fileId) call =>
      match (call.program fileId).run onStore ⟨space.disk, []⟩ with
      | .ok (reply, client) => (reply, { space with disk := client.store })
      | .error _ => (.stopped, space)

/-- The rows of a file, if it is a table. -/
def fileRows (space : TableSpace) (fileId : FileId) : List Row :=
  ((DiskTableIterator.scan space.disk fileId).toOption).getD []

/-- The ids of table rows that a call addresses are those of rows of the table, and a row that it
inserts fits a fresh page. -/
def Permits (rows : List Row) : TableOp → Prop
  | .insertRow row _ => FitsFreshPage row
  | .updateRow old row _ => old ∈ rows.map Row.rowId ∧ FitsFreshPage row
  | .deleteRow old => old ∈ rows.map Row.rowId

instance (rows : List Row) : DecidablePred (Permits rows)
  | .insertRow row _ => inferInstanceAs (Decidable (FitsFreshPage row))
  | .updateRow old row _ =>
      inferInstanceAs (Decidable (old ∈ rows.map Row.rowId ∧ FitsFreshPage row))
  | .deleteRow old => inferInstanceAs (Decidable (old ∈ rows.map Row.rowId))

/-- In memory, the next row id is not taken. A file is created once, and the first page that the
disk hands out for it is the root page; a call on a table on disk is permitted, and gets a page if
it asks for one. -/
def Allowed (space : TableSpace) : StorageEvent → Prop
  | .start => True
  | .call (.memory address) (.change _) =>
      (space.memory address).tableData.find (space.memory address).generateRowId.1 = none
  | .call (.memory _) _ => True
  | .call (.file fileId) (.create fresh) =>
      space.disk.files fileId = false ∧ fresh.pageId = rootPageId
  | .call (.file fileId) (.change op) => space.disk.files fileId = true ∧
      Permits (space.fileRows fileId) op ∧
      ¬ DiskTable.OutOfPages ((tableMachine fileId).answer space.disk op)
  | .call (.file fileId) .scan => space.disk.files fileId = true

instance (space : TableSpace) : DecidablePred space.Allowed
  | .start => inferInstanceAs (Decidable True)
  | .call (.memory address) (.change _) => inferInstanceAs (Decidable
      ((space.memory address).tableData.find (space.memory address).generateRowId.1 = none))
  | .call (.memory _) (.create _) => inferInstanceAs (Decidable True)
  | .call (.memory _) .scan => inferInstanceAs (Decidable True)
  | .call (.file fileId) (.create fresh) => inferInstanceAs (Decidable
      (space.disk.files fileId = false ∧ fresh.pageId = rootPageId))
  | .call (.file fileId) (.change op) => inferInstanceAs (Decidable
      (space.disk.files fileId = true ∧ Permits (space.fileRows fileId) op ∧
        ¬ DiskTable.OutOfPages ((tableMachine fileId).answer space.disk op)))
  | .call (.file fileId) .scan => inferInstanceAs (Decidable (space.disk.files fileId = true))

end TableSpace

def spaceMachine : Machine TableSpace StorageEvent RowReply := ⟨TableSpace.step⟩

/-! ### The storage of the tables -/

/-- A file that is not there has no pages. -/
def PageStore.NoFile (store : PageStore) (fileId : FileId) : Prop :=
  store.files fileId = false ∧ ∀ pageId, store.pages ⟨fileId, pageId⟩ = none

/-- **The tables have the rows of the storage.** -/
structure Backs (space : TableSpace) (storage : Storage) : Prop where
  memory : ∀ address, (space.memory address).scan = storage.tables address
  absent : ∀ fileId, storage.files fileId = none → space.disk.NoFile fileId
  file : ∀ fileId rows, storage.files fileId = some rows →
    DiskTable.Lists fileId space.disk rows

theorem backs_empty : Backs .empty .empty where
  memory _ := rfl
  absent _ _ := ⟨rfl, fun _ => rfl⟩
  file _ _ isTable := by cases isTable

namespace Backs

variable {space : TableSpace} {storage : Storage}

/-- The tables in memory go with the process. -/
theorem start (backs : Backs space storage) :
    Backs { space with memory := fun _ => .empty } (TableManager.reboot storage) where
  memory _ := rfl
  absent := backs.absent
  file := backs.file

theorem setMemory (backs : Backs space storage) (address : Nat) (table : EphemeralTable) :
    Backs { space with memory := Function.update space.memory address table }
      (storage.setRows (.memory address) table.scan) where
  memory other := by
    show (Function.update space.memory address table other).scan
      = Function.update storage.tables address table.scan other
    by_cases isTable : other = address
    · subst isTable
      rw [Function.update_self, Function.update_self]
    · rw [Function.update_of_ne isTable, Function.update_of_ne isTable]
      exact backs.memory other
  absent := backs.absent
  file := backs.file

end Backs

section Holds

variable {fileId : FileId} {store : PageStore} {map : TableMap} {table : TableContent}
  {pages : List PageId}

open DiskTable

/-- The heap pages of a table lead to heap pages, and so does its root. -/
theorem DiskTable.Holds.closed (holds : Holds fileId (store, map) table pages) :
    PageProgram.Closed store fileId fun pageId => table.heap pageId ≠ none := by
  intro pageId page isHeap read
  obtain ⟨content, found⟩ := Option.ne_none_iff_exists'.mp isHeap
  obtain ⟨page', stored, shows_⟩ := holds.file.heap pageId content found
  cases (mustGetPage_eq holds.file.file stored).symm.trans read
  obtain ⟨following, link, inList⟩ :=
    holds.listed.chain.next_isSome (holds.listed.all pageId isHeap)
  have isNext : following = HeapPage.getNextPage page := by
    rw [TableContent.link, if_neg (holds.file.notNull found), found] at link
    exact (Option.some.inj link).symm.trans shows_.next.symm
  rw [← isNext]
  exact inList.imp_right holds.listed.isHeap

theorem DiskTable.Holds.heads (holds : Holds fileId (store, map) table pages) :
    PageProgram.Heads store fileId fun pageId => table.heap pageId ≠ none := by
  intro root read
  obtain ⟨page, stored, noFull, isHead⟩ := holds.file.root
  cases (mustGetPage_eq holds.file.file stored).symm.trans read
  refine ⟨.inl noFull, ?_⟩
  have head : HeapPage.getPartialPagesHead root = table.head := isHead
  rw [head]
  cases pages with
  | nil => exact .inl holds.listed.chain
  | cons first rest =>
      have isFirst : table.head = first := holds.listed.chain.1
      rw [isFirst]
      exact .inr (holds.listed.isHeap List.mem_cons_self)

end Holds

/-- A table does not depend on the other files. -/
theorem DiskTable.Lists.sameOthers {fileId other : FileId} {store store' : PageStore}
    {rows : List Row} (lists : Lists fileId store rows)
    (same : PageProgram.SameOthers other store store') (different : fileId ≠ other) :
    Lists fileId store' rows := by
  obtain ⟨map, table, pages, holds, issues, isRows⟩ := lists
  have sames : ∀ pageId, store'.pages ⟨fileId, pageId⟩ = store.pages ⟨fileId, pageId⟩ :=
    fun pageId => (same ⟨fileId, pageId⟩ different).2
  have files : store'.files fileId = store.files fileId :=
    (same ⟨fileId, rootPageId⟩ different).1
  refine ⟨map, table, pages, ⟨⟨files.trans holds.file.file, ?_, fun pageId content found => ?_,
    holds.file.rootNotHeap⟩, holds.listed, holds.rows, holds.formed, holds.issued⟩, issues, isRows⟩
  · rw [sames]
    exact holds.file.root
  · rw [sames]
    exact holds.file.heap pageId content found

theorem Backs.setFile {space : TableSpace} {storage : Storage} (backs : Backs space storage)
    {fileId : FileId} {disk : PageStore} {rows : List Row}
    (same : PageProgram.SameOthers fileId space.disk disk)
    (lists : DiskTable.Lists fileId disk rows) :
    Backs { space with disk } (storage.setRows (.file fileId) rows) where
  memory := backs.memory
  absent other missing := by
    have missing : Function.update storage.files fileId (some rows) other = none := missing
    by_cases isFile : other = fileId
    · subst isFile
      rw [Function.update_self] at missing
      cases missing
    · rw [Function.update_of_ne isFile] at missing
      obtain ⟨noFile, noPages⟩ := backs.absent other missing
      refine ⟨(same ⟨other, rootPageId⟩ isFile).1.trans noFile, fun pageId => ?_⟩
      exact (same ⟨other, pageId⟩ isFile).2.trans (noPages pageId)
  file other rows' found := by
    have found : Function.update storage.files fileId (some rows) other = some rows' := found
    by_cases isFile : other = fileId
    · subst isFile
      rw [Function.update_self] at found
      cases found
      exact lists
    · rw [Function.update_of_ne isFile] at found
      exact (backs.file other rows' found).sameOthers same isFile

/-! ### Steps of the storage -/

namespace Storage

variable {storage : Storage} {ref : TableRef} {rows front back : List Row} {rowId old : RowId}
  {data : Bytes}

theorem Step.returns (place : Placement) {call : RowCall} {reply : RowReply} {storage' : Storage}
    (run : perform place ref call storage = (.ok reply, storage')) :
    Step storage (.call ref call) reply storage' := Step.call place run

/-- An insertion where the table puts its row. -/
theorem insertRow_between (found : storage.rowsOf ref = some (front ++ back))
    (new : rowId ∉ (front ++ back).map Row.rowId) (fits : Fits ref data) :
    insertRow ref ⟨rowId, front.length⟩ data storage
      = (.ok rowId, storage.setRows ref (front ++ ⟨rowId, data⟩ :: back)) := by
  rw [insertRow_ok found new fits]
  unfold insertAt
  rw [List.take_left, List.drop_left]

theorem setRows_setRows (storage : Storage) (ref : TableRef) (first second : List Row) :
    (storage.setRows ref first).setRows ref second = storage.setRows ref second := by
  cases ref with
  | memory address =>
      show ({ storage with tables := Function.update (Function.update _ _ _) _ _ } : Storage) = _
      rw [Function.update_idem]
      rfl
  | file fileId =>
      show ({ storage with files := Function.update (Function.update _ _ _) _ _ } : Storage) = _
      rw [Function.update_idem]
      rfl

theorem step_insertRow (found : storage.rowsOf ref = some (front ++ back))
    (new : rowId ∉ (front ++ back).map Row.rowId) (fits : Fits ref data) (fresh : FreshPage) :
    Step storage (.call ref (.change (.insertRow data fresh))) (.rowId rowId)
      (storage.setRows ref (front ++ ⟨rowId, data⟩ :: back)) := by
  refine Step.returns ⟨rowId, front.length⟩ ?_
  exact Call.bind_ok (insertRow_between found new fits) _

theorem step_updateRow (found : storage.rowsOf ref = some rows) (live : old ∈ rows.map Row.rowId)
    (split : (rows.filter fun row => row.rowId ≠ old) = front ++ back)
    (new : rowId ∉ (front ++ back).map Row.rowId) (fits : Fits ref data) (fresh : FreshPage) :
    Step storage (.call ref (.change (.updateRow old data fresh))) (.rowId rowId)
      (storage.setRows ref (front ++ ⟨rowId, data⟩ :: back)) := by
  have emptied : (storage.setRows ref (front ++ back)).rowsOf ref = some (front ++ back) := by
    rw [rowsOf_setRows, Function.update_self]
  have inserted := insertRow_between emptied new fits
  rw [setRows_setRows] at inserted
  refine Step.returns ⟨rowId, front.length⟩ ?_
  refine (Call.bind_ok (deleteRow_ok found live) _).trans ?_
  rw [split]
  exact Call.bind_ok inserted _

theorem step_deleteRow (found : storage.rowsOf ref = some rows)
    (live : old ∈ rows.map Row.rowId) :
    Step storage (.call ref (.change (.deleteRow old))) .done
      (storage.setRows ref (rows.filter fun row => row.rowId ≠ old)) := by
  refine Step.returns ⟨0, 0⟩ ?_
  exact Call.bind_ok (deleteRow_ok found live) _

theorem step_scan (found : storage.rowsOf ref = some rows) :
    Step storage (.call ref .scan) (.rows rows) storage := by
  refine Step.returns ⟨0, 0⟩ ?_
  exact Call.bind_ok (scan_ok found) _

theorem fits_memory {address : Nat} (row : Bytes) : Fits (.memory address) row := trivial

/-- The id of a row that is gone is not an id of a table in memory. -/
theorem step_throws {address : Nat} {call : RowCall}
    (found : storage.rowsOf (.memory address) = some rows) (dead : old ∉ rows.map Row.rowId)
    (deletes : ∃ next : Unit → Call RowReply,
      perform ⟨0, 0⟩ (.memory address) call = deleteRow (.memory address) old >>= next) :
    Step storage (.call (.memory address) call) .throws storage := by
  obtain ⟨next, isCall⟩ := deletes
  have deleted : deleteRow (.memory address) old storage = (.error .invalidRowId, storage) := by
    rw [deleteRow, Call.bind_ok (scan_ok found), if_pos ⟨rfl, dead⟩]
    rfl
  have failed : perform ⟨0, 0⟩ (.memory address) call storage
      = (.error .invalidRowId, storage) := by
    rw [isCall]
    exact Call.bind_error deleted next
  exact Step.call ⟨0, 0⟩ failed

end Storage

/-! ### A call on a table in memory -/

section Memory

variable {space : TableSpace} {storage : Storage} {address : Nat}

theorem memory_refines (backs : Backs space storage) {call : RowCall}
    (allowed : space.Allowed (.call (.memory address) call)) :
    ∃ storage', Storage.Step storage (.call (.memory address) call)
        ((space.memory address).serve call).1 storage' ∧
      Backs ⟨Function.update space.memory address ((space.memory address).serve call).2, space.disk⟩
        storage' := by
  generalize isTable : space.memory address = table at allowed
  have found : storage.rowsOf (.memory address) = some table.scan := by
    rw [← isTable]
    exact congrArg some (backs.memory address).symm
  have unchanged : Backs { space with memory := Function.update space.memory address table }
      storage := by
    rw [← isTable, Function.update_eq_self]
    exact backs
  cases call with
  | create fresh => exact ⟨_, .returns ⟨0, 0⟩ rfl, backs.setMemory address .empty⟩
  | scan => exact ⟨storage, Storage.step_scan found, unchanged⟩
  | change op =>
      have free : table.tableData.find table.generateRowId.1 = none := by
        rw [← isTable]
        exact allowed
      cases op with
      | insertRow row fresh =>
          obtain ⟨front, back, split, inserted⟩ := EphemeralTable.scan_insertRow free row
          have new : (table.insertRow row).1 ∉ (front ++ back).map Row.rowId := by
            rw [← split, EphemeralTable.not_mem_scan_ids]
            exact free
          refine ⟨_, Storage.step_insertRow (split ▸ found) new (Storage.fits_memory row) fresh, ?_⟩
          rw [← inserted]
          exact backs.setMemory address _
      | updateRow old row fresh =>
          by_cases live : table.tableData.find old = none
          · have dead : old ∉ table.scan.map Row.rowId := by
              rw [EphemeralTable.not_mem_scan_ids]
              exact live
            refine ⟨storage, ?_, ?_⟩
            · rw [EphemeralTable.serve_updateRow_dead live]
              exact Storage.step_throws found dead ⟨_, rfl⟩
            · rw [EphemeralTable.serve_updateRow_dead live]
              exact unchanged
          · obtain ⟨middle, deleted, sameId, rows, left⟩ := EphemeralTable.scan_deleteRow live
            have freeAfter : middle.tableData.find middle.generateRowId.1 = none := by
              rw [sameId, rows]
              by_cases isOld : table.generateRowId.1 = old
              · rw [isOld, Function.update_self]
              · rw [Function.update_of_ne isOld, free]
            obtain ⟨front, back, split, inserted⟩ := EphemeralTable.scan_insertRow freeAfter row
            have new : (middle.insertRow row).1 ∉ (front ++ back).map Row.rowId := by
              rw [← split, EphemeralTable.not_mem_scan_ids]
              exact freeAfter
            rw [EphemeralTable.serve_updateRow deleted]
            refine ⟨_, Storage.step_updateRow found (EphemeralTable.mem_scan_ids.mpr live)
              (left.symm.trans split) new (Storage.fits_memory row) fresh, ?_⟩
            rw [← inserted]
            exact backs.setMemory address _
      | deleteRow old =>
          by_cases live : table.tableData.find old = none
          · have dead : old ∉ table.scan.map Row.rowId := by
              rw [EphemeralTable.not_mem_scan_ids]
              exact live
            refine ⟨storage, ?_, ?_⟩
            · rw [EphemeralTable.serve_deleteRow_dead live]
              exact Storage.step_throws found dead ⟨_, rfl⟩
            · rw [EphemeralTable.serve_deleteRow_dead live]
              exact unchanged
          · obtain ⟨after, deleted, _, _, left⟩ := EphemeralTable.scan_deleteRow live
            rw [EphemeralTable.serve_deleteRow deleted]
            refine ⟨_, Storage.step_deleteRow found (EphemeralTable.mem_scan_ids.mpr live), ?_⟩
            rw [← left]
            exact backs.setMemory address after

end Memory

/-! ### A call on a table on disk -/

section Disk

variable {space : TableSpace} {storage : Storage} {store : PageStore} {fileId : FileId}
  {frames : Nat}

theorem Backs.isTable (backs : Backs space storage) (present : space.disk.files fileId = true) :
    ∃ rows, storage.files fileId = some rows ∧ DiskTable.Lists fileId space.disk rows := by
  cases found : storage.files fileId with
  | none =>
      have missing := (backs.absent fileId found).1
      rw [present] at missing
      cases missing
  | some rows => exact ⟨rows, rfl, backs.file fileId rows found⟩

theorem Backs.isAbsent (backs : Backs space storage) (missing : space.disk.files fileId = false) :
    storage.files fileId = none := by
  cases found : storage.files fileId with
  | none => rfl
  | some rows =>
      obtain ⟨map, table, pages, holds, _⟩ := backs.file fileId rows found
      have present := holds.file.file
      rw [missing] at present
      cases present

/-- What a call is on a store, and on the storage. -/
structure Refined (frames : Nat) (space : TableSpace) (storage : Storage) (fileId : FileId)
    (call : RowCall) (reply : RowReply) (disk : PageStore) (storage' : Storage) : Prop where
  acts : PageProgram.ActsAt frames fileId [] space.disk (call.program fileId) (.ok (reply, disk))
  step : Storage.Step storage (.call (.file fileId) call) reply storage'
  backs : Backs { space with disk } storage'

open PageProgram

/-- A new file gets a root page. -/
theorem create_acts (enough : 2 ≤ frames) (absent : store.NoFile fileId) {fresh : FreshPage}
    (isRoot : fresh.pageId = rootPageId) :
    ∃ disk, ActsAt frames fileId [] store (RowCall.program fileId (.create fresh))
      (.ok (.done, disk)) ∧ DiskTable.Lists fileId disk [] := by
  have created : (store.createFile fileId).2
      = { store with files := Function.update store.files fileId true } := by
    unfold PageStore.createFile
    rw [if_neg (by rw [absent.1]; exact Bool.false_ne_true)]
  obtain ⟨disk, init⟩ : ∃ disk,
      DiskTable.initTableRootPage (store.createFile fileId).2 fileId fresh = .ok disk := by
    rw [created]
    have isNew : Function.update store.files fileId true fileId = true ∧
        store.pages ⟨fileId, fresh.pageId⟩ = none ∧ fresh.pageId ≠ nullPageId := by
      rw [isRoot]
      exact ⟨Function.update_self _ _ _, absent.2 rootPageId, by decide⟩
    rcases DiskTable.allocatePage_cases
        { store with files := Function.update store.files fileId true } fileId fresh with
      ⟨error, failed⟩ | ⟨grown, allocated, _, _, _, files, pages⟩
    · unfold DiskTable.allocatePage PageStore.allocatePage at failed
      rw [dif_pos isNew] at failed
      cases failed
    · have page : DiskTable.mustGetPage grown ⟨fileId, rootPageId⟩ = .ok fresh.bytes := by
        refine DiskTable.mustGetPage_eq (files ▸ isNew.1) ?_
        rw [pages, isRoot, Function.update_self]
      refine ⟨grown.put ⟨fileId, rootPageId⟩ (HeapPage.initPage fresh.bytes), ?_⟩
      unfold DiskTable.initTableRootPage
      rw [allocated, ok_bind]
      simp only [isRoot, ne_eq, not_true, if_false]
      show (DiskTable.mustGetPage grown ⟨fileId, rootPageId⟩ >>= _) = _
      rw [page]
      rfl
  refine ⟨disk, ?_, DiskTable.lists_empty (DiskTable.initTableRootPage_spec init)⟩
  refine (acts_bind (k := fun _ store =>
    (DiskTable.initTableRootPage store fileId fresh).map fun store => (RowReply.done, store))
    (acts_createFile absent.1) fun _ store' _ => ?_).congr ?_
  · refine (acts_bind (k := fun _ store => .ok (RowReply.done, store))
      (initTableRootPage_acts List.not_mem_nil (by simp; omega) fresh)
      fun _ _ _ => acts_pure _).congr ?_
    cases DiskTable.initTableRootPage store' fileId fresh <;> rfl
  · rw [ok_bind, init]
    rfl

variable {data : List UInt8} {old rowId : RowId} {fresh : FreshPage} {disk middle : PageStore}

theorem insertRow_served (enough : 2 ≤ frames)
    (ran : DiskTable.insertRow store fileId data fresh = .ok (rowId, disk)) :
    ActsAt frames fileId [] store (RowCall.program fileId (.change (.insertRow data fresh)))
      (.ok (.rowId rowId, disk)) := by
  refine (acts_bind (k := fun rowId store => .ok (.rowId rowId, store))
    (insertRow_acts (fun _ => List.not_mem_nil) (by simp; omega) fresh)
    fun _ _ _ => acts_pure _).congr ?_
  rw [ran]
  rfl

theorem updateRow_served (enough : 2 ≤ frames)
    (deleted : DiskTable.deleteRow store fileId old = .ok middle)
    (ran : DiskTable.insertRow middle fileId data fresh = .ok (rowId, disk)) :
    ActsAt frames fileId [] store (RowCall.program fileId (.change (.updateRow old data fresh)))
      (.ok (.rowId rowId, disk)) := by
  refine (acts_bind (k := fun rowId store => .ok (.rowId rowId, store))
    (updateRow_acts (fun _ => List.not_mem_nil) (by simp; omega) old fresh)
    fun _ _ _ => acts_pure _).congr ?_
  unfold DiskTable.updateRow
  rw [deleted, ok_bind, ran]
  rfl

theorem deleteRow_served (enough : 2 ≤ frames)
    (ran : DiskTable.deleteRow store fileId old = .ok disk) :
    ActsAt frames fileId [] store (RowCall.program fileId (.change (.deleteRow old)))
      (.ok (.done, disk)) := by
  refine (acts_bind (k := fun _ store => .ok (.done, store))
    (deleteRow_acts (fun _ => List.not_mem_nil) (by simp; omega) old)
    fun _ _ _ => acts_pure _).congr ?_
  rw [ran]
  rfl

theorem scan_served (enough : 2 ≤ frames) {rows : List Row}
    (lists : DiskTable.Lists fileId store rows) :
    ActsAt frames fileId [] store (RowCall.program fileId .scan) (.ok (.rows rows, store)) := by
  obtain ⟨map, table, pages, holds, _⟩ := id lists
  have notRoot : ¬ table.heap rootPageId ≠ none := not_not.mpr holds.file.rootNotHeap
  refine (acts_bind (k := fun rows store => .ok (.rows rows, store))
    (scan_acts holds.closed notRoot (fun _ => List.not_mem_nil) (by simp; omega) holds.heads)
    fun _ _ _ => acts_pure _).congr ?_
  rw [lists.scan]
  rfl

/-- **A call on a table on disk** is a step of the storage, and a pool of two frames can serve
it. -/
theorem disk_refines (enough : 2 ≤ frames) (backs : Backs space storage) {call : RowCall}
    (allowed : space.Allowed (.call (.file fileId) call)) :
    ∃ reply disk storage', Refined frames space storage fileId call reply disk storage' := by
  cases call with
  | create fresh =>
      have noTable := backs.isAbsent allowed.1
      obtain ⟨disk, acts, lists⟩ := create_acts enough (backs.absent fileId noTable) allowed.2
      have made : Storage.newTable (.file fileId) storage
          = (.ok (), storage.setRows (.file fileId) []) := by
        unfold Storage.newTable
        exact if_pos noTable
      exact ⟨_, disk, _, acts, .returns ⟨0, 0⟩ (Call.bind_ok made _),
        backs.setFile (acts.sameOthers rfl) lists⟩
  | scan =>
      obtain ⟨rows, found, lists⟩ := backs.isTable allowed
      exact ⟨_, space.disk, storage, scan_served enough lists, Storage.step_scan found, backs⟩
  | change op =>
      obtain ⟨present, permits, allocates⟩ := allowed
      obtain ⟨rows, found, lists⟩ := backs.isTable present
      have isRows : space.fileRows fileId = rows := by
        unfold TableSpace.fileRows
        rw [lists.scan]
        rfl
      rw [isRows] at permits
      have found : storage.rowsOf (.file fileId) = some rows := found
      cases op with
      | insertRow data fresh =>
          rcases lists.insertRow permits fresh with
            ⟨error, failed⟩ | ⟨rowId, disk, front, back, ran, new, rfl, lists'⟩
          · have called : DiskTable.call fileId space.disk (.insertRow data fresh)
                = .error (.allocatePage error) := by
              rw [DiskTable.call, failed]
              rfl
            rw [DiskTable.recorded_error called] at allocates
            exact absurd trivial allocates
          · have acts := insertRow_served enough ran
            exact ⟨_, disk, _, acts, Storage.step_insertRow found new permits fresh,
              backs.setFile (acts.sameOthers rfl) lists'⟩
      | updateRow old data fresh =>
          obtain ⟨live, fits⟩ := permits
          obtain ⟨middle, deleted, left⟩ := lists.deleteRow live
          rcases left.insertRow fits fresh with
            ⟨error, failed⟩ | ⟨rowId, disk, front, back, ran, new, split, lists'⟩
          · have called : DiskTable.call fileId space.disk (.updateRow old data fresh)
                = .error (.allocatePage error) := by
              rw [DiskTable.call, DiskTable.updateRow, deleted, ok_bind, failed]
              rfl
            rw [DiskTable.recorded_error called] at allocates
            exact absurd trivial allocates
          · have acts := updateRow_served enough deleted ran
            refine ⟨_, disk, _, acts,
              Storage.step_updateRow found live split (split ▸ new) fits fresh,
              backs.setFile (acts.sameOthers rfl) lists'⟩
      | deleteRow old =>
          obtain ⟨disk, ran, lists'⟩ := lists.deleteRow permits
          have acts := deleteRow_served enough ran
          exact ⟨_, disk, _, acts, Storage.step_deleteRow found permits,
            backs.setFile (acts.sameOthers rfl) lists'⟩

end Disk

/-! ### Runs -/

section Run

variable {space : TableSpace} {storage : Storage}

theorem Refined.stepped {frames : Nat} {fileId : FileId} {call : RowCall} {reply : RowReply}
    {disk : PageStore} {storage' : Storage}
    (refined : Refined frames space storage fileId call reply disk storage') :
    spaceMachine.step space (.call (.file fileId) call) = (reply, { space with disk }) := by
  show space.step (.call (.file fileId) call) = _
  unfold TableSpace.step
  simp only [refined.acts.run, PageProgram.onHeld]

/-- **What happens to the tables is a step of the storage.** -/
theorem step_backs (backs : Backs space storage) {event : StorageEvent}
    (allowed : space.Allowed event) :
    ∃ storage', Storage.Step storage event (spaceMachine.answer space event) storage' ∧
      Backs (spaceMachine.next space event) storage' := by
  cases event with
  | start => exact ⟨_, .start, backs.start⟩
  | call ref call =>
      cases ref with
      | memory address => exact memory_refines backs allowed
      | file fileId =>
          obtain ⟨reply, disk, storage', refined⟩ := disk_refines (le_refl 2) backs allowed
          unfold Machine.answer Machine.next
          rw [refined.stepped]
          exact ⟨storage', refined.step, refined.backs⟩

end Run

end Yadb
