/-
**Tables in memory.**

`ephemeral_table.cpp` and `ephemeral_table_iterator.cpp`: the rows in a map ordered by row id, and
the page id and slot id that the next row gets. An iterator walks the map; `scan` is the range-based
loop over a table.

`nextRow`: the next row id as a number. It counts the rows inserted so far, up to the 48 bits of a
row id (`nextRow_insertRow`).
-/

import Yadb.Foundation.SortedMap
import Yadb.Storage.Table.DiskTableIterator

namespace Yadb

open Foundation

structure EphemeralTable where
  nextPageId : PageId
  nextSlotId : SlotId
  tableData : SortedMap RowId (List UInt8)

/-- What an `EphemeralTable` throws. -/
inductive EphemeralError
  | invalidRowId (operation : String)
  deriving DecidableEq

def EphemeralError.what : EphemeralError → String
  | .invalidRowId operation => "Invalid row_id in " ++ operation

namespace EphemeralTable

def empty : EphemeralTable := ⟨0, 0, .empty⟩

/-- `GenerateRowId()`. -/
def generateRowId (table : EphemeralTable) : RowId × EphemeralTable :=
  let rowId := makeRowId table.nextPageId table.nextSlotId
  let nextSlotId := table.nextSlotId + 1
  -- the slots of a page are used up
  let nextPageId := if nextSlotId = 0 then table.nextPageId + 1 else table.nextPageId
  (rowId, { table with nextPageId, nextSlotId })

def insertRow (table : EphemeralTable) (row : List UInt8) : RowId × EphemeralTable :=
  let (rowId, table) := table.generateRowId
  (rowId, { table with tableData := table.tableData.insertNew rowId row })

def deleteRow (table : EphemeralTable) (rowId : RowId) : Except EphemeralError EphemeralTable :=
  match table.tableData.find rowId with
  | none => .error (.invalidRowId "delete_row")
  | some _ => .ok { table with tableData := table.tableData.erase rowId }

def updateRow (table : EphemeralTable) (rowId : RowId) (row : List UInt8) :
    Except EphemeralError (RowId × EphemeralTable) := do
  let table ← table.deleteRow rowId
  return table.insertRow row

/-- The rows in the order of their ids, which is what a loop over the table yields. -/
def scan (table : EphemeralTable) : List Row :=
  table.tableData.entries.map fun entry => ⟨entry.1, entry.2⟩

/-! ### Row ids -/

variable {table : EphemeralTable}

def nextRow (table : EphemeralTable) : Nat :=
  table.nextPageId.toNat * 2 ^ 16 + table.nextSlotId.toNat

theorem nextRow_empty : empty.nextRow = 0 := by decide

theorem generateRowId_toNat (table : EphemeralTable) :
    table.generateRowId.1.toNat = table.nextRow :=
  makeRowId_toNat table.nextPageId table.nextSlotId

theorem nextRow_generateRowId (table : EphemeralTable) :
    table.generateRowId.2.nextRow = (table.nextRow + 1) % 2 ^ 48 := by
  have pageBound : table.nextPageId.toNat < 2 ^ 32 := table.nextPageId.toNat_lt
  have slotBound : table.nextSlotId.toNat < 2 ^ 16 := table.nextSlotId.toNat_lt
  have slot : (table.nextSlotId + 1).toNat = (table.nextSlotId.toNat + 1) % 2 ^ 16 :=
    UInt16.toNat_add _ _
  have page : (table.nextPageId + 1).toNat = (table.nextPageId.toNat + 1) % 2 ^ 32 :=
    UInt32.toNat_add _ _
  show (if table.nextSlotId + 1 = 0 then table.nextPageId + 1 else table.nextPageId).toNat * 2 ^ 16
    + (table.nextSlotId + 1).toNat = _
  unfold nextRow
  by_cases wraps : table.nextSlotId + 1 = 0
  · rw [if_pos wraps, page]
    rw [wraps] at slot ⊢
    have slot : 0 = (table.nextSlotId.toNat + 1) % 2 ^ 16 := slot
    show _ + 0 = _
    omega
  · have wraps : ¬ (table.nextSlotId + 1).toNat = 0 := fun zero => wraps (UInt16.toNat.inj zero)
    rw [if_neg (fun zero => wraps (congrArg UInt16.toNat zero)), slot]
    rw [slot] at wraps
    omega

/-- **An insert of a row whose id is new.** -/
theorem insertRow_spec (table : EphemeralTable) (row : List UInt8)
    (unused : ∀ rowId, table.tableData.find rowId ≠ none → rowId.toNat ≠ table.nextRow) :
    (table.insertRow row).1.toNat = table.nextRow ∧
      (table.insertRow row).2.nextRow = (table.nextRow + 1) % 2 ^ 48 ∧
      (table.insertRow row).2.tableData.find
        = Function.update table.tableData.find (table.insertRow row).1 (some row) := by
  refine ⟨generateRowId_toNat table, nextRow_generateRowId table, ?_⟩
  refine SortedMap.find_insertNew ?_
  by_contra present
  exact unused _ present (generateRowId_toNat table)

/-- **A delete succeeds on the rows there are.** -/
theorem deleteRow_spec {rowId : RowId} (live : table.tableData.find rowId ≠ none) :
    ∃ table', table.deleteRow rowId = .ok table' ∧ table'.nextRow = table.nextRow ∧
      table'.tableData.find = Function.update table.tableData.find rowId none := by
  obtain ⟨row, found⟩ := Option.ne_none_iff_exists'.mp live
  refine ⟨{ table with tableData := table.tableData.erase rowId }, ?_, rfl, SortedMap.find_erase⟩
  rw [deleteRow, found]

/-- A delete throws where there is no row. -/
theorem deleteRow_dead {rowId : RowId} (dead : table.tableData.find rowId = none) :
    table.deleteRow rowId = .error (.invalidRowId "delete_row") := by
  rw [deleteRow, dead]

/-- A scan lists the rows of the map. -/
theorem scan_data (table : EphemeralTable) :
    table.scan.map Row.data = table.tableData.entries.map Prod.snd := by
  rw [scan, List.map_map]
  rfl

end EphemeralTable

end Yadb
