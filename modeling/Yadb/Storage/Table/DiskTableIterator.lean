/-
**Table iterators.**

`disk_table_iterator.cpp`: an iterator walks the list of full pages, then the list of pages with
room, and stops at each slot that is not deleted. `scan` is the range-based loop over a table.

The loop over pages gets a turn for each state it can start in with slot zero (two lists, each page
id) and one to end; the scan one turn for each row id there is and one to end. A loop that takes
more comes back to where it was and never returns.
-/

import Yadb.Storage.Table.DiskTable

namespace Yadb

/-- `Row`: a row id and the bytes of the row. -/
structure Row where
  rowId : RowId
  data : List UInt8
  deriving DecidableEq

structure DiskTableIterator where
  currentPageId : PageId
  currentSlot : SlotId
  partialPagesHead : PageId
  inPartialList : Bool
  rowBuffer : List UInt8

namespace DiskTableIterator

open DiskTable

def advanceTurns : Nat := 2 * 2 ^ 32 + 1

def scanTurns : Nat := 2 ^ 48 + 1

/-- The slot ids from a slot up to the capacity. -/
def slotsFrom (slot capacity : Nat) : List SlotId :=
  (List.range' slot (capacity - slot)).map UInt16.ofNat

/-- The loop over the slots of one page, up to the first that is not deleted. -/
def findRecord (page : FullPage) : List SlotId → Except PageAssertion (Option (SlotId × List UInt8))
  | [] => .ok none
  | slotId :: rest => do
      if !(← Page.isSlotDeleted page slotId) then
        return some (slotId, ← Page.readRecord page slotId)
      else findRecord page rest

/-- Where the iterator goes after the slots of a page. -/
def nextPage (iterator : DiskTableIterator) (nextPageId : PageId) : DiskTableIterator :=
  if nextPageId ≠ nullPageId then
    { iterator with currentPageId := nextPageId, currentSlot := 0 }
  else if !iterator.inPartialList && iterator.partialPagesHead ≠ nullPageId then
    { iterator with
      inPartialList := true, currentPageId := iterator.partialPagesHead, currentSlot := 0 }
  else { iterator with currentPageId := nullPageId, currentSlot := 0 }

def advanceToNextValid (store : PageStore) (fileId : FileId) :
    Nat → DiskTableIterator → Except TableFailure DiskTableIterator
  | 0, _ => .error .neverReturns
  | turns + 1, iterator =>
      if iterator.currentPageId = nullPageId then .ok iterator
      else do
        let page ← mustGetPage store ⟨fileId, iterator.currentPageId⟩
        let slots := slotsFrom iterator.currentSlot.toNat (Page.getPageCapacity page).toNat
        match ← mustEdit (findRecord page slots) with
        | some (slotId, record) =>
            return { iterator with currentSlot := slotId, rowBuffer := record }
        | none => advanceToNextValid store fileId turns (iterator.nextPage (HeapPage.getNextPage page))

/-- The iterator where its constructor starts to advance. -/
def start (fullHead partialPagesHead : PageId) : DiskTableIterator :=
  if fullHead ≠ nullPageId then ⟨fullHead, 0, partialPagesHead, false, []⟩
  else if partialPagesHead ≠ nullPageId then ⟨partialPagesHead, 0, partialPagesHead, true, []⟩
  else ⟨nullPageId, 0, partialPagesHead, false, []⟩

/-- The constructor. -/
def begin (store : PageStore) (fileId : FileId) : Except TableFailure DiskTableIterator := do
  let root ← mustGetPage store ⟨fileId, rootPageId⟩
  advanceToNextValid store fileId advanceTurns
    (start (HeapPage.getFullPagesHead root) (HeapPage.getPartialPagesHead root))

/-- `operator*`. -/
def get (iterator : DiskTableIterator) : Except TableFailure Row :=
  if iterator.currentPageId = nullPageId then .error .pastTheEnd
  else .ok ⟨makeRowId iterator.currentPageId iterator.currentSlot, iterator.rowBuffer⟩

/-- `operator++`. -/
def next (store : PageStore) (fileId : FileId) (iterator : DiskTableIterator) :
    Except TableFailure DiskTableIterator :=
  advanceToNextValid store fileId advanceTurns
    { iterator with currentSlot := iterator.currentSlot + 1 }

/-- Comparison with the sentinel. -/
def atEnd (iterator : DiskTableIterator) : Bool := iterator.currentPageId == nullPageId

/-- The rows from an iterator on. -/
def collect (store : PageStore) (fileId : FileId) :
    Nat → DiskTableIterator → Except TableFailure (List Row)
  | 0, _ => .error .neverReturns
  | turns + 1, iterator =>
      if iterator.atEnd then .ok []
      else do
        let row ← iterator.get
        let rest ← collect store fileId turns (← iterator.next store fileId)
        return row :: rest

/-- `for (auto row : table)`. -/
def scan (store : PageStore) (fileId : FileId) : Except TableFailure (List Row) := do
  collect store fileId scanTurns (← begin store fileId)

end DiskTableIterator

end Yadb
