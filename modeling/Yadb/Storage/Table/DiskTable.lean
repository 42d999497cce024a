/-
**Disk tables.**

`disk_table.cpp` and `InitTableRootPage` of `disk_table_factory.cpp`, over the store of pages that
the buffer manager gives its clients. What `insert_row` does under one page lock, and its
`AllocatePage`, are functions of their own (`readPartialHead`, `tryPage`, `allocatePage`,
`fillNewPage`, `linkPage`): `insertRow` runs them one after the other, and concurrent clients
interleave them.

* An allocation takes the id and the bytes of the page that the disk hands out.
* `MustGetPage` asserts that the page could be read; an empty `insert_loc` is dereferenced where the
  source does so.
* A loop over a list of pages gets one turn for each page id there is: one that takes more comes
  back to a page and never returns.
-/

import Yadb.Storage.Disk.PageStore
import Yadb.Storage.Heap.HeapPage

namespace Yadb

open Foundation

/-- How a call on a table ends when it does not return. -/
inductive TableFailure
  | getPage (failure : Failure DiskError)
  | allocatePage (error : DiskError)
  | notRootPage
  | page (assertion : PageAssertion)
  | emptyOptional
  | pastTheEnd
  | neverReturns
  deriving DecidableEq

def TableFailure.message : TableFailure → String
  | .getPage (.error error) => error.what
  | .getPage (.assertion assertion) => assertion.message
  | .allocatePage error => error.what
  | .notRootPage => "First allocated page must be the root page"
  | .page assertion => assertion.message
  | .emptyOptional => "dereference of an empty optional"
  | .pastTheEnd => "Dereferencing a past-the-end table iterator"
  | .neverReturns => "never returns"

/-- The turns of a loop over a list of pages. -/
def pageTurns : Nat := 2 ^ 32

/-- The id and the bytes of a page that the disk hands out. -/
structure FreshPage where
  pageId : PageId
  bytes : FullPage

/-- What a section of `insert_row` finds under one page lock. -/
inductive Tried
  | inserted (rowId : RowId)
  | full (next : PageId)
  deriving DecidableEq

namespace DiskTable

def mustGetPage (store : PageStore) (fpId : FilePageId) : Except TableFailure FullPage :=
  (store.readPage fpId false).mapError .getPage

/-- `GetMutView` of a page that is held, and what the page functions make of it. -/
def mustEdit {Answer : Type} (result : Except PageAssertion Answer) : Except TableFailure Answer :=
  result.mapError .page

def allocatePage (store : PageStore) (fileId : FileId) (fresh : FreshPage) :
    Except TableFailure (PageId × PageStore) :=
  match store.allocatePage fileId fresh.pageId fresh.bytes with
  | (.ok pageId, store) => .ok (pageId, store)
  | (.error error, _) => .error (.allocatePage error)

def initTableRootPage (store : PageStore) (fileId : FileId) (fresh : FreshPage) :
    Except TableFailure PageStore := do
  let (pageId, store) ← allocatePage store fileId fresh
  if pageId ≠ rootPageId then throw .notRootPage
  let page ← mustGetPage store ⟨fileId, rootPageId⟩
  return store.put ⟨fileId, rootPageId⟩ (HeapPage.initPage page)

/-! ### The sections of `insert_row` -/

def readPartialHead (store : PageStore) (fileId : FileId) : Except TableFailure PageId := do
  let root ← mustGetPage store ⟨fileId, rootPageId⟩
  return HeapPage.getPartialPagesHead root

/-- `WriteRecord`, and the row copied into the slice. -/
def copyRow (page : FullPage) (slotId : SlotId) (row : List UInt8) :
    Except PageAssertion FullPage := do
  let slotSpan ← Page.writeRecord page slotId
  return slotSpan.write page 0 row

/-- One turn of the walk along the partial list. -/
def tryPage (store : PageStore) (fileId : FileId) (pageId : PageId) (row : List UInt8) :
    Except TableFailure (Tried × PageStore) := do
  let page ← mustGetPage store ⟨fileId, pageId⟩
  match ← mustEdit (Page.allocateSlot page (UInt64.ofNat row.length)) with
  | (some slotId, page) =>
      let page ← mustEdit (copyRow page slotId row)
      return (.inserted (makeRowId pageId slotId), store.put ⟨fileId, pageId⟩ page)
  | (none, page) => return (.full (HeapPage.getNextPage page), store)

/-- A page that was just allocated is initialised and gets the row. -/
def fillNewPage (store : PageStore) (fileId : FileId) (pageId : PageId) (row : List UInt8) :
    Except TableFailure (RowId × PageStore) := do
  let page ← mustGetPage store ⟨fileId, pageId⟩
  match ← mustEdit (Page.allocateSlot (HeapPage.initPage page) (UInt64.ofNat row.length)) with
  | (some slotId, page) =>
      let page ← mustEdit (copyRow page slotId row)
      return (makeRowId pageId slotId, store.put ⟨fileId, pageId⟩ page)
  | (none, _) => throw .emptyOptional

/-- The new page becomes the head of the partial list if no page was seen there, and the next page
of the last one seen otherwise. -/
def linkPage (store : PageStore) (fileId : FileId) (lastPartialId newPageId : PageId) :
    Except TableFailure PageStore :=
  if lastPartialId = nullPageId then do
    let root ← mustGetPage store ⟨fileId, rootPageId⟩
    return store.put ⟨fileId, rootPageId⟩ (HeapPage.setPrevPage root newPageId)
  else do
    let lastPage ← mustGetPage store ⟨fileId, lastPartialId⟩
    return store.put ⟨fileId, lastPartialId⟩ (HeapPage.setNextPage lastPage newPageId)

/-! ### The calls -/

/-- The walk along the partial list; if no page has room, it ends with the last page seen. -/
def walk (fileId : FileId) (row : List UInt8) :
    Nat → PageStore → PageId → PageId → Except TableFailure ((RowId ⊕ PageId) × PageStore)
  | 0, _, _, _ => .error .neverReturns
  | turns + 1, store, lastPartialId, nextPageId =>
      if nextPageId = nullPageId then .ok (.inr lastPartialId, store)
      else do
        match ← tryPage store fileId nextPageId row with
        | (.inserted rowId, store) => return (.inl rowId, store)
        | (.full following, store) => walk fileId row turns store nextPageId following

def insertRow (store : PageStore) (fileId : FileId) (row : List UInt8) (fresh : FreshPage) :
    Except TableFailure (RowId × PageStore) := do
  let nextPageId ← readPartialHead store fileId
  match ← walk fileId row pageTurns store nullPageId nextPageId with
  | (.inl rowId, store) => return (rowId, store)
  | (.inr lastPartialId, store) =>
      let (newPageId, store) ← allocatePage store fileId fresh
      let (rowId, store) ← fillNewPage store fileId newPageId row
      let store ← linkPage store fileId lastPartialId newPageId
      return (rowId, store)

def deleteRow (store : PageStore) (fileId : FileId) (rowId : RowId) :
    Except TableFailure PageStore := do
  let pageId := getPageIdFromRowId rowId
  let page ← mustGetPage store ⟨fileId, pageId⟩
  let page ← mustEdit (Page.deleteSlot page (getSlotIdFromRowId rowId))
  return store.put ⟨fileId, pageId⟩ page

def updateRow (store : PageStore) (fileId : FileId) (rowId : RowId) (row : List UInt8)
    (fresh : FreshPage) : Except TableFailure (RowId × PageStore) := do
  let store ← deleteRow store fileId rowId
  insertRow store fileId row fresh

end DiskTable

end Yadb
