/-
**Heap pages.**

`heap_page.h` and `heap_page.cpp`: a slotted page whose last eight bytes hold the ids of the next
and of the previous page, and the slotted page functions as the table uses them.

* `Shows page content`: the page is a heap page with this content, a next page and records.
* `initPage_shows`, `setNextPage_shows`: a fresh page is empty and ends its list; setting the next
  page leaves the records alone.
* `insertRow_spec`: `AllocateSlot` with the row copied in finds no room exactly when entry and row
  exceed the free space, and otherwise adds the row in the next slot.
* `deleteSlot_spec`, `readRecord_spec`: deleting and reading a live slot.
-/

import Yadb.Storage.Page.Refinement

namespace Yadb

open Foundation

def getU32 (page : FullPage) (position : Nat) : UInt32 :=
  UInt32.ofNat (leValue (readBytes page position 4))

def setU32 (page : FullPage) (position : Nat) (value : UInt32) : FullPage :=
  writeBytes page position (leBytes 4 value.toNat)

namespace HeapPage

def setNextPage (page : FullPage) (pageId : PageId) : FullPage :=
  setU32 page (pageSize - 4) pageId

def setPrevPage (page : FullPage) (pageId : PageId) : FullPage :=
  setU32 page (pageSize - 4 * 2) pageId

def getNextPage (page : FullPage) : PageId := getU32 page (pageSize - 4)

def getPrevPage (page : FullPage) : PageId := getU32 page (pageSize - 4 * 2)

def initPage (page : FullPage) : FullPage :=
  let page := Page.initPage page .data
  let page := Page.setEndFreeSpace page (Page.getEndFreeSpace page - 4 * 2)
  let page := setNextPage page nullPageId
  setPrevPage page nullPageId

/-- On the root page: the head of the list of full pages. -/
def getFullPagesHead (page : FullPage) : PageId := getNextPage page

/-- On the root page: the head of the list of pages with room. -/
def getPartialPagesHead (page : FullPage) : PageId := getPrevPage page

/-- The end of the records, where the two links start. -/
def recordsEnd : Nat := 4088

/-! ### The links -/

variable {page page' : FullPage}

theorem getU32_setU32 (page : FullPage) {position : Nat} (fits : position + 4 ≤ pageSize)
    (value : UInt32) : getU32 (setU32 page position value) position = value := by
  have bound : value.toNat < 256 ^ 4 := value.toNat_lt
  rw [getU32, setU32, leValue_writeBytes page fits bound, UInt32.ofNat_toNat]

theorem getU32_setU32_apart (page : FullPage) {position other : Nat}
    (apart : position + 4 ≤ other ∨ other + 4 ≤ position) (value : UInt32) :
    getU32 (setU32 page position value) other = getU32 page other := by
  rw [getU32, setU32, readBytes_writeBytes_disjoint page (by rwa [length_leBytes]), getU32]

@[simp] theorem getNextPage_setNextPage (page : FullPage) (pageId : PageId) :
    getNextPage (setNextPage page pageId) = pageId := getU32_setU32 page (by decide) pageId

@[simp] theorem getPrevPage_setPrevPage (page : FullPage) (pageId : PageId) :
    getPrevPage (setPrevPage page pageId) = pageId := getU32_setU32 page (by decide) pageId

@[simp] theorem getNextPage_setPrevPage (page : FullPage) (pageId : PageId) :
    getNextPage (setPrevPage page pageId) = getNextPage page :=
  getU32_setU32_apart page (by decide) pageId

/-- What agrees above the records has the same next page. -/
theorem getNextPage_agree (agree : Agree page page' recordsEnd pageSize) :
    getNextPage page' = getNextPage page := by
  rw [getNextPage, getU32, readBytes_agree agree (by decide) (by decide), getNextPage, getU32]

theorem agree_setNextPage (page : FullPage) (pageId : PageId) :
    Agree page (setNextPage page pageId) 0 recordsEnd :=
  agree_writeBytes page (Or.inr (by decide))

theorem agree_setPrevPage (page : FullPage) (pageId : PageId) :
    Agree page (setPrevPage page pageId) 0 recordsEnd :=
  agree_writeBytes page (Or.inr (by decide))

/-! ### What a heap page holds -/

/-- The next page, the number of slots, and the record of each live slot. -/
structure Content where
  next : PageId
  count : Nat
  slots : SlotMap

/-- The page is a heap page with this content. -/
structure Shows (page : FullPage) (content : Content) : Prop where
  holds : Page.Holds page content.slots content.count recordsEnd
  next : getNextPage page = content.next

namespace Content

def empty : Content := ⟨nullPageId, 0, fun _ => none⟩

/-- The row in the next slot. -/
def insert (content : Content) (row : List UInt8) : Content where
  next := content.next
  count := content.count + 1
  slots := Function.update content.slots (UInt16.ofNat content.count) (some row)

def delete (content : Content) (slotId : SlotId) : Content where
  next := content.next
  count := content.count
  slots := Function.update content.slots slotId none

end Content

variable {content : Content}

namespace Shows

variable (shows_ : Shows page content)
include shows_

theorem live_iff {slotId : SlotId} :
    (content.slots slotId).isSome ↔
      slotId.toNat ∈ (Page.directory page).liveSlots content.count := shows_.holds.live slotId

/-- Only slots inside the directory hold records. -/
theorem below {slotId : SlotId} {row : List UInt8} (found : content.slots slotId = some row) :
    slotId.toNat < content.count := by
  have live := shows_.live_iff.mp (Option.isSome_iff_exists.mpr ⟨row, found⟩)
  exact (Page.Directory.mem_liveSlots.mp live).1

/-- The next slot has a slot id, and is not in use. -/
theorem nextSlot : (UInt16.ofNat content.count).toNat = content.count ∧
    content.slots (UInt16.ofNat content.count) = none := by
  have small := shows_.holds.wf.count_lt
  have number : (UInt16.ofNat content.count).toNat = content.count := by
    rw [UInt16.toNat_ofNat']
    omega
  refine ⟨number, Option.eq_none_iff_forall_ne_some.mpr fun row found => ?_⟩
  have below := shows_.below found
  omega

theorem capacity : (Page.getPageCapacity page).toNat = content.count :=
  Page.getPageCapacity_toNat shows_.holds.wf.hasSlots

/-- Setting the next page. -/
theorem setNextPage (pageId : PageId) :
    Shows (HeapPage.setNextPage page pageId) { content with next := pageId } where
  holds := shows_.holds.agree (agree_setNextPage page pageId)
  next := getNextPage_setNextPage page pageId

theorem isSlotDeleted {slotId : SlotId} (below : slotId.toNat < content.count) :
    Page.isSlotDeleted page slotId = .ok (content.slots slotId).isNone := by
  rw [Page.isSlotDeleted_eq shows_.holds.wf.hasSlots below]
  have live : (content.slots slotId).isSome ↔ (Page.slotAt page slotId.toNat).deleted = false :=
    shows_.live_iff.trans (Page.Directory.mem_liveSlots.trans (and_iff_right below))
  cases found : content.slots slotId with
  | none =>
      rw [found] at live
      have deleted := mt live.mpr Bool.false_ne_true
      rw [Bool.not_eq_false] at deleted
      rw [deleted, Option.isNone_none]
  | some row =>
      rw [found] at live
      rw [live.mp rfl, Option.isNone_some]

theorem readRecord {slotId : SlotId} {row : List UInt8} (found : content.slots slotId = some row) :
    Page.readRecord page slotId = .ok row := by
  have live := shows_.live_iff.mp (Option.isSome_iff_exists.mpr ⟨row, found⟩)
  rw [Page.readRecord_live shows_.holds.wf.hasSlots live, shows_.holds.records slotId row found]

/-- **Deleting a live slot.** -/
theorem deleteSlot {slotId : SlotId} {row : List UInt8} (found : content.slots slotId = some row) :
    ∃ page', Page.deleteSlot page slotId = .ok page' ∧ Shows page' (content.delete slotId) := by
  have live := shows_.live_iff.mp (Option.isSome_iff_exists.mpr ⟨row, found⟩)
  obtain ⟨page', run, edits⟩ := Page.deleteSlot_spec shows_.holds.wf live
  have wf := shows_.holds.wf
  refine ⟨page', run, shows_.holds.deleted live edits, ?_⟩
  have agree : Agree page page' recordsEnd pageSize := fun position above inside =>
    edits.agree position ((wf.order.trans wf.below).trans above) inside
  exact (getNextPage_agree agree).trans shows_.next

/-- **A record is placed in the next slot and the row copied into it.** -/
theorem copyRow {slotId : SlotId} {row : List UInt8} (next : slotId.toNat = content.count)
    (placed : Page.Placed page page' content.count recordsEnd slotId.toNat row.length) :
    ∃ slice, Page.writeRecord page' slotId = .ok slice ∧
      Shows (slice.write page' 0 row) (content.insert row) := by
  obtain ⟨_, length, holds⟩ := shows_.holds.placed placed
  have live := (holds.live slotId).mp (by rw [Function.update_self]; rfl)
  have isSlice := Page.recordSlice_live holds.wf.hasSlots live
  have fits : 0 + row.length ≤ (Page.slotAt page' slotId.toNat).size.toNat := by
    rw [placed.size, Nat.zero_add]
  have wrote := Page.writeSlice_spec holds.wf live isSlice fits
  have isSlot : UInt16.ofNat content.count = slotId := by
    rw [← next, UInt16.ofNat_toNat]
  have count : max content.count (slotId.toNat + 1) = content.count + 1 := by omega
  refine ⟨_, isSlice, ?_, ?_⟩
  · have written := holds.wrote live wrote
    rw [overwrite_all length.symm, Function.update_idem, count] at written
    rw [Content.insert, isSlot]
    exact written
  · have wf := placed.wf
    have placedAgree : Agree page page' recordsEnd pageSize := fun position above inside =>
      placed.agree position ((wf.order.trans wf.below).trans above) inside
    rw [getNextPage_agree wrote.agree, getNextPage_agree placedAgree]
    exact shows_.next

end Shows

/-! ### Fresh pages -/

/-- The page before its links are set. -/
theorem directory_beforeLinks (page : FullPage) :
    Page.directory (Page.setEndFreeSpace (Page.initPage page .data)
        (Page.getEndFreeSpace (Page.initPage page .data) - 4 * 2))
      = { Page.directory page with numTuples := 0, freeStart := 15, freeEnd := 4088 } := by
  have decoded := congrArg Page.Directory.freeEnd (Page.directory_initPage page .data)
  have ends : Page.getEndFreeSpace (Page.initPage page .data) = UInt16.ofNat pageSize := decoded
  have lowered : UInt16.ofNat pageSize - 4 * 2 = 4088 := by decide
  rw [Page.directory_setEndFreeSpace, Page.directory_initPage, ends, lowered]

theorem agree_links (page : FullPage) :
    Agree page (setPrevPage (setNextPage page nullPageId) nullPageId) 0 recordsEnd :=
  fun position above below =>
    (agree_setPrevPage _ nullPageId position above below).trans
      (agree_setNextPage page nullPageId position above below)

/-- **A fresh page is empty and ends its list.** -/
theorem initPage_shows (page : FullPage) : Shows (initPage page) Content.empty := by
  have wf : (Page.directory (Page.setEndFreeSpace (Page.initPage page .data)
      (Page.getEndFreeSpace (Page.initPage page .data) - 4 * 2))).Wf 0 recordsEnd := by
    rw [directory_beforeLinks]
    exact Page.Directory.wf_empty rfl rfl rfl (by decide) (by decide)
  refine ⟨(Page.holds_empty wf).agree (agree_links _), ?_⟩
  rw [initPage, getNextPage_setPrevPage, getNextPage_setNextPage]
  rfl

theorem getPrevPage_initPage (page : FullPage) : getPrevPage (initPage page) = nullPageId := by
  rw [initPage, getPrevPage_setPrevPage]

/-- A fresh page has room for an entry and a row of 4068 bytes. -/
theorem freeSpace_initPage (page : FullPage) : Page.freeSpace (initPage page) = 5 + 4068 := by
  have decoded := directory_beforeLinks page
  have order : Page.entryAt 0 ≤ recordsEnd := by decide
  have same := Page.sameDirectory_of_agree fun position above below =>
    agree_links (Page.setEndFreeSpace (Page.initPage page .data)
      (Page.getEndFreeSpace (Page.initPage page .data) - 4 * 2)) position above
      (below.trans_le order)
  have starts := same.freeStart.trans (congrArg Page.Directory.freeStart decoded)
  have ends := same.freeEnd.trans (congrArg Page.Directory.freeEnd decoded)
  rw [Page.freeSpace, initPage, starts, ends]
  rfl

end HeapPage

end Yadb
