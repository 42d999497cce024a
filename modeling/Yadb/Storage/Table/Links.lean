/-
**The links of a table file.**

The data pages of a table are a list through their next pages, whose head the root page keeps in its
own link. `insert_row` links a new page behind the last one, and sets no previous page.

* `Walled`: a page whose records end below its links, whatever its tuple count says; any row can be
  allocated on it and any slot deleted (`Walled.allocateRow`, `Walled.deleteSlot`).
* `Growing`: the list of a file through any calls, with every previous page null. A call leaves the
  list as it is, or appends a new page (`insertRow_grows`, `deleteRow_grows`).
* `doublyLinked_iff`: the list is doubly linked in every state of a run exactly when no call of the
  run links a page behind another.
-/

import Yadb.Storage.Heap.Links
import Yadb.Storage.Table.RowLength

namespace Yadb

open Foundation

/-! ### Pages -/

namespace HeapPage

variable {page page' : FullPage} {count : Nat}

/-- A delete asks only whether the slot is one of the directory. -/
theorem deleteSlot_cases (page : FullPage) (slotId : SlotId) :
    (slotId < Page.getPageCapacity page ∧ ∃ page', Page.deleteSlot page slotId = .ok page') ∨
      (¬ slotId < Page.getPageCapacity page ∧
        ∃ failure, Page.deleteSlot page slotId = .error failure) := by
  have start : Page.getStartFreeSpace (Page.setNumTuples page (Page.getNumTuples page - 1))
      = Page.getStartFreeSpace page := getU16_setU16_apart page (by decide) _
  have capacity : Page.getPageCapacity (Page.setNumTuples page (Page.getNumTuples page - 1))
      = Page.getPageCapacity page := congrArg Page.entriesBefore start
  rw [Page.deleteSlot, Page.setSlotDeleted, Page.checkSlot, capacity]
  by_cases below : slotId < Page.getPageCapacity page
  · rw [if_pos below]
    exact Or.inl ⟨below, _, rfl⟩
  · rw [if_neg below]
    exact Or.inr ⟨below, _, rfl⟩

/-- The entries and the records keep below the links. -/
structure Walled (page : FullPage) (count : Nat) : Prop where
  slots : (Page.directory page).HasSlots count
  order : Page.entryAt count ≤ (Page.directory page).freeEnd.toNat
  below : (Page.directory page).freeEnd.toNat ≤ recordsEnd

theorem walled_initPage (page : FullPage) : Walled (initPage page) 0 := by
  have wf := (initPage_shows page).holds.wf
  exact ⟨wf.hasSlots, wf.order, wf.below⟩

namespace Walled

variable (walled : Walled page count)
include walled

theorem freeSpace : Page.freeSpace page
    = (Page.directory page).freeEnd.toNat - Page.entryAt count := by
  rw [Page.freeSpace, ← walled.slots.start]
  rfl

theorem getFreeSpaceSize : (Page.getFreeSpaceSize page).toNat = Page.freeSpace page := by
  have order := walled.order
  rw [← walled.slots.start] at order
  exact UInt16.toNat_sub_of_le _ _ order

/-- A page with the same directory. -/
theorem same (same : Page.SameDirectory page page' count) : Walled page' count := by
  refine ⟨⟨?_, walled.slots.inside⟩, ?_, ?_⟩
  · exact (congrArg UInt16.toNat same.freeStart).trans walled.slots.start
  · exact walled.order.trans_eq (congrArg UInt16.toNat same.freeEnd).symm
  · exact (congrArg UInt16.toNat same.freeEnd).trans_le walled.below

/-- What agrees below the links. -/
theorem agree (agree : Agree page page' 0 recordsEnd) : Walled page' count :=
  walled.same (Page.sameDirectory_of_agree fun position above below =>
    agree position above (below.trans_le (walled.order.trans walled.below)))

/-- **A slot is allocated and the row copied into it**, if the page has room for both. -/
theorem allocateRow {row : List UInt8} (short : row.length < 2 ^ 63) :
    (Page.freeSpace page < 5 + row.length ∧
        Page.allocateSlot page (UInt64.ofNat row.length) = .ok (none, page)) ∨
      (5 + row.length ≤ Page.freeSpace page ∧ ∃ slotId page' page'',
        Page.allocateSlot page (UInt64.ofNat row.length) = .ok (some slotId, page') ∧
        DiskTable.copyRow page' slotId row = .ok page'' ∧ Walled page'' (count + 1) ∧
        Agree page page'' recordsEnd pageSize) := by
  have length := DiskTable.rowSize_toNat short
  have size := Page.entrySize_add (Page.entry_fits (length ▸ short))
  have full : slotEntry.size.toUInt64 + UInt64.ofNat row.length
      > (Page.getFreeSpaceSize page).toUInt64 ↔ Page.freeSpace page < 5 + row.length := by
    rw [gt_iff_lt, UInt64.lt_iff_toNat_lt, UInt16.toNat_toUInt64, walled.getFreeSpaceSize, size,
      length]
  by_cases room : 5 + row.length ≤ Page.freeSpace page
  · have free := walled.freeSpace
    have order := walled.order
    have below := walled.below
    have next : Page.entryAt (count + 1) = Page.entryAt count + 5 := by
      unfold Page.entryAt
      omega
    have ended : (Page.getEndFreeSpace page).toNat = (Page.directory page).freeEnd.toNat := rfl
    have taken : (Page.takeSpace page (UInt64.ofNat row.length)).1.toNat = _ :=
      (Page.takeSpace_eq page ended (by omega)).1
    rw [length] at taken
    unfold recordsEnd at *
    obtain ⟨slotId, page', run, index, edits⟩ := Page.allocateSlot_edits walled.slots
      (by unfold pageSize; omega) (mt full.mp (Nat.not_lt.mpr room))
    generalize (Page.takeSpace page (UInt64.ofNat row.length)).1 = offset at *
    have decoded := edits.decoded
    have slots : (Page.directory page').HasSlots (count + 1) := by
      rw [decoded]
      refine ⟨?_, by unfold pageSize; omega⟩
      show ((Page.directory page).freeStart + slotEntry.size).toNat = _
      rw [UInt16.toNat_add, walled.slots.start, show slotEntry.size.toNat = 5 from rfl]
      omega
    have ends : (Page.directory page').freeEnd = offset := by
      rw [decoded]
      rfl
    have isSlot : Page.slotAt page' slotId.toNat
        = ⟨false, offset, (UInt64.ofNat row.length).toUInt16⟩ := by
      have slot := congrFun (congrArg Page.Directory.slot decoded) slotId.toNat
      rw [index] at slot ⊢
      exact slot.trans (Function.update_self _ _ _)
    have live : slotId.toNat ∈ (Page.directory page').liveSlots (count + 1) :=
      Page.Directory.mem_liveSlots.mpr ⟨by omega, congrArg Page.Slot.deleted isSlot⟩
    have isSlice := Page.recordSlice_live slots live
    rw [isSlot] at isSlice
    have wrote : ∀ position, position < offset.toNat ∨ offset.toNat + row.length ≤ position →
        byteAt (writeBytes page' (offset.toNat + 0) row) position = byteAt page' position :=
      fun position outside => byteAt_writeBytes_outside page' (by omega)
    have walled' : Walled page' (count + 1) :=
      ⟨slots, by rw [ends]; omega, by rw [ends]; unfold recordsEnd; omega⟩
    refine Or.inr ⟨room, slotId, page', writeBytes page' (offset.toNat + 0) row, run, ?_, ?_, ?_⟩
    · rw [DiskTable.copyRow, Page.writeRecord, isSlice]
      rfl
    · exact walled'.same (Page.sameDirectory_of_agree fun position _ below =>
        wrote position (Or.inl (by omega)))
    · intro position above inside
      rw [wrote position (Or.inr (by omega))]
      exact edits.agree position (by omega) inside
  · exact Or.inl ⟨Nat.not_le.mp room, if_pos (full.mpr (Nat.not_le.mp room))⟩

/-- **Any slot of the directory can be deleted**, again and again. -/
theorem deleteSlot {slotId : SlotId} (below : slotId.toNat < count) :
    ∃ page', Page.deleteSlot page slotId = .ok page' ∧ Walled page' count ∧
      Page.freeSpace page' = Page.freeSpace page ∧ Agree page page' recordsEnd pageSize := by
  have counted := Page.edits_setNumTuples page (Page.getNumTuples page - 1) count
  have slots : (Page.directory (Page.setNumTuples page (Page.getNumTuples page - 1))).HasSlots
      count := by
    rw [counted.decoded]
    exact ⟨walled.slots.start, walled.slots.inside⟩
  obtain ⟨page', run, edits⟩ := Page.setSlotDeleted_edits slots below true
  have all := counted.trans edits
  have starts : (Page.directory page').freeStart = (Page.directory page).freeStart := by
    rw [all.decoded, counted.decoded]
    rfl
  have ends : (Page.directory page').freeEnd = (Page.directory page).freeEnd := by
    rw [all.decoded, counted.decoded]
    rfl
  have walled' : Walled page' count :=
    ⟨⟨starts ▸ walled.slots.start, walled.slots.inside⟩, ends ▸ walled.order, ends ▸ walled.below⟩
  refine ⟨page', run, walled', ?_, fun position above inside => ?_⟩
  · rw [walled'.freeSpace, walled.freeSpace, ends]
  · exact all.agree position ((walled.order.trans walled.below).trans above) inside

end Walled

end HeapPage

namespace DiskTable

/-! ### The list -/

/-- The previous page of each page of the file. -/
def prevLink (store : PageStore) (fileId : FileId) (pageId : PageId) : Option PageId :=
  (store.pages ⟨fileId, pageId⟩).map HeapPage.getPrevPage

/-- The next pages lead from the head in the root through each page of the list once and end in the
null page, which is the previous page of the head. -/
def ForwardLinked (fileId : FileId) (store : PageStore) : Prop :=
  ∃ pages, PartialList store fileId pages ∧ pages.Nodup ∧
    ∀ head ∈ pages.head?, prevLink store fileId head = some nullPageId

/-- And the previous page of each page is the one that leads to it. -/
def DoublyLinked (fileId : FileId) (store : PageStore) : Prop :=
  ForwardLinked fileId store ∧
    ∀ pages, PartialList store fileId pages → ∀ pageId ∈ pages, ∀ following ∈ pages,
      nextLink store fileId pageId = some following →
        prevLink store fileId following = some pageId

/-- The list has a page. -/
def HasPages (store : PageStore) (fileId : FileId) : Prop :=
  ∃ root, store.pages ⟨fileId, rootPageId⟩ = some root ∧
    HeapPage.getPartialPagesHead root ≠ nullPageId

/-- The row goes to a new page: no page of the list has room for it, the disk hands out a page, and
the row fits there. -/
def NeedsPage (store : PageStore) (fileId : FileId) (row : List UInt8) (fresh : FreshPage) : Prop :=
  ¬ HasRoom store fileId row ∧ HandsOut store fileId fresh ∧ FitsFreshPage row

/-- The row id names a slot of a page of the file, in use or not. -/
def NamesSlot (store : PageStore) (fileId : FileId) (rowId : RowId) : Prop :=
  ∃ page, store.pages ⟨fileId, getPageIdFromRowId rowId⟩ = some page ∧
    getSlotIdFromRowId rowId < Page.getPageCapacity page

/-- The call links a new page behind a page of the list. -/
def LinksBehind (fileId : FileId) (store : PageStore) : TableOp → Prop
  | .insertRow row fresh => HasPages store fileId ∧ NeedsPage store fileId row fresh
  | .updateRow rowId row fresh => NamesSlot store fileId rowId ∧ HasPages store fileId ∧
      NeedsPage store fileId row fresh
  | .deleteRow _ => False

/-- The row of a call is no longer than a span can be. -/
def SpanLength : TableOp → Prop
  | .insertRow row _ | .updateRow _ row _ => row.length < 2 ^ 63
  | .deleteRow _ => True

/-! ### The invariant -/

/-- The list of a file: its pages are walled off from their links, and no previous page is set. -/
structure Growing (store : PageStore) (fileId : FileId) (pages : List PageId) : Prop where
  file : store.files fileId = true
  root : ∃ root, store.pages ⟨fileId, rootPageId⟩ = some root ∧ Page.getPageCapacity root = 0
  list : PartialList store fileId pages
  page : ∀ pageId ∈ pages, ∃ page count, store.pages ⟨fileId, pageId⟩ = some page ∧
    HeapPage.Walled page count ∧ HeapPage.getPrevPage page = nullPageId
  rootApart : rootPageId ∉ pages

variable {store store' : PageStore} {fileId : FileId} {pages rest : List PageId} {pageId : PageId}
  {row : List UInt8} {fresh : FreshPage}

/-- There is one list. -/
theorem PartialList.unique {pages' : List PageId} (list : PartialList store fileId pages)
    (list' : PartialList store fileId pages') : pages = pages' := by
  obtain ⟨root, isRoot, chain⟩ := list
  obtain ⟨root', isRoot', chain'⟩ := list'
  cases isRoot.symm.trans isRoot'
  exact (chain.unique chain').symm

theorem PartialList.hasPages_iff (list : PartialList store fileId pages) :
    HasPages store fileId ↔ pages ≠ [] := by
  obtain ⟨root, isRoot, chain⟩ := list
  constructor
  · rintro ⟨root', isRoot', notNull⟩ rfl
    cases isRoot.symm.trans isRoot'
    exact notNull chain
  · intro some
    refine ⟨root, isRoot, fun ended => some ?_⟩
    have empty : Chain (nextLink store fileId) nullPageId _ [] := ended
    exact chain.unique empty |>.symm

theorem PartialList.hasRoom_iff (list : PartialList store fileId pages) :
    HasRoom store fileId row ↔ ∃ pageId ∈ pages, 5 + row.length ≤ freeSpaceOn store fileId pageId := by
  constructor
  · rintro ⟨pages', list', room⟩
    rwa [list.unique list']
  · intro room
    exact ⟨pages, list, room⟩

namespace Growing

variable (growing : Growing store fileId pages)
include growing

/-- **Pages are rewritten below their links.** -/
theorem rewritten (files : store'.files fileId = true)
    (root : store'.pages ⟨fileId, rootPageId⟩ = store.pages ⟨fileId, rootPageId⟩)
    (page : ∀ pageId ∈ pages, ∀ page count, store.pages ⟨fileId, pageId⟩ = some page →
      HeapPage.Walled page count → ∃ page' count', store'.pages ⟨fileId, pageId⟩ = some page' ∧
        HeapPage.Walled page' count' ∧ Agree page page' HeapPage.recordsEnd pageSize) :
    Growing store' fileId pages := by
  refine ⟨files, ?_, ?_, fun pageId member => ?_, growing.rootApart⟩
  · rw [root]
    exact growing.root
  · obtain ⟨rootPage, isRoot, chain⟩ := growing.list
    refine ⟨rootPage, root.trans isRoot, chain.congr fun pageId member => ?_⟩
    obtain ⟨old, count, isPage, walled, _⟩ := growing.page pageId member
    obtain ⟨page', _, isPage', _, agree⟩ := page pageId member old count isPage walled
    rw [nextLink, isPage', nextLink, isPage, Option.map_some, Option.map_some,
      HeapPage.getNextPage_agree agree]
  · obtain ⟨old, count, isPage, walled, prev⟩ := growing.page pageId member
    obtain ⟨page', count', isPage', walled', agree⟩ := page pageId member old count isPage walled
    exact ⟨page', count', isPage', walled', (HeapPage.getPrevPage_agree agree).trans prev⟩

/-- One page is rewritten below its links. -/
theorem put (notRoot : pageId ≠ rootPageId) {page page' : FullPage}
    (isPage : store.pages ⟨fileId, pageId⟩ = some page)
    (walled : pageId ∈ pages → ∃ count, HeapPage.Walled page' count ∧
      Agree page page' HeapPage.recordsEnd pageSize) :
    Growing (store.put ⟨fileId, pageId⟩ page') fileId pages := by
  refine growing.rewritten growing.file ?_ fun other member old count isOld oldWalled => ?_
  · exact PageStore.put_other (Ne.symm notRoot) page'
  · rw [PageStore.put_pages isPage]
    by_cases same : other = pageId
    · subst same
      cases isPage.symm.trans isOld
      obtain ⟨count', walled', agree⟩ := walled member
      exact ⟨page', count', Function.update_self .., walled', agree⟩
    · refine ⟨old, count, ?_, oldWalled, fun _ _ _ => rfl⟩
      rw [Function.update_of_ne]
      · exact isOld
      · exact fun equal => same (congrArg FilePageId.pageId equal)

/-- The links of the file say it all: the list is doubly linked while it has no second page. -/
theorem doublyLinked_iff_length : DoublyLinked fileId store ↔ pages.length ≤ 1 := by
  obtain ⟨root, isRoot, chain⟩ := growing.list
  constructor
  · rintro ⟨_, back⟩
    rcases pages with - | ⟨first, - | ⟨second, rest⟩⟩
    · exact Nat.zero_le 1
    · exact Nat.le_refl 1
    · -- the second page names no previous page
      obtain ⟨_, notNull, following, link, isSecond, _⟩ := chain
      have member : second ∈ first :: second :: rest :=
        List.mem_cons_of_mem first List.mem_cons_self
      have linked := back _ growing.list first List.mem_cons_self second member (isSecond ▸ link)
      obtain ⟨page, _, isPage, _, prev⟩ := growing.page second member
      rw [prevLink, isPage, Option.map_some, prev, Option.some.injEq] at linked
      exact absurd linked.symm notNull
  · intro short
    refine ⟨⟨pages, growing.list, chain.nodup, fun head isHead => ?_⟩, ?_⟩
    · obtain ⟨page, _, isPage, _, prev⟩ := growing.page head (List.mem_of_mem_head? isHead)
      rw [prevLink, isPage, Option.map_some, prev]
    · intro pages' list' pageId member following isFollowing link
      cases growing.list.unique list'
      -- a page alone on its list leads to none
      rcases pages with - | ⟨first, - | ⟨second, rest⟩⟩
      · cases member
      · cases List.mem_singleton.mp member
        cases List.mem_singleton.mp isFollowing
        have isFirst := chain.1
        exact absurd (isFirst ▸ link) (chain.start_unlinked List.mem_cons_self)
      · rw [List.length_cons, List.length_cons] at short
        omega

theorem forwardLinked : ForwardLinked fileId store := by
  obtain ⟨root, isRoot, chain⟩ := growing.list
  refine ⟨pages, growing.list, chain.nodup, fun head isHead => ?_⟩
  obtain ⟨page, _, isPage, _, prev⟩ := growing.page head (List.mem_of_mem_head? isHead)
  rw [prevLink, isPage, Option.map_some, prev]

/-! ### The calls -/

theorem notRoot (member : pageId ∈ pages) : pageId ≠ rootPageId := fun same =>
  growing.rootApart (same ▸ member)

/-- **One turn of the walk** finds no room on a page of the list, or inserts the row there. -/
theorem tryPage (member : pageId ∈ pages) (short : row.length < 2 ^ 63) :
    (freeSpaceOn store fileId pageId < 5 + row.length ∧
        ∃ following, nextLink store fileId pageId = some following ∧
          DiskTable.tryPage store fileId pageId row = .ok (.full following, store)) ∨
      (5 + row.length ≤ freeSpaceOn store fileId pageId ∧ ∃ rowId store',
        DiskTable.tryPage store fileId pageId row = .ok (.inserted rowId, store') ∧
        Growing store' fileId pages) := by
  obtain ⟨page, count, isPage, walled, prev⟩ := growing.page pageId member
  rw [DiskTable.tryPage, mustGetPage_eq growing.file isPage, ok_bind, freeSpaceOn_eq isPage]
  rcases walled.allocateRow short with ⟨full, run⟩ | ⟨room, slotId, page', page'', run, copied, after⟩
  · refine Or.inl ⟨full, HeapPage.getNextPage page, ?_, ?_⟩
    · rw [nextLink, isPage]
      rfl
    · rw [run]
      rfl
  · refine Or.inr ⟨room, makeRowId pageId slotId, store.put ⟨fileId, pageId⟩ page'', ?_,
      growing.put (growing.notRoot member) isPage fun _ => ⟨_, after⟩⟩
    rw [run]
    show (mustEdit (copyRow page' slotId row) >>= _) = _
    rw [copied]
    rfl

/-- **The walk** along the rest of the list inserts the row where there is room, and otherwise ends
with the last page of the list in hand. -/
theorem walk (short : row.length < 2 ^ 63) (last : PageId) {next : PageId}
    (chain : Chain (nextLink store fileId) nullPageId next rest) (part : ∀ pageId ∈ rest,
      pageId ∈ pages) {turns : Nat} (enough : rest.length < turns) :
    ((∃ pageId ∈ rest, 5 + row.length ≤ freeSpaceOn store fileId pageId) ∧ ∃ rowId store',
        DiskTable.walk fileId row turns store last next = .ok (.inl rowId, store') ∧
        Growing store' fileId pages) ∨
      ((¬ ∃ pageId ∈ rest, 5 + row.length ≤ freeSpaceOn store fileId pageId) ∧
        DiskTable.walk fileId row turns store last next
          = .ok (.inr (rest.getLast?.getD last), store)) := by
  induction rest generalizing last next turns with
  | nil =>
      obtain ⟨turns, rfl⟩ : ∃ fewer, turns = fewer + 1 := ⟨turns - 1, by omega⟩
      have ended : next = nullPageId := chain
      exact Or.inr ⟨nofun, if_pos ended⟩
  | cons pageId rest ih =>
      rw [List.length_cons] at enough
      obtain ⟨turns, rfl⟩ : ∃ fewer, turns = fewer + 1 := ⟨turns - 1, by omega⟩
      obtain ⟨rfl, notNull, following, link, chain⟩ := chain
      obtain ⟨isPart, restPart⟩ := List.forall_mem_cons.mp part
      rw [DiskTable.walk, if_neg notNull]
      rcases growing.tryPage isPart short with
        ⟨full, other, isOther, run⟩ | ⟨room, rowId, store', run, growing'⟩
      · cases link.symm.trans isOther
        have lastOf : (next :: rest).getLast?.getD last = rest.getLast?.getD next := by
          cases rest with
          | nil => rfl
          | cons second others => rfl
        rw [run, ok_bind, lastOf]
        refine (ih next chain restPart (Nat.lt_of_succ_lt_succ enough)).imp ?_ ?_
        · rintro ⟨⟨roomy, member, room⟩, inserted⟩
          exact ⟨⟨roomy, List.mem_cons_of_mem next member, room⟩, inserted⟩
        · rintro ⟨none, walked⟩
          refine ⟨?_, walked⟩
          rintro ⟨roomy, member, room⟩
          rcases List.mem_cons.mp member with rfl | later
          · omega
          · exact none ⟨roomy, later, room⟩
      · rw [run]
        exact Or.inl ⟨⟨next, List.mem_cons_self, room⟩, rowId, store', rfl, growing'⟩

/-- A page was added to the file. -/
theorem allocated {grown : PageStore} (noPage : store.pages ⟨fileId, pageId⟩ = none)
    (sameFiles : grown.files = store.files) {bytes : FullPage}
    (added : grown.pages = Function.update store.pages ⟨fileId, pageId⟩ (some bytes)) :
    Growing grown fileId pages ∧ pageId ∉ rootPageId :: pages := by
  have others : ∀ other page, store.pages ⟨fileId, other⟩ = some page →
      other ≠ pageId ∧ grown.pages ⟨fileId, other⟩ = some page := by
    intro other page isPage
    have apart : other ≠ pageId := by
      rintro rfl
      cases noPage.symm.trans isPage
    refine ⟨apart, ?_⟩
    rw [added, Function.update_of_ne]
    · exact isPage
    · exact fun same => apart (congrArg FilePageId.pageId same)
  obtain ⟨root, isRoot, _⟩ := growing.root
  refine ⟨growing.rewritten (sameFiles ▸ growing.file) ?_ fun other _ page count isPage walled =>
    ⟨page, count, (others other page isPage).2, walled, fun _ _ _ => rfl⟩, fun member => ?_⟩
  · rw [(others _ _ isRoot).2, isRoot]
  · rcases List.mem_cons.mp member with rfl | member
    · exact (others _ _ isRoot).1 rfl
    · obtain ⟨page, _, isPage, _⟩ := growing.page pageId member
      exact (others _ _ isPage).1 rfl

/-- **A new page gets the row**, if it fits there. -/
theorem fillNewPage (short : row.length < 2 ^ 63) {bytes : FullPage}
    (isPage : store.pages ⟨fileId, pageId⟩ = some bytes) (apart : pageId ∉ rootPageId :: pages) :
    (¬ FitsFreshPage row ∧ DiskTable.fillNewPage store fileId pageId row = .error .emptyOptional) ∨
      (FitsFreshPage row ∧ ∃ rowId filled page count,
        DiskTable.fillNewPage store fileId pageId row = .ok (rowId, filled) ∧
        filled.pages ⟨fileId, pageId⟩ = some page ∧ HeapPage.Walled page count ∧
        HeapPage.getNextPage page = nullPageId ∧ HeapPage.getPrevPage page = nullPageId ∧
        Growing filled fileId pages) := by
  obtain ⟨notRoot, outside⟩ := not_or.mp (mt List.mem_cons.mpr apart)
  have empty := HeapPage.walled_initPage bytes
  have free := HeapPage.freeSpace_initPage bytes
  have ends := (HeapPage.initPage_shows bytes).next
  rw [DiskTable.fillNewPage, mustGetPage_eq growing.file isPage, ok_bind]
  rcases empty.allocateRow short with
    ⟨full, run⟩ | ⟨room, slotId, page', page'', run, copied, walled, agree⟩
  · rw [free] at full
    refine Or.inl ⟨fun fits => ?_, ?_⟩
    · unfold FitsFreshPage at fits
      omega
    · rw [run]
      rfl
  · rw [free] at room
    refine Or.inr ⟨show row.length ≤ 4068 by omega, makeRowId pageId slotId,
      store.put ⟨fileId, pageId⟩ page'', page'', _, ?_, ?_, walled, ?_, ?_,
      growing.put notRoot isPage fun member => absurd member outside⟩
    · rw [run]
      show (mustEdit (copyRow page' slotId row) >>= _) = _
      rw [copied]
      rfl
    · exact PageStore.put_self isPage page''
    · exact (HeapPage.getNextPage_agree agree).trans ends
    · exact (HeapPage.getPrevPage_agree agree).trans (HeapPage.getPrevPage_initPage bytes)

omit growing in
/-- The root names the first page. -/
theorem linkFirst {new : PageId} (empty : Growing store fileId []) (notRoot : new ≠ rootPageId)
    (notNull : new ≠ nullPageId) {page : FullPage} {count : Nat}
    (isPage : store.pages ⟨fileId, new⟩ = some page) (walled : HeapPage.Walled page count)
    (next : HeapPage.getNextPage page = nullPageId)
    (prev : HeapPage.getPrevPage page = nullPageId) :
    ∃ linked, DiskTable.linkPage store fileId nullPageId new = .ok linked ∧
      Growing linked fileId [new] := by
  obtain ⟨root, isRoot, noSlots⟩ := empty.root
  have rootNow := PageStore.put_self isRoot (HeapPage.setPrevPage root new)
  have newNow : (store.put ⟨fileId, rootPageId⟩ (HeapPage.setPrevPage root new)).pages
      ⟨fileId, new⟩ = some page := (PageStore.put_other notRoot _).trans isPage
  refine ⟨store.put ⟨fileId, rootPageId⟩ (HeapPage.setPrevPage root new), ?_, empty.file,
    ⟨_, rootNow, ?_⟩, ⟨_, rootNow, ?_⟩, fun other member => ?_, ?_⟩
  · rw [DiskTable.linkPage, if_pos rfl, mustGetPage_eq empty.file isRoot]
    rfl
  · have same : Page.getStartFreeSpace (HeapPage.setPrevPage root new)
        = Page.getStartFreeSpace root :=
      getU16_agree (HeapPage.agree_setPrevPage root new) (Nat.zero_le _) (by decide)
    rw [Page.getPageCapacity, same]
    exact noSlots
  · rw [HeapPage.getPartialPagesHead, HeapPage.getPrevPage_setPrevPage]
    refine Chain.singleton notNull ?_
    rw [nextLink, newNow, Option.map_some, next]
  · cases List.mem_singleton.mp member
    exact ⟨page, count, newNow, walled, prev⟩
  · exact fun member => notRoot (List.mem_singleton.mp member).symm

omit growing in
/-- The last page of the list names the new page. -/
theorem linkBehind {before : List PageId} {last new : PageId}
    (growing : Growing store fileId (before ++ [last])) (notRoot : new ≠ rootPageId)
    (outside : new ∉ before ++ [last]) (notNull : new ≠ nullPageId) {page : FullPage} {count : Nat}
    (isPage : store.pages ⟨fileId, new⟩ = some page) (walled : HeapPage.Walled page count)
    (next : HeapPage.getNextPage page = nullPageId)
    (prev : HeapPage.getPrevPage page = nullPageId) :
    ∃ linked, DiskTable.linkPage store fileId last new = .ok linked ∧
      Growing linked fileId (before ++ [last] ++ [new]) := by
  obtain ⟨root, isRoot, noSlots⟩ := growing.root
  obtain ⟨_, isRoot', chain⟩ := growing.list
  cases isRoot.symm.trans isRoot'
  have isLast : last ∈ before ++ [last] := List.mem_append_right before (List.mem_singleton.mpr rfl)
  obtain ⟨lastPage, lastCount, isLastPage, lastWalled, lastPrev⟩ := growing.page last isLast
  have lastNotNull : last ≠ nullPageId := fun same => chain.null_notMem (same ▸ isLast)
  have ends : nextLink store fileId last = some nullPageId := chain.last_ends
  have lastNotRoot := growing.notRoot isLast
  have others : ∀ other, other ≠ last →
      (store.put ⟨fileId, last⟩ (HeapPage.setNextPage lastPage new)).pages ⟨fileId, other⟩
        = store.pages ⟨fileId, other⟩ :=
    fun other apart => PageStore.put_other apart _
  have lastNow := PageStore.put_self isLastPage (HeapPage.setNextPage lastPage new)
  have links : nextLink (store.put ⟨fileId, last⟩ (HeapPage.setNextPage lastPage new)) fileId
      = Function.update (nextLink store fileId) last (some new) := by
    funext other
    by_cases same : other = last
    · rw [same, Function.update_self, nextLink, lastNow, Option.map_some,
        HeapPage.getNextPage_setNextPage]
    · rw [Function.update_of_ne same, nextLink, others other same, nextLink]
  have newEnds : nextLink store fileId new = some nullPageId := by
    rw [nextLink, isPage, Option.map_some, next]
  have rootNow := (others rootPageId (Ne.symm lastNotRoot)).trans isRoot
  refine ⟨store.put ⟨fileId, last⟩ (HeapPage.setNextPage lastPage new), ?_, growing.file,
    ⟨root, rootNow, noSlots⟩, ⟨root, rootNow, ?_⟩, fun other member => ?_, fun member => ?_⟩
  · rw [DiskTable.linkPage, if_neg lastNotNull, mustGetPage_eq growing.file isLastPage]
    rfl
  · rw [links]
    exact chain.append isLast ends outside notNull newEnds
  · by_cases same : other = last
    · subst same
      exact ⟨_, lastCount, lastNow, lastWalled.agree (HeapPage.agree_setNextPage lastPage new),
        (HeapPage.getPrevPage_setNextPage lastPage new).trans lastPrev⟩
    · rcases List.mem_append.mp member with old | isNew
      · obtain ⟨oldPage, oldCount, isOld, kept⟩ := growing.page other old
        exact ⟨oldPage, oldCount, (others other same).trans isOld, kept⟩
      · cases List.mem_singleton.mp isNew
        exact ⟨page, count, (others _ same).trans isPage, walled, prev⟩
  · rcases List.mem_append.mp member with old | isNew
    · exact growing.rootApart old
    · exact notRoot (List.mem_singleton.mp isNew).symm

/-- **A page is linked where the list ends.** -/
theorem linkPage {new : PageId} (apart : new ∉ rootPageId :: pages) (notNull : new ≠ nullPageId)
    {page : FullPage} {count : Nat} (isPage : store.pages ⟨fileId, new⟩ = some page)
    (walled : HeapPage.Walled page count) (next : HeapPage.getNextPage page = nullPageId)
    (prev : HeapPage.getPrevPage page = nullPageId) :
    ∃ linked, DiskTable.linkPage store fileId (pages.getLast?.getD nullPageId) new = .ok linked ∧
      Growing linked fileId (pages ++ [new]) := by
  obtain ⟨notRoot, outside⟩ := not_or.mp (mt List.mem_cons.mpr apart)
  rcases List.eq_nil_or_concat pages with rfl | ⟨before, last, rfl⟩
  · exact growing.linkFirst notRoot notNull isPage walled next prev
  · rw [List.concat_eq_append] at *
    rw [List.getLast?_concat, Option.getD_some]
    exact growing.linkBehind notRoot outside notNull isPage walled next prev

/-- **`insert_row`** writes the row on a page of the list, appends a page to the list, or fails. -/
theorem insertRow_grows (short : row.length < 2 ^ 63) (fresh : FreshPage) :
    (¬ NeedsPage store fileId row fresh ∧
        ((∃ failure, insertRow store fileId row fresh = .error failure ∧
            (FitsFreshPage row → ∃ error, failure = .allocatePage error)) ∨
          ∃ rowId store', insertRow store fileId row fresh = .ok (rowId, store') ∧
            Growing store' fileId pages)) ∨
      (NeedsPage store fileId row fresh ∧ ∃ rowId store',
        insertRow store fileId row fresh = .ok (rowId, store') ∧
        Growing store' fileId (pages ++ [fresh.pageId])) := by
  obtain ⟨root, isRoot, chain⟩ := growing.list
  have distinct : (nullPageId :: pages).Nodup :=
    List.nodup_cons.mpr ⟨chain.null_notMem, chain.nodup⟩
  have enough : pages.length < pageTurns := by
    have length := length_le_of_nodup UInt32.toNat (distinct.map fun _ _ => UInt32.toNat.inj)
      fun pageId _ => pageId.toNat_lt
    rwa [List.length_cons] at length
  have roomIff : HasRoom store fileId row ↔ _ := growing.list.hasRoom_iff
  rw [NeedsPage, roomIff, insertRow, readPartialHead, mustGetPage_eq growing.file isRoot, ok_bind,
    pure_bind]
  rcases growing.walk short nullPageId chain (fun _ member => member) enough with
    ⟨room, rowId, store', run, growing'⟩ | ⟨noRoom, run⟩
  · refine Or.inl ⟨fun needs => needs.1 room, Or.inr ⟨rowId, store', ?_, growing'⟩⟩
    rw [run]
    rfl
  · by_cases handsOut : HandsOut store fileId fresh
    · rcases allocatePage_cases store fileId fresh with
        ⟨error, failed⟩ | ⟨grown, allocated, _, noPage, notNull, sameFiles, added⟩
      · exact absurd handsOut (allocatePage_error_iff.mp ⟨error, failed⟩)
      · obtain ⟨growing', apart⟩ := growing.allocated noPage sameFiles added
        have isPage : grown.pages ⟨fileId, fresh.pageId⟩ = some fresh.bytes := by
          rw [added, Function.update_self]
        rcases growing'.fillNewPage short isPage apart with
          ⟨long, failed⟩ | ⟨fits, rowId, filled, page, count, filledRun, isFilled, walled, next, prev,
            growing''⟩
        · refine Or.inl ⟨fun needs => long needs.2.2,
            Or.inl ⟨.emptyOptional, ?_, fun fits => absurd fits long⟩⟩
          rw [run, ok_bind]
          dsimp only
          rw [allocated, ok_bind]
          dsimp only
          rw [failed]
          rfl
        · obtain ⟨linked, linkedRun, linkedGrowing⟩ :=
            growing''.linkPage apart notNull isFilled walled next prev
          refine Or.inr ⟨⟨noRoom, handsOut, fits⟩, rowId, linked, ?_, linkedGrowing⟩
          rw [run, ok_bind]
          dsimp only
          rw [allocated, ok_bind]
          dsimp only
          rw [filledRun, ok_bind]
          dsimp only
          rw [linkedRun]
          rfl
    · obtain ⟨error, failed⟩ := allocatePage_error_iff.mpr handsOut
      refine Or.inl ⟨fun needs => handsOut needs.2.1,
        Or.inl ⟨.allocatePage error, ?_, fun _ => ⟨error, rfl⟩⟩⟩
      rw [run, ok_bind]
      dsimp only
      rw [failed]
      rfl

/-- A row that fits a page is inserted, unless the disk has no page to hand out. -/
theorem insertRow_ends (fits : FitsFreshPage row) (fresh : FreshPage) :
    (∃ placed, insertRow store fileId row fresh = .ok placed) ∨
      ∃ error, insertRow store fileId row fresh = .error (.allocatePage error) := by
  rcases growing.insertRow_grows fits.short fresh with
    ⟨_, ⟨failure, run, why⟩ | ⟨rowId, store', run, _⟩⟩ | ⟨_, rowId, store', run, _⟩
  · obtain ⟨error, rfl⟩ := why fits
    exact Or.inr ⟨error, run⟩
  · exact Or.inl ⟨_, run⟩
  · exact Or.inl ⟨_, run⟩

/-- **`delete_row`** leaves the list and the room on its pages as they are, whatever slot it is
given, or fails. -/
theorem deleteRow_grows (rowId : RowId) :
    (¬ NamesSlot store fileId rowId ∧
        ∃ failure, deleteRow store fileId rowId = .error failure) ∨
      (NamesSlot store fileId rowId ∧ ∃ store',
        deleteRow store fileId rowId = .ok store' ∧ Growing store' fileId pages ∧
        (∀ pageId ∈ pages, freeSpaceOn store' fileId pageId = freeSpaceOn store fileId pageId) ∧
        store'.files = store.files ∧ SamePages fileId store store') := by
  cases found : store.pages ⟨fileId, getPageIdFromRowId rowId⟩ with
  | none =>
      refine Or.inl ⟨?_, ?_⟩
      · rintro ⟨page, isPage, _⟩
        cases found.symm.trans isPage
      · have failed : store.readPage ⟨fileId, getPageIdFromRowId rowId⟩ false
            = .error (.assertion .outOfIndexPage) := by
          rw [PageStore.readPage, if_pos growing.file, found]
        rw [deleteRow, mustGetPage, failed]
        exact ⟨_, rfl⟩
  | some page =>
      rw [deleteRow, mustGetPage_eq growing.file found, ok_bind]
      rcases HeapPage.deleteSlot_cases page (getSlotIdFromRowId rowId) with
        ⟨below, page', run⟩ | ⟨outside, failure, failed⟩
      · refine Or.inr ⟨⟨page, found, below⟩, ?_⟩
        have notRoot : getPageIdFromRowId rowId ≠ rootPageId := by
          intro same
          obtain ⟨root, isRoot, noSlots⟩ := growing.root
          rw [same] at found
          cases found.symm.trans isRoot
          rw [noSlots] at below
          exact absurd below (Nat.not_lt_zero _)
        have kept : ∀ count, HeapPage.Walled page count → HeapPage.Walled page' count ∧
            Page.freeSpace page' = Page.freeSpace page ∧
            Agree page page' HeapPage.recordsEnd pageSize := by
          intro count walled
          have inside : (getSlotIdFromRowId rowId).toNat < count := by
            rw [← Page.getPageCapacity_toNat walled.slots]
            exact UInt16.lt_iff_toNat_lt.mp below
          obtain ⟨deleted, isDeleted, kept⟩ := walled.deleteSlot inside
          cases run.symm.trans isDeleted
          exact kept
        refine ⟨store.put ⟨fileId, getPageIdFromRowId rowId⟩ page', ?_, ?_, ?_, rfl,
          samePages_put fileId store _ _⟩
        · rw [run]
          rfl
        · refine growing.put notRoot found fun member => ?_
          obtain ⟨old, count, isOld, walled, _⟩ := growing.page _ member
          cases found.symm.trans isOld
          obtain ⟨walled', _, agree⟩ := kept count walled
          exact ⟨count, walled', agree⟩
        · intro pageId member
          obtain ⟨old, count, isOld, walled, _⟩ := growing.page pageId member
          by_cases same : pageId = getPageIdFromRowId rowId
          · subst same
            cases found.symm.trans isOld
            rw [freeSpaceOn_eq (PageStore.put_self found page'), freeSpaceOn_eq found]
            exact (kept count walled).2.1
          · have isSame := (PageStore.put_other same page').trans isOld
            rw [freeSpaceOn_eq isSame, freeSpaceOn_eq isOld]
      · refine Or.inl ⟨?_, ?_⟩
        · rintro ⟨page', isPage, below⟩
          cases found.symm.trans isPage
          exact outside below
        · rw [failed]
          exact ⟨_, rfl⟩

/-- A delete changes nothing of what decides whether a row needs a page. -/
theorem needsPage_congr (growing' : Growing store' fileId pages)
    (room : ∀ pageId ∈ pages, freeSpaceOn store' fileId pageId = freeSpaceOn store fileId pageId)
    (files : store'.files = store.files) (same : SamePages fileId store store') :
    NeedsPage store' fileId row fresh ↔ NeedsPage store fileId row fresh := by
  have sameRoom : HasRoom store' fileId row ↔ HasRoom store fileId row := by
    rw [growing'.list.hasRoom_iff, growing.list.hasRoom_iff]
    refine exists_congr fun pageId => and_congr_right fun member => ?_
    rw [room pageId member]
  have sameHand : HandsOut store' fileId fresh ↔ HandsOut store fileId fresh := by
    rw [HandsOut, HandsOut, files, same]
  rw [NeedsPage, NeedsPage, sameRoom, sameHand]

/-- What an insert into this list, or into the same list after a delete, makes of it. -/
theorem inserted {middle : PageStore} (growing' : Growing middle fileId pages)
    (short : row.length < 2 ^ 63) (fresh : FreshPage) :
    ∃ pages', (match insertRow middle fileId row fresh with
        | .ok result => Growing result.2 fileId pages'
        | .error _ => pages' = pages) ∧
      (HasPages store fileId ∧ NeedsPage middle fileId row fresh → 1 < pages'.length) ∧
      (¬ (HasPages store fileId ∧ NeedsPage middle fileId row fresh) →
        pages' = pages ∨ pages = [] ∧ pages'.length = 1) := by
  have nonempty := growing.list.hasPages_iff
  rcases growing'.insertRow_grows short fresh with
    ⟨noNeed, ⟨failure, run, _⟩ | ⟨rowId, store', run, stays⟩⟩ | ⟨needs, rowId, store', run, grows⟩
  · exact ⟨pages, by rw [run], fun both => absurd both.2 noNeed, fun _ => Or.inl rfl⟩
  · exact ⟨pages, by rw [run]; exact stays, fun both => absurd both.2 noNeed, fun _ => Or.inl rfl⟩
  · refine ⟨pages ++ [fresh.pageId], by rw [run]; exact grows, fun both => ?_, fun one => ?_⟩
    · have some := List.length_pos_iff.mpr (nonempty.mp both.1)
      rw [List.length_append, List.length_singleton]
      omega
    · have empty : pages = [] := by
        by_contra some
        exact one ⟨nonempty.mpr some, needs⟩
      rw [empty]
      exact Or.inr ⟨rfl, rfl⟩

/-- **One call** leaves the list as it is, or appends a page to it; this page is the second one or a
later one exactly when the call links it behind another. -/
theorem step_grows (op : TableOp) (short : SpanLength op) :
    ∃ pages', Growing ((tableMachine fileId).next store op) fileId pages' ∧
      (LinksBehind fileId store op → 1 < pages'.length) ∧
      (¬ LinksBehind fileId store op → pages' = pages ∨ pages = [] ∧ pages'.length = 1) := by
  have next : (tableMachine fileId).next store op = (step fileId store op).2 := rfl
  rw [next]
  cases op with
  | insertRow row fresh =>
      obtain ⟨pages', after, behind, alone⟩ := growing.inserted growing short fresh
      refine ⟨pages', ?_, behind, alone⟩
      cases run : insertRow store fileId row fresh with
      | error failure =>
          rw [run] at after
          rw [step, call, run]
          exact after ▸ growing
      | ok result =>
          rw [run] at after
          rw [step, call, run]
          exact after
  | updateRow rowId row fresh =>
      rcases growing.deleteRow_grows rowId with
        ⟨noSlot, failure, run⟩ | ⟨slot, middle, run, growing', room, files, same⟩
      · refine ⟨pages, ?_, fun behind => absurd behind.1 noSlot, fun _ => Or.inl rfl⟩
        rw [step, call, updateRow, run]
        exact growing
      · obtain ⟨pages', after, behind, alone⟩ := growing.inserted growing' short fresh
        have needs : NeedsPage middle fileId row fresh ↔ NeedsPage store fileId row fresh :=
          growing.needsPage_congr growing' room files same
        rw [needs] at behind alone
        refine ⟨pages', ?_, fun linksBehind => behind linksBehind.2, fun notBehind =>
          alone fun both => notBehind ⟨slot, both⟩⟩
        cases inserts : insertRow middle fileId row fresh with
        | error failure =>
            rw [inserts] at after
            rw [step, call, updateRow, run, ok_bind, inserts]
            exact after ▸ growing
        | ok result =>
            rw [inserts] at after
            rw [step, call, updateRow, run, ok_bind, inserts]
            exact after
  | deleteRow rowId =>
      refine ⟨pages, ?_, False.elim, fun _ => Or.inl rfl⟩
      rcases growing.deleteRow_grows rowId with
        ⟨_, failure, run⟩ | ⟨_, middle, run, growing', _⟩
      · rw [step, call, run]
        exact growing
      · rw [step, call, run]
        exact growing'

end Growing

/-! ### Runs -/

/-- A fresh table has no data pages. -/
theorem growing_empty {created : PageStore}
    (init : initTableRootPage store fileId fresh = .ok created) : Growing created fileId [] := by
  obtain ⟨file, isRoot⟩ := initTableRootPage_root init
  have noSlots : Page.getPageCapacity (HeapPage.initPage fresh.bytes) = 0 :=
    UInt16.toNat.inj (HeapPage.initPage_shows fresh.bytes).capacity
  have noHead := HeapPage.getPrevPage_initPage fresh.bytes
  exact ⟨file, ⟨_, isRoot, noSlots⟩, ⟨_, isRoot, noHead⟩, nofun, nofun⟩

/-- **The list of a table file** is linked forward in every state of every run, and doubly linked in
every state of a run exactly when no call of the run links a page behind another. -/
theorem doublyLinked_iff (fileId : FileId) (store created : PageStore) (fresh : FreshPage)
    (init : initTableRootPage store fileId fresh = .ok created) (ops : List TableOp)
    (spans : ∀ op ∈ ops, SpanLength op) :
    (tableMachine fileId).Always (ForwardLinked fileId) created ops ∧
      ((tableMachine fileId).Always (DoublyLinked fileId) created ops ↔
        (tableMachine fileId).Along (fun store op => ¬ LinksBehind fileId store op) created ops) := by
  have start := growing_empty init
  have along : (tableMachine fileId).Along (fun _ op => SpanLength op) created ops :=
    Machine.along_of_mem fun op member _ => spans op member
  constructor
  · refine (Machine.always_of_step (Q := fun store => ∃ pages, Growing store fileId pages)
      ?_ ⟨[], start⟩ along).imp ?_
    · rintro store op ⟨pages, growing⟩ short
      obtain ⟨pages', growing', _⟩ := growing.step_grows op short
      exact ⟨pages', growing'⟩
    · rintro store ⟨pages, growing⟩
      exact growing.forwardLinked
  · refine Machine.always_iff_along (J := fun store => ∃ pages, Growing store fileId pages ∧
      pages.length ≤ 1) ?_ ?_ ?_ ⟨[], start, Nat.zero_le 1⟩ along
    · rintro store op ⟨pages, growing, few⟩ short alone
      obtain ⟨pages', growing', _, grown⟩ := growing.step_grows op short
      refine ⟨pages', growing', ?_⟩
      rcases grown alone with rfl | ⟨_, one⟩
      · exact few
      · exact one.le
    · rintro store ⟨pages, growing, few⟩
      exact growing.doublyLinked_iff_length.mpr few
    · rintro store op ⟨pages, growing, few⟩ short linked behind
      obtain ⟨pages', growing', more, _⟩ := growing.step_grows op short
      exact absurd (growing'.doublyLinked_iff_length.mp linked) (Nat.not_le.mpr (more behind))

/-- Two rows that fill a page each. -/
def fillTwoPages : List TableOp :=
  [.insertRow (List.replicate 2500 7) ⟨1, fun _ => 0⟩,
    .insertRow (List.replicate 2500 8) ⟨2, fun _ => 0⟩]

theorem fillTwoPages_links :
    (tableMachine 1).Always (ForwardLinked 1) createdTable fillTwoPages ∧
      ((tableMachine 1).Always (DoublyLinked 1) createdTable fillTwoPages ↔
        (tableMachine 1).Along (fun store op => ¬ LinksBehind 1 store op) createdTable
          fillTwoPages) :=
  doublyLinked_iff 1 emptyFile createdTable ⟨0, fun _ => 0⟩ rfl fillTwoPages (by
    rintro op member
    rcases List.mem_cons.mp member with rfl | member
    · show (List.replicate 2500 (7 : UInt8)).length < 2 ^ 63
      rw [List.length_replicate]
      decide
    · cases List.mem_singleton.mp member
      show (List.replicate 2500 (8 : UInt8)).length < 2 ^ 63
      rw [List.length_replicate]
      decide)

/-- **The second page names no previous page.** -/
theorem fillTwoPages_notDoublyLinked :
    ¬ (tableMachine 1).Always (DoublyLinked 1) createdTable fillTwoPages := by
  intro always
  obtain ⟨_, back⟩ := always.last
  have isFirst : nextLink ((tableMachine 1).exec createdTable fillTwoPages) 1 1 = some 2 := by
    decide +kernel
  have isSecond : nextLink ((tableMachine 1).exec createdTable fillTwoPages) 1 2
      = some nullPageId := by decide +kernel
  have noPrev : prevLink ((tableMachine 1).exec createdTable fillTwoPages) 1 2
      = some nullPageId := by decide +kernel
  have head : (((tableMachine 1).exec createdTable fillTwoPages).pages ⟨1, rootPageId⟩).map
      HeapPage.getPartialPagesHead = some 1 := by decide +kernel
  obtain ⟨root, isRoot, isHead⟩ := Option.map_eq_some_iff.mp head
  have list : PartialList ((tableMachine 1).exec createdTable fillTwoPages) 1 [1, 2] := by
    refine ⟨root, isRoot, isHead, by decide, 2, isFirst, rfl, by decide, nullPageId, isSecond, rfl⟩
  have linked := back [1, 2] list 1 (by decide) 2 (by decide) isFirst
  rw [noPrev] at linked
  exact absurd linked (by decide)

end DiskTable

end Yadb
