/-
**What a table file holds, and what each section of a call does to it.**

`TableContent` is the head of the partial list and the content of every heap page; `TableFile` says
that the pages of a file show it. A new page is in the file before it is a heap page.

`chain_setPage`, `chain_setLink`: writing a page keeps the links, and a page linked where the list
ends is appended to it. One lemma for each section of `DiskTable` (`readPartialHead_spec`,
`tryPage_spec`, `allocatePage_spec`, `fillNewPage_spec`, `linkPage_spec`, `deleteRow_spec`,
`initTableRootPage_spec`): it succeeds, and the file shows the changed content.
-/

import Yadb.Foundation.Chain
import Yadb.Storage.Table.DiskTable

namespace Yadb

open Foundation

structure TableContent where
  head : PageId
  heap : PageId → Option HeapPage.Content

namespace TableContent

def empty : TableContent := ⟨nullPageId, fun _ => none⟩

/-- The page that follows a page, the null page standing for the root's list head. -/
def link (table : TableContent) (pageId : PageId) : Option PageId :=
  if pageId = nullPageId then some table.head
  else (table.heap pageId).map HeapPage.Content.next

def setPage (table : TableContent) (pageId : PageId) (content : HeapPage.Content) : TableContent :=
  { table with heap := Function.update table.heap pageId (some content) }

def setLink (table : TableContent) (last new : PageId) : TableContent :=
  if last = nullPageId then { table with head := new }
  else { table with
    heap := Function.update table.heap last
      ((table.heap last).map fun content => { content with next := new }) }

/-- The row under a row id. -/
def lookup (table : TableContent) (rowId : RowId) : Option (List UInt8) :=
  (table.heap (getPageIdFromRowId rowId)).bind fun content =>
    content.slots (getSlotIdFromRowId rowId)

variable {table : TableContent} {pageId other : PageId} {content : HeapPage.Content}

theorem heap_setPage (table : TableContent) (pageId : PageId) (content : HeapPage.Content) :
    (table.setPage pageId content).heap = Function.update table.heap pageId (some content) := rfl

/-- Linking replaces one link. -/
theorem link_setLink {last new : PageId} (known : last = nullPageId ∨ table.heap last ≠ none) :
    (table.setLink last new).link = Function.update table.link last (some new) := by
  funext pageId
  unfold setLink link
  by_cases isHead : last = nullPageId
  · subst isHead
    simp only [if_true]
    by_cases same : pageId = nullPageId
    · rw [same, Function.update_self, if_pos rfl]
    · rw [Function.update_of_ne same, if_neg same, if_neg same]
  · have isPage := known.resolve_left isHead
    obtain ⟨content, found⟩ := Option.ne_none_iff_exists'.mp isPage
    simp only [if_neg isHead]
    by_cases same : pageId = last
    · subst same
      rw [Function.update_self, Function.update_self, if_neg isHead, found]
      rfl
    · rw [Function.update_of_ne same, Function.update_of_ne same]

theorem heap_setLink_eq_none {last new : PageId} :
    (table.setLink last new).heap pageId = none ↔ table.heap pageId = none := by
  unfold setLink
  by_cases isHead : last = nullPageId
  · rw [if_pos isHead]
  · rw [if_neg isHead]
    show Function.update table.heap last _ pageId = none ↔ _
    by_cases same : pageId = last
    · rw [same, Function.update_self, Option.map_eq_none_iff]
    · rw [Function.update_of_ne same]

/-- Linking changes no rows and no counts. -/
theorem heap_setLink {last new : PageId} {content : HeapPage.Content}
    (found : table.heap pageId = some content) :
    ∃ next, (table.setLink last new).heap pageId = some { content with next } := by
  unfold setLink
  by_cases isHead : last = nullPageId
  · rw [if_pos isHead]
    exact ⟨content.next, found⟩
  · rw [if_neg isHead]
    show ∃ next, Function.update table.heap last _ pageId = _
    by_cases same : pageId = last
    · rw [same, Function.update_self, ← same, found]
      exact ⟨new, rfl⟩
    · rw [Function.update_of_ne same]
      exact ⟨content.next, found⟩

theorem lookup_makeRowId (table : TableContent) (pageId : PageId) (slotId : SlotId) :
    table.lookup (makeRowId pageId slotId)
      = (table.heap pageId).bind fun content => content.slots slotId := by
  rw [lookup, rowId_pageId, rowId_slotId]

theorem lookup_setLink (last new : PageId) (rowId : RowId) :
    (table.setLink last new).lookup rowId = table.lookup rowId := by
  unfold lookup
  cases found : table.heap (getPageIdFromRowId rowId) with
  | none => rw [heap_setLink_eq_none.mpr found]
  | some content =>
      obtain ⟨next, linked⟩ := heap_setLink found
      rw [linked]
      rfl

/-- A page is written: one slot of it changes. -/
theorem lookup_setPage {content content' : HeapPage.Content} {slotId : SlotId}
    {value : Option (List UInt8)}
    (before : ∀ slotId, table.lookup (makeRowId pageId slotId) = content.slots slotId)
    (after : content'.slots = Function.update content.slots slotId value) (other : PageId)
    (otherSlot : SlotId) :
    (table.setPage pageId content').lookup (makeRowId other otherSlot)
      = Function.update table.lookup (makeRowId pageId slotId) value
        (makeRowId other otherSlot) := by
  rw [lookup_makeRowId, heap_setPage]
  by_cases samePage : other = pageId
  · subst samePage
    rw [Function.update_self, Option.bind_some, after]
    by_cases sameSlot : otherSlot = slotId
    · rw [sameSlot, Function.update_self, Function.update_self]
    · rw [Function.update_of_ne sameSlot, Function.update_of_ne, before]
      exact fun same => sameSlot (makeRowId_injective same).2
  · rw [Function.update_of_ne samePage, Function.update_of_ne, lookup_makeRowId]
    exact fun same => samePage (makeRowId_injective same).1

theorem lookup_heap (found : table.heap pageId = some content) (slotId : SlotId) :
    table.lookup (makeRowId pageId slotId) = content.slots slotId := by
  rw [lookup_makeRowId, found, Option.bind_some]

theorem lookup_noHeap (absent : table.heap pageId = none) (slotId : SlotId) :
    table.lookup (makeRowId pageId slotId) = none := by
  rw [lookup_makeRowId, absent, Option.bind_none]

/-! ### The links -/

variable {pages : List PageId} {last new : PageId}

theorem link_null (table : TableContent) : table.link nullPageId = some table.head := if_pos rfl

theorem link_setPage_of_ne (content : HeapPage.Content) (different : other ≠ pageId) :
    (table.setPage pageId content).link other = table.link other := by
  rw [link, link, heap_setPage, Function.update_of_ne different]
  rfl

theorem link_setPage_self (content : HeapPage.Content) (notNull : pageId ≠ nullPageId) :
    (table.setPage pageId content).link pageId = some content.next := by
  rw [link, if_neg notNull, heap_setPage, Function.update_self]
  rfl

/-- A page that keeps its next page keeps the links. -/
theorem link_setPage {content content' : HeapPage.Content} (found : table.heap pageId = some content)
    (same : content'.next = content.next) : (table.setPage pageId content').link = table.link := by
  funext other
  by_cases isPage : other = pageId
  · subst isPage
    rw [link, link, heap_setPage, Function.update_self, found]
    simp only [Option.map_some, same]
    rfl
  · exact link_setPage_of_ne content' isPage

/-- The links of other pages make the same list. -/
theorem chain_setPage (chain : Chain table.link nullPageId table.head pages)
    (content : HeapPage.Content) (outside : pageId ∉ pages) :
    Chain (table.setPage pageId content).link nullPageId table.head pages :=
  chain.congr fun _ member =>
    link_setPage_of_ne content fun same => outside (same ▸ member)

/-- **A page linked where the list ends is appended to it.** -/
theorem chain_setLink (chain : Chain table.link nullPageId table.head pages)
    (known : last = nullPageId ∨ last ∈ pages) (ends : table.link last = some nullPageId)
    (outside : new ∉ pages) (notNull : new ≠ nullPageId)
    (newEnds : table.link new = some nullPageId) :
    Chain (table.setLink last new).link nullPageId (table.setLink last new).head
      (pages ++ [new]) := by
  by_cases isHead : last = nullPageId
  · subst isHead
    rw [link_null, Option.some.injEq] at ends
    have empty : pages = [] := chain.unique (show Chain _ _ _ [] from ends) |>.symm
    subst empty
    rw [link_setLink (Or.inl rfl), setLink, if_pos rfl]
    refine Chain.singleton notNull ?_
    rw [Function.update_of_ne notNull]
    exact newEnds
  · have member := known.resolve_left isHead
    have isHeap : table.heap last ≠ none := by
      rw [link, if_neg isHead] at ends
      intro absent
      rw [absent] at ends
      cases ends
    rw [link_setLink (Or.inr isHeap), setLink, if_neg isHead]
    exact chain.append member ends outside notNull newEnds

end TableContent

/-- The pages of the file show this content. -/
structure TableFile (store : PageStore) (fileId : FileId) (table : TableContent) : Prop where
  file : store.files fileId = true
  root : ∃ page, store.pages ⟨fileId, rootPageId⟩ = some page ∧
    HeapPage.getNextPage page = nullPageId ∧ HeapPage.getPrevPage page = table.head
  heap : ∀ pageId content, table.heap pageId = some content →
    ∃ page, store.pages ⟨fileId, pageId⟩ = some page ∧ HeapPage.Shows page content
  rootNotHeap : table.heap rootPageId = none

/-- The file has the same pages. -/
def SamePages (fileId : FileId) (store store' : PageStore) : Prop :=
  ∀ pageId, store'.pages ⟨fileId, pageId⟩ = none ↔ store.pages ⟨fileId, pageId⟩ = none

/-- The row fits a fresh heap page. -/
def FitsFreshPage (row : List UInt8) : Prop := row.length ≤ 4068

instance (row : List UInt8) : Decidable (FitsFreshPage row) :=
  inferInstanceAs (Decidable (row.length ≤ 4068))

theorem FitsFreshPage.short {row : List UInt8} (fits : FitsFreshPage row) :
    row.length < 2 ^ 63 := lt_of_le_of_lt fits (by decide)

namespace DiskTable

variable {store : PageStore} {fileId : FileId} {pageId : PageId} {page : FullPage}

theorem mustGetPage_eq (file : store.files fileId = true)
    (found : store.pages ⟨fileId, pageId⟩ = some page) :
    mustGetPage store ⟨fileId, pageId⟩ = .ok page := by
  rw [mustGetPage, PageStore.readPage_allocated file found]
  rfl

theorem samePages_put (fileId : FileId) (store : PageStore) (fpId : FilePageId) (page : FullPage) :
    SamePages fileId store (store.put fpId page) :=
  fun _ => PageStore.put_pages_isSome page _

theorem rowSize_toNat {row : List UInt8} (short : row.length < 2 ^ 63) :
    (UInt64.ofNat row.length).toNat = row.length := by
  rw [UInt64.toNat_ofNat']
  omega

/-- The free space of a page of the file. -/
def freeSpaceOn (store : PageStore) (fileId : FileId) (pageId : PageId) : Nat :=
  ((store.pages ⟨fileId, pageId⟩).map Page.freeSpace).getD 0

theorem freeSpaceOn_eq (isPage : store.pages ⟨fileId, pageId⟩ = some page) :
    freeSpaceOn store fileId pageId = Page.freeSpace page := by
  rw [freeSpaceOn, isPage]
  rfl

/-- An allocation that succeeds adds the page that was handed out. -/
theorem allocatePage_cases (store : PageStore) (fileId : FileId) (fresh : FreshPage) :
    (∃ error, allocatePage store fileId fresh = .error (.allocatePage error)) ∨
      ∃ store', allocatePage store fileId fresh = .ok (fresh.pageId, store') ∧
        store.files fileId = true ∧ store.pages ⟨fileId, fresh.pageId⟩ = none ∧
        fresh.pageId ≠ nullPageId ∧ store'.files = store.files ∧
        store'.pages = Function.update store.pages ⟨fileId, fresh.pageId⟩ (some fresh.bytes) := by
  rw [allocatePage, PageStore.allocatePage]
  by_cases isFresh : store.files fileId = true ∧ store.pages ⟨fileId, fresh.pageId⟩ = none ∧
      fresh.pageId ≠ nullPageId
  · rw [dif_pos isFresh]
    exact Or.inr ⟨_, rfl, isFresh.1, isFresh.2.1, isFresh.2.2, rfl, rfl⟩
  · rw [dif_neg isFresh]
    exact Or.inl ⟨_, rfl⟩

/-- A slot is allocated on a heap page and the row copied into it, if the page has room for both. -/
theorem allocateSlot_row {content : HeapPage.Content} {row : List UInt8}
    (shows_ : HeapPage.Shows page content) (short : row.length < 2 ^ 63) :
    (Page.freeSpace page < 5 + row.length ∧
        Page.allocateSlot page (UInt64.ofNat row.length) = .ok (none, page)) ∨
      (5 + row.length ≤ Page.freeSpace page ∧ ∃ page' page'',
        Page.allocateSlot page (UInt64.ofNat row.length)
          = .ok (some (UInt16.ofNat content.count), page') ∧
        copyRow page' (UInt16.ofNat content.count) row = .ok page'' ∧
        HeapPage.Shows page'' (content.insert row)) := by
  have length := rowSize_toNat short
  rcases Page.allocateSlot_spec shows_.holds.wf _ (Page.entry_fits (length ▸ short)) with
    ⟨full, run⟩ | ⟨room, slotId, page', run, next, placed⟩
  · rw [length] at full
    exact Or.inl ⟨full, run⟩
  · rw [length] at room placed
    have isSlot : UInt16.ofNat content.count = slotId := by
      rw [← next, UInt16.ofNat_toNat]
    obtain ⟨slice, isSlice, written⟩ := shows_.copyRow next placed
    rw [isSlot]
    refine Or.inr ⟨room, page', _, run, ?_, written⟩
    rw [copyRow, isSlice]
    rfl

end DiskTable

namespace TableFile

open DiskTable

variable {store : PageStore} {fileId : FileId} {table : TableContent} {pageId : PageId}
  {content : HeapPage.Content}

/-- A heap page is written. -/
theorem putPage (file : TableFile store fileId table) (notRoot : pageId ≠ rootPageId)
    (allocated : store.pages ⟨fileId, pageId⟩ ≠ none) {page : FullPage}
    (shows_ : HeapPage.Shows page content) :
    TableFile (store.put ⟨fileId, pageId⟩ page) fileId (table.setPage pageId content) := by
  obtain ⟨old, found⟩ := Option.ne_none_iff_exists'.mp allocated
  refine ⟨file.file, ?_, fun other otherContent => ?_, ?_⟩
  · obtain ⟨root, isRoot, links⟩ := file.root
    refine ⟨root, ?_, links⟩
    rw [PageStore.put_other (Ne.symm notRoot) page]
    exact isRoot
  · rw [TableContent.heap_setPage, PageStore.put_pages found]
    by_cases same : other = pageId
    · subst same
      rw [Function.update_self, Function.update_self]
      rintro ⟨⟩
      exact ⟨page, rfl, shows_⟩
    · rw [Function.update_of_ne same, Function.update_of_ne]
      · exact file.heap other otherContent
      · exact fun equal => same (congrArg FilePageId.pageId equal)
  · rw [TableContent.heap_setPage, Function.update_of_ne (Ne.symm notRoot)]
    exact file.rootNotHeap

theorem notRoot (file : TableFile store fileId table) (found : table.heap pageId = some content) :
    pageId ≠ rootPageId := by
  rintro rfl
  cases file.rootNotHeap.symm.trans found

theorem notNull (file : TableFile store fileId table) (found : table.heap pageId = some content) :
    pageId ≠ nullPageId := by
  rintro rfl
  obtain ⟨page, isPage, _⟩ := file.heap _ _ found
  cases (store.pages_null fileId).symm.trans isPage

theorem readPartialHead_spec (file : TableFile store fileId table) :
    readPartialHead store fileId = .ok table.head := by
  obtain ⟨root, isRoot, _, head⟩ := file.root
  rw [readPartialHead, mustGetPage_eq file.file isRoot, ok_bind, HeapPage.getPartialPagesHead,
    head]
  rfl

/-- **One turn of the walk** finds no room and the next page, or inserts the row. -/
theorem tryPage_spec (file : TableFile store fileId table) (found : table.heap pageId = some content)
    {row : List UInt8} (short : row.length < 2 ^ 63) :
    (freeSpaceOn store fileId pageId < 5 + row.length ∧
        tryPage store fileId pageId row = .ok (.full content.next, store)) ∨
      (5 + row.length ≤ freeSpaceOn store fileId pageId ∧ ∃ store',
        tryPage store fileId pageId row
          = .ok (.inserted (makeRowId pageId (UInt16.ofNat content.count)), store') ∧
        TableFile store' fileId (table.setPage pageId (content.insert row)) ∧
        SamePages fileId store store') := by
  obtain ⟨page, isPage, shows_⟩ := file.heap pageId content found
  rw [tryPage, mustGetPage_eq file.file isPage, ok_bind, freeSpaceOn_eq isPage]
  rcases allocateSlot_row shows_ short with ⟨full, run⟩ | ⟨room, page', page'', run, copied, written⟩
  · rw [run, ← shows_.next]
    exact Or.inl ⟨full, rfl⟩
  · refine Or.inr ⟨room, store.put ⟨fileId, pageId⟩ page'', ?_, ?_, samePages_put fileId store _ _⟩
    · rw [run]
      show (mustEdit (copyRow page' _ row) >>= _) = _
      rw [copied]
      rfl
    · exact file.putPage (file.notRoot found) (by rw [isPage]; exact nofun) written

/-- A page that is not in the file is neither a heap page nor the root. -/
theorem absent (file : TableFile store fileId table)
    (noPage : store.pages ⟨fileId, pageId⟩ = none) :
    table.heap pageId = none ∧ pageId ≠ rootPageId := by
  constructor
  · refine Option.eq_none_iff_forall_ne_some.mpr fun content found => ?_
    obtain ⟨page, isPage, _⟩ := file.heap pageId content found
    cases noPage.symm.trans isPage
  · rintro rfl
    obtain ⟨root, isRoot, _⟩ := file.root
    cases noPage.symm.trans isRoot

/-- **A page is allocated**: it was not in the file, and holds no content yet. -/
theorem allocatePage_spec (file : TableFile store fileId table) (fresh : FreshPage) :
    (∃ error, allocatePage store fileId fresh = .error (.allocatePage error)) ∨
      ∃ store', allocatePage store fileId fresh = .ok (fresh.pageId, store') ∧
        store.pages ⟨fileId, fresh.pageId⟩ = none ∧ fresh.pageId ≠ nullPageId ∧
        TableFile store' fileId table ∧
        store'.pages = Function.update store.pages ⟨fileId, fresh.pageId⟩ (some fresh.bytes) := by
  refine (allocatePage_cases store fileId fresh).imp_right ?_
  rintro ⟨store', run, _, noPage, notNull, sameFiles, pages⟩
  have others : ∀ other page, store.pages ⟨fileId, other⟩ = some page →
      store'.pages ⟨fileId, other⟩ = some page := by
    intro other page isPage
    rw [pages, Function.update_of_ne]
    · exact isPage
    · intro same
      rw [same, noPage] at isPage
      cases isPage
  refine ⟨store', run, noPage, notNull, ⟨sameFiles ▸ file.file, ?_, ?_, file.rootNotHeap⟩, pages⟩
  · obtain ⟨root, isRoot, links⟩ := file.root
    exact ⟨root, others _ _ isRoot, links⟩
  · intro other content found
    obtain ⟨page, isPage, shows_⟩ := file.heap other content found
    exact ⟨page, others _ _ isPage, shows_⟩

/-- **A new page is initialised and gets the row** in its first slot. -/
theorem fillNewPage_spec (file : TableFile store fileId table)
    (allocated : store.pages ⟨fileId, pageId⟩ ≠ none) (notRoot : pageId ≠ rootPageId)
    {row : List UInt8} (fits : FitsFreshPage row) :
    ∃ store', fillNewPage store fileId pageId row = .ok (makeRowId pageId 0, store') ∧
      TableFile store' fileId (table.setPage pageId (HeapPage.Content.empty.insert row)) ∧
      SamePages fileId store store' := by
  obtain ⟨page, isPage⟩ := Option.ne_none_iff_exists'.mp allocated
  have shows_ := HeapPage.initPage_shows page
  rcases allocateSlot_row shows_ fits.short with
    ⟨full, _⟩ | ⟨_, page', page'', run, copied, written⟩
  · unfold FitsFreshPage at fits
    rw [HeapPage.freeSpace_initPage] at full
    omega
  · refine ⟨store.put ⟨fileId, pageId⟩ page'', ?_, file.putPage notRoot allocated written,
      samePages_put fileId store _ _⟩
    rw [fillNewPage, mustGetPage_eq file.file isPage, ok_bind, run]
    show (mustEdit (copyRow page' _ row) >>= _) = _
    rw [copied]
    rfl

/-- **A row that does not fit the new page gets no slot there.** -/
theorem fillNewPage_long (file : TableFile store fileId table)
    (allocated : store.pages ⟨fileId, pageId⟩ ≠ none) {row : List UInt8}
    (short : row.length < 2 ^ 63) (long : ¬ FitsFreshPage row) :
    fillNewPage store fileId pageId row = .error .emptyOptional := by
  obtain ⟨page, isPage⟩ := Option.ne_none_iff_exists'.mp allocated
  rcases allocateSlot_row (HeapPage.initPage_shows page) short with ⟨_, run⟩ | ⟨room, _⟩
  · rw [fillNewPage, mustGetPage_eq file.file isPage, ok_bind, run]
    rfl
  · rw [HeapPage.freeSpace_initPage] at room
    exact absurd (show row.length ≤ 4068 by omega) long

/-- No heap page has more room than a fresh one. -/
theorem freeSpaceOn_le (file : TableFile store fileId table)
    (found : table.heap pageId = some content) : freeSpaceOn store fileId pageId ≤ 5 + 4068 := by
  obtain ⟨page, isPage, shows_⟩ := file.heap pageId content found
  have below : (Page.getEndFreeSpace page).toNat ≤ HeapPage.recordsEnd := shows_.holds.wf.below
  have first : 15 ≤ Page.entryAt content.count := by
    unfold Page.entryAt
    omega
  rw [freeSpaceOn_eq isPage, Page.freeSpace_eq shows_.holds.wf]
  unfold HeapPage.recordsEnd at below
  omega

/-- **A page is linked** at the head of the list or after a page of it. -/
theorem linkPage_spec (file : TableFile store fileId table) {last : PageId} (new : PageId)
    (known : last = nullPageId ∨ table.heap last ≠ none) :
    ∃ store', linkPage store fileId last new = .ok store' ∧
      TableFile store' fileId (table.setLink last new) ∧ SamePages fileId store store' := by
  by_cases isHead : last = nullPageId
  · obtain ⟨root, isRoot, next, _⟩ := file.root
    refine ⟨_, ?_, ?_, samePages_put fileId store ⟨fileId, rootPageId⟩
      (HeapPage.setPrevPage root new)⟩
    · rw [linkPage, if_pos isHead, mustGetPage_eq file.file isRoot]
      rfl
    · rw [TableContent.setLink, if_pos isHead]
      refine ⟨file.file, ⟨HeapPage.setPrevPage root new, ?_, ?_, ?_⟩, ?_, file.rootNotHeap⟩
      · exact PageStore.put_self isRoot _
      · rw [HeapPage.getNextPage_setPrevPage, next]
      · exact HeapPage.getPrevPage_setPrevPage root new
      · intro other content found
        obtain ⟨page, isPage, shows_⟩ := file.heap other content found
        refine ⟨page, ?_, shows_⟩
        rw [PageStore.put_other (file.notRoot found)]
        exact isPage
  · obtain ⟨content, found⟩ := Option.ne_none_iff_exists'.mp (known.resolve_left isHead)
    obtain ⟨page, isPage, shows_⟩ := file.heap last content found
    refine ⟨_, ?_, ?_, samePages_put fileId store ⟨fileId, last⟩ (HeapPage.setNextPage page new)⟩
    · rw [linkPage, if_neg isHead, mustGetPage_eq file.file isPage]
      rfl
    · rw [TableContent.setLink, if_neg isHead, found]
      exact file.putPage (file.notRoot found) (by rw [isPage]; exact nofun)
        (shows_.setNextPage new)

/-- **A live row is deleted.** -/
theorem deleteRow_spec (file : TableFile store fileId table) {rowId : RowId}
    (found : table.heap (getPageIdFromRowId rowId) = some content) {row : List UInt8}
    (live : content.slots (getSlotIdFromRowId rowId) = some row) :
    ∃ store', deleteRow store fileId rowId = .ok store' ∧
      TableFile store' fileId (table.setPage (getPageIdFromRowId rowId)
        (content.delete (getSlotIdFromRowId rowId))) ∧ SamePages fileId store store' := by
  obtain ⟨page, isPage, shows_⟩ := file.heap _ content found
  obtain ⟨page', run, deleted⟩ := shows_.deleteSlot live
  refine ⟨store.put ⟨fileId, getPageIdFromRowId rowId⟩ page', ?_, ?_, samePages_put fileId store _ _⟩
  · rw [deleteRow, mustGetPage_eq file.file isPage, ok_bind, run]
    rfl
  · exact file.putPage (file.notRoot found) (by rw [isPage]; exact nofun) deleted

end TableFile

/-- The first page that is allocated can only be the root page. -/
theorem DiskTable.initTableRootPage_root {store created : PageStore} {fileId : FileId}
    {fresh : FreshPage} (init : initTableRootPage store fileId fresh = .ok created) :
    created.files fileId = true ∧
      created.pages ⟨fileId, rootPageId⟩ = some (HeapPage.initPage fresh.bytes) := by
  rcases allocatePage_cases store fileId fresh with
    ⟨error, failed⟩ | ⟨grown, run, file, _, _, sameFiles, pages⟩
  · rw [initTableRootPage, failed] at init
    cases init
  · rw [initTableRootPage, run, ok_bind] at init
    by_cases isRoot : fresh.pageId = rootPageId
    · have grownFile : grown.files fileId = true := sameFiles ▸ file
      have isPage : grown.pages ⟨fileId, rootPageId⟩ = some fresh.bytes := by
        rw [pages, isRoot, Function.update_self]
      simp only [isRoot, ne_eq, not_true_eq_false, if_false, mustGetPage_eq grownFile isPage] at init
      cases init
      exact ⟨grownFile, PageStore.put_self isPage (HeapPage.initPage fresh.bytes)⟩
    · simp only [ne_eq, isRoot, not_false_eq_true, if_true] at init
      cases init

/-- **A freshly initialised table file is empty.** -/
theorem DiskTable.initTableRootPage_spec {store created : PageStore} {fileId : FileId}
    {fresh : FreshPage} (init : initTableRootPage store fileId fresh = .ok created) :
    TableFile created fileId TableContent.empty := by
  obtain ⟨file, isRoot⟩ := initTableRootPage_root init
  have noNext := (HeapPage.initPage_shows fresh.bytes).next
  have noHead := HeapPage.getPrevPage_initPage fresh.bytes
  exact ⟨file, ⟨HeapPage.initPage fresh.bytes, isRoot, noNext, noHead⟩, nofun, rfl⟩

end Yadb
