/-
**A disk table refines a finite map from row ids to rows.**

`tableMachine` runs the calls of one client on a table file; `TableMap` is the map that the calls
and the row ids they returned describe, with the ids returned so far.

* `Listed table pages`: the links lead from the head of the partial list along `pages` to null, and
  every heap page is one of them.
* `walk_spec`, `insertRow_spec`: an insert writes the row on a page of the list, or on a new page
  linked where the list ends.
* `Holds`: the invariant of the run, kept by every call (`step_holds`).
* `diskTable_refines`: over every run from a fresh table, no call fails, a new row id is never one
  returned before, the list ends, and a scan yields the rows of the map under their ids, once each.
-/

import Yadb.Foundation.Machine
import Yadb.Storage.Table.Scan

namespace Yadb

open Foundation

inductive TableOp
  | insertRow (row : List UInt8) (fresh : FreshPage)
  | updateRow (rowId : RowId) (row : List UInt8) (fresh : FreshPage)
  | deleteRow (rowId : RowId)

inductive TableAnswer
  | rowId (rowId : RowId)
  | done
  | failed (failure : TableFailure)
  deriving DecidableEq

namespace DiskTable

/-- One call; one that fails aborts the process. -/
def call (fileId : FileId) (store : PageStore) :
    TableOp → Except TableFailure (TableAnswer × PageStore)
  | .insertRow row fresh => do
      let (rowId, store) ← insertRow store fileId row fresh
      return (.rowId rowId, store)
  | .updateRow rowId row fresh => do
      let (rowId, store) ← updateRow store fileId rowId row fresh
      return (.rowId rowId, store)
  | .deleteRow rowId => do
      return (.done, ← deleteRow store fileId rowId)

def step (fileId : FileId) (store : PageStore) (op : TableOp) : TableAnswer × PageStore :=
  match call fileId store op with
  | .ok result => result
  | .error failure => (.failed failure, store)

end DiskTable

def tableMachine (fileId : FileId) : Machine PageStore TableOp TableAnswer :=
  ⟨DiskTable.step fileId⟩

/-! ### What a table is for -/

/-- The rows by their ids, and the ids returned so far. -/
structure TableMap where
  rows : RowId → Option (List UInt8)
  issued : List RowId

namespace TableMap

def empty : TableMap := ⟨fun _ => none, []⟩

def insert (map : TableMap) (rowId : RowId) (row : List UInt8) : TableMap :=
  ⟨Function.update map.rows rowId (some row), rowId :: map.issued⟩

def delete (map : TableMap) (rowId : RowId) : TableMap :=
  { map with rows := Function.update map.rows rowId none }

/-- What a call and its answer say about the rows. -/
def update (map : TableMap) : TableOp → TableAnswer → TableMap
  | .insertRow row _, .rowId rowId => map.insert rowId row
  | .updateRow old row _, .rowId rowId => (map.delete old).insert rowId row
  | .deleteRow old, .done => map.delete old
  | _, _ => map

end TableMap

namespace DiskTable

/-- The table with the map of the run so far. -/
def recorded (fileId : FileId) : Machine (PageStore × TableMap) TableOp TableAnswer :=
  (tableMachine fileId).withReplay TableMap.update

/-- The disk had no page to hand out. -/
def OutOfPages : TableAnswer → Prop
  | .failed (.allocatePage _) => True
  | _ => False

instance : DecidablePred OutOfPages
  | .failed (.allocatePage _) => .isTrue trivial
  | .failed (.getPage _) | .failed .notRootPage | .failed (.page _) | .failed .emptyOptional
  | .failed .pastTheEnd | .failed .neverReturns | .rowId _ | .done => .isFalse id

/-- Rows fit a fresh page, and row ids are live. -/
def Permits (map : TableMap) : TableOp → Prop
  | .insertRow row _ => FitsFreshPage row
  | .updateRow rowId row _ => map.rows rowId ≠ none ∧ FitsFreshPage row
  | .deleteRow rowId => map.rows rowId ≠ none

instance (map : TableMap) : DecidablePred (Permits map)
  | .insertRow row _ => inferInstanceAs (Decidable (FitsFreshPage row))
  | .updateRow rowId row _ =>
      inferInstanceAs (Decidable (map.rows rowId ≠ none ∧ FitsFreshPage row))
  | .deleteRow rowId => inferInstanceAs (Decidable (map.rows rowId ≠ none))

/-- The call is one that clients may make, and its page allocation succeeds. -/
def Allowed (fileId : FileId) (state : PageStore × TableMap) (op : TableOp) : Prop :=
  Permits state.2 op ∧ ¬ OutOfPages ((tableMachine fileId).answer state.1 op)

instance (fileId : FileId) (state : PageStore × TableMap) (op : TableOp) :
    Decidable (Allowed fileId state op) := inferInstanceAs (Decidable (_ ∧ _))

/-- A scan yields the rows of the map, each once. -/
def ScanShows (fileId : FileId) (state : PageStore × TableMap) : Prop :=
  ∃ rows, DiskTableIterator.scan state.1 fileId = .ok rows ∧ (rows.map Row.rowId).Nodup ∧
    ∀ row, row ∈ rows ↔ state.2.rows row.rowId = some row.data

/-- The next page of each page of the file. -/
def nextLink (store : PageStore) (fileId : FileId) (pageId : PageId) : Option PageId :=
  (store.pages ⟨fileId, pageId⟩).map HeapPage.getNextPage

/-- The partial list visits no page twice and ends in the null page. -/
def ListEnds (fileId : FileId) (store : PageStore) : Prop :=
  ∃ root pages, store.pages ⟨fileId, rootPageId⟩ = some root ∧
    Chain (nextLink store fileId) nullPageId (HeapPage.getPartialPagesHead root) pages ∧ pages.Nodup

/-- The call returned, and not with a row id returned before. -/
def Succeeds (map : TableMap) : TableAnswer → Prop
  | .rowId rowId => rowId ∉ map.issued
  | .done => True
  | .failed _ => False

/-! ### Lists of pages -/

/-- The partial list, which all heap pages are on. -/
structure Listed (table : TableContent) (pages : List PageId) : Prop where
  chain : Chain table.link nullPageId table.head pages
  all : ∀ pageId, table.heap pageId ≠ none → pageId ∈ pages

/-- What an insert does to the content of the table. -/
inductive Inserts (table : TableContent) (row : List UInt8) : RowId → TableContent → Prop
  | onPage {pageId : PageId} {content : HeapPage.Content} : table.heap pageId = some content →
      Inserts table row (makeRowId pageId (UInt16.ofNat content.count))
        (table.setPage pageId (content.insert row))
  | onNewPage {last new : PageId} : table.heap new = none → new ≠ nullPageId →
      (last = nullPageId ∨ table.heap last ≠ none) → table.link last = some nullPageId →
      Inserts table row (makeRowId new 0)
        ((table.setPage new (HeapPage.Content.empty.insert row)).setLink last new)

variable {store : PageStore} {fileId : FileId} {table : TableContent} {pages : List PageId}
  {row : List UInt8}

/-- **The walk** along the rest of the list inserts the row if a page there has room, and ends at
the end of the list otherwise. -/
theorem walk_spec (file : TableFile store fileId table) (short : row.length < 2 ^ 63)
    {last next : PageId} (known : last = nullPageId ∨ table.heap last ≠ none)
    (link : table.link last = some next) (chain : Chain table.link nullPageId next pages)
    {turns : Nat} (enough : pages.length < turns) :
    ((∃ pageId ∈ pages, 5 + row.length ≤ freeSpaceOn store fileId pageId) ∧
      ∃ pageId content store', walk fileId row turns store last next
          = .ok (.inl (makeRowId pageId (UInt16.ofNat content.count)), store') ∧
        table.heap pageId = some content ∧
        TableFile store' fileId (table.setPage pageId (content.insert row))) ∨
      ((∀ pageId ∈ pages, freeSpaceOn store fileId pageId < 5 + row.length) ∧
        ∃ last', walk fileId row turns store last next = .ok (.inr last', store) ∧
          (last' = nullPageId ∨ table.heap last' ≠ none) ∧
          table.link last' = some nullPageId) := by
  induction pages generalizing last next turns with
  | nil =>
      obtain ⟨turns, rfl⟩ : ∃ fewer, turns = fewer + 1 := ⟨turns - 1, by omega⟩
      have ended : next = nullPageId := chain
      exact Or.inr ⟨List.forall_mem_nil _, last, if_pos ended, known, ended ▸ link⟩
  | cons pageId rest ih =>
      rw [List.length_cons] at enough
      obtain ⟨turns, rfl⟩ : ∃ fewer, turns = fewer + 1 := ⟨turns - 1, by omega⟩
      obtain ⟨rfl, notNull, content, found, chain⟩ := DiskTableIterator.chain_cons chain
      rw [walk, if_neg notNull]
      rcases file.tryPage_spec found short with ⟨full, run⟩ | ⟨room, store', run, file', _⟩
      · have linked : table.link next = some content.next := by
          rw [TableContent.link, if_neg notNull, found]
          rfl
        have inHand : next = nullPageId ∨ table.heap next ≠ none :=
          Or.inr (found ▸ Option.some_ne_none _)
        rw [run]
        rcases ih inHand linked chain (Nat.lt_of_succ_lt_succ enough) with
          ⟨⟨roomy, member, room⟩, inserted⟩ | ⟨allFull, ended⟩
        · exact Or.inl ⟨⟨roomy, List.mem_cons_of_mem _ member, room⟩, inserted⟩
        · exact Or.inr ⟨List.forall_mem_cons.mpr ⟨full, allFull⟩, ended⟩
      · rw [run]
        exact Or.inl ⟨⟨next, List.mem_cons_self, room⟩, next, content, store', rfl, found, file'⟩

/-- **A new page** gets the row and is linked where the list ends. -/
theorem newPage_spec (file : TableFile store fileId table) {new last : PageId}
    (allocated : store.pages ⟨fileId, new⟩ ≠ none) (notRoot : new ≠ rootPageId)
    (noHeap : table.heap new = none) (notNull : new ≠ nullPageId)
    (known : last = nullPageId ∨ table.heap last ≠ none)
    (ends : table.link last = some nullPageId) (fits : FitsFreshPage row) :
    ∃ filled linked table', fillNewPage store fileId new row = .ok (makeRowId new 0, filled) ∧
      linkPage filled fileId last new = .ok linked ∧
      Inserts table row (makeRowId new 0) table' ∧ TableFile linked fileId table' := by
  obtain ⟨filled, fillRun, filledFile, _⟩ := file.fillNewPage_spec allocated notRoot fits
  have stillKnown : last = nullPageId ∨
      (table.setPage new (HeapPage.Content.empty.insert row)).heap last ≠ none := by
    refine known.imp_right fun isHeap => ?_
    rw [TableContent.heap_setPage, Function.update_of_ne]
    · exact isHeap
    · rintro rfl
      exact isHeap noHeap
  obtain ⟨linked, linkRun, linkedFile, _⟩ := filledFile.linkPage_spec new stillKnown
  exact ⟨filled, linked, _, fillRun, linkRun, .onNewPage noHeap notNull known ends, linkedFile⟩

/-- **`insert_row`**: the disk has no page to hand out, or the row is inserted. -/
theorem insertRow_spec (file : TableFile store fileId table)
    (chain : Chain table.link nullPageId table.head pages) (fits : FitsFreshPage row)
    (fresh : FreshPage) :
    (∃ error, insertRow store fileId row fresh = .error (.allocatePage error)) ∨
      ∃ rowId store' table', insertRow store fileId row fresh = .ok (rowId, store') ∧
        Inserts table row rowId table' ∧ TableFile store' fileId table' := by
  have enough : pages.length < pageTurns := DiskTableIterator.length_chain chain
  rw [insertRow, file.readPartialHead_spec, ok_bind]
  rcases walk_spec file fits.short (Or.inl rfl) table.link_null chain enough with
    ⟨_, pageId, content, store', run, found, file'⟩ | ⟨_, last, run, known, ends⟩
  · rw [run]
    exact Or.inr ⟨_, store', _, rfl, .onPage found, file'⟩
  · rw [run, ok_bind]
    rcases file.allocatePage_spec fresh with ⟨error, failed⟩ |
      ⟨grown, run, noPage, notNull, file', pages'⟩
    · refine Or.inl ⟨error, ?_⟩
      show (allocatePage store fileId fresh >>= _) = _
      rw [failed]
      rfl
    · obtain ⟨noHeap, notRoot⟩ := file.absent noPage
      have allocated : grown.pages ⟨fileId, fresh.pageId⟩ ≠ none := by
        rw [pages', Function.update_self]
        exact nofun
      obtain ⟨filled, linked, table', fillRun, linkRun, inserts, linkedFile⟩ :=
        newPage_spec file' allocated notRoot noHeap notNull known ends fits
      refine Or.inr ⟨_, linked, table', ?_, inserts, linkedFile⟩
      show (allocatePage store fileId fresh >>= _) = _
      rw [run, ok_bind]
      show (fillNewPage grown fileId fresh.pageId row >>= _) = _
      rw [fillRun, ok_bind]
      show (linkPage filled fileId last fresh.pageId >>= _) = _
      rw [linkRun]
      rfl

/-! ### What an insert keeps -/

/-- The row id names a slot that is or was in use. -/
def Used (table : TableContent) (rowId : RowId) : Prop :=
  ∃ content, table.heap (getPageIdFromRowId rowId) = some content ∧
    (getSlotIdFromRowId rowId).toNat < content.count

variable {rowId : RowId} {table' : TableContent}

theorem Listed.isHeap (listed : Listed table pages) {pageId : PageId} (member : pageId ∈ pages) :
    table.heap pageId ≠ none := by
  obtain ⟨following, link, _⟩ := listed.chain.next_isSome member
  have notNull : pageId ≠ nullPageId := fun same => listed.chain.null_notMem (same ▸ member)
  rw [TableContent.link, if_neg notNull] at link
  intro absent
  rw [absent] at link
  cases link

/-- **An insert keeps the list**, or appends a page to it. -/
theorem Inserts.listed (inserts : Inserts table row rowId table') (listed : Listed table pages) :
    ∃ added, Listed table' (pages ++ added) := by
  cases inserts with
  | @onPage pageId content found =>
      have sameLinks : (table.setPage pageId (content.insert row)).link = table.link :=
        TableContent.link_setPage found rfl
      refine ⟨[], ?_, fun other isHeap => ?_⟩
      · rw [sameLinks, List.append_nil]
        exact listed.chain
      · rw [List.append_nil]
        rw [TableContent.heap_setPage] at isHeap
        by_cases same : other = pageId
        · rw [same]
          exact listed.all pageId (by rw [found]; exact nofun)
        · rw [Function.update_of_ne same] at isHeap
          exact listed.all other isHeap
  | @onNewPage last new noHeap notNull known ends =>
      have outside : new ∉ pages := fun member => listed.isHeap member noHeap
      have different : last ≠ new := by
        rintro rfl
        exact known.elim notNull fun isHeap => isHeap noHeap
      refine ⟨[new], ?_, fun other isHeap => ?_⟩
      · refine TableContent.chain_setLink (TableContent.chain_setPage listed.chain _ outside)
          (known.imp_right (listed.all last)) ?_ outside notNull
          (TableContent.link_setPage_self _ notNull)
        rw [TableContent.link_setPage_of_ne _ different]
        exact ends
      · have isHeap := mt TableContent.heap_setLink_eq_none.mpr isHeap
        rw [TableContent.heap_setPage] at isHeap
        by_cases same : other = new
        · exact List.mem_append_right pages (List.mem_singleton.mpr same)
        · rw [Function.update_of_ne same] at isHeap
          exact List.mem_append_left [new] (listed.all other isHeap)

/-- **An insert adds its row** under a row id of its own. -/
theorem Inserts.lookup (inserts : Inserts table row rowId table') :
    (∃ pageId slotId, rowId = makeRowId pageId slotId) ∧ ∀ pageId slotId,
      table'.lookup (makeRowId pageId slotId)
        = Function.update table.lookup rowId (some row) (makeRowId pageId slotId) := by
  cases inserts with
  | onPage found =>
      exact ⟨⟨_, _, rfl⟩, TableContent.lookup_setPage (TableContent.lookup_heap found) rfl⟩
  | onNewPage noHeap _ _ _ =>
      refine ⟨⟨_, _, rfl⟩, fun pageId slotId => ?_⟩
      rw [TableContent.lookup_setLink]
      have noRows : ∀ slotId, table.lookup (makeRowId _ slotId) = HeapPage.Content.empty.slots slotId :=
        TableContent.lookup_noHeap noHeap
      exact TableContent.lookup_setPage noRows rfl pageId slotId

theorem Used.setPage {pageId : PageId} {content : HeapPage.Content} {other : RowId}
    (used : Used table other)
    (grows : ∀ before, table.heap pageId = some before → before.count ≤ content.count) :
    Used (table.setPage pageId content) other := by
  obtain ⟨before, found, below⟩ := used
  by_cases same : getPageIdFromRowId other = pageId
  · refine ⟨content, ?_, below.trans_le (grows before (same ▸ found))⟩
    rw [same, TableContent.heap_setPage, Function.update_self]
  · refine ⟨before, ?_, below⟩
    rw [TableContent.heap_setPage, Function.update_of_ne same]
    exact found

theorem Used.setLink {last new : PageId} {other : RowId} (used : Used table other) :
    Used (table.setLink last new) other := by
  obtain ⟨content, found, below⟩ := used
  obtain ⟨next, linked⟩ : ∃ next, (table.setLink last new).heap _ = some { content with next } :=
    TableContent.heap_setLink found
  exact ⟨_, linked, below⟩

theorem used_self {pageId : PageId} {content : HeapPage.Content} {slotId : SlotId}
    (below : slotId.toNat < content.count) :
    Used (table.setPage pageId content) (makeRowId pageId slotId) := by
  refine ⟨content, ?_, ?_⟩
  · rw [rowId_pageId, TableContent.heap_setPage, Function.update_self]
  · rwa [rowId_slotId]

/-- **An insert takes a slot that was never used.** -/
theorem Inserts.used (inserts : Inserts table row rowId table')
    (file : TableFile store fileId table) :
    ¬ Used table rowId ∧ Used table' rowId ∧ ∀ other, Used table other → Used table' other := by
  cases inserts with
  | @onPage pageId content found =>
      obtain ⟨page, _, shows_⟩ := file.heap pageId content found
      have number := shows_.nextSlot.1
      refine ⟨?_, used_self ?_, fun other used => used.setPage fun before isBefore => ?_⟩
      · rintro ⟨content', found', below⟩
        rw [rowId_pageId, found, Option.some.injEq] at found'
        rw [rowId_slotId, number, found'] at below
        exact Nat.lt_irrefl _ below
      · rw [number]
        exact Nat.lt_succ_self _
      · rw [found, Option.some.injEq] at isBefore
        rw [← isBefore]
        exact Nat.le_succ _
  | @onNewPage last new noHeap notNull known ends =>
      have first : (0 : SlotId).toNat < (HeapPage.Content.empty.insert row).count := Nat.one_pos
      refine ⟨?_, (used_self first).setLink, fun other used => (used.setPage ?_).setLink⟩
      · rintro ⟨content, found, _⟩
        rw [rowId_pageId, noHeap] at found
        cases found
      · intro before isBefore
        rw [noHeap] at isBefore
        cases isBefore

/-! ### The run -/

/-- **The invariant of the run.** -/
structure Holds (fileId : FileId) (state : PageStore × TableMap) (table : TableContent)
    (pages : List PageId) : Prop where
  file : TableFile state.1 fileId table
  listed : Listed table pages
  rows : ∀ pageId slotId,
    state.2.rows (makeRowId pageId slotId) = table.lookup (makeRowId pageId slotId)
  formed : ∀ rowId, state.2.rows rowId ≠ none → ∃ pageId slotId, rowId = makeRowId pageId slotId
  issued : ∀ rowId ∈ state.2.issued, Used table rowId

namespace Holds

variable {map : TableMap}

/-- A row was inserted. -/
theorem insert (holds : Holds fileId (store, map) table pages) {store' : PageStore}
    (inserts : Inserts table row rowId table') (file : TableFile store' fileId table') :
    rowId ∉ map.issued ∧
      ∃ added, Holds fileId (store', map.insert rowId row) table' (pages ++ added) := by
  obtain ⟨isFormed, lookup⟩ := inserts.lookup
  obtain ⟨unused, used, others⟩ := inserts.used holds.file
  obtain ⟨added, listed⟩ := inserts.listed holds.listed
  refine ⟨fun member => unused (holds.issued rowId member), added, file, listed,
    fun pageId slotId => ?_, fun other isRow => ?_, fun other member => ?_⟩
  · rw [lookup]
    show Function.update map.rows rowId (some row) (makeRowId pageId slotId) = _
    by_cases same : makeRowId pageId slotId = rowId
    · rw [same, Function.update_self, Function.update_self]
    · rw [Function.update_of_ne same, Function.update_of_ne same]
      exact holds.rows pageId slotId
  · by_cases same : other = rowId
    · rw [same]
      exact isFormed
    · have isRow : Function.update map.rows rowId (some row) other ≠ none := isRow
      rw [Function.update_of_ne same] at isRow
      exact holds.formed other isRow
  · rcases List.mem_cons.mp member with rfl | member
    · exact used
    · exact others other (holds.issued other member)

/-- A live row is in a slot of a heap page. -/
theorem liveSlot (holds : Holds fileId (store, map) table pages) (live : map.rows rowId ≠ none) :
    ∃ content row, table.heap (getPageIdFromRowId rowId) = some content ∧
      content.slots (getSlotIdFromRowId rowId) = some row := by
  obtain ⟨pageId, slotId, rfl⟩ := holds.formed rowId live
  have isRow : table.lookup (makeRowId pageId slotId) ≠ none := holds.rows pageId slotId ▸ live
  obtain ⟨row, isRow⟩ := Option.ne_none_iff_exists'.mp isRow
  obtain ⟨content, found, isRow⟩ := Option.bind_eq_some_iff.mp isRow
  exact ⟨content, row, found, isRow⟩

/-- A live row was deleted. -/
theorem delete (holds : Holds fileId (store, map) table pages) (live : map.rows rowId ≠ none) :
    ∃ store' table', deleteRow store fileId rowId = .ok store' ∧
      Holds fileId (store', map.delete rowId) table' pages := by
  obtain ⟨content, data, found, isRow⟩ := holds.liveSlot live
  obtain ⟨store', run, file, _⟩ := holds.file.deleteRow_spec found isRow
  obtain ⟨pageId, slotId, rfl⟩ := holds.formed rowId live
  rw [rowId_pageId] at found
  rw [rowId_pageId, rowId_slotId] at file
  have sameLinks : (table.setPage pageId (content.delete slotId)).link = table.link :=
    TableContent.link_setPage found rfl
  refine ⟨store', _, run, file, ⟨sameLinks ▸ holds.listed.chain, fun other isHeap => ?_⟩,
    fun other otherSlot => ?_, fun other isRow => ?_, fun other member => ?_⟩
  · by_cases same : other = pageId
    · rw [same]
      exact holds.listed.all pageId (by rw [found]; exact nofun)
    · rw [TableContent.heap_setPage, Function.update_of_ne same] at isHeap
      exact holds.listed.all other isHeap
  · rw [TableContent.lookup_setPage (TableContent.lookup_heap found) rfl]
    show Function.update map.rows (makeRowId pageId slotId) none (makeRowId other otherSlot) = _
    by_cases same : makeRowId other otherSlot = makeRowId pageId slotId
    · rw [same, Function.update_self, Function.update_self]
    · rw [Function.update_of_ne same, Function.update_of_ne same]
      exact holds.rows other otherSlot
  · have isRow : Function.update map.rows (makeRowId pageId slotId) none other ≠ none := isRow
    by_cases same : other = makeRowId pageId slotId
    · rw [same, Function.update_self] at isRow
      exact absurd rfl isRow
    · rw [Function.update_of_ne same] at isRow
      exact holds.formed other isRow
  · refine (holds.issued other member).setPage fun before isBefore => ?_
    rw [found, Option.some.injEq] at isBefore
    rw [← isBefore]
    exact Nat.le_refl _

/-- What the client sees. -/
theorem scanShows {state : PageStore × TableMap} (holds : Holds fileId state table pages) :
    ScanShows fileId state := by
  refine ⟨table.rows pages, DiskTableIterator.scan_spec holds.file holds.listed.chain,
    TableContent.nodup_rows holds.file holds.listed.chain.nodup, fun row => ?_⟩
  rw [TableContent.mem_rows holds.file]
  constructor
  · rintro ⟨pageId, _, slotId, isId, isRow⟩
    rw [← isRow, isId]
    exact holds.rows pageId slotId
  · intro isRow
    obtain ⟨pageId, slotId, isId⟩ := holds.formed row.rowId (by rw [isRow]; exact nofun)
    have isRow : table.lookup row.rowId = some row.data := by
      rw [← isRow, isId]
      exact (holds.rows pageId slotId).symm
    refine ⟨pageId, holds.listed.all pageId fun absent => ?_, slotId, isId, isRow⟩
    rw [isId, TableContent.lookup_noHeap absent] at isRow
    cases isRow

/-- The links on the pages lead along the list. -/
theorem linked {state : PageStore × TableMap} (holds : Holds fileId state table pages) :
    ∃ root, state.1.pages ⟨fileId, rootPageId⟩ = some root ∧
      Chain (nextLink state.1 fileId) nullPageId (HeapPage.getPartialPagesHead root) pages := by
  obtain ⟨root, isRoot, _, head⟩ := holds.file.root
  refine ⟨root, isRoot, ?_⟩
  have isHead : HeapPage.getPartialPagesHead root = table.head := head
  rw [isHead]
  refine holds.listed.chain.congr fun pageId member => ?_
  obtain ⟨content, found⟩ := Option.ne_none_iff_exists'.mp (holds.listed.isHeap member)
  obtain ⟨page, isPage, shows_⟩ := holds.file.heap pageId content found
  rw [nextLink, isPage, TableContent.link, if_neg (holds.file.notNull found), found, Option.map_some,
    Option.map_some, shows_.next]

theorem listEnds {state : PageStore × TableMap} (holds : Holds fileId state table pages) :
    ListEnds fileId state.1 := by
  obtain ⟨root, isRoot, chain⟩ := holds.linked
  exact ⟨root, pages, isRoot, chain, chain.nodup⟩

end Holds

/-- How a call that returned moves the recorded table. -/
theorem recorded_ok (map : TableMap) {op : TableOp} {answer : TableAnswer} {store' : PageStore}
    (run : call fileId store op = .ok (answer, store')) :
    (tableMachine fileId).answer store op = answer ∧
      (recorded fileId).next (store, map) op = (store', map.update op answer) := by
  have stepped : step fileId store op = (answer, store') := by
    rw [step, run]
  refine ⟨congrArg Prod.fst stepped, ?_⟩
  show ((step fileId store op).2, map.update op (step fileId store op).1) = _
  rw [stepped]

theorem recorded_error {op : TableOp} {failure : TableFailure}
    (run : call fileId store op = .error failure) :
    (tableMachine fileId).answer store op = .failed failure := by
  show (step fileId store op).1 = _
  rw [step, run]

/-- **Every call that is allowed succeeds and keeps the invariant**; the list grows at its end
only. -/
theorem step_extends {map : TableMap} (holds : Holds fileId (store, map) table pages) (op : TableOp)
    (allowed : Allowed fileId (store, map) op) :
    Succeeds map ((tableMachine fileId).answer store op) ∧ ∃ table' added,
      Holds fileId ((recorded fileId).next (store, map) op) table' (pages ++ added) := by
  obtain ⟨permits, allocates⟩ := allowed
  cases op with
  | insertRow row fresh =>
      rcases insertRow_spec holds.file holds.listed.chain permits fresh with
        ⟨error, failed⟩ | ⟨rowId, store', table', run, inserts, file⟩
      · have failed : call fileId store (.insertRow row fresh) = .error (.allocatePage error) := by
          rw [call, failed]
          rfl
        rw [recorded_error failed] at allocates
        exact absurd trivial allocates
      · have run : call fileId store (.insertRow row fresh) = .ok (.rowId rowId, store') := by
          rw [call, run]
          rfl
        obtain ⟨isAnswer, isNext⟩ := recorded_ok map run
        obtain ⟨isFresh, added, holds'⟩ := holds.insert inserts file
        rw [isAnswer, isNext]
        exact ⟨isFresh, table', added, holds'⟩
  | updateRow old row fresh =>
      obtain ⟨middle, middleTable, deleted, holds⟩ := holds.delete permits.1
      rcases insertRow_spec holds.file holds.listed.chain permits.2 fresh with
        ⟨error, failed⟩ | ⟨rowId, store', table', run, inserts, file⟩
      · have failed : call fileId store (.updateRow old row fresh)
            = .error (.allocatePage error) := by
          rw [call, updateRow, deleted, ok_bind, failed]
          rfl
        rw [recorded_error failed] at allocates
        exact absurd trivial allocates
      · have run : call fileId store (.updateRow old row fresh) = .ok (.rowId rowId, store') := by
          rw [call, updateRow, deleted, ok_bind, run]
          rfl
        obtain ⟨isAnswer, isNext⟩ := recorded_ok map run
        obtain ⟨isFresh, added, holds'⟩ := holds.insert inserts file
        rw [isAnswer, isNext]
        exact ⟨isFresh, table', added, holds'⟩
  | deleteRow old =>
      obtain ⟨store', table', deleted, holds'⟩ := holds.delete permits
      have run : call fileId store (.deleteRow old) = .ok (.done, store') := by
        rw [call, deleted]
        rfl
      obtain ⟨isAnswer, isNext⟩ := recorded_ok map run
      rw [isAnswer, isNext]
      refine ⟨trivial, table', [], ?_⟩
      rw [List.append_nil]
      exact holds'

theorem step_holds {map : TableMap} (holds : Holds fileId (store, map) table pages) (op : TableOp)
    (allowed : Allowed fileId (store, map) op) :
    Succeeds map ((tableMachine fileId).answer store op) ∧
      ∃ table' pages', Holds fileId ((recorded fileId).next (store, map) op) table' pages' := by
  obtain ⟨succeeds, table', added, holds'⟩ := step_extends holds op allowed
  exact ⟨succeeds, table', pages ++ added, holds'⟩

/-- A fresh table holds no rows. -/
theorem holds_empty (file : TableFile store fileId TableContent.empty) :
    Holds fileId (store, TableMap.empty) TableContent.empty [] where
  file := file
  listed := ⟨rfl, fun _ isHeap => absurd rfl isHeap⟩
  rows _ _ := rfl
  formed _ isRow := absurd rfl isRow
  issued := nofun

/-- **A disk table refines a finite map from row ids to rows.** -/
theorem diskTable_refines (fileId : FileId) (store created : PageStore) (fresh : FreshPage)
    (init : initTableRootPage store fileId fresh = .ok created) (ops : List TableOp)
    (allowed : (recorded fileId).Along (Allowed fileId) (created, TableMap.empty) ops) :
    (recorded fileId).Always (fun state => ScanShows fileId state ∧ ListEnds fileId state.1)
      (created, TableMap.empty) ops ∧
    (recorded fileId).Along
      (fun state op => Succeeds state.2 ((tableMachine fileId).answer state.1 op))
      (created, TableMap.empty) ops := by
  have start := holds_empty (initTableRootPage_spec init)
  have keeps : ∀ state op, (∃ table pages, Holds fileId state table pages) →
      Allowed fileId state op →
        ∃ table pages, Holds fileId ((recorded fileId).next state op) table pages := by
    rintro state op ⟨table, pages, holds⟩ allowed
    exact (step_holds holds _ allowed).2
  constructor
  · refine (Machine.always_of_step keeps ⟨_, _, start⟩ allowed).imp ?_
    rintro state ⟨table, pages, holds⟩
    exact ⟨holds.scanShows, holds.listEnds⟩
  · refine Machine.along_of_step keeps ?_ ⟨_, _, start⟩ allowed
    rintro state op ⟨table, pages, holds⟩ allowed
    exact (step_holds holds _ allowed).1

/-- A store with one file that has no pages. -/
def emptyFile : PageStore := ⟨fun fileId => fileId == 1, fun _ => none, PageStore.noPages_null⟩

/-- The table of that file. -/
def createdTable : PageStore :=
  match initTableRootPage emptyFile 1 ⟨0, fun _ => 0⟩ with
  | .ok store => store
  | .error _ => emptyFile

/-- Two rows that fill a page each, one of them deleted and the other moved to the first page. -/
def fillAndUpdate : List TableOp :=
  [.insertRow (List.replicate 2500 7) ⟨1, fun _ => 0⟩,
    .insertRow (List.replicate 2500 8) ⟨2, fun _ => 0⟩, .deleteRow (makeRowId 1 0),
    .updateRow (makeRowId 2 0) [9, 9] ⟨3, fun _ => 0⟩, .insertRow [] ⟨3, fun _ => 0⟩]

example : DiskTableIterator.scan ((tableMachine 1).exec createdTable fillAndUpdate) 1
    = .ok [⟨makeRowId 1 1, [9, 9]⟩, ⟨makeRowId 1 2, []⟩] := by decide +kernel

theorem fillAndUpdate_refines :
    (recorded 1).Always (fun state => ScanShows 1 state ∧ ListEnds 1 state.1)
      (createdTable, TableMap.empty) fillAndUpdate ∧
    (recorded 1).Along
      (fun state op => Succeeds state.2 ((tableMachine 1).answer state.1 op))
      (createdTable, TableMap.empty) fillAndUpdate :=
  diskTable_refines 1 emptyFile createdTable ⟨0, fun _ => 0⟩ rfl fillAndUpdate (by decide +kernel)

end DiskTable

end Yadb
