/-
**What a scan of a table yields.**

`TableContent.rows pages` are the rows of a list of pages, page after page and slot after slot.
`Ahead` says which rows an iterator has still to come to, its current slot included, and `At` which
rows it yields from where it stopped.

* `findRecord_spec`, `advance_spec`, `collect_spec`: the loop over the slots of one page, the loop
  over the pages, and the loop of the client.
* `scan_spec`: where the links from the head of the partial list lead along `pages` and end, a scan
  returns the rows of these pages.
* `scan_avoids`: a scan returns no row of a page that no link leads to.
-/

import Yadb.Foundation.Chain
import Yadb.Storage.Table.Content
import Yadb.Storage.Table.DiskTableIterator

namespace Yadb

open Foundation

/-- The rows in some slots of a page. -/
def pageRows (pageId : PageId) (content : HeapPage.Content) (slots : List SlotId) : List Row :=
  slots.filterMap fun slotId => (content.slots slotId).map (Row.mk (makeRowId pageId slotId))

namespace TableContent

/-- All rows of a page. -/
def rowsOfPage (table : TableContent) (pageId : PageId) : List Row :=
  match table.heap pageId with
  | none => []
  | some content => pageRows pageId content (DiskTableIterator.slotsFrom 0 content.count)

/-- All rows of some pages. -/
def rows (table : TableContent) (pages : List PageId) : List Row := pages.flatMap table.rowsOfPage

end TableContent

namespace DiskTableIterator

open DiskTable

/-! ### The slots of one page -/

theorem slotsFrom_below {slot capacity : Nat} (below : slot < capacity) :
    slotsFrom slot capacity = UInt16.ofNat slot :: slotsFrom (slot + 1) capacity := by
  obtain ⟨rest, same⟩ := Nat.exists_eq_add_of_lt below
  have left : capacity - slot = rest + 1 := by omega
  have left' : capacity - (slot + 1) = rest := by omega
  rw [slotsFrom, left, List.range'_succ, List.map_cons, slotsFrom, left']

theorem slotsFrom_end {slot capacity : Nat} (ended : capacity ≤ slot) :
    slotsFrom slot capacity = [] := by
  rw [slotsFrom, Nat.sub_eq_zero_of_le ended]
  rfl

theorem mem_slotsFrom_iff {slot capacity : Nat} (small : capacity ≤ 2 ^ 16) {slotId : SlotId} :
    slotId ∈ slotsFrom slot capacity ↔ slot ≤ slotId.toNat ∧ slotId.toNat < capacity := by
  rw [slotsFrom, List.mem_map]
  constructor
  · rintro ⟨index, member, rfl⟩
    have inside := List.mem_range'_1.mp member
    rw [UInt16.toNat_ofNat']
    omega
  · rintro ⟨above, below⟩
    exact ⟨slotId.toNat, List.mem_range'_1.mpr ⟨above, by omega⟩, UInt16.ofNat_toNat⟩

theorem mem_slotsFrom {capacity : Nat} (small : capacity ≤ 2 ^ 16) {slotId : SlotId} :
    slotId ∈ slotsFrom 0 capacity ↔ slotId.toNat < capacity :=
  (mem_slotsFrom_iff small).trans (and_iff_right (Nat.zero_le _))

theorem nodup_slotsFrom {slot capacity : Nat} (small : capacity ≤ 2 ^ 16) :
    (slotsFrom slot capacity).Nodup := by
  refine List.Nodup.map_on ?_ List.nodup_range'
  intro first firstMember second secondMember same
  have firstInside := List.mem_range'_1.mp firstMember
  have secondInside := List.mem_range'_1.mp secondMember
  have numbers := congrArg UInt16.toNat same
  rw [UInt16.toNat_ofNat', UInt16.toNat_ofNat'] at numbers
  omega

/-- The slots of a page around one of them. -/
theorem slotsFrom_split {slot capacity : Nat} {slotId : SlotId} (atLeast : slot ≤ slotId.toNat)
    (below : slotId.toNat < capacity) :
    ∃ before, slotsFrom slot capacity = before ++ slotId :: slotsFrom (slotId.toNat + 1) capacity := by
  by_cases here : slot = slotId.toNat
  · refine ⟨[], ?_⟩
    rw [here, slotsFrom_below below, UInt16.ofNat_toNat]
    rfl
  · have later : slot + 1 ≤ slotId.toNat := by omega
    obtain ⟨before, split⟩ := slotsFrom_split later below
    refine ⟨UInt16.ofNat slot :: before, ?_⟩
    rw [slotsFrom_below (by omega), split]
    rfl
termination_by slotId.toNat - slot

variable {page : FullPage} {content : HeapPage.Content}

/-- **The loop over the slots** stops at the first row, or passes over all of them. -/
theorem findRecord_spec (shows_ : HeapPage.Shows page content) (pageId : PageId) (slot : Nat) :
    (pageRows pageId content (slotsFrom slot content.count) = [] ∧
        findRecord page (slotsFrom slot content.count) = .ok none) ∨
      ∃ slotId record, findRecord page (slotsFrom slot content.count)
          = .ok (some (slotId, record)) ∧
        (slotId + 1).toNat = slotId.toNat + 1 ∧
        pageRows pageId content (slotsFrom slot content.count)
          = ⟨makeRowId pageId slotId, record⟩ ::
            pageRows pageId content (slotsFrom (slotId + 1).toNat content.count) := by
  have small := shows_.holds.wf.count_lt
  by_cases below : slot < content.count
  · have number : (UInt16.ofNat slot).toNat = slot := by
      rw [UInt16.toNat_ofNat']
      omega
    have isDeleted : Page.isSlotDeleted page (UInt16.ofNat slot) = _ :=
      shows_.isSlotDeleted (by rwa [number])
    rw [slotsFrom_below below, findRecord, isDeleted, ok_bind]
    cases found : content.slots (UInt16.ofNat slot) with
    | none =>
        have skipped : pageRows pageId content
            (UInt16.ofNat slot :: slotsFrom (slot + 1) content.count)
            = pageRows pageId content (slotsFrom (slot + 1) content.count) := by
          rw [pageRows, List.filterMap_cons_none, pageRows]
          rw [found, Option.map_none]
        rw [skipped]
        exact findRecord_spec shows_ pageId (slot + 1)
    | some record =>
        have next : (UInt16.ofNat slot + 1).toNat = slot + 1 := by
          rw [UInt16.toNat_add, number, show (1 : UInt16).toNat = 1 from rfl]
          omega
        refine Or.inr ⟨UInt16.ofNat slot, record, ?_, ?_, ?_⟩
        · rw [shows_.readRecord found]
          rfl
        · rw [next, number]
        · rw [next, pageRows, List.filterMap_cons_some, pageRows]
          rw [found, Option.map_some]
  · rw [slotsFrom_end (Nat.not_lt.mp below)]
    exact Or.inl ⟨rfl, rfl⟩
termination_by content.count - slot

/-! ### The pages -/

/-- No other list follows the one that the iterator is on. -/
def OnLastList (iterator : DiskTableIterator) : Prop :=
  iterator.inPartialList = true ∨ iterator.partialPagesHead = nullPageId

/-- The rows from the current slot of an iterator on. -/
inductive Ahead (table : TableContent) (iterator : DiskTableIterator) : List Row → Prop
  | done : iterator.currentPageId = nullPageId → Ahead table iterator []
  | onPage {content : HeapPage.Content} {rest : List PageId} :
      table.heap iterator.currentPageId = some content → OnLastList iterator →
      Chain table.link nullPageId content.next rest →
      Ahead table iterator (pageRows iterator.currentPageId content
        (slotsFrom iterator.currentSlot.toNat content.count) ++ table.rows rest)

/-- The rows that an iterator yields where it stopped. -/
inductive At (table : TableContent) (iterator : DiskTableIterator) : List Row → Prop
  | done : iterator.currentPageId = nullPageId → At table iterator []
  | onRow {rest : List Row} : iterator.currentPageId ≠ nullPageId →
      Ahead table { iterator with currentSlot := iterator.currentSlot + 1 } rest →
      At table iterator
        (⟨makeRowId iterator.currentPageId iterator.currentSlot, iterator.rowBuffer⟩ :: rest)

variable {store : PageStore} {fileId : FileId} {table : TableContent} {pages : List PageId}

/-- The null page is on no list, so a list is shorter than there are page ids. -/
theorem length_chain {start : PageId} (chain : Chain table.link nullPageId start pages) :
    pages.length < 2 ^ 32 := by
  have distinct : (nullPageId :: pages).Nodup :=
    List.nodup_cons.mpr ⟨chain.null_notMem, chain.nodup⟩
  have length := length_le_of_nodup UInt32.toNat (distinct.map fun _ _ => UInt32.toNat.inj)
    fun pageId _ => pageId.toNat_lt
  rwa [List.length_cons] at length

/-- A page of a chain is a heap page, and its next page continues the chain. -/
theorem chain_cons {start pageId : PageId} {rest : List PageId}
    (chain : Chain table.link nullPageId start (pageId :: rest)) :
    start = pageId ∧ pageId ≠ nullPageId ∧ ∃ content, table.heap pageId = some content ∧
      Chain table.link nullPageId content.next rest := by
  obtain ⟨first, notNull, following, link, chain⟩ := chain
  rw [TableContent.link, if_neg notNull] at link
  obtain ⟨content, found, rfl⟩ := Option.map_eq_some_iff.mp link
  exact ⟨first, notNull, content, found, chain⟩

/-- **One turn of the loop over the pages**: the page has no row left, or the iterator stops at its
next row. -/
theorem advance_turn (file : TableFile store fileId table) {iterator : DiskTableIterator}
    {content : HeapPage.Content} (found : table.heap iterator.currentPageId = some content) :
    (pageRows iterator.currentPageId content
          (slotsFrom iterator.currentSlot.toNat content.count) = [] ∧
        ∀ turns, advanceToNextValid store fileId (turns + 1) iterator
          = advanceToNextValid store fileId turns (iterator.nextPage content.next)) ∨
      ∃ slotId record, pageRows iterator.currentPageId content
          (slotsFrom iterator.currentSlot.toNat content.count)
          = ⟨makeRowId iterator.currentPageId slotId, record⟩ ::
            pageRows iterator.currentPageId content (slotsFrom (slotId + 1).toNat content.count) ∧
        ∀ turns, advanceToNextValid store fileId (turns + 1) iterator
          = .ok { iterator with currentSlot := slotId, rowBuffer := record } := by
  obtain ⟨page, isPage, shows_⟩ := file.heap _ content found
  have turn : ∀ turns, advanceToNextValid store fileId (turns + 1) iterator = _ :=
    fun turns => if_neg (file.notNull found)
  simp only [mustGetPage_eq file.file isPage, ok_bind, shows_.capacity, shows_.next] at turn
  rcases findRecord_spec shows_ iterator.currentPageId iterator.currentSlot.toNat with
    ⟨none, run⟩ | ⟨slotId, record, run, _, some⟩
  · refine Or.inl ⟨none, fun turns => ?_⟩
    rw [turn, run]
    rfl
  · refine Or.inr ⟨slotId, record, some, fun turns => ?_⟩
    rw [turn, run]
    rfl

/-- The loop over the pages, with enough turns for the pages that follow. -/
theorem advance_onPage (file : TableFile store fileId table) {iterator : DiskTableIterator}
    {content : HeapPage.Content} {pages : List PageId}
    (found : table.heap iterator.currentPageId = some content)
    (onLastList : OnLastList iterator)
    (chain : Chain table.link nullPageId content.next pages) {turns : Nat}
    (enough : pages.length + 2 ≤ turns) :
    ∃ iterator', advanceToNextValid store fileId turns iterator = .ok iterator' ∧
      At table iterator' (pageRows iterator.currentPageId content
        (slotsFrom iterator.currentSlot.toNat content.count) ++ table.rows pages) := by
  obtain ⟨turns, rfl⟩ : ∃ fewer, turns = fewer + 1 := ⟨turns - 1, by omega⟩
  rcases advance_turn file found with ⟨empty, skip⟩ | ⟨slotId, record, isRow, stop⟩
  · rw [empty, skip, List.nil_append, nextPage]
    cases pages with
    | nil =>
        -- the list ends, and the iterator with it
        obtain ⟨turns, rfl⟩ : ∃ fewer, turns = fewer + 1 := ⟨turns - 1, by omega⟩
        have ended : content.next = nullPageId := chain
        have noList : ¬ (!iterator.inPartialList && decide (iterator.partialPagesHead ≠ nullPageId))
            = true := by
          rcases onLastList with inPartialList | noHead
          · rw [inPartialList]
            exact Bool.false_ne_true
          · rw [decide_eq_false (not_not.mpr noHead), Bool.and_false]
            exact Bool.false_ne_true
        rw [if_neg (not_not.mpr ended), if_neg noList]
        exact ⟨_, if_pos rfl, .done rfl⟩
    | cons pageId rest =>
        obtain ⟨first, notNull, following, isHeap, chain⟩ := chain_cons chain
        rw [if_pos (first ▸ notNull), first, TableContent.rows, List.flatMap_cons,
          TableContent.rowsOfPage, isHeap]
        rw [List.length_cons] at enough
        have onNext : table.heap ({ iterator with currentPageId := pageId, currentSlot := 0 } :
          DiskTableIterator).currentPageId = some following := isHeap
        exact advance_onPage file onNext onLastList chain (by omega)
  · rw [stop, isRow]
    exact ⟨_, rfl, .onRow (file.notNull found) (.onPage found onLastList chain)⟩
termination_by pages.length

theorem onLastList_nextPage {iterator : DiskTableIterator} (onLastList : OnLastList iterator) (nextPageId : PageId) :
    OnLastList (iterator.nextPage nextPageId) := by
  unfold nextPage
  split
  · exact onLastList
  · split
    · exact Or.inl rfl
    · exact onLastList

theorem onLastList_advance {iterator iterator' : DiskTableIterator} {turns : Nat} (onLastList : OnLastList iterator)
    (run : advanceToNextValid store fileId turns iterator = .ok iterator') :
    OnLastList iterator' := by
  induction turns generalizing iterator with
  | zero => cases run
  | succ turns ih =>
      rw [advanceToNextValid] at run
      split at run
      · cases run
        exact onLastList
      · cases read : mustGetPage store ⟨fileId, iterator.currentPageId⟩ with
        | error failure =>
            rw [read] at run
            cases run
        | ok page =>
            rw [read, ok_bind] at run
            dsimp only at run
            cases scanned : mustEdit (findRecord page
                (slotsFrom iterator.currentSlot.toNat (Page.getPageCapacity page).toNat)) with
            | error failure =>
                rw [scanned] at run
                cases run
            | ok found =>
                rw [scanned, ok_bind] at run
                rcases found with - | ⟨slotId, record⟩
                · exact ih (onLastList_nextPage onLastList _) run
                · cases run
                  exact onLastList

/-- **Advancing** comes to the first row ahead, or to the end. -/
theorem advance_spec (file : TableFile store fileId table) {iterator : DiskTableIterator}
    {ahead : List Row} (isAhead : Ahead table iterator ahead) :
    ∃ iterator', advanceToNextValid store fileId advanceTurns iterator = .ok iterator' ∧
      At table iterator' ahead := by
  cases isAhead with
  | done ended => exact ⟨iterator, if_pos ended, .done ended⟩
  | onPage found onLastList chain =>
      have length := length_chain chain
      exact advance_onPage file found onLastList chain (by
        unfold advanceTurns
        omega)

/-- **The loop of the client** yields the rows ahead. -/
theorem collect_spec (file : TableFile store fileId table) {iterator : DiskTableIterator}
    {ahead : List Row} (isAt : At table iterator ahead) {turns : Nat}
    (enough : ahead.length < turns) : collect store fileId turns iterator = .ok ahead := by
  induction ahead generalizing iterator turns with
  | nil =>
      cases isAt with
      | done ended =>
          obtain ⟨turns, rfl⟩ : ∃ fewer, turns = fewer + 1 := ⟨turns - 1, by omega⟩
          exact if_pos (beq_iff_eq.mpr ended)
  | cons row rest ih =>
      cases isAt with
      | onRow notNull isAhead =>
          rw [List.length_cons] at enough
          obtain ⟨turns, rfl⟩ : ∃ fewer, turns = fewer + 1 := ⟨turns - 1, by omega⟩
          obtain ⟨iterator', run, isAt⟩ := advance_spec file isAhead
          have notEnd : ¬ iterator.atEnd = true := fun ended => notNull (beq_iff_eq.mp ended)
          rw [collect, if_neg notEnd, get, if_neg notNull, ok_bind, next, run, ok_bind,
            ih isAt (by omega)]
          rfl

end DiskTableIterator

/-! ### The rows of a table -/

namespace TableContent

variable {store : PageStore} {fileId : FileId} {table : TableContent} {pages : List PageId}

open DiskTableIterator

theorem mem_pageRows {pageId : PageId} {content : HeapPage.Content} {slots : List SlotId}
    {row : Row} : row ∈ pageRows pageId content slots ↔ ∃ slotId ∈ slots,
      content.slots slotId = some row.data ∧ row.rowId = makeRowId pageId slotId := by
  rw [pageRows, List.mem_filterMap]
  refine exists_congr fun slotId => and_congr_right fun _ => ?_
  rw [Option.map_eq_some_iff]
  constructor
  · rintro ⟨data, found, rfl⟩
    exact ⟨found, rfl⟩
  · rintro ⟨found, isId⟩
    exact ⟨row.data, found, by rw [← isId]⟩

/-- **The rows of the pages are the rows that are found under their ids.** -/
theorem mem_rows (file : TableFile store fileId table) {row : Row} :
    row ∈ table.rows pages ↔ ∃ pageId ∈ pages, ∃ slotId, row.rowId = makeRowId pageId slotId ∧
      table.lookup row.rowId = some row.data := by
  rw [rows, List.mem_flatMap]
  refine exists_congr fun pageId => and_congr_right fun _ => ?_
  rw [rowsOfPage]
  cases found : table.heap pageId with
  | none =>
      refine iff_of_false List.not_mem_nil ?_
      rintro ⟨slotId, isId, isRow⟩
      rw [isId, lookup_makeRowId, found] at isRow
      cases isRow
  | some content =>
      obtain ⟨page, _, shows_⟩ := file.heap pageId content found
      refine mem_pageRows.trans (exists_congr fun slotId => ?_)
      constructor
      · rintro ⟨_, isRow, isId⟩
        refine ⟨isId, ?_⟩
        rw [isId, lookup_makeRowId, found]
        exact isRow
      · rintro ⟨isId, isRow⟩
        rw [isId, lookup_makeRowId, found] at isRow
        exact ⟨(mem_slotsFrom shows_.holds.wf.count_lt.le).mpr (shows_.below isRow), isRow, isId⟩

/-- The row ids of a page name slots of it. -/
theorem rowId_of_mem {pageId : PageId} {row : Row} (member : row ∈ table.rowsOfPage pageId) :
    getPageIdFromRowId row.rowId = pageId := by
  rw [rowsOfPage] at member
  cases found : table.heap pageId with
  | none =>
      rw [found] at member
      cases member
  | some content =>
      rw [found] at member
      obtain ⟨slotId, _, _, isId⟩ := mem_pageRows.mp member
      rw [isId, rowId_pageId]

theorem nodup_pageRows {pageId : PageId} {content : HeapPage.Content} {slots : List SlotId}
    (distinct : slots.Nodup) : ((pageRows pageId content slots).map Row.rowId).Nodup := by
  induction slots with
  | nil => exact List.nodup_nil
  | cons slotId rest ih =>
      obtain ⟨first, distinct⟩ := List.nodup_cons.mp distinct
      cases found : content.slots slotId with
      | none =>
          rw [pageRows, List.filterMap_cons_none (by rw [found, Option.map_none])]
          exact ih distinct
      | some data =>
          rw [pageRows, List.filterMap_cons_some (by rw [found, Option.map_some]), List.map_cons]
          refine List.nodup_cons.mpr ⟨fun member => ?_, ih distinct⟩
          obtain ⟨row, isRow, same⟩ := List.mem_map.mp member
          obtain ⟨other, inRest, _, isId⟩ := mem_pageRows.mp isRow
          have equal := (makeRowId_injective (isId.symm.trans same)).2
          exact first (equal ▸ inRest)

/-- **No row id is yielded twice.** -/
theorem nodup_rows (file : TableFile store fileId table) (distinct : pages.Nodup) :
    ((table.rows pages).map Row.rowId).Nodup := by
  induction pages with
  | nil => exact List.nodup_nil
  | cons pageId rest ih =>
      obtain ⟨first, distinct⟩ := List.nodup_cons.mp distinct
      rw [rows, List.flatMap_cons, List.map_append]
      refine List.nodup_append.mpr ⟨?_, ih distinct, ?_⟩
      · rw [rowsOfPage]
        cases found : table.heap pageId with
        | none => exact List.nodup_nil
        | some content =>
            obtain ⟨page, _, shows_⟩ := file.heap pageId content found
            exact nodup_pageRows (nodup_slotsFrom shows_.holds.wf.count_lt.le)
      · intro rowId firstMember other restMember same
        obtain ⟨row, isRow, rfl⟩ := List.mem_map.mp firstMember
        obtain ⟨row', isRow', rfl⟩ := List.mem_map.mp restMember
        obtain ⟨pageId', inRest, onPage⟩ := List.mem_flatMap.mp isRow'
        have samePage := (rowId_of_mem isRow).symm.trans
          ((congrArg getPageIdFromRowId same).trans (rowId_of_mem onPage))
        exact first (samePage ▸ inRest)

end TableContent

namespace DiskTableIterator

variable {store : PageStore} {fileId : FileId} {table : TableContent} {pages : List PageId}

open DiskTable

/-- The root of a table names no full pages, so an iterator starts on the partial list. -/
theorem begin_eq (file : TableFile store fileId table) : begin store fileId
    = advanceToNextValid store fileId advanceTurns (start nullPageId table.head) := by
  obtain ⟨root, isRoot, next, head⟩ := file.root
  rw [begin, mustGetPage_eq file.file isRoot, ok_bind, HeapPage.getFullPagesHead, next,
    HeapPage.getPartialPagesHead, head]

theorem onLastList_begin (file : TableFile store fileId table) {iterator : DiskTableIterator}
    (run : begin store fileId = .ok iterator) : OnLastList iterator := by
  rw [begin_eq file] at run
  refine onLastList_advance ?_ run
  unfold start
  rw [if_neg (not_not.mpr rfl)]
  split
  · exact Or.inl rfl
  · rename_i noHead
    exact Or.inr (not_not.mp noHead)

/-- **The constructor** comes to the first row of the table. -/
theorem begin_spec (file : TableFile store fileId table)
    (chain : Chain table.link nullPageId table.head pages) :
    ∃ iterator, begin store fileId = .ok iterator ∧ At table iterator (table.rows pages) := by
  rw [begin_eq file]
  refine advance_spec file ?_
  cases pages with
  | nil =>
      have empty : table.head = nullPageId := chain
      rw [empty]
      exact .done rfl
  | cons pageId rest =>
      obtain ⟨first, notNull, content, found, chain⟩ := chain_cons chain
      rw [first, start, if_neg (not_not.mpr rfl), if_pos notNull, TableContent.rows,
        List.flatMap_cons, TableContent.rowsOfPage, found]
      exact .onPage found (Or.inl rfl) chain

/-- **A scan** returns the rows of the pages that the links from the head of the list lead to. -/
theorem scan_spec (file : TableFile store fileId table)
    (chain : Chain table.link nullPageId table.head pages) :
    scan store fileId = .ok (table.rows pages) := by
  have length : (table.rows pages).length < scanTurns := by
    refine Nat.lt_succ_of_le (length_le_of_nodup (UInt64.toNat ∘ Row.rowId) ?_ fun row member => ?_)
    · rw [← List.map_map]
      exact (TableContent.nodup_rows file chain.nodup).map fun _ _ => UInt64.toNat.inj
    · obtain ⟨pageId, _, slotId, isId, _⟩ := (TableContent.mem_rows file).mp member
      have pageBound : pageId.toNat < 2 ^ 32 := pageId.toNat_lt
      have slotBound : slotId.toNat < 2 ^ 16 := slotId.toNat_lt
      rw [Function.comp_apply, isId, makeRowId_toNat]
      omega
  obtain ⟨iterator, run, isAt⟩ := begin_spec file chain
  rw [scan, run, ok_bind, collect_spec file isAt length]

end DiskTableIterator

end Yadb
