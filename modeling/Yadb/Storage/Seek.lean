/-
**`seek` on both kinds of table.**

`DiskTableIterator::seek` checks the slot before it writes a field of the iterator;
`EphemeralTableIterator::seek` writes its place in the map first.

* `IteratorOf`: the iterators over a disk table, made in any state of its run and moved in any way.
  All of them are on the last list they will visit (`IteratorOf.onLastList`).
* `seek_live`, `seek_dead`: the id of a row, and a slot of a page of the list without a row.
* `seek_exact_iff`: on a disk table `seek` is always exact; on a table in memory it is so for the
  ids of rows and for an iterator at its end.
-/

import Yadb.Storage.Ephemeral.TableIterator
import Yadb.Storage.Table.RowLength

namespace Yadb

open Foundation

namespace DiskTableIterator

open DiskTable

/-- `seek`. -/
def seek (store : PageStore) (fileId : FileId) (iterator : DiskTableIterator) (rowId : RowId) :
    Except (SeekFailure TableFailure) Unit × DiskTableIterator :=
  let pageId := getPageIdFromRowId rowId
  let slotId := getSlotIdFromRowId rowId
  let record : Except TableFailure (Option (List UInt8)) := do
    let page ← mustGetPage store ⟨fileId, pageId⟩
    if Page.getPageCapacity page ≤ slotId then return none
    else if ← mustEdit (Page.isSlotDeleted page slotId) then return none
    else return some (← mustEdit (Page.readRecord page slotId))
  match record with
  | .error failure => (.error (.aborts failure), iterator)
  | .ok none => (.error (.invalidArgument "Invalid row_id in seek"), iterator)
  | .ok (some record) =>
      (.ok (), { iterator with
        rowBuffer := record, currentPageId := pageId, currentSlot := slotId })

end DiskTableIterator

def diskIterator (store : PageStore) (fileId : FileId) :
    TableIterator DiskTableIterator TableFailure where
  get := DiskTableIterator.get
  atEnd := DiskTableIterator.atEnd
  next := DiskTableIterator.next store fileId
  seek := DiskTableIterator.seek store fileId

namespace DiskTable

/-- The iterators over a table: made in a state of a run from the created table, and moved in any
states. -/
inductive IteratorOf (fileId : FileId) (created : PageStore) : DiskTableIterator → Prop
  | begin {ops : List TableOp} {iterator : DiskTableIterator} :
      (recorded fileId).Along (Completed fileId) (created, TableMap.empty) ops →
      DiskTableIterator.begin ((recorded fileId).exec (created, TableMap.empty) ops).1 fileId
        = .ok iterator →
      IteratorOf fileId created iterator
  | next {store : PageStore} {iterator iterator' : DiskTableIterator} :
      IteratorOf fileId created iterator →
      DiskTableIterator.next store fileId iterator = .ok iterator' →
      IteratorOf fileId created iterator'
  | seek {store : PageStore} {iterator : DiskTableIterator} {rowId : RowId} :
      IteratorOf fileId created iterator →
      IteratorOf fileId created (DiskTableIterator.seek store fileId iterator rowId).2

end DiskTable

namespace DiskTableIterator

open DiskTable

variable {store created : PageStore} {fileId : FileId} {table : TableContent} {pages : List PageId}
  {iterator iterator' : DiskTableIterator} {pageId : PageId} {slotId : SlotId}

/-! ### The lists an iterator visits -/

theorem onLastList_seek (onLastList : OnLastList iterator) (rowId : RowId) :
    OnLastList (seek store fileId iterator rowId).2 := by
  unfold seek
  dsimp only
  split
  · exact onLastList
  · exact onLastList
  · exact onLastList

/-! ### The rows an iterator yields -/

/-- The loop of a client is the one over any iterator. -/
theorem collect_eq (turns : Nat) (iterator : DiskTableIterator) {rows : List Row}
    (collected : collect store fileId turns iterator = .ok rows) :
    (diskIterator store fileId).collect turns iterator = .ok (some rows) := by
  induction turns generalizing iterator rows with
  | zero => cases collected
  | succ turns ih =>
      rw [collect] at collected
      rw [TableIterator.collect]
      by_cases ended : iterator.atEnd = true
      · have ended' : (diskIterator store fileId).atEnd iterator = true := ended
        rw [if_pos ended] at collected
        cases collected
        rw [if_pos ended']
      · have notEnd : ¬ (diskIterator store fileId).atEnd iterator = true := ended
        rw [if_neg ended] at collected
        rw [if_neg notEnd]
        show (iterator.get >>= _) = _
        cases isRow : iterator.get with
        | error failure =>
            rw [isRow] at collected
            cases collected
        | ok row =>
            rw [isRow, ok_bind] at collected
            rw [ok_bind]
            show (iterator.next store fileId >>= _) = _
            cases moved : iterator.next store fileId with
            | error failure =>
                rw [moved] at collected
                cases collected
            | ok following =>
                rw [moved, ok_bind] at collected
                rw [ok_bind]
                cases behind : collect store fileId turns following with
                | error failure =>
                    rw [behind] at collected
                    cases collected
                | ok rest =>
                    rw [behind] at collected
                    cases collected
                    rw [ih following behind]
                    rfl

/-- The rows before and behind a row of a page. -/
theorem rows_split {content : HeapPage.Content} (found : table.heap pageId = some content)
    (below : slotId.toNat < content.count) (small : content.count < 2 ^ 16) {data : List UInt8}
    (isRow : content.slots slotId = some data) (firstPages lastPages : List PageId) :
    ∃ before, table.rows (firstPages ++ pageId :: lastPages)
      = before ++ ⟨makeRowId pageId slotId, data⟩ ::
        (pageRows pageId content (slotsFrom (slotId + 1).toNat content.count) ++
          table.rows lastPages) := by
  obtain ⟨firstSlots, isSlots⟩ := slotsFrom_split (Nat.zero_le slotId.toNat) below
  have next : (slotId + 1).toNat = slotId.toNat + 1 := by
    rw [UInt16.toNat_add, show (1 : UInt16).toNat = 1 from rfl]
    omega
  have onPage : table.rowsOfPage pageId = pageRows pageId content firstSlots ++
      ⟨makeRowId pageId slotId, data⟩ ::
        pageRows pageId content (slotsFrom (slotId + 1).toNat content.count) := by
    rw [TableContent.rowsOfPage, found]
    show pageRows pageId content (slotsFrom 0 content.count) = _
    rw [isSlots, pageRows, List.filterMap_append, List.filterMap_cons_some, next]
    · rfl
    · rw [isRow, Option.map_some]
  refine ⟨table.rows firstPages ++ pageRows pageId content firstSlots, ?_⟩
  rw [TableContent.rows, List.flatMap_append, List.flatMap_cons, onPage, TableContent.rows,
    TableContent.rows, List.append_assoc, List.append_assoc, List.cons_append]

/-- **The id of a row** moves the iterator to it, with the rows behind it to come. -/
theorem seek_live (file : TableFile store fileId table)
    (chain : Chain table.link nullPageId table.head pages) (onLastList : OnLastList iterator)
    (member : pageId ∈ pages) {content : HeapPage.Content} (found : table.heap pageId = some content)
    {data : List UInt8} (isRow : content.slots slotId = some data) :
    ∃ iterator' before after, seek store fileId iterator (makeRowId pageId slotId)
        = (.ok (), iterator') ∧
      iterator'.get = .ok ⟨makeRowId pageId slotId, data⟩ ∧
      At table iterator' (⟨makeRowId pageId slotId, data⟩ :: after) ∧
      table.rows pages = before ++ ⟨makeRowId pageId slotId, data⟩ :: after := by
  obtain ⟨page, isPage, shows_⟩ := file.heap pageId content found
  have below := shows_.below isRow
  have inside : ¬ Page.getPageCapacity page ≤ slotId := by
    rw [UInt16.le_iff_toNat_le, shows_.capacity]
    omega
  have live : Page.isSlotDeleted page slotId = .ok false := by
    rw [shows_.isSlotDeleted below, isRow]
    rfl
  have notNull := file.notNull found
  obtain ⟨firstPages, lastPages, isList, suffix⟩ := chain.suffix member
  obtain ⟨_, _, content', found', behind⟩ := chain_cons suffix
  cases found.symm.trans found'
  obtain ⟨before, split⟩ := rows_split found below shows_.holds.wf.count_lt isRow firstPages lastPages
  refine ⟨{ iterator with rowBuffer := data, currentPageId := pageId, currentSlot := slotId },
    before, _, ?_, if_neg notNull, ?_, isList ▸ split⟩
  · rw [seek, rowId_pageId, rowId_slotId, mustGetPage_eq file.file isPage, ok_bind, if_neg inside,
      live]
    show (match (mustEdit (Page.readRecord page slotId) >>= _ :
        Except TableFailure (Option (List UInt8))) with
      | .error _ => _
      | .ok none => _
      | .ok (some _) => _) = _
    rw [shows_.readRecord isRow]
    rfl
  · exact .onRow notNull (.onPage found onLastList behind)

/-- **A slot without a row** is refused before a field of the iterator is written. -/
theorem seek_dead (file : TableFile store fileId table) {content : HeapPage.Content}
    (found : table.heap pageId = some content) (noRow : content.slots slotId = none)
    (iterator : DiskTableIterator) : seek store fileId iterator (makeRowId pageId slotId)
      = (.error (.invalidArgument "Invalid row_id in seek"), iterator) := by
  obtain ⟨page, isPage, shows_⟩ := file.heap pageId content found
  rw [seek, rowId_pageId, rowId_slotId, mustGetPage_eq file.file isPage, ok_bind]
  by_cases outside : Page.getPageCapacity page ≤ slotId
  · rw [if_pos outside]
    rfl
  · have below : slotId.toNat < content.count := by
      rw [UInt16.le_iff_toNat_le, shows_.capacity] at outside
      omega
    rw [if_neg outside, shows_.isSlotDeleted below, noRow]
    rfl

end DiskTableIterator

namespace DiskTable

variable {fileId : FileId} {store created : PageStore} {fresh : FreshPage}

theorem IteratorOf.onLastList (init : initTableRootPage store fileId fresh = .ok created)
    {iterator : DiskTableIterator} (made : IteratorOf fileId created iterator) :
    iterator.OnLastList := by
  induction made with
  | begin completed run =>
      obtain ⟨table, pages, holds⟩ := holds_of_completed init completed
      exact DiskTableIterator.onLastList_begin holds.file run
  | @next _ iterator _ _ run ih =>
      have moved : DiskTableIterator.OnLastList
        { iterator with currentSlot := iterator.currentSlot + 1 } := ih
      exact DiskTableIterator.onLastList_advance moved run
  | seek _ ih => exact DiskTableIterator.onLastList_seek ih _

/-- The run of a table beside what its calls say about the rows. -/
theorem exec_recorded (fileId : FileId) (store : PageStore) (map : TableMap) (ops : List TableOp) :
    ((recorded fileId).exec (store, map) ops).1 = (tableMachine fileId).exec store ops := by
  induction ops generalizing store map with
  | nil => rfl
  | cons op ops ih => exact ih _ _

/-- **On a disk table** `seek` is exact. -/
theorem seeksExactly {state : PageStore × TableMap} {table : TableContent} {pages : List PageId}
    (holds : Holds fileId state table pages) {iterator : DiskTableIterator}
    (onLastList : iterator.OnLastList) {pageId : PageId} (member : pageId ∈ pages) (slotId : SlotId) :
    (diskIterator state.1 fileId).SeeksExactly (table.rows pages) iterator
      (makeRowId pageId slotId) := by
  have chain := holds.listed.chain
  have once := TableContent.nodup_rows holds.file chain.nodup
  obtain ⟨content, found⟩ := Option.ne_none_iff_exists'.mp (holds.listed.isHeap member)
  cases isRow : content.slots slotId with
  | some data =>
      obtain ⟨iterator', before, after, run, isHere, isAt, split⟩ :=
        DiskTableIterator.seek_live holds.file chain onLastList member found isRow
      have run : (diskIterator state.1 fileId).seek iterator (makeRowId pageId slotId) = _ := run
      refine TableIterator.seeksExactly_of_split once split ?_ ?_
      · show ((diskIterator state.1 fileId).seek iterator (makeRowId pageId slotId)).1 = _
        rw [run]
      · show TableIterator.StandsAt _ ((diskIterator state.1 fileId).seek iterator
          (makeRowId pageId slotId)).2 _ _
        rw [run]
        refine ⟨isHere, fun turns enough => DiskTableIterator.collect_eq turns iterator' ?_⟩
        exact DiskTableIterator.collect_spec holds.file isAt enough
  | none =>
      have run : (diskIterator state.1 fileId).seek iterator (makeRowId pageId slotId) = _ :=
        DiskTableIterator.seek_dead holds.file found isRow iterator
      refine TableIterator.seeksExactly_of_absent (fun row isMember isId => ?_) ?_ ?_
      · obtain ⟨_, _, _, _, lookup⟩ := (TableContent.mem_rows holds.file).mp isMember
        rw [isId, TableContent.lookup_heap found, isRow] at lookup
        cases lookup
      · rw [run]
      · rw [run]
        exact .refl iterator

/-- **`seek` on both kinds of table.** On every disk table that a run reaches it is exact, for every
iterator over it and every slot of its data pages; on every table in memory it is exact for the ids
of rows and for iterators at the end. -/
theorem seek_exact_iff (fileId : FileId) (store created : PageStore) (fresh : FreshPage)
    (init : initTableRootPage store fileId fresh = .ok created) (ops : List TableOp)
    (completed : (recorded fileId).Along (Completed fileId) (created, TableMap.empty) ops) :
    (∃ rows, DiskTableIterator.scan ((tableMachine fileId).exec created ops) fileId = .ok rows ∧
      (rows.map Row.rowId).Nodup ∧
      ∀ iterator, IteratorOf fileId created iterator → ∀ pages,
        PartialList ((tableMachine fileId).exec created ops) fileId pages →
        ∀ pageId ∈ pages, ∀ slotId,
          (diskIterator ((tableMachine fileId).exec created ops) fileId).SeeksExactly rows iterator
            (makeRowId pageId slotId)) ∧
    ∀ ephemeralOps iterator rowId,
      (((ephemeralMachine.exec .empty ephemeralOps).scan).map Row.rowId).Nodup ∧
      ((ephemeralIterator (ephemeralMachine.exec .empty ephemeralOps)).SeeksExactly
          (ephemeralMachine.exec .empty ephemeralOps).scan iterator rowId ↔
        (∃ row ∈ (ephemeralMachine.exec .empty ephemeralOps).scan, row.rowId = rowId) ∨
          iterator.atEnd = true) := by
  obtain ⟨table, pages, holds⟩ := holds_of_completed init completed
  rw [← exec_recorded]
  refine ⟨⟨table.rows pages, DiskTableIterator.scan_spec holds.file holds.listed.chain,
    TableContent.nodup_rows holds.file holds.listed.chain.nodup,
    fun iterator made others isList pageId member slotId => ?_⟩,
    fun ephemeralOps iterator rowId => ⟨EphemeralTableIterator.nodup_scan _,
      EphemeralTableIterator.seeksExactly_iff _ iterator rowId⟩⟩
  rw [holds.partialList_iff] at isList
  exact seeksExactly holds (made.onLastList init) (isList ▸ member) slotId

/-- Three rows, the second of them deleted again. -/
def deleteSecond : List TableOp :=
  [.insertRow [1] ⟨1, fun _ => 0⟩, .insertRow [2] ⟨2, fun _ => 0⟩, .insertRow [3] ⟨2, fun _ => 0⟩,
    .deleteRow (makeRowId 1 1)]

theorem seek_exact_deleteSecond :
    (∃ rows, DiskTableIterator.scan ((tableMachine 1).exec createdTable deleteSecond) 1 = .ok rows ∧
      (rows.map Row.rowId).Nodup ∧
      ∀ iterator, IteratorOf 1 createdTable iterator → ∀ pages,
        PartialList ((tableMachine 1).exec createdTable deleteSecond) 1 pages →
        ∀ pageId ∈ pages, ∀ slotId,
          (diskIterator ((tableMachine 1).exec createdTable deleteSecond) 1).SeeksExactly rows iterator
            (makeRowId pageId slotId)) ∧
    ∀ ephemeralOps iterator rowId,
      (((ephemeralMachine.exec .empty ephemeralOps).scan).map Row.rowId).Nodup ∧
      ((ephemeralIterator (ephemeralMachine.exec .empty ephemeralOps)).SeeksExactly
          (ephemeralMachine.exec .empty ephemeralOps).scan iterator rowId ↔
        (∃ row ∈ (ephemeralMachine.exec .empty ephemeralOps).scan, row.rowId = rowId) ∨
          iterator.atEnd = true) :=
  seek_exact_iff 1 emptyFile createdTable ⟨0, fun _ => 0⟩ rfl deleteSecond (by decide +kernel)

/-- The table in memory with one row. -/
def oneRow : EphemeralTable := ephemeralMachine.exec .empty [.insertRow [7]]

/-- **An id that is not there** moves an iterator on a row to the end. -/
theorem seek_movesToEnd :
    ∃ iterator, EphemeralTableIterator.begin oneRow = .ok iterator ∧
      iterator.atEnd = false ∧
      (EphemeralTableIterator.seek oneRow iterator 5).2.atEnd = true ∧
      ¬ (ephemeralIterator oneRow).SeeksExactly oneRow.scan iterator 5 := by
  refine ⟨⟨some 0, some ⟨0, [7]⟩⟩, by decide +kernel, rfl, by decide +kernel, fun isExact => ?_⟩
  have absent : ∀ row ∈ oneRow.scan, row.rowId ≠ 5 := by decide +kernel
  have sameEnd := (isExact.dead absent).2.atEnd
  exact absurd sameEnd (by decide +kernel)

end DiskTable

end Yadb
