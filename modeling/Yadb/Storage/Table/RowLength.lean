/-
**Rows of any length.**

`insert_row` and `update_row` on every table that a run reaches, for rows as long as a span can be.

* `insertRowEnds`, `updateRowEnds`: how a call ends and the store that it leaves, also when it does
  not return. A section that fails leaves the store that it was given.
* `insertRowEnds_spec`: the row is inserted; or the disk has no page to hand out and nothing
  changed; or the row does not fit the page that was handed out, whose slot is dereferenced all the
  same.
* `InsertSafe`, `UpdateSafe`: the row is stored, or the call fails in an assertion and the table is
  as it was; an update that fails leaves the old row.
* `insertRow_safe_iff`, `updateRow_safe_iff`: when this is so. The old row is deleted first, so an
  update keeps it only if the new row is stored.
-/

import Yadb.Storage.Table.Refinement

namespace Yadb

open Foundation

/-- The process stops in an assertion, with what is wrong in its message. -/
def TableFailure.Detected : TableFailure → Prop
  | .emptyOptional | .neverReturns => False
  | .getPage _ | .allocatePage _ | .notRootPage | .page _ | .pastTheEnd => True

namespace DiskTable

def insertRowEnds (store : PageStore) (fileId : FileId) (row : List UInt8) (fresh : FreshPage) :
    Except TableFailure RowId × PageStore :=
  match readPartialHead store fileId with
  | .error failure => (.error failure, store)
  | .ok nextPageId =>
      match walk fileId row pageTurns store nullPageId nextPageId with
      | .error failure => (.error failure, store)
      | .ok (.inl rowId, store) => (.ok rowId, store)
      | .ok (.inr lastPartialId, store) =>
          match allocatePage store fileId fresh with
          | .error failure => (.error failure, store)
          | .ok (newPageId, store) =>
              match fillNewPage store fileId newPageId row with
              | .error failure => (.error failure, store)
              | .ok (rowId, store) =>
                  match linkPage store fileId lastPartialId newPageId with
                  | .error failure => (.error failure, store)
                  | .ok store => (.ok rowId, store)

def updateRowEnds (store : PageStore) (fileId : FileId) (rowId : RowId) (row : List UInt8)
    (fresh : FreshPage) : Except TableFailure RowId × PageStore :=
  match deleteRow store fileId rowId with
  | .error failure => (.error failure, store)
  | .ok store => insertRowEnds store fileId row fresh

/-- What the caller gets. -/
def toCaller (ended : Except TableFailure RowId × PageStore) :
    Except TableFailure (RowId × PageStore) :=
  ended.1.map fun rowId => (rowId, ended.2)

variable {store : PageStore} {fileId : FileId} {table : TableContent} {pages : List PageId}
  {row : List UInt8} {fresh : FreshPage}

/-- `insertRowEnds` is `insert_row` with the store of a call that fails. -/
theorem toCaller_insertRowEnds (store : PageStore) (fileId : FileId) (row : List UInt8)
    (fresh : FreshPage) :
    insertRow store fileId row fresh = toCaller (insertRowEnds store fileId row fresh) := by
  unfold insertRow insertRowEnds
  cases readPartialHead store fileId with
  | error failure => rfl
  | ok nextPageId =>
      rw [ok_bind]
      dsimp only
      cases walk fileId row pageTurns store nullPageId nextPageId with
      | error failure => rfl
      | ok walked =>
          obtain ⟨rowId | lastPartialId, walkedStore⟩ := walked
          · rfl
          · rw [ok_bind]
            dsimp only
            cases allocatePage walkedStore fileId fresh with
            | error failure => rfl
            | ok allocated =>
                obtain ⟨newPageId, grown⟩ := allocated
                rw [ok_bind]
                dsimp only
                cases fillNewPage grown fileId newPageId row with
                | error failure => rfl
                | ok filled =>
                    obtain ⟨rowId, filledStore⟩ := filled
                    rw [ok_bind]
                    dsimp only
                    cases linkPage filledStore fileId lastPartialId newPageId <;> rfl

theorem toCaller_updateRowEnds (store : PageStore) (fileId : FileId) (rowId : RowId)
    (row : List UInt8) (fresh : FreshPage) :
    updateRow store fileId rowId row fresh
      = toCaller (updateRowEnds store fileId rowId row fresh) := by
  rw [updateRow, updateRowEnds]
  cases deleteRow store fileId rowId with
  | error failure => rfl
  | ok deleted => exact toCaller_insertRowEnds deleted fileId row fresh

/-! ### Pages to write on -/

/-- The disk hands out this page: the file has no page of this id yet. -/
def HandsOut (store : PageStore) (fileId : FileId) (fresh : FreshPage) : Prop :=
  store.files fileId = true ∧ store.pages ⟨fileId, fresh.pageId⟩ = none ∧ fresh.pageId ≠ nullPageId

instance (store : PageStore) (fileId : FileId) (fresh : FreshPage) :
    Decidable (HandsOut store fileId fresh) := inferInstanceAs (Decidable (_ ∧ _ ∧ _))

/-- The pages of the partial list. -/
def PartialList (store : PageStore) (fileId : FileId) (pages : List PageId) : Prop :=
  ∃ root, store.pages ⟨fileId, rootPageId⟩ = some root ∧
    Chain (nextLink store fileId) nullPageId (HeapPage.getPartialPagesHead root) pages

/-- A page of the partial list has room for the row and its slot entry. -/
def HasRoom (store : PageStore) (fileId : FileId) (row : List UInt8) : Prop :=
  ∃ pages, PartialList store fileId pages ∧
    ∃ pageId ∈ pages, 5 + row.length ≤ freeSpaceOn store fileId pageId

/-- **An allocation fails exactly when the disk hands out no page.** -/
theorem allocatePage_error_iff :
    (∃ error, allocatePage store fileId fresh = .error (.allocatePage error)) ↔
      ¬ HandsOut store fileId fresh := by
  constructor
  · rintro ⟨error, failed⟩ handsOut
    have allocated : (store.allocatePage fileId fresh.pageId fresh.bytes).1 = .ok fresh.pageId :=
      congrArg Prod.fst (dif_pos handsOut)
    rcases result : store.allocatePage fileId fresh.pageId fresh.bytes with ⟨answer, grown⟩
    rw [result] at allocated
    have allocated : answer = .ok fresh.pageId := allocated
    rw [allocatePage, result, allocated] at failed
    cases failed
  · intro fails
    have failed : store.allocatePage fileId fresh.pageId fresh.bytes
        = (.error (.openFileError fileId "failed to open file stream"), store) := dif_neg fails
    rw [allocatePage, failed]
    exact ⟨_, rfl⟩

/-- A page with room has room for no row that is too long for a fresh page. -/
theorem fits_of_room (file : TableFile store fileId table) {pageId : PageId}
    (isHeap : table.heap pageId ≠ none) (room : 5 + row.length ≤ freeSpaceOn store fileId pageId) :
    FitsFreshPage row := by
  obtain ⟨content, found⟩ := Option.ne_none_iff_exists'.mp isHeap
  have most := file.freeSpaceOn_le found
  show row.length ≤ 4068
  omega

/-! ### How an insert ends -/

/-- What an insert meets and how it ends. -/
inductive InsertEnds (store : PageStore) (fileId : FileId) (table : TableContent)
    (pages : List PageId) (row : List UInt8) (fresh : FreshPage) :
    Except TableFailure RowId × PageStore → Prop
  | inserted {rowId : RowId} {store' : PageStore} {table' : TableContent} :
      ((∃ pageId ∈ pages, 5 + row.length ≤ freeSpaceOn store fileId pageId) ∨
        FitsFreshPage row ∧ HandsOut store fileId fresh) →
      Inserts table row rowId table' → TableFile store' fileId table' →
      InsertEnds store fileId table pages row fresh (.ok rowId, store')
  | outOfPages {error : DiskError} :
      (∀ pageId ∈ pages, freeSpaceOn store fileId pageId < 5 + row.length) →
      ¬ HandsOut store fileId fresh →
      InsertEnds store fileId table pages row fresh (.error (.allocatePage error), store)
  | tooLong {grown : PageStore} :
      ¬ FitsFreshPage row → HandsOut store fileId fresh → TableFile grown fileId table →
      InsertEnds store fileId table pages row fresh (.error .emptyOptional, grown)

/-- **How `insert_row` ends** for a row of any length. -/
theorem insertRowEnds_spec (file : TableFile store fileId table)
    (chain : Chain table.link nullPageId table.head pages) (short : row.length < 2 ^ 63)
    (fresh : FreshPage) :
    InsertEnds store fileId table pages row fresh (insertRowEnds store fileId row fresh) := by
  have enough : pages.length < pageTurns := DiskTableIterator.length_chain chain
  unfold insertRowEnds
  rw [file.readPartialHead_spec]
  dsimp only
  rcases walk_spec file short (Or.inl rfl) table.link_null chain enough with
    ⟨room, pageId, content, store', run, found, file'⟩ | ⟨full, last, run, known, ends⟩
  · rw [run]
    exact .inserted (Or.inl room) (.onPage found) file'
  · rw [run]
    dsimp only
    rcases file.allocatePage_spec fresh with ⟨error, failed⟩ |
      ⟨grown, run, noPage, notNull, file', pages'⟩
    · rw [failed]
      exact .outOfPages full (allocatePage_error_iff.mp ⟨error, failed⟩)
    · have handsOut : HandsOut store fileId fresh := ⟨file.file, noPage, notNull⟩
      have allocated : grown.pages ⟨fileId, fresh.pageId⟩ ≠ none := by
        rw [pages', Function.update_self]
        exact nofun
      rw [run]
      dsimp only
      by_cases fits : FitsFreshPage row
      · obtain ⟨noHeap, notRoot⟩ := file.absent noPage
        obtain ⟨filled, linked, table', fillRun, linkRun, inserts, linkedFile⟩ :=
          newPage_spec file' allocated notRoot noHeap notNull known ends fits
        rw [fillRun]
        dsimp only
        rw [linkRun]
        exact .inserted (Or.inr ⟨fits, handsOut⟩) inserts linkedFile
      · rw [file'.fillNewPage_long allocated short fits]
        exact .tooLong fits handsOut file'

/-! ### Calls that are safe -/

/-- The row is in the scan; or an assertion stopped the call, and the scan, the page list and the
pages of the file are as they were. -/
def InsertSafe (fileId : FileId) (state : PageStore × TableMap) (row : List UInt8)
    (fresh : FreshPage) : Prop :=
  match insertRowEnds state.1 fileId row fresh with
  | (.ok rowId, store) => ScanShows fileId (store, state.2.insert rowId row)
  | (.error failure, store) =>
      failure.Detected ∧
        DiskTableIterator.scan store fileId = DiskTableIterator.scan state.1 fileId ∧
        (∀ pages, PartialList store fileId pages ↔ PartialList state.1 fileId pages) ∧
        SamePages fileId state.1 store

/-- The new row replaces the old one in the scan; or the old one is still there. -/
def UpdateSafe (fileId : FileId) (state : PageStore × TableMap) (rowId : RowId) (row : List UInt8)
    (fresh : FreshPage) : Prop :=
  match updateRowEnds state.1 fileId rowId row fresh with
  | (.ok newId, store) => ScanShows fileId (store, (state.2.delete rowId).insert newId row)
  | (.error _, store) => ∃ rows data, DiskTableIterator.scan store fileId = .ok rows ∧
      state.2.rows rowId = some data ∧ ⟨rowId, data⟩ ∈ rows

variable {map : TableMap}

/-- **An insert is safe unless a row that is too long gets a new page.** -/
theorem insertRow_safe_iff (holds : Holds fileId (store, map) table pages)
    (short : row.length < 2 ^ 63) :
    InsertSafe fileId (store, map) row fresh ↔
      FitsFreshPage row ∨ ¬ HandsOut store fileId fresh := by
  have ends := insertRowEnds_spec holds.file holds.listed.chain short fresh
  unfold InsertSafe
  dsimp only
  generalize insertRowEnds store fileId row fresh = ended at ends
  cases ends with
  | inserted room inserts file =>
      obtain ⟨_, pages', holds'⟩ := holds.insert inserts file
      refine iff_of_true holds'.scanShows (Or.inl ?_)
      rcases room with ⟨pageId, member, room⟩ | ⟨fits, _⟩
      · exact fits_of_room holds.file (holds.listed.isHeap member) room
      · exact fits
  | outOfPages full fails =>
      exact iff_of_true ⟨trivial, rfl, fun _ => Iff.rfl, fun _ => Iff.rfl⟩ (Or.inr fails)
  | tooLong long handsOut file =>
      refine iff_of_false (fun safe => safe.1) ?_
      rintro (fits | fails)
      · exact long fits
      · exact fails handsOut

/-- A delete writes the page of the row, and its free space is what it was. -/
theorem deleteRow_writes (holds : Holds fileId (store, map) table pages) {rowId : RowId}
    {deleted : PageStore} (live : map.rows rowId ≠ none)
    (run : deleteRow store fileId rowId = .ok deleted) :
    ∃ pageId page page', store.pages ⟨fileId, pageId⟩ = some page ∧
      deleted = store.put ⟨fileId, pageId⟩ page' ∧ Page.freeSpace page' = Page.freeSpace page := by
  obtain ⟨content, row, found, isRow⟩ := holds.liveSlot live
  obtain ⟨page, isPage, shows_⟩ := holds.file.heap _ content found
  have isLive := shows_.live_iff.mp (Option.isSome_iff_exists.mpr ⟨row, isRow⟩)
  obtain ⟨page', deletes, edits⟩ := Page.deleteSlot_spec shows_.holds.wf isLive
  refine ⟨_, page, page', isPage, ?_, ?_⟩
  · rw [deleteRow, mustGetPage_eq holds.file.file isPage, ok_bind, deletes] at run
    exact (Except.ok.inj run).symm
  · have starts : Page.getStartFreeSpace page' = Page.getStartFreeSpace page :=
      congrArg Page.Directory.freeStart edits.decoded
    have ends : Page.getEndFreeSpace page' = Page.getEndFreeSpace page :=
      congrArg Page.Directory.freeEnd edits.decoded
    rw [Page.freeSpace, Page.freeSpace, starts, ends]

/-- Deleting a row gives no page room. -/
theorem freeSpaceOn_deleteRow (holds : Holds fileId (store, map) table pages) {rowId : RowId}
    {deleted : PageStore} (live : map.rows rowId ≠ none)
    (run : deleteRow store fileId rowId = .ok deleted) (other : PageId) :
    freeSpaceOn deleted fileId other = freeSpaceOn store fileId other := by
  obtain ⟨pageId, page, page', isPage, rfl, same⟩ := deleteRow_writes holds live run
  by_cases isWritten : other = pageId
  · subst isWritten
    rw [freeSpaceOn_eq (PageStore.put_self isPage page'), freeSpaceOn_eq isPage, same]
  · rw [freeSpaceOn, PageStore.put_other isWritten page', freeSpaceOn]

/-- Deleting a row leaves the disk the same pages to hand out. -/
theorem handsOut_deleteRow (holds : Holds fileId (store, map) table pages) {rowId : RowId}
    {deleted : PageStore} (live : map.rows rowId ≠ none)
    (run : deleteRow store fileId rowId = .ok deleted) :
    HandsOut deleted fileId fresh ↔ HandsOut store fileId fresh := by
  obtain ⟨pageId, page, page', _, rfl, _⟩ := deleteRow_writes holds live run
  exact and_congr_right fun _ => and_congr_left fun _ => PageStore.put_pages_isSome page' _

/-- The partial list of a table is the list that its content links. -/
theorem Holds.partialList_iff {state : PageStore × TableMap}
    (holds : Holds fileId state table pages) {others : List PageId} :
    PartialList state.1 fileId others ↔ others = pages := by
  obtain ⟨root, isRoot, chain⟩ := holds.linked
  constructor
  · rintro ⟨root', isRoot', chain'⟩
    rw [isRoot, Option.some.injEq] at isRoot'
    subst isRoot'
    exact chain.unique chain'
  · rintro rfl
    exact ⟨root, isRoot, chain⟩

theorem Holds.hasRoom_iff {state : PageStore × TableMap}
    (holds : Holds fileId state table pages) :
    HasRoom state.1 fileId row ↔
      ∃ pageId ∈ pages, 5 + row.length ≤ freeSpaceOn state.1 fileId pageId := by
  constructor
  · rintro ⟨others, isList, room⟩
    rw [holds.partialList_iff] at isList
    exact isList ▸ room
  · intro room
    exact ⟨pages, holds.partialList_iff.mpr rfl, room⟩

/-- **An update is safe exactly when the new row is stored.** -/
theorem updateRow_safe_iff (holds : Holds fileId (store, map) table pages)
    (short : row.length < 2 ^ 63) {rowId : RowId} (live : map.rows rowId ≠ none) :
    UpdateSafe fileId (store, map) rowId row fresh ↔
      HasRoom store fileId row ∨ FitsFreshPage row ∧ HandsOut store fileId fresh := by
  obtain ⟨deleted, middle, run, holds'⟩ := holds.delete live
  have sameSpace := freeSpaceOn_deleteRow holds live run
  have samePages : HandsOut deleted fileId fresh ↔ HandsOut store fileId fresh :=
    handsOut_deleteRow holds live run
  have gone : ∀ left, TableFile left fileId middle →
      ¬ ∃ rows data, DiskTableIterator.scan left fileId = .ok rows ∧
        map.rows rowId = some data ∧ ⟨rowId, data⟩ ∈ rows := by
    rintro left file ⟨rows, data, scanned, _, member⟩
    rw [DiskTableIterator.scan_spec file holds'.listed.chain, Except.ok.injEq] at scanned
    subst scanned
    obtain ⟨pageId, slotId, isId⟩ := holds.formed rowId live
    obtain ⟨_, _, _, _, isRow⟩ := (TableContent.mem_rows file).mp member
    have isRow : middle.lookup rowId = some data := isRow
    rw [isId, ← holds'.rows, ← isId] at isRow
    have absent : (map.delete rowId).rows rowId = none := by
      show Function.update map.rows rowId none rowId = none
      rw [Function.update_self]
    cases absent.symm.trans isRow
  have ends := insertRowEnds_spec holds'.file holds'.listed.chain short fresh
  rw [UpdateSafe, updateRowEnds]
  rw [holds.hasRoom_iff, ← samePages]
  simp only [run, ← sameSpace]
  generalize insertRowEnds deleted fileId row fresh = ended at ends
  cases ends with
  | inserted room inserts file =>
      obtain ⟨_, pages', inserted⟩ := holds'.insert inserts file
      exact iff_of_true inserted.scanShows room
  | outOfPages full fails =>
      refine iff_of_false (gone deleted holds'.file) ?_
      rintro (⟨pageId, member, room⟩ | ⟨_, handsOut⟩)
      · exact Nat.not_le_of_lt (full pageId member) room
      · exact fails handsOut
  | tooLong long handsOut file =>
      refine iff_of_false (gone _ file) ?_
      rintro (⟨pageId, member, room⟩ | ⟨fits, _⟩)
      · exact long (fits_of_room holds'.file (holds'.listed.isHeap member) room)
      · exact long fits

/-! ### Over every run -/

def Returned : TableAnswer → Prop
  | .failed _ => False
  | .rowId _ | .done => True

instance : DecidablePred Returned
  | .failed _ => .isFalse id
  | .rowId _ | .done => .isTrue trivial

/-- Rows are no longer than a span can be, and row ids are live. -/
def Receives (map : TableMap) : TableOp → Prop
  | .insertRow row _ => row.length < 2 ^ 63
  | .updateRow rowId row _ => map.rows rowId ≠ none ∧ row.length < 2 ^ 63
  | .deleteRow rowId => map.rows rowId ≠ none

instance (map : TableMap) : DecidablePred (Receives map)
  | .insertRow row _ => inferInstanceAs (Decidable (row.length < 2 ^ 63))
  | .updateRow rowId row _ =>
      inferInstanceAs (Decidable (map.rows rowId ≠ none ∧ row.length < 2 ^ 63))
  | .deleteRow rowId => inferInstanceAs (Decidable (map.rows rowId ≠ none))

/-- The call is one that clients may make, and it returned. -/
def Completed (fileId : FileId) (state : PageStore × TableMap) (op : TableOp) : Prop :=
  Receives state.2 op ∧ Returned ((tableMachine fileId).answer state.1 op)

instance (fileId : FileId) (state : PageStore × TableMap) (op : TableOp) :
    Decidable (Completed fileId state op) := inferInstanceAs (Decidable (_ ∧ _))

/-- An insert that returned had a row that fits a page. -/
theorem fits_of_insertRow (holds : Holds fileId (store, map) table pages)
    (short : row.length < 2 ^ 63) {result : RowId × PageStore}
    (run : insertRow store fileId row fresh = .ok result) : FitsFreshPage row := by
  have ends := insertRowEnds_spec holds.file holds.listed.chain short fresh
  rw [toCaller_insertRowEnds] at run
  generalize insertRowEnds store fileId row fresh = ended at ends run
  cases ends with
  | inserted room _ _ =>
      rcases room with ⟨pageId, member, room⟩ | ⟨fits, _⟩
      · exact fits_of_room holds.file (holds.listed.isHeap member) room
      · exact fits
  | outOfPages _ _ => cases run
  | tooLong _ _ _ => cases run

/-- An update of a live row that returned had a row that fits a page. -/
theorem fits_of_updateRow (holds : Holds fileId (store, map) table pages)
    (live : map.rows rowId ≠ none) (short : row.length < 2 ^ 63) {result : RowId × PageStore}
    (run : updateRow store fileId rowId row fresh = .ok result) : FitsFreshPage row := by
  obtain ⟨deleted, middle, deletes, holds'⟩ := holds.delete live
  rw [toCaller_updateRowEnds, updateRowEnds, deletes, ← toCaller_insertRowEnds] at run
  exact fits_of_insertRow holds' short run

/-- **A call that returned is one that the table's guarantees are about.** -/
theorem allowed_of_completed (holds : Holds fileId (store, map) table pages) {op : TableOp}
    (completed : Completed fileId (store, map) op) : Allowed fileId (store, map) op := by
  obtain ⟨receives, returned⟩ := completed
  refine ⟨?_, fun noPage => ?_⟩
  · cases op with
    | insertRow row fresh =>
        cases run : insertRow store fileId row fresh with
        | ok result => exact fits_of_insertRow holds receives run
        | error failure =>
            have failed : call fileId store (.insertRow row fresh) = .error failure := by
              rw [call, run]
              rfl
            rw [recorded_error failed] at returned
            exact returned.elim
    | updateRow rowId row fresh =>
        cases run : updateRow store fileId rowId row fresh with
        | ok result => exact ⟨receives.1, fits_of_updateRow holds receives.1 receives.2 run⟩
        | error failure =>
            have failed : call fileId store (.updateRow rowId row fresh) = .error failure := by
              rw [call, run]
              rfl
            rw [recorded_error failed] at returned
            exact returned.elim
    | deleteRow rowId => exact receives
  · cases answered : (tableMachine fileId).answer store op with
    | rowId _ | done =>
        rw [answered] at noPage
        exact noPage
    | failed failure =>
        rw [answered] at returned
        exact returned

/-- Every table that a run of returned calls reaches. -/
theorem holds_of_completed {store created : PageStore} {fresh : FreshPage}
    (init : initTableRootPage store fileId fresh = .ok created) {ops : List TableOp}
    (completed : (recorded fileId).Along (Completed fileId) (created, TableMap.empty) ops) :
    ∃ table pages,
      Holds fileId ((recorded fileId).exec (created, TableMap.empty) ops) table pages := by
  have start := holds_empty (initTableRootPage_spec init)
  have keeps : ∀ state op, (∃ table pages, Holds fileId state table pages) →
      Completed fileId state op →
        ∃ table pages, Holds fileId ((recorded fileId).next state op) table pages := by
    rintro state op ⟨table, pages, holds⟩ completed
    exact (step_holds holds _ (allowed_of_completed holds completed)).2
  exact (Machine.always_of_step keeps ⟨_, _, start⟩ completed).last

/-- **Inserts and updates of rows of any length**, on every table that a run reaches: an insert is
safe unless a row of more than 4068 bytes gets a new page; an update is safe exactly when a page of
the list has room for the new row, or a new page can be had and has. -/
theorem anyRow_safe_iff (fileId : FileId) (store created : PageStore) (fresh : FreshPage)
    (init : initTableRootPage store fileId fresh = .ok created) (ops : List TableOp)
    (completed : (recorded fileId).Along (Completed fileId) (created, TableMap.empty) ops)
    (row : List UInt8) (short : row.length < 2 ^ 63) (page : FreshPage) :
    let state := (recorded fileId).exec (created, TableMap.empty) ops
    (InsertSafe fileId state row page ↔ FitsFreshPage row ∨ ¬ HandsOut state.1 fileId page) ∧
      ∀ rowId, state.2.rows rowId ≠ none →
        (UpdateSafe fileId state rowId row page ↔
          HasRoom state.1 fileId row ∨ FitsFreshPage row ∧ HandsOut state.1 fileId page) := by
  obtain ⟨table, pages, holds⟩ := holds_of_completed init completed
  exact ⟨insertRow_safe_iff holds short, fun rowId live => updateRow_safe_iff holds short live⟩

/-- A table with one row. -/
def storedRow : PageStore × TableMap :=
  (recorded 1).exec (createdTable, TableMap.empty) [.insertRow [1, 2] ⟨1, fun _ => 0⟩]

/-- A row one byte longer than a fresh page has room for. -/
def longRow : List UInt8 := List.replicate 4069 7

theorem anyRow_safe_longRow :
    (InsertSafe 1 storedRow longRow ⟨2, fun _ => 0⟩ ↔
        FitsFreshPage longRow ∨ ¬ HandsOut storedRow.1 1 ⟨2, fun _ => 0⟩) ∧
      (UpdateSafe 1 storedRow (makeRowId 1 0) longRow ⟨2, fun _ => 0⟩ ↔
        HasRoom storedRow.1 1 longRow ∨
          FitsFreshPage longRow ∧ HandsOut storedRow.1 1 ⟨2, fun _ => 0⟩) := by
  obtain ⟨inserts, updates⟩ := anyRow_safe_iff 1 emptyFile createdTable ⟨0, fun _ => 0⟩ rfl
    [.insertRow [1, 2] ⟨1, fun _ => 0⟩] (by decide +kernel) longRow (by decide +kernel)
    ⟨2, fun _ => 0⟩
  exact ⟨inserts, updates (makeRowId 1 0) (by decide +kernel)⟩

theorem not_insertSafe (state : PageStore × TableMap) (row : List UInt8) {failure : TableFailure}
    (failed : (insertRowEnds state.1 fileId row fresh).1 = .error failure)
    (undetected : ¬ failure.Detected) : ¬ InsertSafe fileId state row fresh := by
  intro safe
  unfold InsertSafe at safe
  rcases ended : insertRowEnds state.1 fileId row fresh with ⟨answer, left⟩
  rw [ended] at failed safe
  have failed : answer = .error failure := failed
  subst failed
  exact undetected safe.1

theorem not_updateSafe (state : PageStore × TableMap) (rowId : RowId) (row : List UInt8)
    {failure : TableFailure}
    (failed : (updateRowEnds state.1 fileId rowId row fresh).1 = .error failure)
    (lost : DiskTableIterator.scan (updateRowEnds state.1 fileId rowId row fresh).2 fileId
      = .ok []) : ¬ UpdateSafe fileId state rowId row fresh := by
  intro safe
  unfold UpdateSafe at safe
  rcases ended : updateRowEnds state.1 fileId rowId row fresh with ⟨answer, left⟩
  rw [ended] at failed safe lost
  have failed : answer = .error failure := failed
  subst failed
  obtain ⟨rows, data, scanned, _, member⟩ := safe
  have isEmpty : rows = [] := Except.ok.inj (scanned.symm.trans lost)
  rw [isEmpty] at member
  cases member

/-- **The long row** is written through an empty optional, and the row it was to replace is lost. -/
theorem longRow_unsafe :
    (recorded 1).Along (Completed 1) (createdTable, TableMap.empty)
        [.insertRow [1, 2] ⟨1, fun _ => 0⟩] ∧
      ¬ InsertSafe 1 storedRow longRow ⟨2, fun _ => 0⟩ ∧
      storedRow.2.rows (makeRowId 1 0) = some [1, 2] ∧
      ¬ UpdateSafe 1 storedRow (makeRowId 1 0) longRow ⟨2, fun _ => 0⟩ := by
  have through : (insertRowEnds storedRow.1 1 longRow ⟨2, fun _ => 0⟩).1
      = .error .emptyOptional := by decide +kernel
  have failed : (updateRowEnds storedRow.1 1 (makeRowId 1 0) longRow ⟨2, fun _ => 0⟩).1
      = .error .emptyOptional := by decide +kernel
  have lost : DiskTableIterator.scan
      (updateRowEnds storedRow.1 1 (makeRowId 1 0) longRow ⟨2, fun _ => 0⟩).2 1 = .ok [] := by
    decide +kernel
  exact ⟨by decide +kernel, not_insertSafe storedRow longRow through id, by decide +kernel,
    not_updateSafe storedRow (makeRowId 1 0) longRow failed lost⟩

end DiskTable

end Yadb
