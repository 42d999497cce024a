/-
**The calls on a disk table, page object by page object.**

`disk_table.cpp`, `disk_table_iterator.cpp` and `InitTableRootPage` once more, as programs that ask
the buffer manager for pages: each scope of the source takes its page, may write through a mutable
view, and ends the page object.

* `ActsAt`: on a store a program does what a call of `DiskTable` does, and asks for no more pages at
  a time than a pool has frames.
* `insertRow_acts` and the like, one for each call; `begin_acts` for the constructor of an iterator,
  which holds the root page while it advances over the others.
-/

import Yadb.Storage.Disk.Refinement
import Yadb.Storage.Table.Handles
import Yadb.Storage.Table.Refinement
import Yadb.Storage.Table.Requests

namespace Yadb

open Foundation

namespace PageProgram

open Program (request)

variable {First Second Result : Type}

def createFile (fileId : FileId) : PageProgram Unit := request (PageRequest.createFile fileId)

def allocatePage (fileId : FileId) (fresh : FreshPage) : PageProgram PageId :=
  request (PageRequest.allocatePage fileId fresh)

def getPage (fpId : FilePageId) : PageProgram FullPage := request (PageRequest.getPage fpId)

def write (fpId : FilePageId) (bytes : FullPage) : PageProgram Unit :=
  request (PageRequest.write fpId bytes)

def release (fpId : FilePageId) : PageProgram Unit := request (PageRequest.release fpId)

/-- What a call decides without a page. -/
def lift (result : Except TableFailure Result) : PageProgram Result :=
  .done (result.mapError .table)

/-- A scope with a page object. -/
def holding (fpId : FilePageId) (body : FullPage → PageProgram Result) : PageProgram Result := do
  let page ← getPage fpId
  let result ← body page
  release fpId
  return result

/-- A scope that works on its page: the result, and the bytes the page is left with where a mutable
view is taken. -/
def withPage (fpId : FilePageId)
    (edit : FullPage → Except TableFailure (Result × Option FullPage)) : PageProgram Result :=
  holding fpId fun page => do
    match ← lift (edit page) with
    | (result, none) => return result
    | (result, some bytes) =>
        write fpId bytes
        return result

/-! ### The calls -/

def readPartialHead (fileId : FileId) : PageProgram PageId :=
  withPage ⟨fileId, rootPageId⟩ fun root => .ok (HeapPage.getPartialPagesHead root, none)

/-- `GetMutView` is called whether or not the page has room. -/
def tryPage (fileId : FileId) (pageId : PageId) (row : List UInt8) : PageProgram Tried :=
  withPage ⟨fileId, pageId⟩ fun page => do
    match ← DiskTable.mustEdit (Page.allocateSlot page (UInt64.ofNat row.length)) with
    | (some slotId, page) =>
        let page ← DiskTable.mustEdit (DiskTable.copyRow page slotId row)
        return (.inserted (makeRowId pageId slotId), some page)
    | (none, page) => return (.full (HeapPage.getNextPage page), some page)

def walk (fileId : FileId) (row : List UInt8) :
    Nat → PageId → PageId → PageProgram (RowId ⊕ PageId)
  | 0, _, _ => lift (.error .neverReturns)
  | turns + 1, lastPartialId, nextPageId =>
      if nextPageId = nullPageId then pure (.inr lastPartialId)
      else do
        match ← tryPage fileId nextPageId row with
        | .inserted rowId => return .inl rowId
        | .full following => walk fileId row turns nextPageId following

def fillNewPage (fileId : FileId) (pageId : PageId) (row : List UInt8) : PageProgram RowId :=
  withPage ⟨fileId, pageId⟩ fun page => do
    match ← DiskTable.mustEdit
        (Page.allocateSlot (HeapPage.initPage page) (UInt64.ofNat row.length)) with
    | (some slotId, page) =>
        let page ← DiskTable.mustEdit (DiskTable.copyRow page slotId row)
        return (makeRowId pageId slotId, some page)
    | (none, _) => throw .emptyOptional

def linkPage (fileId : FileId) (lastPartialId newPageId : PageId) : PageProgram Unit :=
  if lastPartialId = nullPageId then
    withPage ⟨fileId, rootPageId⟩ fun root => .ok ((), some (HeapPage.setPrevPage root newPageId))
  else
    withPage ⟨fileId, lastPartialId⟩ fun page =>
      .ok ((), some (HeapPage.setNextPage page newPageId))

def insertRow (fileId : FileId) (row : List UInt8) (fresh : FreshPage) : PageProgram RowId := do
  let nextPageId ← readPartialHead fileId
  match ← walk fileId row pageTurns nullPageId nextPageId with
  | .inl rowId => return rowId
  | .inr lastPartialId =>
      let newPageId ← allocatePage fileId fresh
      let rowId ← fillNewPage fileId newPageId row
      linkPage fileId lastPartialId newPageId
      return rowId

def deleteRow (fileId : FileId) (rowId : RowId) : PageProgram Unit :=
  withPage ⟨fileId, getPageIdFromRowId rowId⟩ fun page => do
    let page ← DiskTable.mustEdit (Page.deleteSlot page (getSlotIdFromRowId rowId))
    return ((), some page)

def updateRow (fileId : FileId) (rowId : RowId) (row : List UInt8) (fresh : FreshPage) :
    PageProgram RowId := do
  deleteRow fileId rowId
  insertRow fileId row fresh

/-- The scope of `advance_to_next_valid`: the iterator at a record, or the next page. -/
def visitPage (fileId : FileId) (iterator : DiskTableIterator) :
    PageProgram (DiskTableIterator ⊕ PageId) :=
  withPage ⟨fileId, iterator.currentPageId⟩ fun page => do
    let slots := DiskTableIterator.slotsFrom iterator.currentSlot.toNat
      (Page.getPageCapacity page).toNat
    match ← DiskTable.mustEdit (DiskTableIterator.findRecord page slots) with
    | some (slotId, record) =>
        return (.inl { iterator with currentSlot := slotId, rowBuffer := record }, none)
    | none => return (.inr (HeapPage.getNextPage page), none)

def advanceToNextValid (fileId : FileId) : Nat → DiskTableIterator → PageProgram DiskTableIterator
  | 0, _ => lift (.error .neverReturns)
  | turns + 1, iterator =>
      if iterator.currentPageId = nullPageId then pure iterator
      else do
        match ← visitPage fileId iterator with
        | .inl iterator => return iterator
        | .inr nextPageId => advanceToNextValid fileId turns (iterator.nextPage nextPageId)

/-- The constructor: the page object of the root lives to its end. -/
def begin (fileId : FileId) : PageProgram DiskTableIterator :=
  holding ⟨fileId, rootPageId⟩ fun root =>
    advanceToNextValid fileId DiskTableIterator.advanceTurns
      (.start (HeapPage.getFullPagesHead root) (HeapPage.getPartialPagesHead root))

/-- `operator++`. -/
def next (fileId : FileId) (iterator : DiskTableIterator) : PageProgram DiskTableIterator :=
  advanceToNextValid fileId DiskTableIterator.advanceTurns
    { iterator with currentSlot := iterator.currentSlot + 1 }

def collect (fileId : FileId) : Nat → DiskTableIterator → PageProgram (List Row)
  | 0, _ => lift (.error .neverReturns)
  | turns + 1, iterator =>
      if iterator.atEnd then pure []
      else do
        let row ← lift iterator.get
        let iterator ← next fileId iterator
        let rest ← collect fileId turns iterator
        return row :: rest

/-- `for (auto row : table)`. -/
def scan (fileId : FileId) : PageProgram (List Row) := do
  let iterator ← begin fileId
  collect fileId DiskTableIterator.scanTurns iterator

def initTableRootPage (fileId : FileId) (fresh : FreshPage) : PageProgram Unit := do
  let pageId ← allocatePage fileId fresh
  if pageId ≠ rootPageId then lift (.error .notRootPage)
  else withPage ⟨fileId, rootPageId⟩ fun page => .ok ((), some (HeapPage.initPage page))

/-! ### On a store -/

/-- The end of a call on the store, for a client that holds these pages. -/
def onHeld (held : List FilePageId) :
    Except TableFailure (Result × PageStore) → Except PageStop (Result × StoreClient)
  | .error failure => .error (.table failure)
  | .ok (result, store) => .ok (result, ⟨store, held⟩)

/-- The request is about this file, and a pool of so many frames can afford it. -/
def AsksOf (frames : Nat) (fileId : FileId) (client : StoreClient) (request : PageRequest) : Prop :=
  Affords frames client request ∧ request.fileId = fileId

/-- **On this store the program does what the call does**, and asks of its file no more than a pool
of so many frames can afford. -/
structure ActsAt (frames : Nat) (fileId : FileId) (held : List FilePageId) (store : PageStore)
    (program : PageProgram Result) (called : Except TableFailure (Result × PageStore)) : Prop where
  run : program.run onStore ⟨store, held⟩ = onHeld held called
  within : program.Within onStore (AsksOf frames fileId) ⟨store, held⟩

variable {frames : Nat} {fileId : FileId} {held : List FilePageId} {store : PageStore}

theorem acts_pure (result : Result) :
    ActsAt frames fileId held store (pure result) (.ok (result, store)) := ⟨rfl, trivial⟩

theorem acts_lift (result : Except TableFailure Result) :
    ActsAt frames fileId held store (lift result) (result.map fun value => (value, store)) := by
  refine ⟨?_, trivial⟩
  cases result <;> rfl

theorem acts_bind {program : PageProgram First} {next : First → PageProgram Second}
    {called : Except TableFailure (First × PageStore)}
    {k : First → PageStore → Except TableFailure (Second × PageStore)}
    (first : ActsAt frames fileId held store program called)
    (second : ∀ value store', called = .ok (value, store') →
      ActsAt frames fileId held store' (next value) (k value store')) :
    ActsAt frames fileId held store (program >>= next)
      (called >>= fun ended => k ended.1 ended.2) := by
  cases isCalled : called with
  | error failure =>
      refine ⟨?_, ?_⟩
      · rw [Program.run_bind, first.run, isCalled]
        rfl
      · refine Program.within_bind first.within fun value state' ended => ?_
        rw [first.run, isCalled] at ended
        cases ended
  | ok ended =>
      obtain ⟨value, store'⟩ := ended
      have acts := second value store' isCalled
      refine ⟨?_, ?_⟩
      · rw [Program.run_bind, first.run, isCalled]
        exact acts.run
      · refine Program.within_bind first.within fun other state' ended => ?_
        rw [first.run, isCalled] at ended
        cases ended
        exact acts.within

theorem acts_createFile (absent : store.files fileId = false) :
    ActsAt frames fileId held store (createFile fileId)
      (.ok ((), (store.createFile fileId).2)) := by
  have created : store.createFile fileId = (.ok (), (store.createFile fileId).2) := by
    rw [PageStore.createFile, if_neg (by rw [absent]; exact Bool.false_ne_true)]
  refine ⟨?_, ⟨trivial, rfl⟩, fun answer state' _ => trivial⟩
  simp only [createFile, request, Program.run, onStore, StoreClient.answer]
  rw [created]
  rfl

theorem acts_allocatePage (fresh : FreshPage) :
    ActsAt frames fileId held store (PageProgram.allocatePage fileId fresh)
      (DiskTable.allocatePage store fileId fresh) := by
  refine ⟨?_, ⟨trivial, rfl⟩, fun answer state' _ => trivial⟩
  simp only [allocatePage, request, Program.run, onStore, StoreClient.answer]
  cases DiskTable.allocatePage store fileId fresh with
  | error failure => rfl
  | ok allocated => rfl

theorem ActsAt.congr {program : PageProgram Result}
    {called called' : Except TableFailure (Result × PageStore)}
    (acts : ActsAt frames fileId held store program called) (same : called = called') :
    ActsAt frames fileId held store program called' := same ▸ acts

/-- A page that is held is written. -/
theorem acts_write {fpId : FilePageId} (own : fpId.fileId = fileId) (member : fpId ∈ held)
    (bytes : FullPage) :
    ActsAt frames fileId held store (write fpId bytes) (.ok ((), store.put fpId bytes)) :=
  ⟨rfl, ⟨member, own⟩, fun _ _ _ => trivial⟩

/-- **A scope acts as what is done inside.** -/
theorem acts_holding {fpId : FilePageId} (own : fpId.fileId = fileId) (unheld : fpId ∉ held)
    (few : held.length < frames)
    {body : FullPage → PageProgram Result}
    {f : FullPage → Except TableFailure (Result × PageStore)}
    (inside : ∀ page, DiskTable.mustGetPage store fpId = .ok page →
      ActsAt frames fileId (fpId :: held) store (body page) (f page)) :
    ActsAt frames fileId held store (holding fpId body)
      (DiskTable.mustGetPage store fpId >>= f) := by
  cases read : DiskTable.mustGetPage store fpId with
  | error failure =>
      have answered : onStore.answer ⟨store, held⟩ (.getPage fpId) = .error (.table failure) := by
        simp only [onStore, StoreClient.answer, read]
      refine ⟨Program.run_ask_error answered _, ⟨⟨unheld, few⟩, own⟩, fun answer state' ok => ?_⟩
      cases answered.symm.trans ok
  | ok page =>
      have answered : onStore.answer ⟨store, held⟩ (.getPage fpId)
          = .ok (page, ⟨store, fpId :: held⟩) := by
        simp only [onStore, StoreClient.answer, read]
      have acts := inside page read
      have erased : (fpId :: held).erase fpId = held := List.erase_cons_head fpId held
      refine ⟨(Program.run_ask answered _).trans ?_, ⟨⟨unheld, few⟩, own⟩,
        fun answer state' ok => ?_⟩
      · refine (Program.run_bind (body page) _ _).trans ?_
        rw [acts.run, ok_bind]
        cases f page with
        | error failure => rfl
        | ok ended =>
            show Except.ok (ended.1, StoreClient.mk ended.2 ((fpId :: held).erase fpId)) = _
            rw [erased]
            rfl
      · cases answered.symm.trans ok
        show Program.Within onStore (AsksOf frames fileId)
          (body page >>= fun result => release fpId >>= fun _ => pure result) _
        refine Program.within_bind acts.within fun value state' ended => ?_
        rw [acts.run] at ended
        refine ⟨⟨?_, own⟩, fun _ _ _ => trivial⟩
        cases isCalled : f page with
        | error failure =>
            rw [isCalled] at ended
            cases ended
        | ok result =>
            rw [isCalled] at ended
            cases ended
            exact List.mem_cons_self

/-- **A scope reads its page, and leaves the bytes it is left with.** -/
theorem acts_withPage {fpId : FilePageId} (own : fpId.fileId = fileId) (unheld : fpId ∉ held)
    (few : held.length < frames)
    (edit : FullPage → Except TableFailure (Result × Option FullPage)) :
    ActsAt frames fileId held store (withPage fpId edit)
      (DiskTable.mustGetPage store fpId >>= fun page => edit page >>= fun edited =>
        .ok (edited.1, edited.2.elim store (store.put fpId))) := by
  refine acts_holding own unheld few fun page _ => ?_
  cases isEdited : edit page with
  | error failure => exact ⟨rfl, trivial⟩
  | ok edited =>
      obtain ⟨result, _ | bytes⟩ := edited
      · exact acts_pure result
      · exact acts_bind (k := fun _ store => .ok (result, store))
          (acts_write own List.mem_cons_self bytes) fun _ _ _ => acts_pure result

/-! ### Other files -/

/-- The stores agree on every file but one. -/
def SameOthers (fileId : FileId) (store store' : PageStore) : Prop :=
  ∀ fpId : FilePageId, fpId.fileId ≠ fileId →
    store'.files fpId.fileId = store.files fpId.fileId ∧ store'.pages fpId = store.pages fpId

theorem answer_sameOthers {client client' : StoreClient} {request : PageRequest}
    {answer : request.Answer} (own : request.fileId = fileId)
    (ran : onStore.answer client request = .ok (answer, client')) :
    SameOthers fileId client.store client'.store := by
  intro fpId other
  cases request with
  | createFile created =>
      have different : fpId.fileId ≠ created := fun same => other (same.trans own)
      simp only [onStore, StoreClient.answer, PageStore.createFile] at ran
      by_cases present : client.store.files created = true
      · simp only [present, if_true] at ran
        cases ran
      · simp only [if_neg present] at ran
        cases ran
        exact ⟨Function.update_of_ne different _ _, rfl⟩
  | allocatePage allocated fresh =>
      have different : fpId ≠ ⟨allocated, fresh.pageId⟩ := fun same =>
        other ((congrArg FilePageId.fileId same).trans own)
      simp only [onStore, StoreClient.answer] at ran
      rcases DiskTable.allocatePage_cases client.store allocated fresh with
        ⟨error, failed⟩ | ⟨store', ok, _, _, _, files, pages⟩
      · rw [failed] at ran
        cases ran
      · rw [ok] at ran
        cases ran
        rw [files, pages]
        exact ⟨rfl, Function.update_of_ne different _ _⟩
  | getPage asked =>
      simp only [onStore, StoreClient.answer] at ran
      cases read : DiskTable.mustGetPage client.store asked with
      | error failure =>
          rw [read] at ran
          cases ran
      | ok bytes =>
          rw [read] at ran
          cases ran
          exact ⟨rfl, rfl⟩
  | write written bytes =>
      cases ran
      refine ⟨rfl, if_neg ?_⟩
      rintro rfl
      exact other own
  | release released =>
      cases ran
      exact ⟨rfl, rfl⟩

/-- **A call leaves the other files alone.** -/
theorem ActsAt.sameOthers {program : PageProgram Result}
    {called : Except TableFailure (Result × PageStore)}
    (acts : ActsAt frames fileId held store program called) {result : Result}
    {store' : PageStore} (ended : called = .ok (result, store')) :
    SameOthers fileId store store' := by
  have ran := acts.run
  rw [ended] at ran
  refine Program.run_keeps (P := fun client => SameOthers fileId store client.store)
    (fun client request answer client' kept guard answered => ?_)
    (fun _ _ => ⟨rfl, rfl⟩) acts.within ran
  intro fpId other
  have before := kept fpId other
  have after := answer_sameOthers guard.2 answered fpId other
  exact ⟨after.1.trans before.1, after.2.trans before.2⟩

/-! ### Each call on a store -/

section Calls

variable {pageId : PageId} {row : List UInt8} {iterator : DiskTableIterator}

theorem readPartialHead_acts (unheld : ⟨fileId, rootPageId⟩ ∉ held) (few : held.length < frames) :
    ActsAt frames fileId held store (readPartialHead fileId)
      ((DiskTable.readPartialHead store fileId).map fun head => (head, store)) := by
  refine (acts_withPage rfl unheld few _).congr ?_
  unfold DiskTable.readPartialHead
  cases DiskTable.mustGetPage store ⟨fileId, rootPageId⟩ with
  | error failure => rfl
  | ok root => rfl

/-- `AllocateSlot` leaves a page without room alone. -/
theorem allocateSlot_none {page page' : FullPage} {size : UInt64}
    (full : Page.allocateSlot page size = .ok (none, page')) : page' = page := by
  unfold Page.allocateSlot at full
  split at full
  · cases full
    rfl
  · obtain ⟨_, _, full⟩ := of_bind_ok full
    obtain ⟨_, _, full⟩ := of_bind_ok full
    obtain ⟨_, _, full⟩ := of_bind_ok full
    cases full

theorem put_read {fpId : FilePageId} {page : FullPage}
    (read : DiskTable.mustGetPage store fpId = .ok page) : store.put fpId page = store := by
  obtain ⟨_, isPage⟩ := PageStore.pages_of_readPage (of_mapError_ok read)
  refine PageStore.ext rfl ?_
  rw [PageStore.put_pages isPage, ← isPage, Function.update_eq_self]

theorem tryPage_acts (unheld : ⟨fileId, pageId⟩ ∉ held) (few : held.length < frames) :
    ActsAt frames fileId held store (tryPage fileId pageId row)
      (DiskTable.tryPage store fileId pageId row) := by
  refine (acts_withPage rfl unheld few _).congr ?_
  unfold DiskTable.tryPage
  cases read : DiskTable.mustGetPage store ⟨fileId, pageId⟩ with
  | error failure => rfl
  | ok page =>
      rw [ok_bind, ok_bind]
      cases slot : Page.allocateSlot page (UInt64.ofNat row.length) with
      | error assertion => rfl
      | ok allocated =>
          obtain ⟨_ | slotId, page'⟩ := allocated
          · cases allocateSlot_none slot
            show Except.ok (Tried.full _, store.put _ page) = _
            rw [put_read read]
            rfl
          · show (DiskTable.mustEdit (DiskTable.copyRow page' slotId row) >>= _) >>= _
              = (DiskTable.mustEdit (DiskTable.copyRow page' slotId row) >>= _)
            cases DiskTable.copyRow page' slotId row with
            | error assertion => rfl
            | ok written => rfl

theorem walk_acts (unheld : ∀ pageId, ⟨fileId, pageId⟩ ∉ held) (few : held.length < frames)
    (turns : Nat) (lastPartialId nextPageId : PageId) :
    ActsAt frames fileId held store (walk fileId row turns lastPartialId nextPageId)
      (DiskTable.walk fileId row turns store lastPartialId nextPageId) := by
  induction turns generalizing store lastPartialId nextPageId with
  | zero => exact acts_lift _
  | succ turns ih =>
      rw [walk, DiskTable.walk]
      by_cases ended : nextPageId = nullPageId
      · rw [if_pos ended, if_pos ended]
        exact acts_pure _
      · rw [if_neg ended, if_neg ended]
        refine (acts_bind (k := fun tried store => match tried with
          | .inserted rowId => .ok (.inl rowId, store)
          | .full following => DiskTable.walk fileId row turns store nextPageId following)
          (tryPage_acts (unheld nextPageId) few) ?_).congr ?_
        · intro tried store' _
          cases tried with
          | inserted rowId => exact acts_pure _
          | full following => exact ih nextPageId following
        · congr 1
          funext ended
          obtain ⟨_ | _, store'⟩ := ended <;> rfl

theorem fillNewPage_acts (unheld : ⟨fileId, pageId⟩ ∉ held) (few : held.length < frames) :
    ActsAt frames fileId held store (fillNewPage fileId pageId row)
      (DiskTable.fillNewPage store fileId pageId row) := by
  refine (acts_withPage rfl unheld few _).congr ?_
  unfold DiskTable.fillNewPage
  cases DiskTable.mustGetPage store ⟨fileId, pageId⟩ with
  | error failure => rfl
  | ok page =>
      rw [ok_bind, ok_bind]
      cases Page.allocateSlot (HeapPage.initPage page) (UInt64.ofNat row.length) with
      | error assertion => rfl
      | ok allocated =>
          obtain ⟨_ | slotId, page'⟩ := allocated
          · rfl
          · show (DiskTable.mustEdit (DiskTable.copyRow page' slotId row) >>= _) >>= _
              = (DiskTable.mustEdit (DiskTable.copyRow page' slotId row) >>= _)
            cases DiskTable.copyRow page' slotId row with
            | error assertion => rfl
            | ok written => rfl

theorem linkPage_acts (unheld : ∀ pageId, ⟨fileId, pageId⟩ ∉ held) (few : held.length < frames)
    (lastPartialId newPageId : PageId) :
    ActsAt frames fileId held store (linkPage fileId lastPartialId newPageId)
      ((DiskTable.linkPage store fileId lastPartialId newPageId).map fun store => ((), store)) := by
  unfold linkPage DiskTable.linkPage
  by_cases first : lastPartialId = nullPageId
  · rw [if_pos first, if_pos first]
    refine (acts_withPage rfl (unheld _) few _).congr ?_
    cases DiskTable.mustGetPage store ⟨fileId, rootPageId⟩ with
    | error failure => rfl
    | ok root => rfl
  · rw [if_neg first, if_neg first]
    refine (acts_withPage rfl (unheld _) few _).congr ?_
    cases DiskTable.mustGetPage store ⟨fileId, lastPartialId⟩ with
    | error failure => rfl
    | ok page => rfl

/-- **`InitTableRootPage`.** -/
theorem initTableRootPage_acts (unheld : ⟨fileId, rootPageId⟩ ∉ held) (few : held.length < frames)
    (fresh : FreshPage) :
    ActsAt frames fileId held store (initTableRootPage fileId fresh)
      ((DiskTable.initTableRootPage store fileId fresh).map fun store => ((), store)) := by
  refine (acts_bind (k := fun pageId store => if pageId ≠ rootPageId then .error .notRootPage
    else DiskTable.mustGetPage store ⟨fileId, rootPageId⟩ >>= fun page =>
      .ok ((), store.put ⟨fileId, rootPageId⟩ (HeapPage.initPage page)))
    (acts_allocatePage fresh) fun pageId store' _ => ?_).congr ?_
  · by_cases isRoot : pageId ≠ rootPageId
    · rw [if_pos isRoot, if_pos isRoot]
      exact ⟨rfl, trivial⟩
    · rw [if_neg isRoot, if_neg isRoot]
      exact (acts_withPage rfl unheld few _).congr rfl
  · unfold DiskTable.initTableRootPage
    cases DiskTable.allocatePage store fileId fresh with
    | error failure => rfl
    | ok allocated =>
        obtain ⟨pageId, store'⟩ := allocated
        show (if pageId ≠ rootPageId then _ else _) = Except.map _ (ite _ _ _)
        by_cases isRoot : pageId ≠ rootPageId
        · rw [if_pos isRoot, if_pos isRoot]
          rfl
        · rw [if_neg isRoot, if_neg isRoot]
          show _ = Except.map _ (DiskTable.mustGetPage store' ⟨fileId, rootPageId⟩ >>= _)
          cases DiskTable.mustGetPage store' ⟨fileId, rootPageId⟩ <;> rfl

/-- **`insert_row`.** -/
theorem insertRow_acts (unheld : ∀ pageId, ⟨fileId, pageId⟩ ∉ held) (few : held.length < frames)
    (fresh : FreshPage) :
    ActsAt frames fileId held store (insertRow fileId row fresh)
      (DiskTable.insertRow store fileId row fresh) := by
  -- what is done where the walk ends
  let rest (found : RowId ⊕ PageId) (store : PageStore) : Except TableFailure (RowId × PageStore) :=
    match found with
    | .inl rowId => .ok (rowId, store)
    | .inr last => DiskTable.allocatePage store fileId fresh >>= fun allocated =>
        DiskTable.fillNewPage allocated.2 fileId allocated.1 row >>= fun filled =>
          (DiskTable.linkPage filled.2 fileId last allocated.1).map fun store => (filled.1, store)
  have newPage : ∀ last store, ActsAt frames fileId held store (do
      let newPageId ← PageProgram.allocatePage fileId fresh
      let rowId ← fillNewPage fileId newPageId row
      linkPage fileId last newPageId
      return rowId) (rest (.inr last) store) := by
    intro last store
    refine (acts_bind (k := fun newPageId store =>
      DiskTable.fillNewPage store fileId newPageId row >>= fun filled =>
        (DiskTable.linkPage filled.2 fileId last newPageId).map fun store => (filled.1, store))
      (acts_allocatePage fresh) fun newPageId store _ => ?_).congr rfl
    refine (acts_bind (k := fun rowId store =>
      (DiskTable.linkPage store fileId last newPageId).map fun store => (rowId, store))
      (fillNewPage_acts (unheld newPageId) few) fun rowId store _ => ?_).congr rfl
    refine (acts_bind (k := fun _ store => .ok (rowId, store))
      (linkPage_acts unheld few last newPageId) fun _ _ _ => acts_pure rowId).congr ?_
    cases DiskTable.linkPage store fileId last newPageId <;> rfl
  have walked : ∀ nextPageId store, ActsAt frames fileId held store (do
      match ← walk fileId row pageTurns nullPageId nextPageId with
      | .inl rowId => return rowId
      | .inr last =>
          let newPageId ← PageProgram.allocatePage fileId fresh
          let rowId ← fillNewPage fileId newPageId row
          linkPage fileId last newPageId
          return rowId)
      (DiskTable.walk fileId row pageTurns store nullPageId nextPageId >>= fun found =>
        rest found.1 found.2) := by
    intro nextPageId store
    refine acts_bind (walk_acts unheld few pageTurns nullPageId nextPageId) fun found store _ => ?_
    cases found with
    | inl rowId => exact acts_pure rowId
    | inr last => exact newPage last store
  refine (acts_bind (readPartialHead_acts (unheld rootPageId) few)
    fun nextPageId store _ => walked nextPageId store).congr ?_
  unfold DiskTable.insertRow
  cases DiskTable.readPartialHead store fileId with
  | error failure => rfl
  | ok nextPageId =>
      show (DiskTable.walk fileId row pageTurns store nullPageId nextPageId >>= _) = _
      rw [ok_bind]
      congr 1
      funext found
      obtain ⟨rowId | last, store'⟩ := found <;> rfl

theorem deleteRow_acts (unheld : ∀ pageId, ⟨fileId, pageId⟩ ∉ held) (few : held.length < frames)
    (rowId : RowId) :
    ActsAt frames fileId held store (deleteRow fileId rowId)
      ((DiskTable.deleteRow store fileId rowId).map fun store => ((), store)) := by
  refine (acts_withPage rfl (unheld _) few _).congr ?_
  simp only [DiskTable.deleteRow]
  cases DiskTable.mustGetPage store ⟨fileId, getPageIdFromRowId rowId⟩ with
  | error failure => rfl
  | ok page =>
      simp only [ok_bind]
      cases Page.deleteSlot page (getSlotIdFromRowId rowId) with
      | error assertion => rfl
      | ok page' => rfl

/-- **`update_row`.** -/
theorem updateRow_acts (unheld : ∀ pageId, ⟨fileId, pageId⟩ ∉ held) (few : held.length < frames)
    (rowId : RowId) (fresh : FreshPage) :
    ActsAt frames fileId held store (updateRow fileId rowId row fresh)
      (DiskTable.updateRow store fileId rowId row fresh) := by
  refine (acts_bind (k := fun _ store => DiskTable.insertRow store fileId row fresh)
    (deleteRow_acts unheld few rowId) fun _ store' _ => insertRow_acts unheld few fresh).congr ?_
  unfold DiskTable.updateRow
  cases DiskTable.deleteRow store fileId rowId with
  | error failure => rfl
  | ok store' => rfl

/-- The scope of `advance_to_next_valid`. -/
theorem visitPage_acts (unheld : ⟨fileId, iterator.currentPageId⟩ ∉ held)
    (few : held.length < frames) :
    ActsAt frames fileId held store (visitPage fileId iterator)
      ((Handles.visitPage store fileId iterator).map fun visited => (visited, store)) := by
  refine (acts_withPage rfl unheld few _).congr ?_
  simp only [Handles.visitPage]
  cases DiskTable.mustGetPage store ⟨fileId, iterator.currentPageId⟩ with
  | error failure => rfl
  | ok page =>
      simp only [ok_bind]
      cases DiskTable.mustEdit (DiskTableIterator.findRecord page (DiskTableIterator.slotsFrom
          iterator.currentSlot.toNat (Page.getPageCapacity page).toNat)) with
      | error failure => rfl
      | ok found =>
          cases found with
          | none => rfl
          | some slot => rfl

/-- The loop of `advance_to_next_valid`, one page at a time. -/
theorem advance_visit (turns : Nat) (iterator : DiskTableIterator) :
    DiskTableIterator.advanceToNextValid store fileId (turns + 1) iterator
      = if iterator.currentPageId = nullPageId then .ok iterator
        else Handles.visitPage store fileId iterator >>= fun visited => match visited with
          | .inl iterator => .ok iterator
          | .inr nextPageId => DiskTableIterator.advanceToNextValid store fileId turns
              (iterator.nextPage nextPageId) := by
  rw [DiskTableIterator.advanceToNextValid, Handles.visitPage]
  by_cases ended : iterator.currentPageId = nullPageId
  · rw [if_pos ended, if_pos ended]
  · rw [if_neg ended, if_neg ended]
    cases DiskTable.mustGetPage store ⟨fileId, iterator.currentPageId⟩ with
    | error failure => rfl
    | ok page =>
        simp only [ok_bind]
        cases DiskTable.mustEdit (DiskTableIterator.findRecord page (DiskTableIterator.slotsFrom
            iterator.currentSlot.toNat (Page.getPageCapacity page).toNat)) with
        | error failure => rfl
        | ok found =>
            cases found with
            | none => rfl
            | some slot => rfl

/-- The links lead from these pages to these pages. -/
def Closed (store : PageStore) (fileId : FileId) (pages : PageId → Prop) : Prop :=
  ∀ pageId page, pages pageId → DiskTable.mustGetPage store ⟨fileId, pageId⟩ = .ok page →
    HeapPage.getNextPage page = nullPageId ∨ pages (HeapPage.getNextPage page)

/-- The root page leads to these pages. -/
def Heads (store : PageStore) (fileId : FileId) (pages : PageId → Prop) : Prop :=
  ∀ root, DiskTable.mustGetPage store ⟨fileId, rootPageId⟩ = .ok root →
    (HeapPage.getFullPagesHead root = nullPageId ∨ pages (HeapPage.getFullPagesHead root)) ∧
    (HeapPage.getPartialPagesHead root = nullPageId ∨
      pages (HeapPage.getPartialPagesHead root))

/-- What an iterator that goes on to another page read there. -/
theorem of_visitPage {nextPageId : PageId}
    (visited : Handles.visitPage store fileId iterator = .ok (.inr nextPageId)) :
    ∃ page, DiskTable.mustGetPage store ⟨fileId, iterator.currentPageId⟩ = .ok page ∧
      nextPageId = HeapPage.getNextPage page := by
  obtain ⟨page, read, visited⟩ := of_bind_ok visited
  obtain ⟨found, _, visited⟩ := of_bind_ok visited
  cases found with
  | none =>
      cases visited
      exact ⟨page, read, rfl⟩
  | some slot => cases visited

/-- **The advance of an iterator** over pages that the client does not hold. -/
theorem advance_acts (pages : PageId → Prop) (closed : Closed store fileId pages)
    (unheld : ∀ pageId, pages pageId → ⟨fileId, pageId⟩ ∉ held) (few : held.length < frames)
    (turns : Nat) (current : iterator.currentPageId = nullPageId ∨ pages iterator.currentPageId)
    (head : iterator.partialPagesHead = nullPageId ∨ pages iterator.partialPagesHead) :
    ActsAt frames fileId held store (advanceToNextValid fileId turns iterator)
      ((DiskTableIterator.advanceToNextValid store fileId turns iterator).map
        fun iterator => (iterator, store)) := by
  induction turns generalizing iterator with
  | zero => exact acts_lift _
  | succ turns ih =>
      rw [advanceToNextValid, advance_visit]
      by_cases ended : iterator.currentPageId = nullPageId
      · rw [if_pos ended, if_pos ended]
        exact acts_pure iterator
      · have here := current.resolve_left ended
        rw [if_neg ended, if_neg ended]
        refine (acts_bind (k := fun visited store => match visited with
          | .inl iterator => .ok (iterator, store)
          | .inr nextPageId => (DiskTableIterator.advanceToNextValid store fileId turns
              (iterator.nextPage nextPageId)).map fun iterator => (iterator, store))
          (visitPage_acts (unheld _ here) few) fun visited store' isVisited => ?_).congr ?_
        · obtain ⟨_, ran, same⟩ := of_map_ok isVisited
          cases same
          cases visited with
          | inl stopped => exact acts_pure stopped
          | inr nextPageId =>
              obtain ⟨page, read, rfl⟩ := of_visitPage ran
              have following := closed _ page here read
              refine ih ?_ ?_
              · unfold DiskTableIterator.nextPage
                split
                · exact following
                · split
                  · exact head
                  · exact .inl rfl
              · unfold DiskTableIterator.nextPage
                split
                · exact head
                · split <;> exact head
        · cases Handles.visitPage store fileId iterator with
          | error failure => rfl
          | ok visited => cases visited <;> rfl

/-- Any page of the file. -/
theorem advance_acts_any (unheld : ∀ pageId, ⟨fileId, pageId⟩ ∉ held)
    (few : held.length < frames) (turns : Nat) (iterator : DiskTableIterator) :
    ActsAt frames fileId held store (advanceToNextValid fileId turns iterator)
      ((DiskTableIterator.advanceToNextValid store fileId turns iterator).map
        fun iterator => (iterator, store)) :=
  advance_acts (fun _ => True) (fun _ _ _ _ => .inr trivial) (fun pageId _ => unheld pageId)
    few turns (.inr trivial) (.inr trivial)

/-- **The constructor of an iterator** takes the root page and one page more, which the root page is
not. -/
theorem begin_acts {pages : PageId → Prop} (closed : Closed store fileId pages)
    (notRoot : ¬ pages rootPageId) (unheld : ∀ pageId, ⟨fileId, pageId⟩ ∉ held)
    (few : held.length + 1 < frames)
    (heads : Heads store fileId pages) :
    ActsAt frames fileId held store (begin fileId)
      ((DiskTableIterator.begin store fileId).map fun iterator => (iterator, store)) := by
  refine (acts_holding (f := fun root => (DiskTableIterator.advanceToNextValid store fileId
      DiskTableIterator.advanceTurns (.start (HeapPage.getFullPagesHead root)
        (HeapPage.getPartialPagesHead root))).map fun iterator => (iterator, store))
    rfl (unheld rootPageId) (by omega) fun root read => ?_).congr ?_
  · obtain ⟨full, partial_⟩ := heads root read
    refine advance_acts pages closed (fun pageId here member => ?_) few _ ?_ ?_
    · rcases List.mem_cons.mp member with isRoot | member
      · cases isRoot
        exact notRoot here
      · exact unheld pageId member
    · unfold DiskTableIterator.start
      split
      · exact full
      · split
        · exact partial_
        · exact .inl rfl
    · unfold DiskTableIterator.start
      split
      · exact partial_
      · split <;> exact partial_
  · unfold DiskTableIterator.begin
    cases DiskTable.mustGetPage store ⟨fileId, rootPageId⟩ with
    | error failure => rfl
    | ok root => rfl

theorem collect_acts (unheld : ∀ pageId, ⟨fileId, pageId⟩ ∉ held) (few : held.length < frames)
    (turns : Nat) (iterator : DiskTableIterator) :
    ActsAt frames fileId held store (collect fileId turns iterator)
      ((DiskTableIterator.collect store fileId turns iterator).map fun rows => (rows, store)) := by
  induction turns generalizing iterator with
  | zero => exact acts_lift _
  | succ turns ih =>
      rw [collect, DiskTableIterator.collect]
      by_cases ended : iterator.atEnd = true
      · rw [if_pos ended, if_pos ended]
        exact acts_pure []
      · rw [if_neg ended, if_neg ended]
        cases iterator.get with
        | error failure => exact ⟨rfl, trivial⟩
        | ok row =>
            refine (acts_bind (k := fun iterator store =>
              (DiskTableIterator.collect store fileId turns iterator).map fun rest =>
                (row :: rest, store))
              (advance_acts_any unheld few _ _) fun moved store' isNext => ?_).congr ?_
            · obtain ⟨_, _, same⟩ := of_map_ok isNext
              cases same
              refine (acts_bind (k := fun rest store => .ok (row :: rest, store))
                (ih moved) fun rest store _ => acts_pure (row :: rest)).congr ?_
              cases DiskTableIterator.collect store fileId turns moved <;> rfl
            · show _ = Except.map _ (DiskTableIterator.next store fileId iterator >>= fun moved =>
                DiskTableIterator.collect store fileId turns moved >>= fun rest =>
                  .ok (row :: rest))
              unfold DiskTableIterator.next
              cases DiskTableIterator.advanceToNextValid store fileId DiskTableIterator.advanceTurns
                  { iterator with currentSlot := iterator.currentSlot + 1 } with
              | error failure => rfl
              | ok moved =>
                  show Except.map _ (DiskTableIterator.collect store fileId turns moved)
                    = Except.map _ (DiskTableIterator.collect store fileId turns moved >>= _)
                  cases DiskTableIterator.collect store fileId turns moved <;> rfl

/-- **A scan of the table.** -/
theorem scan_acts {pages : PageId → Prop} (closed : Closed store fileId pages)
    (notRoot : ¬ pages rootPageId) (unheld : ∀ pageId, ⟨fileId, pageId⟩ ∉ held)
    (few : held.length + 1 < frames)
    (heads : Heads store fileId pages) :
    ActsAt frames fileId held store (scan fileId)
      ((DiskTableIterator.scan store fileId).map fun rows => (rows, store)) := by
  refine (acts_bind (k := fun iterator store =>
    (DiskTableIterator.collect store fileId DiskTableIterator.scanTurns iterator).map
      fun rows => (rows, store))
    (begin_acts closed notRoot unheld few heads) fun iterator store _ =>
      collect_acts unheld (by omega) _ iterator).congr ?_
  unfold DiskTableIterator.scan
  cases DiskTableIterator.begin store fileId <;> rfl

end Calls

end PageProgram

end Yadb
