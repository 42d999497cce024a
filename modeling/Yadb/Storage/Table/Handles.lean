/-
**The page objects that a table call holds.**

The calls of `disk_table.cpp` and `disk_table_iterator.cpp` once more, with the scopes of their page
objects: `holding` is a scope that begins with `MustGetPage` and ends with the page object. The
results are those of the calls on a store (`result_insertRow` and the like).

`alone_eventsOf`: a sequence of calls never asks for a page while it holds one if and only if it
constructs no iterator on a table with a page in one of its lists. The constructor of an iterator
keeps its page object of the root while it advances.
-/

import Yadb.Storage.Table.DiskTableIterator

namespace Yadb

open Foundation

/-- What a client asks of the buffer manager: a page, or the end of a page object. -/
inductive HandleEvent
  | getPage (fpId : FilePageId)
  | release (fpId : FilePageId)
  deriving DecidableEq

def HandleEvent.fileId : HandleEvent → FileId
  | getPage fpId | release fpId => fpId.fileId

/-- A call, with the events up to its end. -/
structure Traced (Result : Type) where
  events : List HandleEvent
  result : Except TableFailure Result

namespace Traced

variable {First Second Result : Type}

/-- A part of a call that takes no page object. -/
def lift (result : Except TableFailure Result) : Traced Result := ⟨[], result⟩

def andThen (first : Traced First) (next : First → Traced Second) : Traced Second :=
  match first.result with
  | .error failure => ⟨first.events, .error failure⟩
  | .ok value => ⟨first.events ++ (next value).events, (next value).result⟩

instance : Monad Traced where
  pure value := lift (.ok value)
  bind := andThen

/-- A scope with a page object. A call that fails aborts, and no destructor runs. -/
def holding (store : PageStore) (fpId : FilePageId) (body : Traced Result) : Traced Result :=
  match DiskTable.mustGetPage store fpId with
  | .error failure => ⟨[.getPage fpId], .error failure⟩
  | .ok _ => match body.result with
    | .error failure => ⟨.getPage fpId :: body.events, .error failure⟩
    | .ok value => ⟨.getPage fpId :: (body.events ++ [.release fpId]), .ok value⟩

/-- What happens under one page object and asks for no other. -/
def underPage (store : PageStore) (fpId : FilePageId) (result : Except TableFailure Result) :
    Traced Result :=
  holding store fpId (lift result)

theorem result_bind (first : Traced First) (next : First → Traced Second) :
    (first >>= next).result = first.result >>= fun value => (next value).result := by
  show (andThen first next).result = _
  unfold andThen
  cases first.result with
  | error failure => rfl
  | ok value => rfl

theorem result_holding (store : PageStore) (fpId : FilePageId) (body : Traced Result) :
    (holding store fpId body).result = DiskTable.mustGetPage store fpId >>= fun _ => body.result := by
  unfold holding
  cases DiskTable.mustGetPage store fpId with
  | error failure => rfl
  | ok page =>
      show _ = body.result
      cases body.result with
      | error failure => rfl
      | ok value => rfl

/-- A part that begins with the page object it is under has its own result. -/
theorem result_underPage {store : PageStore} {fpId : FilePageId}
    (next : FullPage → Except TableFailure Result) :
    (underPage store fpId (DiskTable.mustGetPage store fpId >>= next)).result
      = DiskTable.mustGetPage store fpId >>= next := by
  rw [underPage, result_holding, lift]
  cases DiskTable.mustGetPage store fpId with
  | error failure => rfl
  | ok page => rfl

end Traced

/-! ### The calls -/

namespace Handles

open Traced DiskTable

def walk (fileId : FileId) (row : List UInt8) :
    Nat → PageStore → PageId → PageId → Traced ((RowId ⊕ PageId) × PageStore)
  | 0, _, _, _ => lift (.error .neverReturns)
  | turns + 1, store, lastPartialId, nextPageId =>
      if nextPageId = nullPageId then pure (.inr lastPartialId, store)
      else do
        match ← underPage store ⟨fileId, nextPageId⟩ (tryPage store fileId nextPageId row) with
        | (.inserted rowId, store) => return (.inl rowId, store)
        | (.full following, store) => walk fileId row turns store nextPageId following

/-- The page that `linkPage` takes. -/
def linkedPage (fileId : FileId) (lastPartialId : PageId) : FilePageId :=
  ⟨fileId, if lastPartialId = nullPageId then rootPageId else lastPartialId⟩

def insertRow (store : PageStore) (fileId : FileId) (row : List UInt8) (fresh : FreshPage) :
    Traced (RowId × PageStore) := do
  let nextPageId ← underPage store ⟨fileId, rootPageId⟩ (readPartialHead store fileId)
  match ← walk fileId row pageTurns store nullPageId nextPageId with
  | (.inl rowId, store) => return (rowId, store)
  | (.inr lastPartialId, store) =>
      let (newPageId, store) ← lift (allocatePage store fileId fresh)
      let (rowId, store) ← underPage store ⟨fileId, newPageId⟩ (fillNewPage store fileId newPageId row)
      let store ← underPage store (linkedPage fileId lastPartialId)
        (linkPage store fileId lastPartialId newPageId)
      return (rowId, store)

def deleteRow (store : PageStore) (fileId : FileId) (rowId : RowId) : Traced PageStore :=
  underPage store ⟨fileId, getPageIdFromRowId rowId⟩ (DiskTable.deleteRow store fileId rowId)

def updateRow (store : PageStore) (fileId : FileId) (rowId : RowId) (row : List UInt8)
    (fresh : FreshPage) : Traced (RowId × PageStore) := do
  let store ← deleteRow store fileId rowId
  insertRow store fileId row fresh

/-- The scope of `advance_to_next_valid`: the iterator at a record, or the next page. -/
def visitPage (store : PageStore) (fileId : FileId) (iterator : DiskTableIterator) :
    Except TableFailure (DiskTableIterator ⊕ PageId) := do
  let page ← mustGetPage store ⟨fileId, iterator.currentPageId⟩
  let slots := DiskTableIterator.slotsFrom iterator.currentSlot.toNat
    (Page.getPageCapacity page).toNat
  match ← mustEdit (DiskTableIterator.findRecord page slots) with
  | some (slotId, record) =>
      return .inl { iterator with currentSlot := slotId, rowBuffer := record }
  | none => return .inr (HeapPage.getNextPage page)

def advanceToNextValid (store : PageStore) (fileId : FileId) :
    Nat → DiskTableIterator → Traced DiskTableIterator
  | 0, _ => lift (.error .neverReturns)
  | turns + 1, iterator =>
      if iterator.currentPageId = nullPageId then pure iterator
      else do
        match ← underPage store ⟨fileId, iterator.currentPageId⟩ (visitPage store fileId iterator) with
        | .inl iterator => return iterator
        | .inr nextPageId => advanceToNextValid store fileId turns (iterator.nextPage nextPageId)

/-- The iterator where its constructor starts to advance. -/
def rootIterator (store : PageStore) (fileId : FileId) : Except TableFailure DiskTableIterator := do
  let root ← mustGetPage store ⟨fileId, rootPageId⟩
  return DiskTableIterator.start (HeapPage.getFullPagesHead root) (HeapPage.getPartialPagesHead root)

/-- The constructor: `lk.unlock()` gives the lock back, and the page object lives on to the end. -/
def begin (store : PageStore) (fileId : FileId) : Traced DiskTableIterator :=
  holding store ⟨fileId, rootPageId⟩ do
    let iterator ← lift (rootIterator store fileId)
    advanceToNextValid store fileId DiskTableIterator.advanceTurns iterator

/-- `operator++`. -/
def next (store : PageStore) (fileId : FileId) (iterator : DiskTableIterator) :
    Traced DiskTableIterator :=
  advanceToNextValid store fileId DiskTableIterator.advanceTurns
    { iterator with currentSlot := iterator.currentSlot + 1 }

/-- `seek`; without a record at the row id it throws, which destroys the page object. -/
def seek (store : PageStore) (fileId : FileId) (iterator : DiskTableIterator) (rowId : RowId) :
    Traced (Option DiskTableIterator) :=
  let pageId := getPageIdFromRowId rowId
  let slotId := getSlotIdFromRowId rowId
  underPage store ⟨fileId, pageId⟩ do
    let page ← mustGetPage store ⟨fileId, pageId⟩
    if Page.getPageCapacity page ≤ slotId then return none
    else if ← mustEdit (Page.isSlotDeleted page slotId) then return none
    else
      let record ← mustEdit (Page.readRecord page slotId)
      return some { iterator with currentPageId := pageId, currentSlot := slotId, rowBuffer := record }

end Handles

/-! ### The results are those of the calls on a store -/

namespace Handles

open Traced DiskTable

theorem result_walk (fileId : FileId) (row : List UInt8) (turns : Nat) (store : PageStore)
    (lastPartialId nextPageId : PageId) :
    (walk fileId row turns store lastPartialId nextPageId).result
      = DiskTable.walk fileId row turns store lastPartialId nextPageId := by
  induction turns generalizing store lastPartialId nextPageId with
  | zero => rfl
  | succ turns ih =>
      rw [walk, DiskTable.walk]
      by_cases ended : nextPageId = nullPageId
      · rw [if_pos ended, if_pos ended]
        rfl
      · rw [if_neg ended, if_neg ended, result_bind]
        have tried : (underPage store ⟨fileId, nextPageId⟩
            (tryPage store fileId nextPageId row)).result = tryPage store fileId nextPageId row :=
          result_underPage _
        rw [tried]
        cases tryPage store fileId nextPageId row with
        | error failure => rfl
        | ok found =>
            obtain ⟨outcome, store'⟩ := found
            cases outcome with
            | inserted rowId => rfl
            | full following => exact ih store' nextPageId following

theorem result_linkPage (store : PageStore) (fileId : FileId) (lastPartialId newPageId : PageId) :
    (underPage store (linkedPage fileId lastPartialId)
      (linkPage store fileId lastPartialId newPageId)).result
      = linkPage store fileId lastPartialId newPageId := by
  unfold linkPage linkedPage
  by_cases first : lastPartialId = nullPageId
  · rw [if_pos first, if_pos first]
    exact result_underPage _
  · rw [if_neg first, if_neg first]
    exact result_underPage _

/-- **The insertion with its page objects is the insertion.** -/
theorem result_insertRow (store : PageStore) (fileId : FileId) (row : List UInt8)
    (fresh : FreshPage) : (insertRow store fileId row fresh).result
      = DiskTable.insertRow store fileId row fresh := by
  have head : (underPage store ⟨fileId, rootPageId⟩ (readPartialHead store fileId)).result
      = readPartialHead store fileId := result_underPage _
  rw [insertRow, DiskTable.insertRow, result_bind, head]
  congr 1
  funext nextPageId
  rw [result_bind, result_walk]
  congr 1
  funext walked
  obtain ⟨outcome, store'⟩ := walked
  cases outcome with
  | inl rowId => rfl
  | inr lastPartialId =>
      rw [result_bind]
      show (allocatePage store' fileId fresh >>= _) = _
      congr 1
      funext allocated
      obtain ⟨newPageId, store''⟩ := allocated
      have filled : (underPage store'' ⟨fileId, newPageId⟩
          (fillNewPage store'' fileId newPageId row)).result
            = fillNewPage store'' fileId newPageId row := result_underPage _
      show (_ >>= _ : Traced _).result = _
      rw [result_bind, filled]
      congr 1
      funext written
      obtain ⟨rowId, final⟩ := written
      show (_ >>= _ : Traced _).result = _
      rw [result_bind, result_linkPage]
      rfl

theorem result_deleteRow (store : PageStore) (fileId : FileId) (rowId : RowId) :
    (deleteRow store fileId rowId).result = DiskTable.deleteRow store fileId rowId :=
  result_underPage _

theorem result_updateRow (store : PageStore) (fileId : FileId) (rowId : RowId) (row : List UInt8)
    (fresh : FreshPage) : (updateRow store fileId rowId row fresh).result
      = DiskTable.updateRow store fileId rowId row fresh := by
  rw [updateRow, DiskTable.updateRow, result_bind, result_deleteRow]
  congr 1
  funext store'
  exact result_insertRow store' fileId row fresh

theorem result_advanceToNextValid (store : PageStore) (fileId : FileId) (turns : Nat)
    (iterator : DiskTableIterator) : (advanceToNextValid store fileId turns iterator).result
      = DiskTableIterator.advanceToNextValid store fileId turns iterator := by
  induction turns generalizing iterator with
  | zero => rfl
  | succ turns ih =>
      rw [advanceToNextValid, DiskTableIterator.advanceToNextValid]
      by_cases ended : iterator.currentPageId = nullPageId
      · rw [if_pos ended, if_pos ended]
        rfl
      · have visited : (underPage store ⟨fileId, iterator.currentPageId⟩
            (visitPage store fileId iterator)).result = visitPage store fileId iterator :=
          result_underPage _
        rw [if_neg ended, if_neg ended, result_bind, visited, visitPage]
        cases mustGetPage store ⟨fileId, iterator.currentPageId⟩ with
        | error failure => rfl
        | ok page =>
            simp only [bind, Except.bind]
            cases mustEdit (DiskTableIterator.findRecord page (DiskTableIterator.slotsFrom
                iterator.currentSlot.toNat (Page.getPageCapacity page).toNat)) with
            | error failure => rfl
            | ok found =>
                cases found with
                | none => exact ih (iterator.nextPage (HeapPage.getNextPage page))
                | some slot => rfl

theorem result_begin (store : PageStore) (fileId : FileId) :
    (begin store fileId).result = DiskTableIterator.begin store fileId := by
  rw [begin, DiskTableIterator.begin, result_holding, result_bind]
  simp only [result_advanceToNextValid]
  rw [lift, rootIterator]
  cases mustGetPage store ⟨fileId, rootPageId⟩ with
  | error failure => simp only [bind, Except.bind]
  | ok root => simp only [ok_bind, pure, Except.pure]

end Handles

/-! ### Sequences of calls -/

/-- A call of a client on its table. -/
inductive TableCall
  | insertRow (row : List UInt8) (fresh : FreshPage)
  | updateRow (rowId : RowId) (row : List UInt8) (fresh : FreshPage)
  | deleteRow (rowId : RowId)
  | construct
  | increment (iterator : DiskTableIterator)
  | seek (iterator : DiskTableIterator) (rowId : RowId)

namespace TableCall

def trace (store : PageStore) (fileId : FileId) : TableCall → Traced PageStore
  | insertRow row fresh => do
      let inserted ← Handles.insertRow store fileId row fresh
      return inserted.2
  | updateRow rowId row fresh => do
      let updated ← Handles.updateRow store fileId rowId row fresh
      return updated.2
  | deleteRow rowId => Handles.deleteRow store fileId rowId
  | construct => do
      let _ ← Handles.begin store fileId
      return store
  | increment iterator => do
      let _ ← Handles.next store fileId iterator
      return store
  | seek iterator rowId => do
      let _ ← Handles.seek store fileId iterator rowId
      return store

/-- An iterator is constructed only where the root has no page in its lists. -/
def FindsNoPage (store : PageStore) (fileId : FileId) : TableCall → Prop
  | construct => ∀ root, DiskTable.mustGetPage store ⟨fileId, rootPageId⟩ = .ok root →
      HeapPage.getFullPagesHead root = nullPageId ∧ HeapPage.getPartialPagesHead root = nullPageId
  | _ => True

end TableCall

/-- The events of a client that makes one call after the other, each on a table that it names, up to
the first that fails. -/
def eventsOf (store : PageStore) : List (FileId × TableCall) → List HandleEvent
  | [] => []
  | (fileId, call) :: calls =>
      (call.trace store fileId).events ++ match (call.trace store fileId).result with
        | .error _ => []
        | .ok store => eventsOf store calls

/-- Every call that is made meets `FindsNoPage`. -/
def FindNoPages (store : PageStore) : List (FileId × TableCall) → Prop
  | [] => True
  | (fileId, call) :: calls =>
      call.FindsNoPage store fileId ∧ match (call.trace store fileId).result with
        | .error _ => True
        | .ok store => FindNoPages store calls

instance (store : PageStore) (fileId : FileId) : DecidablePred (TableCall.FindsNoPage store fileId)
  | .construct => match found : DiskTable.mustGetPage store ⟨fileId, rootPageId⟩ with
      | .error _ => .isTrue fun root isRoot => by cases found.symm.trans isRoot
      | .ok root => decidable_of_iff
          (HeapPage.getFullPagesHead root = nullPageId ∧
            HeapPage.getPartialPagesHead root = nullPageId)
          ⟨fun unlisted other isRoot => by cases found.symm.trans isRoot; exact unlisted,
            fun all => all root found⟩
  | .insertRow _ _ | .updateRow _ _ _ | .deleteRow _ | .increment _ | .seek _ _ => .isTrue trivial

instance decidableFindNoPages : ∀ store, DecidablePred (FindNoPages store)
  | _, [] => .isTrue trivial
  | store, (fileId, call) :: calls =>
      @instDecidableAnd _ _ _ (match (call.trace store fileId).result with
        | .error _ => .isTrue trivial
        | .ok store => decidableFindNoPages store calls)

/-- With these page objects alive, every page is asked for while none is. -/
def Alone : List FilePageId → List HandleEvent → Prop
  | _, [] => True
  | held, .getPage fpId :: events => held = [] ∧ Alone (fpId :: held) events
  | held, .release fpId :: events => Alone (held.erase fpId) events

/-! ### Calls of scopes that follow each other -/

/-- Scopes with a page object of the file, one after the other. -/
inductive Scopes (fileId : FileId) : List HandleEvent → Prop
  | nil : Scopes fileId []
  | scope (pageId : PageId) {events : List HandleEvent} : Scopes fileId events →
      Scopes fileId (.getPage ⟨fileId, pageId⟩ :: .release ⟨fileId, pageId⟩ :: events)

namespace Scopes

variable {fileId : FileId} {scopes more later : List HandleEvent}

theorem append (first : Scopes fileId scopes) (second : Scopes fileId more) :
    Scopes fileId (scopes ++ more) := by
  induction first with
  | nil => exact second
  | scope pageId _ ih => exact .scope pageId ih

theorem alone_append (first : Scopes fileId scopes) : Alone [] (scopes ++ later) ↔ Alone [] later := by
  induction first with
  | nil => exact Iff.rfl
  | scope pageId _ ih =>
      simp only [List.cons_append, Alone, List.erase_cons_head, true_and]
      exact ih

theorem fileId_of_mem (first : Scopes fileId scopes) {event : HandleEvent} (member : event ∈ scopes) :
    event.fileId = fileId := by
  induction first with
  | nil => cases member
  | scope pageId _ ih =>
      rw [List.mem_cons, List.mem_cons] at member
      obtain rfl | rfl | later := member
      · rfl
      · rfl
      · exact ih later

end Scopes

namespace Traced

variable {First Second Result : Type} {fileId : FileId}

/-- Scopes of the file, and then maybe a page that could not be read, or an assertion under it. -/
def Flat (fileId : FileId) (traced : Traced Result) : Prop :=
  ∃ scopes, Scopes fileId scopes ∧ (traced.events = scopes ∨ ∃ pageId failure,
    traced.events = scopes ++ [.getPage ⟨fileId, pageId⟩] ∧ traced.result = .error failure)

theorem flat_lift (result : Except TableFailure Result) : Flat fileId (lift result) :=
  ⟨[], .nil, .inl rfl⟩

theorem flat_underPage (store : PageStore) (pageId : PageId) (result : Except TableFailure Result) :
    Flat fileId (underPage store ⟨fileId, pageId⟩ result) := by
  unfold underPage holding lift
  cases DiskTable.mustGetPage store ⟨fileId, pageId⟩ with
  | error failure => exact ⟨[], .nil, .inr ⟨pageId, failure, rfl, rfl⟩⟩
  | ok page =>
      cases result with
      | error failure => exact ⟨[], .nil, .inr ⟨pageId, failure, rfl, rfl⟩⟩
      | ok value => exact ⟨_, .scope pageId .nil, .inl rfl⟩

/-- **Flat parts make a flat call.** -/
theorem flat_bind {first : Traced First} {next : First → Traced Second} (before : Flat fileId first)
    (after : ∀ value, Flat fileId (next value)) : Flat fileId (first >>= next) := by
  show Flat fileId (andThen first next)
  obtain ⟨scopes, isScopes, whole | ⟨pageId, failure, cut, failed⟩⟩ := before
  · unfold andThen
    cases first.result with
    | error failure => exact ⟨scopes, isScopes, .inl whole⟩
    | ok value =>
        obtain ⟨more, isMore, whole' | ⟨pageId, failure, cut, failed⟩⟩ := after value
        · refine ⟨scopes ++ more, isScopes.append isMore, .inl ?_⟩
          show first.events ++ (next value).events = _
          rw [whole, whole']
        · refine ⟨scopes ++ more, isScopes.append isMore, .inr ⟨pageId, failure, ?_, failed⟩⟩
          show first.events ++ (next value).events = _
          rw [whole, cut, List.append_assoc]
  · unfold andThen
    rw [failed]
    exact ⟨scopes, isScopes, .inr ⟨pageId, failure, cut, rfl⟩⟩

/-- A call begins with the events of its first part. -/
theorem events_bind (first : Traced First) (next : First → Traced Second) :
    ∃ more, (first >>= next).events = first.events ++ more := by
  show ∃ more, (andThen first next).events = first.events ++ more
  unfold andThen
  cases first.result with
  | error failure => exact ⟨[], (List.append_nil _).symm⟩
  | ok value => exact ⟨_, rfl⟩

theorem events_holding (store : PageStore) (fpId : FilePageId) (body : Traced Result) :
    ∃ more, (holding store fpId body).events = .getPage fpId :: more := by
  unfold holding
  cases DiskTable.mustGetPage store fpId with
  | error failure => exact ⟨_, rfl⟩
  | ok page =>
      cases body.result with
      | error failure => exact ⟨_, rfl⟩
      | ok value => exact ⟨_, rfl⟩

theorem events_holding_ok {store : PageStore} {fpId : FilePageId} {page : FullPage}
    (found : DiskTable.mustGetPage store fpId = .ok page) (body : Traced Result) :
    ∃ rest, (holding store fpId body).events = .getPage fpId :: (body.events ++ rest) := by
  unfold holding
  rw [found]
  cases isResult : body.result with
  | error failure => exact ⟨[], congrArg _ (List.append_nil _).symm⟩
  | ok value => exact ⟨[.release fpId], rfl⟩

theorem lift_bind (value : First) (next : First → Traced Second) :
    (lift (.ok value) >>= next) = next value := rfl

end Traced

namespace Handles

open Traced

variable {fileId : FileId}

theorem flat_walk (row : List UInt8) (turns : Nat) (store : PageStore)
    (lastPartialId nextPageId : PageId) :
    Flat fileId (walk fileId row turns store lastPartialId nextPageId) := by
  induction turns generalizing store lastPartialId nextPageId with
  | zero => exact flat_lift _
  | succ turns ih =>
      rw [walk]
      by_cases ended : nextPageId = nullPageId
      · rw [if_pos ended]
        exact flat_lift _
      · rw [if_neg ended]
        refine flat_bind (flat_underPage store nextPageId _) ?_
        rintro ⟨rowId | following, store'⟩
        · exact flat_lift _
        · exact ih store' nextPageId following

theorem flat_insertRow (store : PageStore) (row : List UInt8) (fresh : FreshPage) :
    Flat fileId (insertRow store fileId row fresh) := by
  refine flat_bind (flat_underPage store rootPageId _) fun nextPageId => ?_
  refine flat_bind (flat_walk row _ store nullPageId nextPageId) ?_
  rintro ⟨rowId | lastPartialId, store'⟩
  · exact flat_lift _
  · refine flat_bind (flat_lift _) ?_
    rintro ⟨newPageId, store''⟩
    refine flat_bind (flat_underPage store'' newPageId _) ?_
    rintro ⟨rowId, final⟩
    exact flat_bind (flat_underPage final _ _) fun _ => flat_lift _

theorem flat_advanceToNextValid (store : PageStore) (turns : Nat) (iterator : DiskTableIterator) :
    Flat fileId (advanceToNextValid store fileId turns iterator) := by
  induction turns generalizing iterator with
  | zero => exact flat_lift _
  | succ turns ih =>
      rw [advanceToNextValid]
      by_cases ended : iterator.currentPageId = nullPageId
      · rw [if_pos ended]
        exact flat_lift _
      · rw [if_neg ended]
        refine flat_bind (flat_underPage store iterator.currentPageId _) ?_
        rintro (iterator' | nextPageId)
        · exact flat_lift _
        · exact ih (iterator.nextPage nextPageId)

/-- An iterator that is at a page asks for it. -/
theorem events_advanceToNextValid (store : PageStore) {iterator : DiskTableIterator}
    (atPage : iterator.currentPageId ≠ nullPageId) :
    ∃ more, (advanceToNextValid store fileId DiskTableIterator.advanceTurns iterator).events
      = .getPage ⟨fileId, iterator.currentPageId⟩ :: more := by
  obtain ⟨turns, isTurns⟩ : ∃ turns, DiskTableIterator.advanceTurns = turns + 1 := ⟨2 * 2 ^ 32, rfl⟩
  rw [isTurns, advanceToNextValid, if_neg atPage]
  obtain ⟨more, bound⟩ := events_bind (underPage store ⟨fileId, iterator.currentPageId⟩
    (visitPage store fileId iterator)) fun visited => match visited with
      | .inl iterator => pure iterator
      | .inr nextPageId => advanceToNextValid store fileId turns (iterator.nextPage nextPageId)
  obtain ⟨more', asked⟩ := events_holding store ⟨fileId, iterator.currentPageId⟩
    (lift (visitPage store fileId iterator))
  refine ⟨more' ++ more, bound.trans ?_⟩
  rw [underPage, asked]
  rfl

end Handles

namespace TableCall

open Traced Handles

variable {fileId : FileId} {store : PageStore}

/-- **A call that meets `FindsNoPage` is flat.** -/
theorem flat_trace {call : TableCall} (meets : call.FindsNoPage store fileId) :
    Flat fileId (call.trace store fileId) := by
  cases call with
  | insertRow row fresh => exact flat_bind (flat_insertRow store row fresh) fun _ => flat_lift _
  | updateRow rowId row fresh =>
      refine flat_bind ?_ fun _ => flat_lift _
      exact flat_bind (flat_underPage store _ _) fun store' => flat_insertRow store' row fresh
  | deleteRow rowId => exact flat_underPage store _ _
  | increment iterator =>
      exact flat_bind (flat_advanceToNextValid store _ _) fun _ => flat_lift _
  | seek iterator rowId => exact flat_bind (flat_underPage store _ _) fun _ => flat_lift _
  | construct =>
      refine flat_bind ?_ fun _ => flat_lift _
      unfold begin holding
      cases found : DiskTable.mustGetPage store ⟨fileId, rootPageId⟩ with
      | error failure => exact ⟨[], .nil, .inr ⟨rootPageId, failure, rfl, rfl⟩⟩
      | ok root =>
          obtain ⟨noFull, noPartial⟩ := meets root found
          -- with no page in its lists the iterator is past the end at once
          have start : rootIterator store fileId = .ok ⟨nullPageId, 0, nullPageId, false, []⟩ := by
            rw [rootIterator, found]
            show Except.ok (DiskTableIterator.start _ _) = _
            rw [noFull, noPartial]
            rfl
          obtain ⟨turns, isTurns⟩ : ∃ turns, DiskTableIterator.advanceTurns = turns + 1 :=
            ⟨2 * 2 ^ 32, rfl⟩
          rw [start, isTurns]
          exact ⟨_, .scope rootPageId .nil, .inl rfl⟩

/-- **Any other construction asks for a page while it holds the root.** -/
theorem events_construct {root : FullPage}
    (found : DiskTable.mustGetPage store ⟨fileId, rootPageId⟩ = .ok root)
    (listed : ¬ (HeapPage.getFullPagesHead root = nullPageId ∧
      HeapPage.getPartialPagesHead root = nullPageId)) :
    ∃ more, (construct.trace store fileId).events = .getPage ⟨fileId, rootPageId⟩ ::
      .getPage ⟨fileId, (DiskTableIterator.start (HeapPage.getFullPagesHead root)
        (HeapPage.getPartialPagesHead root)).currentPageId⟩ :: more := by
  let iterator := DiskTableIterator.start (HeapPage.getFullPagesHead root)
    (HeapPage.getPartialPagesHead root)
  have atPage : iterator.currentPageId ≠ nullPageId := by
    show (DiskTableIterator.start _ _).currentPageId ≠ nullPageId
    unfold DiskTableIterator.start
    by_cases noFull : HeapPage.getFullPagesHead root = nullPageId
    · have isPartial := fun noPartial => listed ⟨noFull, noPartial⟩
      rw [if_neg (not_not.mpr noFull), if_pos isPartial]
      exact isPartial
    · rw [if_pos noFull]
      exact noFull
  have start : rootIterator store fileId = .ok iterator := by
    rw [rootIterator, found]
    rfl
  obtain ⟨more, asked⟩ : ∃ more, (advanceToNextValid store fileId DiskTableIterator.advanceTurns
      iterator).events = .getPage ⟨fileId, iterator.currentPageId⟩ :: more :=
    events_advanceToNextValid store atPage
  obtain ⟨rest, inner⟩ := events_holding_ok found
    (advanceToNextValid store fileId DiskTableIterator.advanceTurns iterator)
  obtain ⟨last, outer⟩ := events_bind (begin store fileId) fun _ => pure store
  refine ⟨more ++ rest ++ last, outer.trans ?_⟩
  rw [begin, start, lift_bind, inner, asked]
  simp only [List.cons_append, List.append_assoc]
  rfl

end TableCall

/-- **A client asks for no page while it holds one exactly when it constructs no iterator on a table
with a listed page.** -/
theorem alone_eventsOf (store : PageStore) (calls : List (FileId × TableCall)) :
    Alone [] (eventsOf store calls) ↔ FindNoPages store calls := by
  induction calls generalizing store with
  | nil => exact Iff.rfl
  | cons named calls ih =>
      obtain ⟨fileId, call⟩ := named
      rw [eventsOf, FindNoPages]
      by_cases meets : call.FindsNoPage store fileId
      · rw [and_iff_right meets]
        obtain ⟨scopes, isScopes, whole | ⟨pageId, failure, cut, failed⟩⟩ :=
          TableCall.flat_trace meets
        · rw [whole, isScopes.alone_append]
          cases (call.trace store fileId).result with
          | error failure => exact Iff.rfl
          | ok store' => exact ih store'
        · rw [cut, failed, List.append_nil, isScopes.alone_append]
          exact iff_of_true ⟨rfl, trivial⟩ trivial
      · refine iff_of_false ?_ fun both => meets both.1
        cases call with
        | construct =>
            simp only [TableCall.FindsNoPage, not_forall] at meets
            obtain ⟨root, found, listed⟩ := meets
            obtain ⟨more, events⟩ := TableCall.events_construct found listed
            rw [events]
            rintro ⟨_, nested, _⟩
            cases nested
        | _ => exact absurd trivial meets

/-- The events of a client are about the tables that its calls name. -/
theorem fileId_of_eventsOf {store : PageStore} {calls : List (FileId × TableCall)}
    (meets : FindNoPages store calls) :
    ∀ event ∈ eventsOf store calls, event.fileId ∈ calls.map Prod.fst := by
  induction calls generalizing store with
  | nil =>
      intro event member
      cases member
  | cons named calls ih =>
      obtain ⟨fileId, call⟩ := named
      intro event member
      rw [List.map_cons, List.mem_cons]
      rw [eventsOf, List.mem_append] at member
      obtain ⟨meets, later⟩ := meets
      obtain here | there := member
      · obtain ⟨scopes, isScopes, whole | ⟨pageId, failure, cut, _⟩⟩ := TableCall.flat_trace meets
        · exact .inl (isScopes.fileId_of_mem (whole ▸ here))
        · rw [cut, List.mem_append, List.mem_singleton] at here
          obtain inside | rfl := here
          · exact .inl (isScopes.fileId_of_mem inside)
          · exact .inl rfl
      · cases isResult : (call.trace store fileId).result with
        | error failure =>
            rw [isResult] at there
            cases there
        | ok store' =>
            rw [isResult] at there later
            exact .inr (ih later event there)

end Yadb
