/-
**Clients that insert rows at the same time.**

Any number of clients in `insert_row` on one table, with the sections of `DiskTable` (what happens
under one page lock, and `AllocatePage`) as their steps, in any order.

* `InsertStep`: what a step of a client does to the content of the table.
* `Kept`: the invariant while every new page is linked where the list ends: the pages are on the
  list but for those that are not linked yet.
* `Lost`: a page that was on the list, and that no link leads to any more; it stays so.
* `insertsKept_iff`: when all calls have returned, a scan yields every row exactly if every page was
  linked where the list still ended.
-/

import Yadb.Foundation.Fallible
import Yadb.Storage.Table.Refinement

namespace Yadb

open Foundation

/-- Where a client is in `insert_row`. -/
inductive InsertPhase
  | reading
  | walking (lastPartialId nextPageId : PageId)
  | allocating (lastPartialId : PageId)
  | filling (lastPartialId newPageId : PageId)
  | linking (lastPartialId newPageId : PageId) (rowId : RowId)
  | returned (rowId : RowId)
  | failed (failure : TableFailure)
  deriving DecidableEq

namespace InsertPhase

/-- The loop condition of the walk. -/
def walkTo (lastPartialId nextPageId : PageId) : InsertPhase :=
  if nextPageId = nullPageId then allocating lastPartialId else walking lastPartialId nextPageId

/-- The page of the client that is not linked yet. -/
def pending : InsertPhase → Option PageId
  | filling _ new | linking _ new _ => some new
  | _ => none

/-- The page after which the client links its page. -/
def ended : InsertPhase → Option PageId
  | allocating last | filling last _ | linking last _ _ => some last
  | _ => none

/-- The row id of the row, once it is written. -/
def written : InsertPhase → Option RowId
  | linking _ _ rowId | returned rowId => some rowId
  | _ => none

end InsertPhase

/-- The pages of the table, and the clients. -/
structure Inserting (k : Nat) where
  store : PageStore
  phases : Fin k → InsertPhase

/-- A turn of a client, with the page that the disk would hand out. -/
structure InsertOp (k : Nat) where
  client : Fin k
  fresh : FreshPage

namespace Inserting

variable {k : Nat}

open DiskTable InsertPhase

def moved (state : Inserting k) (client : Fin k) (store : PageStore) (phase : InsertPhase) :
    Inserting k :=
  ⟨store, Function.update state.phases client phase⟩

/-- What the section that a client has come to does. -/
def sectionOf (fileId : FileId) (row : List UInt8) (store : PageStore) (fresh : FreshPage) :
    InsertPhase → Except TableFailure (InsertPhase × PageStore)
  | .reading => do
      let nextPageId ← readPartialHead store fileId
      return (walkTo nullPageId nextPageId, store)
  | .walking _ nextPageId => do
      match ← tryPage store fileId nextPageId row with
      | (.inserted rowId, store) => return (.returned rowId, store)
      | (.full following, store) => return (walkTo nextPageId following, store)
  | .allocating last => do
      let (newPageId, store) ← allocatePage store fileId fresh
      return (.filling last newPageId, store)
  | .filling last newPageId => do
      let (rowId, store) ← fillNewPage store fileId newPageId row
      return (.linking last newPageId rowId, store)
  | .linking last newPageId rowId => do
      let store ← linkPage store fileId last newPageId
      return (.returned rowId, store)
  | phase => return (phase, store)

def step (fileId : FileId) (rows : Fin k → List UInt8) (state : Inserting k) (op : InsertOp k) :
    Inserting k :=
  match sectionOf fileId (rows op.client) state.store op.fresh (state.phases op.client) with
  | .ok (phase, store) => state.moved op.client store phase
  | .error failure => state.moved op.client state.store (.failed failure)

/-- Where the link is that a client is about to write: the root's list head, or a page's next
page. -/
def linkFrom (store : PageStore) (fileId : FileId) (last : PageId) : Option PageId :=
  if last = nullPageId then
    (store.pages ⟨fileId, rootPageId⟩).map HeapPage.getPartialPagesHead
  else (store.pages ⟨fileId, last⟩).map HeapPage.getNextPage

/-- A client that links its page finds the end of the list where it saw it. -/
def LinksAtEnd (fileId : FileId) (state : Inserting k) (op : InsertOp k) : Prop :=
  match state.phases op.client with
  | .linking last _ _ => linkFrom state.store fileId last = some nullPageId
  | _ => True

instance (fileId : FileId) (state : Inserting k) (op : InsertOp k) :
    Decidable (LinksAtEnd fileId state op) := by
  unfold LinksAtEnd
  split <;> infer_instance

/-- All calls have returned. -/
def AllReturned (state : Inserting k) : Prop :=
  ∀ client, ∃ rowId, state.phases client = .returned rowId

/-- A scan yields the rows that the table had and the inserted ones, each under its own row id. -/
structure InsertsKept (fileId : FileId) (rows : Fin k → List UInt8)
    (before : RowId → Option (List UInt8)) (state : Inserting k) : Prop where
  distinct : ∀ client other rowId, state.phases client = .returned rowId →
    state.phases other = .returned rowId → client = other
  new : ∀ client rowId, state.phases client = .returned rowId → before rowId = none
  scan : ∃ scanned, DiskTableIterator.scan state.store fileId = .ok scanned ∧
    (scanned.map Row.rowId).Nodup ∧ ∀ row, row ∈ scanned ↔ before row.rowId = some row.data ∨
      ∃ client, state.phases client = .returned row.rowId ∧ rows client = row.data

end Inserting

def insertMachine {k : Nat} (fileId : FileId) (rows : Fin k → List UInt8) :
    Machine (Inserting k) (InsertOp k) Unit :=
  ⟨fun state op => ((), state.step fileId rows op)⟩

namespace Inserting

open DiskTable InsertPhase

variable {k : Nat} {fileId : FileId} {rows : Fin k → List UInt8} {state state' : Inserting k}
  {table table' : TableContent} {client : Fin k}

/-! ### What a step can do -/

/-- The pages that a client has in hand are pages of the file. -/
def PhaseKnown (fileId : FileId) (store : PageStore) (table : TableContent) : InsertPhase → Prop
  | .walking last next => (last = nullPageId ∨ table.heap last ≠ none) ∧ table.heap next ≠ none
  | .allocating last => last = nullPageId ∨ table.heap last ≠ none
  | .filling last new => (last = nullPageId ∨ table.heap last ≠ none) ∧
      store.pages ⟨fileId, new⟩ ≠ none ∧ new ≠ rootPageId ∧ new ≠ nullPageId
  | .linking last new _ => (last = nullPageId ∨ table.heap last ≠ none) ∧ table.heap new ≠ none
  | _ => True

structure Known (fileId : FileId) (state : Inserting k) (table : TableContent) : Prop where
  file : TableFile state.store fileId table
  phases : ∀ client, PhaseKnown fileId state.store table (state.phases client)
  closed : ∀ pageId next, table.link pageId = some next → next = nullPageId ∨ table.heap next ≠ none

/-- **What a step of a client does.** -/
inductive InsertStep (fileId : FileId) (rows : Fin k → List UInt8) (state : Inserting k)
    (table : TableContent) (client : Fin k) : Inserting k → TableContent → Prop
  | idle : (∀ last new rowId, state.phases client ≠ .linking last new rowId) →
      InsertStep fileId rows state table client state table
  | reads : state.phases client = .reading →
      InsertStep fileId rows state table client
        (state.moved client state.store (walkTo nullPageId table.head)) table
  | walks (last next : PageId) (content : HeapPage.Content) :
      state.phases client = .walking last next → table.heap next = some content →
      InsertStep fileId rows state table client
        (state.moved client state.store (walkTo next content.next)) table
  | inserts (last next : PageId) (content : HeapPage.Content) (store : PageStore) :
      state.phases client = .walking last next → table.heap next = some content →
      TableFile store fileId (table.setPage next (content.insert (rows client))) →
      SamePages fileId state.store store →
      InsertStep fileId rows state table client
        (state.moved client store (.returned (makeRowId next (UInt16.ofNat content.count))))
        (table.setPage next (content.insert (rows client)))
  | outOfPages (last : PageId) (failure : TableFailure) : state.phases client = .allocating last →
      InsertStep fileId rows state table client (state.moved client state.store (.failed failure)) table
  | allocates (last new : PageId) (store : PageStore) (bytes : FullPage) :
      state.phases client = .allocating last → state.store.pages ⟨fileId, new⟩ = none →
      new ≠ nullPageId → TableFile store fileId table →
      store.pages = Function.update state.store.pages ⟨fileId, new⟩ (some bytes) →
      InsertStep fileId rows state table client (state.moved client store (.filling last new)) table
  | fills (last new : PageId) (store : PageStore) : state.phases client = .filling last new →
      TableFile store fileId (table.setPage new (HeapPage.Content.empty.insert (rows client))) →
      SamePages fileId state.store store →
      InsertStep fileId rows state table client
        (state.moved client store (.linking last new (makeRowId new 0)))
        (table.setPage new (HeapPage.Content.empty.insert (rows client)))
  | links (last new : PageId) (rowId : RowId) (store : PageStore) :
      state.phases client = .linking last new rowId →
      TableFile store fileId (table.setLink last new) → SamePages fileId state.store store →
      InsertStep fileId rows state table client (state.moved client store (.returned rowId))
        (table.setLink last new)

theorem moved_self (state : Inserting k) (client : Fin k) :
    state.moved client state.store (state.phases client) = state := by
  rw [moved, Function.update_eq_self]

/-- **Every step is one of these.** -/
theorem step_cases (known : Known fileId state table) (op : InsertOp k)
    (fits : FitsFreshPage (rows op.client)) :
    ∃ table', InsertStep fileId rows state table op.client (state.step fileId rows op) table' := by
  unfold step
  cases isPhase : state.phases op.client with
  | reading =>
      rw [sectionOf, known.file.readPartialHead_spec]
      exact ⟨table, .reads isPhase⟩
  | walking last next =>
      have inHand := known.phases op.client
      rw [isPhase] at inHand
      obtain ⟨content, found⟩ := Option.ne_none_iff_exists'.mp inHand.2
      rw [sectionOf]
      rcases known.file.tryPage_spec found fits.short with
        ⟨_, run⟩ | ⟨_, store, run, file, same⟩
      · rw [run]
        exact ⟨table, .walks last next content isPhase found⟩
      · rw [run]
        exact ⟨_, .inserts last next content store isPhase found file same⟩
  | allocating last =>
      rw [sectionOf]
      rcases known.file.allocatePage_spec op.fresh with
        ⟨error, run⟩ | ⟨store, run, noPage, notNull, file, pages⟩
      · rw [run]
        exact ⟨table, .outOfPages last _ isPhase⟩
      · rw [run]
        exact ⟨table, .allocates last _ store _ isPhase noPage notNull file pages⟩
  | filling last new =>
      have inHand := known.phases op.client
      rw [isPhase] at inHand
      obtain ⟨_, allocated, notRoot, _⟩ := inHand
      obtain ⟨store, run, file, same⟩ := known.file.fillNewPage_spec allocated notRoot fits
      rw [sectionOf, run]
      exact ⟨_, .fills last new store isPhase file same⟩
  | linking last new rowId =>
      have inHand := known.phases op.client
      rw [isPhase] at inHand
      obtain ⟨store, run, file, same⟩ := known.file.linkPage_spec new inHand.1
      rw [sectionOf, run]
      exact ⟨_, .links last new rowId store isPhase file same⟩
  | returned rowId =>
      have stays := moved_self state op.client
      rw [isPhase] at stays
      refine ⟨table, ?_⟩
      show InsertStep fileId rows state table op.client
        (state.moved op.client state.store (.returned rowId)) table
      rw [stays]
      exact .idle (by rw [isPhase]; exact nofun)
  | failed failure =>
      have stays := moved_self state op.client
      rw [isPhase] at stays
      refine ⟨table, ?_⟩
      show InsertStep fileId rows state table op.client
        (state.moved op.client state.store (.failed failure)) table
      rw [stays]
      exact .idle (by rw [isPhase]; exact nofun)

/-- The content of a page is written or linked; no page goes. -/
theorem heap_step (step : InsertStep fileId rows state table client state' table')
    {pageId : PageId} (isHeap : table.heap pageId ≠ none) : table'.heap pageId ≠ none := by
  have onPage : ∀ written content, (table.setPage written content).heap pageId ≠ none := by
    intro written content
    rw [TableContent.heap_setPage]
    by_cases same : pageId = written
    · rw [same, Function.update_self]
      exact nofun
    · rw [Function.update_of_ne same]
      exact isHeap
  cases step with
  | inserts _ _ _ _ _ _ _ _ => exact onPage _ _
  | fills _ _ _ _ _ _ => exact onPage _ _
  | links _ _ _ _ _ _ _ => exact fun absent => isHeap (TableContent.heap_setLink_eq_none.mp absent)
  | _ => exact isHeap

theorem pages_step (step : InsertStep fileId rows state table client state' table')
    {pageId : PageId} (allocated : state.store.pages ⟨fileId, pageId⟩ ≠ none) :
    state'.store.pages ⟨fileId, pageId⟩ ≠ none := by
  cases step with
  | inserts _ _ _ _ _ _ _ same => exact fun absent => allocated ((same pageId).mp absent)
  | fills _ _ _ _ _ same => exact fun absent => allocated ((same pageId).mp absent)
  | links _ _ _ _ _ _ same => exact fun absent => allocated ((same pageId).mp absent)
  | allocates last new store bytes _ _ _ _ pages =>
      show store.pages ⟨fileId, pageId⟩ ≠ none
      rw [pages]
      by_cases same : (⟨fileId, pageId⟩ : FilePageId) = ⟨fileId, new⟩
      · rw [same, Function.update_self]
        exact nofun
      · rw [Function.update_of_ne same]
        exact allocated
  | _ => exact allocated

theorem PhaseKnown.step {phase : InsertPhase}
    (step : InsertStep fileId rows state table client state' table')
    (known : PhaseKnown fileId state.store table phase) :
    PhaseKnown fileId state'.store table' phase := by
  cases phase with
  | walking last next => exact ⟨known.1.imp_right (heap_step step), heap_step step known.2⟩
  | allocating last => exact Or.imp_right (heap_step step) known
  | filling last new =>
      exact ⟨known.1.imp_right (heap_step step), pages_step step known.2.1, known.2.2⟩
  | linking last new rowId => exact ⟨known.1.imp_right (heap_step step), heap_step step known.2⟩
  | _ => trivial

theorem phases_moved_self (store : PageStore) (phase : InsertPhase) :
    (state.moved client store phase).phases client = phase := Function.update_self ..

theorem phases_moved_ne {store : PageStore} {phase : InsertPhase} {other : Fin k}
    (differs : other ≠ client) : (state.moved client store phase).phases other = state.phases other :=
  Function.update_of_ne differs ..

/-- The phases after a move: one is new, the others are as before. -/
theorem phases_moved {P : Fin k → InsertPhase → Prop} {store : PageStore} {phase : InsertPhase}
    (here : P client phase) (there : ∀ other, other ≠ client → P other (state.phases other)) :
    ∀ other, P other ((state.moved client store phase).phases other) := by
  intro other
  by_cases same : other = client
  · subst same
    simp only [moved, Function.update_self]
    exact here
  · simp only [moved, Function.update_of_ne same]
    exact there other same

theorem phaseKnown_walkTo {store : PageStore} {last next : PageId}
    (knownLast : last = nullPageId ∨ table.heap last ≠ none)
    (knownNext : next = nullPageId ∨ table.heap next ≠ none) :
    PhaseKnown fileId store table (walkTo last next) := by
  unfold walkTo
  by_cases ended : next = nullPageId
  · rw [if_pos ended]
    exact knownLast
  · rw [if_neg ended]
    exact ⟨knownLast, knownNext.resolve_left ended⟩

theorem link_of_heap {pageId : PageId} {content : HeapPage.Content} (notNull : pageId ≠ nullPageId)
    (found : table.heap pageId = some content) : table.link pageId = some content.next := by
  rw [TableContent.link, if_neg notNull, found]
  rfl

/-- **The links after a step**: a page that was filled ends its list, a page that was linked follows
the last one seen, and every other link is as it was. -/
theorem link_step (known : Known fileId state table)
    (step : InsertStep fileId rows state table client state' table') :
    table'.link = table.link ∨
      (∃ last new, state.phases client = .filling last new ∧
        table'.link = Function.update table.link new (some nullPageId)) ∨
      ∃ last new rowId, state.phases client = .linking last new rowId ∧
        table'.link = Function.update table.link last (some new) := by
  have inHand := known.phases client
  cases step with
  | inserts last next content store _ found _ _ => exact .inl (TableContent.link_setPage found rfl)
  | fills last new store isPhase _ _ =>
      rw [isPhase] at inHand
      refine .inr (.inl ⟨last, new, isPhase, ?_⟩)
      funext pageId
      by_cases same : pageId = new
      · rw [same, Function.update_self]
        exact TableContent.link_setPage_self _ inHand.2.2.2
      · rw [Function.update_of_ne same]
        exact TableContent.link_setPage_of_ne _ same
  | links last new rowId store isPhase _ _ =>
      rw [isPhase] at inHand
      exact .inr (.inr ⟨last, new, rowId, isPhase, TableContent.link_setLink inHand.1⟩)
  | _ => exact .inl rfl

/-- **A step keeps what the clients know.** -/
theorem Known.step (known : Known fileId state table)
    (step : InsertStep fileId rows state table client state' table') :
    Known fileId state' table' := by
  have others : ∀ other, PhaseKnown fileId state'.store table' (state.phases other) :=
    fun other => (known.phases other).step step
  have inHand := known.phases client
  have after := others client
  refine ⟨?_, ?_, ?_⟩
  · cases step with
    | inserts _ _ _ _ _ _ file _ => exact file
    | allocates _ _ _ _ _ _ _ file _ => exact file
    | fills _ _ _ _ file _ => exact file
    | links _ _ _ _ _ file _ => exact file
    | _ => exact known.file
  · cases step with
    | idle => exact known.phases
    | reads isPhase =>
        exact phases_moved (phaseKnown_walkTo (.inl rfl)
          (known.closed _ _ (TableContent.link_null table)))
          fun other _ => others other
    | walks last next content isPhase found =>
        rw [isPhase] at inHand
        have notNull := known.file.notNull found
        exact phases_moved (phaseKnown_walkTo (.inr inHand.2)
          (known.closed _ _ (link_of_heap notNull found))) fun other _ => others other
    | inserts last next content store isPhase found _ _ =>
        exact phases_moved trivial fun other _ => others other
    | outOfPages last failure isPhase => exact phases_moved trivial fun other _ => others other
    | allocates last new store bytes isPhase noPage notNull file pages =>
        rw [isPhase] at inHand
        refine phases_moved ⟨inHand, ?_, (known.file.absent noPage).2, notNull⟩
          fun other _ => others other
        show store.pages ⟨fileId, new⟩ ≠ none
        rw [pages, Function.update_self]
        exact nofun
    | fills last new store isPhase _ _ =>
        rw [isPhase] at after
        refine phases_moved ⟨after.1, ?_⟩ fun other _ => others other
        rw [TableContent.heap_setPage, Function.update_self]
        exact nofun
    | links last new rowId store isPhase _ _ => exact phases_moved trivial fun other _ => others other
  · intro pageId next isNext
    obtain same | ⟨last, new, _, links⟩ | ⟨last, new, rowId, isPhase, links⟩ := link_step known step
    · rw [same] at isNext
      exact (known.closed pageId next isNext).imp_right (heap_step step)
    · rw [links] at isNext
      by_cases isNew : pageId = new
      · rw [isNew, Function.update_self, Option.some.injEq] at isNext
        exact .inl isNext.symm
      · rw [Function.update_of_ne isNew] at isNext
        exact (known.closed pageId next isNext).imp_right (heap_step step)
    · rw [links] at isNext
      by_cases isLast : pageId = last
      · rw [isLast, Function.update_self, Option.some.injEq] at isNext
        rw [isPhase] at after
        exact .inr (isNext ▸ after.2)
      · rw [Function.update_of_ne isLast] at isNext
        exact (known.closed pageId next isNext).imp_right (heap_step step)

/-! ### The rows -/

/-- The rows of the table are those it had and those that were written, under ids of their own. -/
structure RowsShown (rows : Fin k → List UInt8) (before : RowId → Option (List UInt8))
    (phases : Fin k → InsertPhase) (table : TableContent) : Prop where
  shown : ∀ pageId slotId data, table.lookup (makeRowId pageId slotId) = some data ↔
    before (makeRowId pageId slotId) = some data ∨
      ∃ client, (phases client).written = some (makeRowId pageId slotId) ∧ rows client = data
  new : ∀ client rowId, (phases client).written = some rowId →
    before rowId = none ∧ ∃ pageId slotId, rowId = makeRowId pageId slotId
  distinct : ∀ client other rowId, (phases client).written = some rowId →
    (phases other).written = some rowId → client = other
  formed : ∀ rowId, before rowId ≠ none → ∃ pageId slotId, rowId = makeRowId pageId slotId

variable {before : RowId → Option (List UInt8)} {phases : Fin k → InsertPhase} {phase : InsertPhase}

theorem written_update (same : phase.written = (phases client).written) (other : Fin k) :
    (Function.update phases client phase other).written = (phases other).written := by
  by_cases isClient : other = client
  · rw [isClient, Function.update_self, same]
  · rw [Function.update_of_ne isClient]

/-- No row is written. -/
theorem RowsShown.keep (shown : RowsShown rows before phases table)
    (same : phase.written = (phases client).written)
    (lookup : ∀ rowId, table'.lookup rowId = table.lookup rowId) :
    RowsShown rows before (Function.update phases client phase) table' := by
  refine ⟨fun pageId slotId data => ?_, fun other rowId isWritten => ?_,
    fun first second rowId isFirst isSecond => ?_, shown.formed⟩
  · rw [lookup]
    refine (shown.shown pageId slotId data).trans (or_congr_right (exists_congr fun other => ?_))
    rw [written_update same]
  · rw [written_update same] at isWritten
    exact shown.new other rowId isWritten
  · rw [written_update same] at isFirst isSecond
    exact shown.distinct first second rowId isFirst isSecond

/-- **A client writes its row** under an id that had none. -/
theorem RowsShown.write (shown : RowsShown rows before phases table) {pageId : PageId}
    {slotId : SlotId} (notYet : (phases client).written = none)
    (isWritten : phase.written = some (makeRowId pageId slotId))
    (unused : table.lookup (makeRowId pageId slotId) = none)
    (lookup : ∀ otherPage otherSlot, table'.lookup (makeRowId otherPage otherSlot)
      = Function.update table.lookup (makeRowId pageId slotId) (some (rows client))
        (makeRowId otherPage otherSlot)) :
    RowsShown rows before (Function.update phases client phase) table' := by
  have noOld : before (makeRowId pageId slotId) = none := by
    refine Option.eq_none_iff_forall_ne_some.mpr fun data old => ?_
    rw [(shown.shown pageId slotId data).mpr (.inl old)] at unused
    cases unused
  have noOther : ∀ other, (phases other).written ≠ some (makeRowId pageId slotId) := by
    intro other already
    rw [(shown.shown pageId slotId (rows other)).mpr (.inr ⟨other, already, rfl⟩)] at unused
    cases unused
  refine ⟨fun otherPage otherSlot data => ?_, fun other rowId written => ?_,
    fun first second rowId isFirst isSecond => ?_, shown.formed⟩
  · rw [lookup]
    by_cases same : makeRowId otherPage otherSlot = makeRowId pageId slotId
    · rw [same, Function.update_self, Option.some.injEq, noOld]
      constructor
      · intro isRow
        exact .inr ⟨client, by rw [Function.update_self, isWritten], isRow⟩
      · rintro (old | ⟨other, written, isRow⟩)
        · cases old
        · by_cases isClient : other = client
          · exact isClient ▸ isRow
          · rw [Function.update_of_ne isClient] at written
            exact absurd written (noOther other)
    · rw [Function.update_of_ne same, shown.shown]
      refine or_congr_right (exists_congr fun other => and_congr_left fun _ => ?_)
      by_cases isClient : other = client
      · rw [isClient, Function.update_self, notYet, isWritten, Option.some.injEq]
        exact iff_of_false nofun fun equal => same equal.symm
      · rw [Function.update_of_ne isClient]
  · by_cases isClient : other = client
    · rw [isClient, Function.update_self, isWritten, Option.some.injEq] at written
      exact ⟨written ▸ noOld, pageId, slotId, written.symm⟩
    · rw [Function.update_of_ne isClient] at written
      exact shown.new other rowId written
  · by_cases firstClient : first = client
    · by_cases secondClient : second = client
      · rw [firstClient, secondClient]
      · rw [firstClient, Function.update_self, isWritten] at isFirst
        rw [Function.update_of_ne secondClient, ← isFirst] at isSecond
        exact absurd isSecond (noOther second)
    · rw [Function.update_of_ne firstClient] at isFirst
      by_cases secondClient : second = client
      · rw [secondClient, Function.update_self, isWritten] at isSecond
        rw [← isSecond] at isFirst
        exact absurd isFirst (noOther first)
      · rw [Function.update_of_ne secondClient] at isSecond
        exact shown.distinct first second rowId isFirst isSecond

theorem written_walkTo (last next : PageId) : (walkTo last next).written = none := by
  unfold walkTo
  by_cases ended : next = nullPageId
  · rw [if_pos ended]
    rfl
  · rw [if_neg ended]
    rfl

/-- The slot that an insertion on a page takes had no row. -/
theorem lookup_nextSlot (file : TableFile state.store fileId table) {pageId : PageId}
    {content : HeapPage.Content} (found : table.heap pageId = some content) :
    table.lookup (makeRowId pageId (UInt16.ofNat content.count)) = none := by
  obtain ⟨page, _, shows_⟩ := file.heap pageId content found
  rw [TableContent.lookup_heap found]
  exact shows_.nextSlot.2

/-- **A step keeps the rows.** -/
theorem RowsShown.step (shown : RowsShown rows before state.phases table)
    (known : Known fileId state table)
    (step : InsertStep fileId rows state table client state' table')
    (unfilled : ∀ last new, state.phases client = .filling last new → table.heap new = none) :
    RowsShown rows before state'.phases table' := by
  cases step with
  | idle => exact shown
  | reads isPhase =>
      refine shown.keep ?_ fun _ => rfl
      rw [isPhase]
      exact written_walkTo _ _
  | walks last next content isPhase found =>
      refine shown.keep ?_ fun _ => rfl
      rw [isPhase]
      exact written_walkTo _ _
  | inserts last next content store isPhase found _ _ =>
      refine shown.write (by rw [isPhase]; rfl) rfl (lookup_nextSlot known.file found) ?_
      exact TableContent.lookup_setPage (TableContent.lookup_heap found) rfl
  | outOfPages last failure isPhase =>
      refine shown.keep ?_ fun _ => rfl
      rw [isPhase]
      rfl
  | allocates last new store bytes isPhase _ _ _ _ =>
      refine shown.keep ?_ fun _ => rfl
      rw [isPhase]
      rfl
  | fills last new store isPhase _ _ =>
      have absent := unfilled last new isPhase
      refine shown.write (by rw [isPhase]; rfl) rfl (TableContent.lookup_noHeap absent 0) ?_
      exact TableContent.lookup_setPage (TableContent.lookup_noHeap absent) rfl
  | links last new rowId store isPhase _ _ =>
      refine shown.keep ?_ (TableContent.lookup_setLink last new)
      rw [isPhase]
      rfl

/-! ### The list -/

/-- What a client has in hand, against the pages of the list. -/
def PhaseKept (table : TableContent) (pages : List PageId) : InsertPhase → Prop
  | .walking last next => (last = nullPageId ∨ last ∈ pages) ∧ next ∈ pages
  | .allocating last => last = nullPageId ∨ last ∈ pages
  | .filling last new => (last = nullPageId ∨ last ∈ pages) ∧ table.heap new = none
  | .linking last new rowId => (last = nullPageId ∨ last ∈ pages) ∧ new ∉ pages ∧
      new ≠ nullPageId ∧ table.link new = some nullPageId ∧ getPageIdFromRowId rowId = new
  | _ => True

/-- The list ends at the page, or a client has linked its page after it. -/
def EndsOrLinked (phases : Fin k → InsertPhase) (table : TableContent) (last : PageId) : Prop :=
  table.link last = some nullPageId ∨ ∃ client rowId, phases client = .returned rowId ∧
    table.link last = some (getPageIdFromRowId rowId)

/-- **The invariant** of the clients while every page is linked where the list ends. -/
structure Kept (fileId : FileId) (rows : Fin k → List UInt8)
    (before : RowId → Option (List UInt8)) (state : Inserting k) (table : TableContent)
    (pages : List PageId) : Prop where
  known : Known fileId state table
  chain : Chain table.link nullPageId table.head pages
  all : ∀ pageId, table.heap pageId ≠ none → pageId ∈ pages ∨
    ∃ client last rowId, state.phases client = .linking last pageId rowId
  phases : ∀ client, PhaseKept table pages (state.phases client)
  apart : ∀ client other new, (state.phases client).pending = some new →
    (state.phases other).pending = some new → client = other
  ended : ∀ client last, (state.phases client).ended = some last →
    EndsOrLinked state.phases table last
  rows : RowsShown rows before state.phases table

variable {pages : List PageId}

theorem heap_of_mem (chain : Chain table.link nullPageId table.head pages) {pageId : PageId}
    (member : pageId ∈ pages) : pageId ≠ nullPageId ∧ table.heap pageId ≠ none := by
  obtain ⟨following, link, _⟩ := chain.next_isSome member
  have notNull : pageId ≠ nullPageId := fun same => chain.null_notMem (same ▸ member)
  rw [TableContent.link, if_neg notNull] at link
  refine ⟨notNull, fun absent => ?_⟩
  rw [absent] at link
  cases link

theorem PhaseKept.onList {phase : InsertPhase} (kept : PhaseKept table pages phase) {last : PageId}
    (isEnded : phase.ended = some last) : last = nullPageId ∨ last ∈ pages := by
  cases phase with
  | allocating other =>
      cases isEnded
      exact kept
  | filling other new =>
      cases isEnded
      exact kept.1
  | linking other new rowId =>
      cases isEnded
      exact kept.1
  | _ => cases isEnded

/-- The new page of one client is that of no other. -/
theorem Kept.unpending (kept : Kept fileId rows before state table pages) {new : PageId}
    (isPending : (state.phases client).pending = some new) {other : Fin k} (differs : other ≠ client) :
    (state.phases other).pending ≠ some new :=
  fun also => differs (kept.apart other client new also isPending)

/-- A page at which a search ended still ends the list, or is linked to a page with a row, after a
client that has not returned went on. -/
theorem EndsOrLinked.moved {page : PageId} (ends : EndsOrLinked state.phases table page)
    (goesOn : ∀ rowId, state.phases client ≠ .returned rowId) (store : PageStore) (phase : InsertPhase)
    (sameLink : table'.link page = table.link page) :
    EndsOrLinked (state.moved client store phase).phases table' page := by
  unfold EndsOrLinked
  rw [sameLink]
  refine ends.imp_right ?_
  rintro ⟨other, rowId, isReturned, link⟩
  have differs : other ≠ client := by
    rintro rfl
    exact goesOn rowId isReturned
  exact ⟨other, rowId, (phases_moved_ne differs).trans isReturned, link⟩

/-- **A step that changes no link and adds no page.** -/
theorem Kept.move (kept : Kept fileId rows before state table pages) {store : PageStore}
    {phase : InsertPhase} (known : Known fileId (state.moved client store phase) table')
    (shown : RowsShown rows before (state.moved client store phase).phases table')
    (links : table'.link = table.link)
    (heap : ∀ pageId, table'.heap pageId = none ↔ table.heap pageId = none)
    (notLinking : ∀ last new rowId, state.phases client ≠ .linking last new rowId)
    (notReturned : ∀ rowId, state.phases client ≠ .returned rowId)
    (phaseKept : PhaseKept table pages phase)
    (unpending : ∀ new other, phase.pending = some new → other ≠ client →
      (state.phases other).pending ≠ some new)
    (ends : ∀ last, phase.ended = some last → EndsOrLinked state.phases table last) :
    Kept fileId rows before (state.moved client store phase) table' pages := by
  have sameHead : table'.head = table.head := by
    have heads := congrFun links nullPageId
    rwa [TableContent.link_null, TableContent.link_null, Option.some.injEq] at heads
  have phaseSame : ∀ phase, PhaseKept table pages phase → PhaseKept table' pages phase := by
    intro phase kept
    cases phase with
    | filling last new => exact ⟨kept.1, (heap new).mpr kept.2⟩
    | linking last new rowId =>
        exact ⟨kept.1, kept.2.1, kept.2.2.1, (congrFun links new).trans kept.2.2.2.1, kept.2.2.2.2⟩
    | _ => exact kept
  have endsSame : ∀ last, EndsOrLinked state.phases table last →
      EndsOrLinked (state.moved client store phase).phases table' last :=
    fun last ends => ends.moved notReturned store phase (congrFun links last)
  refine ⟨known, ?_, ?_, ?_, ?_, ?_, shown⟩
  · rw [links, sameHead]
    exact kept.chain
  · intro pageId isHeap
    refine (kept.all pageId (mt (heap pageId).mpr isHeap)).imp_right ?_
    rintro ⟨other, last, rowId, isLinking⟩
    refine ⟨other, last, rowId, ?_⟩
    have differs : other ≠ client := by
      rintro rfl
      exact notLinking _ _ _ isLinking
    rw [phases_moved_ne differs]
    exact isLinking
  · exact phases_moved (phaseSame phase phaseKept) fun other _ => phaseSame _ (kept.phases other)
  · intro first second new isFirst isSecond
    by_cases firstClient : first = client
    · by_cases secondClient : second = client
      · rw [firstClient, secondClient]
      · rw [firstClient, phases_moved_self] at isFirst
        rw [phases_moved_ne secondClient] at isSecond
        exact absurd isSecond (unpending new second isFirst secondClient)
    · rw [phases_moved_ne firstClient] at isFirst
      by_cases secondClient : second = client
      · rw [secondClient, phases_moved_self] at isSecond
        exact absurd isFirst (unpending new first isSecond firstClient)
      · rw [phases_moved_ne secondClient] at isSecond
        exact kept.apart first second new isFirst isSecond
  · intro other
    refine phases_moved (P := fun _ phase => ∀ last, phase.ended = some last → EndsOrLinked _ table' last)
      (fun last isEnded => endsSame last (ends last isEnded))
      (fun other _ last isEnded => endsSame last (kept.ended other last isEnded)) other

theorem phaseKept_walkTo {last next : PageId} (lastKept : last = nullPageId ∨ last ∈ pages)
    (nextKept : next = nullPageId ∨ next ∈ pages) : PhaseKept table pages (walkTo last next) := by
  unfold walkTo
  by_cases isNull : next = nullPageId
  · rw [if_pos isNull]
    exact lastKept
  · rw [if_neg isNull]
    exact ⟨lastKept, nextKept.resolve_left isNull⟩

theorem pending_walkTo (last next : PageId) : (walkTo last next).pending = none := by
  unfold walkTo
  by_cases isNull : next = nullPageId
  · rw [if_pos isNull]
    rfl
  · rw [if_neg isNull]
    rfl

theorem ended_walkTo {last next other : PageId} (isEnded : (walkTo last next).ended = some other) :
    other = last ∧ next = nullPageId := by
  unfold walkTo at isEnded
  by_cases isNull : next = nullPageId
  · rw [if_pos isNull] at isEnded
    cases isEnded
    exact ⟨rfl, isNull⟩
  · rw [if_neg isNull] at isEnded
    cases isEnded

theorem chain_start (chain : Chain table.link nullPageId table.head pages) :
    table.head = nullPageId ∨ table.head ∈ pages := by
  cases pages with
  | nil => exact .inl chain
  | cons first rest => exact .inr (chain.1 ▸ List.mem_cons_self)

/-- **A new page is filled.** -/
theorem Kept.fill (kept : Kept fileId rows before state table pages) {last new : PageId}
    {store : PageStore} (isPhase : state.phases client = .filling last new)
    (known : Known fileId (state.moved client store (.linking last new (makeRowId new 0)))
      (table.setPage new (HeapPage.Content.empty.insert (rows client))))
    (shown : RowsShown rows before
      (state.moved client store (.linking last new (makeRowId new 0))).phases
      (table.setPage new (HeapPage.Content.empty.insert (rows client)))) :
    Kept fileId rows before (state.moved client store (.linking last new (makeRowId new 0)))
      (table.setPage new (HeapPage.Content.empty.insert (rows client))) pages := by
  have inHand := kept.phases client
  have isFile := kept.known.phases client
  rw [isPhase] at inHand isFile
  obtain ⟨onList, absent⟩ := inHand
  obtain ⟨_, _, _, notNull⟩ := isFile
  have outside : new ∉ pages := fun member => (heap_of_mem kept.chain member).2 absent
  have notLast : ∀ {last : PageId}, last = nullPageId ∨ last ∈ pages → last ≠ new := by
    rintro last (rfl | member) rfl
    · exact notNull rfl
    · exact outside member
  have linkSame : ∀ other, other ≠ new → (table.setPage new
      (HeapPage.Content.empty.insert (rows client))).link other = table.link other :=
    fun other differs => TableContent.link_setPage_of_ne _ differs
  have pending : (state.phases client).pending = some new := by
    rw [isPhase]
    rfl
  have goesOn : ∀ rowId, state.phases client ≠ .returned rowId := by
    intro rowId isReturned
    cases isPhase.symm.trans isReturned
  have endsSame : ∀ page, (page = nullPageId ∨ page ∈ pages) → EndsOrLinked state.phases table page →
      EndsOrLinked (state.moved client store (.linking last new (makeRowId new 0))).phases
        (table.setPage new (HeapPage.Content.empty.insert (rows client))) page := by
    intro page isListed ends
    exact ends.moved goesOn _ _ (linkSame page (notLast isListed))
  refine ⟨known, TableContent.chain_setPage kept.chain _ outside, ?_, ?_, ?_, ?_, shown⟩
  · intro pageId isHeap
    by_cases isNew : pageId = new
    · subst isNew
      exact .inr ⟨client, last, _, phases_moved_self _ _⟩
    · rw [TableContent.heap_setPage, Function.update_of_ne isNew] at isHeap
      refine (kept.all pageId isHeap).imp_right ?_
      rintro ⟨other, last', rowId, isLinking⟩
      have differs : other ≠ client := by
        rintro rfl
        cases isPhase.symm.trans isLinking
      exact ⟨other, last', rowId, (phases_moved_ne differs).trans isLinking⟩
  · refine phases_moved ⟨onList, outside, notNull, TableContent.link_setPage_self _ notNull,
      rowId_pageId new 0⟩ fun other differs => ?_
    have others := kept.phases other
    have pendingOther := kept.unpending pending differs
    generalize state.phases other = phase at others pendingOther
    cases phase with
    | filling last' new' =>
        refine ⟨others.1, ?_⟩
        rw [TableContent.heap_setPage,
          Function.update_of_ne fun same => pendingOther (congrArg some same)]
        exact others.2
    | linking last' new' rowId =>
        refine ⟨others.1, others.2.1, others.2.2.1, ?_, others.2.2.2.2⟩
        rw [linkSame new' fun same => pendingOther (congrArg some same)]
        exact others.2.2.2.1
    | _ => exact others
  · intro first second page isFirst isSecond
    have samePending : ∀ other, ((state.moved client store
        (.linking last new (makeRowId new 0))).phases other).pending
          = (state.phases other).pending := by
      intro other
      by_cases same : other = client
      · rw [same, phases_moved_self, isPhase]
        rfl
      · rw [phases_moved_ne same]
    rw [samePending] at isFirst isSecond
    exact kept.apart first second page isFirst isSecond
  · intro other
    refine phases_moved (P := fun _ phase => ∀ last, phase.ended = some last →
      EndsOrLinked _ _ last) ?_ ?_ other
    · intro last' isEnded
      cases isEnded
      exact endsSame last onList (kept.ended client last (by rw [isPhase]; rfl))
    · intro other _ last' isEnded
      exact endsSame last' ((kept.phases other).onList isEnded) (kept.ended other last' isEnded)

/-- **A page is linked where the list ends.** -/
theorem Kept.link (kept : Kept fileId rows before state table pages) {last new : PageId}
    {rowId : RowId} {store : PageStore} (isPhase : state.phases client = .linking last new rowId)
    (atEnd : table.link last = some nullPageId)
    (known : Known fileId (state.moved client store (.returned rowId)) (table.setLink last new))
    (shown : RowsShown rows before (state.moved client store (.returned rowId)).phases
      (table.setLink last new)) :
    Kept fileId rows before (state.moved client store (.returned rowId)) (table.setLink last new)
      (pages ++ [new]) := by
  have inHand := kept.phases client
  rw [isPhase] at inHand
  obtain ⟨onList, outside, notNull, newEnds, onPage⟩ := inHand
  have links : (table.setLink last new).link = Function.update table.link last (some new) :=
    TableContent.link_setLink (onList.imp_right fun member => (heap_of_mem kept.chain member).2)
  have pending : (state.phases client).pending = some new := by
    rw [isPhase]
    rfl
  have goesOn : ∀ rowId, state.phases client ≠ .returned rowId := by
    intro rowId isReturned
    cases isPhase.symm.trans isReturned
  have longer : ∀ {other : PageId}, other = nullPageId ∨ other ∈ pages →
      other = nullPageId ∨ other ∈ pages ++ [new] :=
    fun isListed => isListed.imp_right fun member => List.mem_append_left [new] member
  refine ⟨known, TableContent.chain_setLink kept.chain onList atEnd outside notNull newEnds,
    ?_, ?_, ?_, ?_, shown⟩
  · intro pageId isHeap
    obtain member | ⟨other, last', rowId', isLinking⟩ :=
      kept.all pageId (mt TableContent.heap_setLink_eq_none.mpr isHeap)
    · exact .inl (List.mem_append_left _ member)
    · by_cases same : other = client
      · subst same
        cases isPhase.symm.trans isLinking
        exact .inl (List.mem_append_right _ (List.mem_singleton_self new))
      · exact .inr ⟨other, last', rowId', (phases_moved_ne same).trans isLinking⟩
  · refine phases_moved trivial fun other differs => ?_
    have others := kept.phases other
    have pendingOther := kept.unpending pending differs
    generalize state.phases other = phase at others pendingOther
    cases phase with
    | walking last' next => exact ⟨longer others.1, List.mem_append_left _ others.2⟩
    | allocating last' => exact longer others
    | filling last' new' =>
        exact ⟨longer others.1, TableContent.heap_setLink_eq_none.mpr others.2⟩
    | linking last' new' rowId' =>
        obtain ⟨onList', outside', notNull', ends', onPage'⟩ := others
        have differs' : new' ≠ new := fun same => pendingOther (congrArg some same)
        refine ⟨longer onList', ?_, notNull', ?_, onPage'⟩
        · rw [List.mem_append, List.mem_singleton]
          exact fun member => member.elim outside' differs'
        · have notLast : new' ≠ last := by
            rintro rfl
            exact onList.elim notNull' outside'
          rw [links, Function.update_of_ne notLast]
          exact ends'
    | _ => trivial
  · intro first second page isFirst isSecond
    by_cases firstClient : first = client
    · rw [firstClient, phases_moved_self] at isFirst
      cases isFirst
    · by_cases secondClient : second = client
      · rw [secondClient, phases_moved_self] at isSecond
        cases isSecond
      · rw [phases_moved_ne firstClient] at isFirst
        rw [phases_moved_ne secondClient] at isSecond
        exact kept.apart first second page isFirst isSecond
  · intro other
    refine phases_moved (P := fun _ phase => ∀ last, phase.ended = some last →
      EndsOrLinked _ _ last) ?_ ?_ other
    · intro last' isEnded
      cases isEnded
    · intro other _ last' isEnded
      by_cases same : last' = last
      · subst same
        refine .inr ⟨client, rowId, phases_moved_self _ _, ?_⟩
        rw [links, Function.update_self, onPage]
      · refine (kept.ended other last' isEnded).moved goesOn _ _ ?_
        rw [links, Function.update_of_ne same]

/-- **A step that links where the list ends keeps the invariant.** -/
theorem Kept.step (kept : Kept fileId rows before state table pages)
    (step : InsertStep fileId rows state table client state' table')
    (atEnd : ∀ last new rowId, state.phases client = .linking last new rowId →
      table.link last = some nullPageId) :
    ∃ pages', Kept fileId rows before state' table' pages' := by
  have known := kept.known.step step
  have inHand := kept.phases client
  have shown := kept.rows.step kept.known step (by
    intro last new isPhase
    rw [isPhase] at inHand
    exact inHand.2)
  cases step with
  | idle => exact ⟨pages, kept⟩
  | reads isPhase =>
      refine ⟨pages, kept.move known shown rfl (fun _ => Iff.rfl) (by rw [isPhase]; exact nofun)
        (by rw [isPhase]; exact nofun) (phaseKept_walkTo (.inl rfl) (chain_start kept.chain))
        (by rw [pending_walkTo]; exact nofun) ?_⟩
      intro last isEnded
      obtain ⟨rfl, isNull⟩ := ended_walkTo isEnded
      exact .inl ((TableContent.link_null table).trans (congrArg some isNull))
  | walks last next content isPhase found =>
      rw [isPhase] at inHand
      have link := link_of_heap (kept.known.file.notNull found) found
      obtain ⟨following, isLink, isListed⟩ := kept.chain.next_isSome inHand.2
      cases link.symm.trans isLink
      refine ⟨pages, kept.move known shown rfl (fun _ => Iff.rfl) (by rw [isPhase]; exact nofun)
        (by rw [isPhase]; exact nofun) (phaseKept_walkTo (.inr inHand.2) isListed)
        (by rw [pending_walkTo]; exact nofun) ?_⟩
      intro last' isEnded
      obtain ⟨rfl, isNull⟩ := ended_walkTo isEnded
      exact .inl (link.trans (congrArg some isNull))
  | inserts last next content store isPhase found file same =>
      refine ⟨pages, kept.move known shown (TableContent.link_setPage found rfl) ?_
        (by rw [isPhase]; exact nofun) (by rw [isPhase]; exact nofun) trivial nofun nofun⟩
      intro pageId
      rw [TableContent.heap_setPage]
      by_cases isNext : pageId = next
      · rw [isNext, Function.update_self, found]
        exact iff_of_false nofun nofun
      · rw [Function.update_of_ne isNext]
  | outOfPages last failure isPhase =>
      exact ⟨pages, kept.move known shown rfl (fun _ => Iff.rfl) (by rw [isPhase]; exact nofun)
        (by rw [isPhase]; exact nofun) trivial nofun nofun⟩
  | allocates last new store bytes isPhase noPage notNull file allocated =>
      rw [isPhase] at inHand
      have absent := (kept.known.file.absent noPage).1
      refine ⟨pages, kept.move known shown rfl (fun _ => Iff.rfl) (by rw [isPhase]; exact nofun)
        (by rw [isPhase]; exact nofun) ⟨inHand, absent⟩ ?_ ?_⟩
      · rintro page other isNew _ isPending
        cases isNew
        have others := kept.known.phases other
        generalize state.phases other = phase at others isPending
        cases phase with
        | filling last' new' =>
            cases isPending
            exact others.2.1 noPage
        | linking last' new' rowId =>
            cases isPending
            exact others.2 absent
        | _ => cases isPending
      · intro last' isEnded
        cases isEnded
        exact kept.ended client last (by rw [isPhase]; rfl)
  | fills last new store isPhase file same => exact ⟨pages, kept.fill isPhase known shown⟩
  | links last new rowId store isPhase file same =>
      exact ⟨pages ++ [new], kept.link isPhase (atEnd last new rowId isPhase) known shown⟩

/-! ### Lost pages -/

/-- **The state after a page was linked where the list went on**: a page with a row that was
returned, to which no link leads and no client will link. -/
structure Lost (fileId : FileId) (state : Inserting k) (table : TableContent) (page : PageId) :
    Prop where
  known : Known fileId state table
  heap : table.heap page ≠ none
  notNull : page ≠ nullPageId
  cut : ∀ pageId, table.link pageId ≠ some page
  unpending : ∀ client, (state.phases client).pending ≠ some page
  row : ∃ client rowId, state.phases client = .returned rowId ∧ getPageIdFromRowId rowId = page

variable {page : PageId}

/-- Two links to one page, of a list and the pages that are not linked yet, are one. -/
theorem Kept.link_injective (kept : Kept fileId rows before state table pages)
    {first second : PageId} (isFirst : table.link first = some page)
    (isSecond : table.link second = some page) (notNull : page ≠ nullPageId)
    (listed : second = nullPageId ∨ second ∈ pages) : first = second := by
  have firstListed : first = nullPageId ∨ first ∈ pages := by
    by_cases isNull : first = nullPageId
    · exact .inl isNull
    · have isHeap : table.heap first ≠ none := by
        intro absent
        rw [TableContent.link, if_neg isNull, absent] at isFirst
        cases isFirst
      obtain member | ⟨client, last, rowId, isLinking⟩ := kept.all first isHeap
      · exact .inr member
      · have ready := kept.phases client
        rw [isLinking] at ready
        exact absurd (Option.some.inj (isFirst.symm.trans ready.2.2.2.1)) notNull
  have headUnlinked : ∀ pageId ∈ pages, table.link pageId = some page → table.head ≠ page := by
    rintro pageId member isLink rfl
    exact kept.chain.start_unlinked member isLink
  obtain rfl | firstMember := firstListed
  · obtain rfl | secondMember := listed
    · rfl
    · rw [TableContent.link_null, Option.some.injEq] at isFirst
      exact absurd isFirst (headUnlinked second secondMember isSecond)
  · obtain rfl | secondMember := listed
    · rw [TableContent.link_null, Option.some.injEq] at isSecond
      exact absurd isSecond (headUnlinked first firstMember isFirst)
    · exact kept.chain.link_injective firstMember secondMember isFirst isSecond

/-- **A page linked where the list went on** cuts off the page that was there. -/
theorem Kept.lose (kept : Kept fileId rows before state table pages) {last new : PageId}
    {rowId : RowId} {store : PageStore} (isPhase : state.phases client = .linking last new rowId)
    (goesOn : table.link last ≠ some nullPageId)
    (known : Known fileId (state.moved client store (.returned rowId)) (table.setLink last new)) :
    ∃ page, Lost fileId (state.moved client store (.returned rowId)) (table.setLink last new) page := by
  have inHand := kept.phases client
  rw [isPhase] at inHand
  obtain ⟨onList, outside, _, _, _⟩ := inHand
  obtain ends | ⟨other, otherRow, isReturned, link⟩ :=
    kept.ended client last (by rw [isPhase]; rfl)
  · exact absurd ends goesOn
  have notNull : getPageIdFromRowId otherRow ≠ nullPageId := by
    intro isNull
    exact goesOn (link.trans (congrArg some isNull))
  have listed : getPageIdFromRowId otherRow ∈ pages := by
    obtain rfl | member := onList
    · rw [TableContent.link_null, Option.some.injEq] at link
      exact link ▸ (chain_start kept.chain).resolve_left (link ▸ notNull)
    · obtain ⟨following, isLink, isListed⟩ := kept.chain.next_isSome member
      cases link.symm.trans isLink
      exact isListed.resolve_left notNull
  have links : (table.setLink last new).link = Function.update table.link last (some new) :=
    TableContent.link_setLink (onList.imp_right fun member => (heap_of_mem kept.chain member).2)
  have differs : other ≠ client := by
    rintro rfl
    cases isPhase.symm.trans isReturned
  refine ⟨getPageIdFromRowId otherRow, known, ?_, notNull, ?_, ?_, other, otherRow,
    (phases_moved_ne differs).trans isReturned, rfl⟩
  · exact mt TableContent.heap_setLink_eq_none.mp (heap_of_mem kept.chain listed).2
  · intro pageId isLink
    rw [links] at isLink
    by_cases isLast : pageId = last
    · rw [isLast, Function.update_self, Option.some.injEq] at isLink
      exact outside (isLink ▸ listed)
    · rw [Function.update_of_ne isLast] at isLink
      exact isLast (kept.link_injective isLink link notNull onList)
  · refine phases_moved (P := fun _ phase => phase.pending ≠ _) nofun fun third _ isPending => ?_
    have others := kept.phases third
    generalize state.phases third = phase at others isPending
    cases phase with
    | filling last' new' =>
        cases isPending
        exact (heap_of_mem kept.chain listed).2 others.2
    | linking last' new' rowId' =>
        cases isPending
        exact others.2.1 listed
    | _ => cases isPending

/-- **A lost page stays lost.** -/
theorem Lost.step (lost : Lost fileId state table page)
    (step : InsertStep fileId rows state table client state' table') :
    Lost fileId state' table' page := by
  refine ⟨lost.known.step step, heap_step step lost.heap, lost.notNull, ?_, ?_, ?_⟩
  · intro pageId isLink
    obtain same | ⟨last, new, _, links⟩ | ⟨last, new, rowId, isPhase, links⟩ :=
      link_step lost.known step
    · rw [same] at isLink
      exact lost.cut pageId isLink
    · rw [links] at isLink
      by_cases isNew : pageId = new
      · rw [isNew, Function.update_self, Option.some.injEq] at isLink
        exact lost.notNull isLink.symm
      · rw [Function.update_of_ne isNew] at isLink
        exact lost.cut pageId isLink
    · rw [links] at isLink
      by_cases isLast : pageId = last
      · rw [isLast, Function.update_self] at isLink
        exact lost.unpending client (by rw [isPhase]; exact isLink)
      · rw [Function.update_of_ne isLast] at isLink
        exact lost.cut pageId isLink
  · have others : ∀ other, other ≠ client → (state.phases other).pending ≠ some page :=
      fun other _ => lost.unpending other
    have here := lost.unpending client
    cases step with
    | idle => exact lost.unpending
    | reads _ =>
        refine phases_moved (P := fun _ phase => phase.pending ≠ _) ?_ others
        rw [pending_walkTo]
        exact nofun
    | walks _ _ _ _ _ =>
        refine phases_moved (P := fun _ phase => phase.pending ≠ _) ?_ others
        rw [pending_walkTo]
        exact nofun
    | inserts _ _ _ _ _ _ _ _ => exact phases_moved (P := fun _ phase => phase.pending ≠ _) nofun others
    | outOfPages _ _ _ => exact phases_moved (P := fun _ phase => phase.pending ≠ _) nofun others
    | allocates last new store bytes _ noPage _ _ _ =>
        refine phases_moved (P := fun _ phase => phase.pending ≠ _) ?_ others
        intro isPage
        cases isPage
        exact lost.heap (lost.known.file.absent noPage).1
    | fills last new store isPhase _ _ =>
        rw [isPhase] at here
        exact phases_moved (P := fun _ phase => phase.pending ≠ _) here others
    | links _ _ _ _ _ _ _ => exact phases_moved (P := fun _ phase => phase.pending ≠ _) nofun others
  · obtain ⟨other, rowId, isReturned, onPage⟩ := lost.row
    refine ⟨other, rowId, ?_, onPage⟩
    have stays : ∀ {store : PageStore} {phase : InsertPhase},
        (∀ rowId, state.phases client ≠ .returned rowId) →
        (state.moved client store phase).phases other = .returned rowId := by
      intro store phase notReturned
      have differs : other ≠ client := by
        rintro rfl
        exact notReturned rowId isReturned
      exact (phases_moved_ne differs).trans isReturned
    cases step with
    | idle => exact isReturned
    | reads isPhase => exact stays (by rw [isPhase]; exact nofun)
    | walks _ _ _ isPhase _ => exact stays (by rw [isPhase]; exact nofun)
    | inserts _ _ _ _ isPhase _ _ _ => exact stays (by rw [isPhase]; exact nofun)
    | outOfPages _ _ isPhase => exact stays (by rw [isPhase]; exact nofun)
    | allocates _ _ _ _ isPhase _ _ _ _ => exact stays (by rw [isPhase]; exact nofun)
    | fills _ _ _ isPhase _ _ => exact stays (by rw [isPhase]; exact nofun)
    | links _ _ _ _ isPhase _ _ => exact stays (by rw [isPhase]; exact nofun)

/-! ### Scans past a lost page -/

/-- The end of a list, or a page of the table other than the lost one. -/
def Avoids (table : TableContent) (page pageId : PageId) : Prop :=
  pageId = nullPageId ∨ table.heap pageId ≠ none ∧ pageId ≠ page

theorem Lost.avoids_link (lost : Lost fileId state table page) {pageId next : PageId}
    (link : table.link pageId = some next) : Avoids table page next := by
  refine (lost.known.closed pageId next link).imp_right fun isHeap => ⟨isHeap, ?_⟩
  rintro rfl
  exact lost.cut pageId link

/-- **An iterator never comes to a lost page.** -/
theorem Lost.avoids_advance (lost : Lost fileId state table page) {turns : Nat}
    {iterator iterator' : DiskTableIterator} (here : Avoids table page iterator.currentPageId)
    (there : Avoids table page iterator.partialPagesHead)
    (run : DiskTableIterator.advanceToNextValid state.store fileId turns iterator = .ok iterator') :
    Avoids table page iterator'.currentPageId ∧ Avoids table page iterator'.partialPagesHead := by
  induction turns generalizing iterator with
  | zero => cases run
  | succ turns ih =>
      rw [DiskTableIterator.advanceToNextValid] at run
      by_cases atEnd : iterator.currentPageId = nullPageId
      · rw [if_pos atEnd] at run
        cases run
        exact ⟨here, there⟩
      · rw [if_neg atEnd] at run
        obtain ⟨content, found⟩ := Option.ne_none_iff_exists'.mp (here.resolve_left atEnd).1
        obtain ⟨bytes, isPage, shows_⟩ := lost.known.file.heap _ content found
        rw [mustGetPage_eq lost.known.file.file isPage, ok_bind] at run
        obtain ⟨record, isRecord, rest⟩ := of_bind_ok run
        cases record with
        | some slot =>
            cases rest
            exact ⟨here, there⟩
        | none =>
            have next : Avoids table page (HeapPage.getNextPage bytes) := by
              rw [shows_.next]
              exact lost.avoids_link (link_of_heap atEnd found)
            refine ih ?_ ?_ rest
            · unfold DiskTableIterator.nextPage
              split
              · exact next
              · split
                · exact there
                · exact .inl rfl
            · unfold DiskTableIterator.nextPage
              split
              · exact there
              · split
                · exact there
                · exact there

theorem Lost.avoids_collect (lost : Lost fileId state table page) {turns : Nat}
    {iterator : DiskTableIterator} {scanned : List Row}
    (here : Avoids table page iterator.currentPageId)
    (there : Avoids table page iterator.partialPagesHead)
    (run : DiskTableIterator.collect state.store fileId turns iterator = .ok scanned) :
    ∀ row ∈ scanned, getPageIdFromRowId row.rowId ≠ page := by
  induction turns generalizing iterator scanned with
  | zero => cases run
  | succ turns ih =>
      rw [DiskTableIterator.collect, DiskTableIterator.atEnd] at run
      by_cases atEnd : iterator.currentPageId = nullPageId
      · rw [if_pos (beq_iff_eq.mpr atEnd)] at run
        cases run
        exact List.forall_mem_nil _
      · rw [if_neg (by simpa using atEnd), DiskTableIterator.get,
          if_neg atEnd, ok_bind] at run
        obtain ⟨following, advanced, rest⟩ := of_bind_ok run
        obtain ⟨later, collected, done⟩ := of_bind_ok rest
        cases done
        obtain ⟨nextHere, nextThere⟩ := lost.avoids_advance (by exact here) (by exact there) advanced
        intro row member
        obtain rfl | member := List.mem_cons.mp member
        · show getPageIdFromRowId (makeRowId iterator.currentPageId iterator.currentSlot) ≠ page
          rw [rowId_pageId]
          exact (here.resolve_left atEnd).2
        · exact ih nextHere nextThere collected row member

/-- **A scan misses a lost page.** -/
theorem Lost.avoids_scan (lost : Lost fileId state table page) {scanned : List Row}
    (run : DiskTableIterator.scan state.store fileId = .ok scanned) :
    ∀ row ∈ scanned, getPageIdFromRowId row.rowId ≠ page := by
  obtain ⟨root, isRoot, noFull, isHead⟩ := lost.known.file.root
  obtain ⟨first, begun, collected⟩ := of_bind_ok run
  rw [DiskTableIterator.begin, mustGetPage_eq lost.known.file.file isRoot, ok_bind,
    HeapPage.getFullPagesHead, noFull, HeapPage.getPartialPagesHead, isHead] at begun
  have head : Avoids table page table.head := lost.avoids_link (TableContent.link_null table)
  obtain ⟨here, there⟩ : Avoids table page first.currentPageId ∧
      Avoids table page first.partialPagesHead := by
    refine lost.avoids_advance ?_ ?_ begun
    · unfold DiskTableIterator.start
      rw [if_neg (not_not.mpr rfl)]
      split
      · exact head
      · exact .inl rfl
    · unfold DiskTableIterator.start
      rw [if_neg (not_not.mpr rfl)]
      split
      · exact head
      · exact head
  exact lost.avoids_collect here there collected

theorem Lost.not_kept (lost : Lost fileId state table page) :
    ¬ InsertsKept fileId rows before state := by
  intro kept
  obtain ⟨client, rowId, isReturned, onPage⟩ := lost.row
  obtain ⟨scanned, run, _, isRow⟩ := kept.scan
  have member : (⟨rowId, rows client⟩ : Row) ∈ scanned :=
    (isRow _).mpr (.inr ⟨client, isReturned, rfl⟩)
  exact lost.avoids_scan run _ member onPage

/-- **With every page linked where the list ends**, nothing is lost. -/
theorem Kept.insertsKept (kept : Kept fileId rows before state table pages)
    (returned : AllReturned state) : InsertsKept fileId rows before state := by
  have written : ∀ client rowId, state.phases client = .returned rowId ↔
      (state.phases client).written = some rowId := by
    intro client rowId
    obtain ⟨rowId', isReturned⟩ := returned client
    rw [isReturned]
    exact ⟨fun same => by cases same; rfl, fun same => by cases same; rfl⟩
  have listed : ∀ pageId, table.heap pageId ≠ none → pageId ∈ pages := by
    intro pageId isHeap
    refine (kept.all pageId isHeap).resolve_right ?_
    rintro ⟨client, last, rowId, isLinking⟩
    obtain ⟨rowId', isReturned⟩ := returned client
    cases isLinking.symm.trans isReturned
  refine ⟨fun client other rowId isFirst isSecond => kept.rows.distinct client other rowId
      ((written _ _).mp isFirst) ((written _ _).mp isSecond),
    fun client rowId isReturned => (kept.rows.new client rowId ((written _ _).mp isReturned)).1,
    table.rows pages, DiskTableIterator.scan_spec kept.known.file kept.chain,
    TableContent.nodup_rows kept.known.file kept.chain.nodup, fun row => ?_⟩
  have shown : ∀ pageId slotId, row.rowId = makeRowId pageId slotId →
      (table.lookup row.rowId = some row.data ↔ before row.rowId = some row.data ∨
        ∃ client, state.phases client = .returned row.rowId ∧ rows client = row.data) := by
    intro pageId slotId isId
    rw [isId]
    refine (kept.rows.shown pageId slotId row.data).trans (or_congr_right (exists_congr fun client =>
      and_congr_left fun _ => ?_))
    exact (written client _).symm
  rw [TableContent.mem_rows kept.known.file]
  constructor
  · rintro ⟨pageId, _, slotId, isId, isRow⟩
    exact (shown pageId slotId isId).mp isRow
  · intro isRow
    have formed : ∃ pageId slotId, row.rowId = makeRowId pageId slotId := by
      obtain old | ⟨client, isReturned, _⟩ := isRow
      · exact kept.rows.formed row.rowId (by rw [old]; exact nofun)
      · exact (kept.rows.new client row.rowId ((written _ _).mp isReturned)).2
    obtain ⟨pageId, slotId, isId⟩ := formed
    have isRow := (shown pageId slotId isId).mpr isRow
    refine ⟨pageId, listed pageId fun absent => ?_, slotId, isId, isRow⟩
    rw [isId, TableContent.lookup_noHeap absent] at isRow
    cases isRow

/-! ### Runs -/

theorem linkFrom_eq {store : PageStore} (file : TableFile store fileId table) {last : PageId}
    (listed : last = nullPageId ∨ table.heap last ≠ none) :
    linkFrom store fileId last = table.link last := by
  unfold linkFrom
  by_cases isNull : last = nullPageId
  · obtain ⟨root, isRoot, _, isHead⟩ := file.root
    rw [if_pos isNull, isRoot, isNull, TableContent.link_null, ← isHead]
    rfl
  · obtain ⟨content, found⟩ := Option.ne_none_iff_exists'.mp (listed.resolve_left isNull)
    obtain ⟨bytes, isPage, shows_⟩ := file.heap last content found
    rw [if_neg isNull, isPage, link_of_heap isNull found, ← shows_.next]
    rfl

/-- **A lost page is lost to the end of the run.** -/
theorem Lost.run (lost : Lost fileId state table page) (fits : ∀ client, FitsFreshPage (rows client))
    (schedule : List (InsertOp k)) :
    ∃ table', Lost fileId ((insertMachine fileId rows).exec state schedule) table' page := by
  induction schedule generalizing state table with
  | nil => exact ⟨table, lost⟩
  | cons op schedule ih =>
      obtain ⟨table', step⟩ := step_cases lost.known op (fits op.client)
      exact ih (lost.step step)

/-- **The exact run lemma**, from any state that meets the invariant. -/
theorem Kept.run (kept : Kept fileId rows before state table pages)
    (fits : ∀ client, FitsFreshPage (rows client)) (schedule : List (InsertOp k))
    (returned : AllReturned ((insertMachine fileId rows).exec state schedule)) :
    InsertsKept fileId rows before ((insertMachine fileId rows).exec state schedule) ↔
      (insertMachine fileId rows).Along (LinksAtEnd fileId) state schedule := by
  induction schedule generalizing state table pages with
  | nil => exact iff_of_true (kept.insertsKept returned) trivial
  | cons op schedule ih =>
      obtain ⟨table', step⟩ := step_cases kept.known op (fits op.client)
      have inHand := kept.known.phases op.client
      by_cases atEnd : LinksAtEnd fileId state op
      · obtain ⟨pages', kept'⟩ := kept.step step (by
          intro last new rowId isPhase
          unfold LinksAtEnd at atEnd
          rw [isPhase] at atEnd inHand
          exact (linkFrom_eq kept.known.file inHand.1).symm.trans atEnd)
        exact (ih kept' returned).trans (and_iff_right atEnd).symm
      · refine iff_of_false ?_ fun along => atEnd along.1
        obtain ⟨last, new, rowId, isPhase, goesOn⟩ : ∃ last new rowId,
            state.phases op.client = .linking last new rowId ∧ table.link last ≠ some nullPageId := by
          unfold LinksAtEnd at atEnd
          cases isPhase : state.phases op.client with
          | linking last new rowId =>
              rw [isPhase] at atEnd inHand
              have goesOn : ¬ linkFrom state.store fileId last = some nullPageId := atEnd
              rw [linkFrom_eq kept.known.file inHand.1] at goesOn
              exact ⟨last, new, rowId, rfl, goesOn⟩
          | _ =>
              rw [isPhase] at atEnd
              exact absurd trivial atEnd
        have known := kept.known.step step
        have lost : ∃ page, Lost fileId (state.step fileId rows op) table' page := by
          generalize state.step fileId rows op = next at step known
          cases step with
          | links last' new' rowId' store isPhase' _ _ =>
              cases isPhase.symm.trans isPhase'
              exact kept.lose isPhase goesOn known
          | idle notLinking => exact absurd isPhase (notLinking last new rowId)
          | reads isPhase' => cases isPhase.symm.trans isPhase'
          | walks _ _ _ isPhase' _ => cases isPhase.symm.trans isPhase'
          | inserts _ _ _ _ isPhase' _ _ _ => cases isPhase.symm.trans isPhase'
          | outOfPages _ _ isPhase' => cases isPhase.symm.trans isPhase'
          | allocates _ _ _ _ isPhase' _ _ _ _ => cases isPhase.symm.trans isPhase'
          | fills _ _ _ isPhase' _ _ => cases isPhase.symm.trans isPhase'
        obtain ⟨page, lost⟩ := lost
        obtain ⟨final, lost⟩ := lost.run fits schedule
        exact lost.not_kept

/-- All clients are about to call `insert_row`. -/
def allReading (store : PageStore) : Inserting k := ⟨store, fun _ => .reading⟩

/-- A table that was used by one client meets the invariant. -/
theorem kept_allReading {map : TableMap} {store : PageStore}
    (holds : Holds fileId (store, map) table pages) :
    Kept fileId rows map.rows (allReading store) table pages where
  known := {
    file := holds.file
    phases := fun _ => trivial
    closed := by
      intro pageId next link
      have onList : next = nullPageId ∨ next ∈ pages := by
        by_cases isNull : pageId = nullPageId
        · rw [isNull, TableContent.link_null, Option.some.injEq] at link
          exact link ▸ chain_start holds.listed.chain
        · have isHeap : table.heap pageId ≠ none := by
            intro absent
            rw [TableContent.link, if_neg isNull, absent] at link
            cases link
          obtain ⟨following, isLink, isListed⟩ :=
            holds.listed.chain.next_isSome (holds.listed.all pageId isHeap)
          cases link.symm.trans isLink
          exact isListed
      exact onList.imp_right fun member => (heap_of_mem holds.listed.chain member).2 }
  chain := holds.listed.chain
  all pageId isHeap := .inl (holds.listed.all pageId isHeap)
  phases _ := trivial
  apart _ _ _ isPending := nomatch isPending
  ended _ _ isEnded := nomatch isEnded
  rows := {
    shown := by
      intro pageId slotId data
      have same : map.rows (makeRowId pageId slotId) = table.lookup (makeRowId pageId slotId) :=
        holds.rows pageId slotId
      rw [← same]
      refine (or_iff_left ?_).symm
      rintro ⟨client, written, _⟩
      cases written
    new := fun _ _ written => nomatch written
    distinct := fun _ _ _ written => nomatch written
    formed := holds.formed }

/-- **Concurrent inserts keep every row exactly when every new page is linked where the list ends.**
Any number of clients insert rows into a table that was created and used before, in any interleaving
of their sections in which all calls return. -/
theorem insertsKept_iff (fileId : FileId) (store created : PageStore) (fresh : FreshPage)
    (init : initTableRootPage store fileId fresh = .ok created) (ops : List TableOp)
    (allowed : (recorded fileId).Along (Allowed fileId) (created, TableMap.empty) ops)
    (rows : Fin k → List UInt8) (fits : ∀ client, FitsFreshPage (rows client))
    (schedule : List (InsertOp k))
    (returned : AllReturned ((insertMachine fileId rows).exec
      (allReading ((recorded fileId).exec (created, TableMap.empty) ops).1) schedule)) :
    InsertsKept fileId rows ((recorded fileId).exec (created, TableMap.empty) ops).2.rows
        ((insertMachine fileId rows).exec
          (allReading ((recorded fileId).exec (created, TableMap.empty) ops).1) schedule) ↔
      (insertMachine fileId rows).Along (LinksAtEnd fileId)
        (allReading ((recorded fileId).exec (created, TableMap.empty) ops).1) schedule := by
  have keeps : ∀ state op, (∃ table pages, Holds fileId state table pages) →
      Allowed fileId state op →
        ∃ table pages, Holds fileId ((recorded fileId).next state op) table pages := by
    rintro state op ⟨table, pages, holds⟩ allowed
    exact (step_holds holds _ allowed).2
  obtain ⟨table, pages, holds⟩ := (Machine.always_of_step keeps
    ⟨_, _, holds_empty (initTableRootPage_spec init)⟩ allowed).last
  exact (kept_allReading holds).run fits schedule returned

/-! ### Two clients -/

/-- The rows of two clients. -/
def twoRows (client : Fin 2) : List UInt8 := if client.val = 0 then [7] else [8, 8]

/-- Turns of one client, to which the disk hands out this page. -/
def turnsOf (client : Fin 2) (count : Nat) (pageId : PageId) : List (InsertOp 2) :=
  List.replicate count ⟨client, ⟨pageId, fun _ => 0⟩⟩

/-- The second client inserts on the page that the first one linked. -/
theorem oneAfterTheOther_kept : InsertsKept 1 twoRows (fun _ => none)
    ((insertMachine 1 twoRows).exec (allReading createdTable) (turnsOf 0 4 1 ++ turnsOf 1 2 2)) := by
  refine (insertsKept_iff 1 emptyFile createdTable ⟨0, fun _ => 0⟩ rfl [] trivial twoRows
    (by decide) (turnsOf 0 4 1 ++ turnsOf 1 2 2) ?_).mpr (by decide +kernel)
  intro client
  match client with
  | 0 => exact ⟨makeRowId 1 0, by decide +kernel⟩
  | 1 => exact ⟨makeRowId 1 1, by decide +kernel⟩

/-- Both clients see an empty list before either links its page. -/
def bothFirst : List (InsertOp 2) :=
  let first : Fin 2 := ⟨0, Nat.two_pos⟩
  let second : Fin 2 := ⟨1, Nat.one_lt_two⟩
  turnsOf first 1 1 ++ turnsOf second 1 2 ++ turnsOf first 3 1 ++ turnsOf second 3 2

/-- **A row is lost**: the page that is linked second replaces the first one as the head of the
list. -/
theorem bothFirst_breaks :
    AllReturned ((insertMachine 1 twoRows).exec (allReading createdTable) bothFirst) ∧
      ¬ InsertsKept 1 twoRows (fun _ => none)
        ((insertMachine 1 twoRows).exec (allReading createdTable) bothFirst) := by
  have first : ((insertMachine 1 twoRows).exec (allReading createdTable) bothFirst).phases 0
      = .returned (makeRowId 1 0) := by decide +kernel
  have second : ((insertMachine 1 twoRows).exec (allReading createdTable) bothFirst).phases 1
      = .returned (makeRowId 2 0) := by decide +kernel
  have scans : DiskTableIterator.scan
      ((insertMachine 1 twoRows).exec (allReading createdTable) bothFirst).store 1
        = .ok [⟨makeRowId 2 0, [8, 8]⟩] := by decide +kernel
  refine ⟨fun client => ?_, fun kept => ?_⟩
  · match client with
    | 0 => exact ⟨_, first⟩
    | 1 => exact ⟨_, second⟩
  · obtain ⟨scanned, run, _, isRow⟩ := kept.scan
    cases scans.symm.trans run
    have member := (isRow ⟨makeRowId 1 0, [7]⟩).mpr (.inr ⟨0, first, rfl⟩)
    revert member
    decide

end Inserting

end Yadb
