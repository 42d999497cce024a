/-
**Scans of a table that is modified in between.**

`scanMachine` runs one iterator over a disk table, with the calls of clients between its increments;
beside it stand the rows that the calls describe and the rows that were yielded.

* `position`: where a row id is in the table: its page's place on the list, then its slot. The list
  grows at its end only, so nothing moves (`position_append`).
* `mem_ahead`: the rows an iterator has still to come to are the live rows behind its position.
* `Passing`: the invariant of the run: the rows that were yielded are at or before the iterator.
  `Passing.modify` and `Passing.increment` are its steps.
* `scan_stable`: no row id is yielded twice, every row that stays live is yielded, and every row is
  live when it is.
-/

import Yadb.Storage.Table.RowLength

namespace Yadb

open Foundation

inductive ScanOp
  | modify (op : TableOp)
  | increment

inductive ScanAnswer
  | called (answer : TableAnswer)
  | yields (row : Row)
  | ends
  | fails (failure : TableFailure)
  deriving DecidableEq

/-- The live rows with the ids returned so far, and the rows yielded so far. -/
structure ScanRecord where
  map : TableMap
  yielded : List Row

namespace DiskTable

/-- What an iterator stands on. -/
def standing (iterator : DiskTableIterator) : ScanAnswer :=
  match iterator.get with
  | .ok row => .yields row
  | .error _ => .ends

def scanStep (fileId : FileId) (state : PageStore × DiskTableIterator) :
    ScanOp → ScanAnswer × (PageStore × DiskTableIterator)
  | .modify op =>
      let (answer, store) := step fileId state.1 op
      (.called answer, store, state.2)
  | .increment =>
      match state.2.next state.1 fileId with
      | .ok iterator => (standing iterator, state.1, iterator)
      | .error failure => (.fails failure, state)

end DiskTable

def ScanRecord.update (record : ScanRecord) : ScanOp → ScanAnswer → ScanRecord
  | .modify op, .called answer => { record with map := record.map.update op answer }
  | .increment, .yields row => { record with yielded := record.yielded ++ [row] }
  | _, _ => record

/-- An iterator and the calls between its increments. -/
def scanMachine (fileId : FileId) :
    Machine ((PageStore × DiskTableIterator) × ScanRecord) ScanOp ScanAnswer :=
  Machine.withReplay ⟨DiskTable.scanStep fileId⟩ ScanRecord.update

namespace DiskTable

abbrev ScanState := (PageStore × DiskTableIterator) × ScanRecord

/-- The iterator was just constructed. -/
def scanStart (state : PageStore × TableMap) (iterator : DiskTableIterator) : ScanState :=
  ((state.1, iterator), ⟨state.2, match standing iterator with
    | .yields row => [row]
    | _ => []⟩)

/-- Rows fit a fresh page, and row ids are live. -/
def Modifies (state : ScanState) : ScanOp → Prop
  | .modify op => Permits state.2.map op
  | .increment => True

instance (state : ScanState) : DecidablePred (Modifies state)
  | .modify op => inferInstanceAs (Decidable (Permits state.2.map op))
  | .increment => .isTrue trivial

/-- The row is live. -/
def LiveRow (row : Row) (state : ScanState) : Prop := state.2.map.rows row.rowId = some row.data

instance (row : Row) : DecidablePred (LiveRow row) := fun state =>
  inferInstanceAs (Decidable (state.2.map.rows row.rowId = some row.data))

/-- An increment returns, and the row it comes to is live with these bytes. -/
def YieldsLive (fileId : FileId) (state : ScanState) (op : ScanOp) : Prop :=
  (∀ failure, (scanMachine fileId).answer state op ≠ .fails failure) ∧
    ∀ row, (scanMachine fileId).answer state op = .yields row → LiveRow row state

/-- A call between two increments leaves the row of the iterator alone. -/
def RowStays (fileId : FileId) (state : ScanState) : ScanOp → Prop
  | .modify op => ((scanMachine fileId).next state (.modify op)).1.2.get = state.1.2.get
  | .increment => True

/-! ### Positions -/

/-- The place of a row id on a list of pages. -/
def position (pages : List PageId) (rowId : RowId) : Nat :=
  pages.idxOf (getPageIdFromRowId rowId) * 2 ^ 16 + (getSlotIdFromRowId rowId).toNat

variable {fileId : FileId} {store : PageStore} {table : TableContent} {pages added : List PageId}
  {rowId : RowId} {pageId : PageId}

theorem position_append (member : getPageIdFromRowId rowId ∈ pages) :
    position (pages ++ added) rowId = position pages rowId := by
  rw [position, List.idxOf_append_of_mem member, position]

theorem position_makeRowId (pages : List PageId) (pageId : PageId) (slotId : SlotId) :
    position pages (makeRowId pageId slotId) = pages.idxOf pageId * 2 ^ 16 + slotId.toNat := by
  rw [position, rowId_pageId, rowId_slotId]

/-- The places around a page of the list. -/
theorem idxOf_split {before after : List PageId} (distinct : (before ++ pageId :: after).Nodup) :
    (before ++ pageId :: after).idxOf pageId = before.length ∧
      (∀ other ∈ before, (before ++ pageId :: after).idxOf other < before.length) ∧
      ∀ other ∈ after, before.length < (before ++ pageId :: after).idxOf other := by
  obtain ⟨_, fromPage, apart⟩ := List.nodup_append.mp distinct
  obtain ⟨notLater, _⟩ := List.nodup_cons.mp fromPage
  refine ⟨?_, fun other member => ?_, fun other member => ?_⟩
  · have outside : pageId ∉ before := fun member =>
      apart pageId member pageId List.mem_cons_self rfl
    rw [List.idxOf_append_of_notMem outside, List.idxOf_cons_self, Nat.add_zero]
  · rw [List.idxOf_append_of_mem member]
    exact List.idxOf_lt_length_of_mem member
  · have outside : other ∉ before := fun early =>
      apart other early other (List.mem_cons_of_mem pageId member) rfl
    have different : pageId ≠ other := fun same => notLater (same ▸ member)
    rw [List.idxOf_append_of_notMem outside, List.idxOf_cons_ne after different]
    omega

/-- **The rows ahead of an iterator** are the live rows behind its position. -/
theorem mem_ahead (file : TableFile store fileId table)
    (chain : Chain table.link nullPageId table.head pages) {iterator : DiskTableIterator}
    {content : HeapPage.Content} (found : table.heap iterator.currentPageId = some content)
    (member : iterator.currentPageId ∈ pages) (below : iterator.currentSlot.toNat < content.count)
    {rest : List Row} (ahead : DiskTableIterator.Ahead table
      { iterator with currentSlot := iterator.currentSlot + 1 } rest) {row : Row} :
    row ∈ rest ↔ row ∈ table.rows pages ∧
      position pages (makeRowId iterator.currentPageId iterator.currentSlot)
        < position pages row.rowId := by
  cases ahead with
  | done ended => exact absurd ended (file.notNull found)
  | @onPage content' following found' _ behind =>
      have same : content = content' := Option.some.inj (found.symm.trans found')
      subst same
      obtain ⟨page, _, shows_⟩ := file.heap _ content found
      have small := shows_.holds.wf.count_lt
      have next : (iterator.currentSlot + 1).toNat = iterator.currentSlot.toNat + 1 := by
        rw [UInt16.toNat_add, show (1 : UInt16).toNat = 1 from rfl]
        omega
      obtain ⟨before, after, isList, suffix⟩ := chain.suffix member
      obtain ⟨_, _, content', found'', rest⟩ := DiskTableIterator.chain_cons suffix
      cases found.symm.trans found''
      cases rest.unique behind
      obtain ⟨here, earlier, later⟩ := idxOf_split (isList ▸ chain.nodup)
      rw [← isList] at here earlier later
      rw [TableContent.mem_rows file, List.mem_append, TableContent.mem_pageRows,
        TableContent.mem_rows file, position_makeRowId, here]
      show (∃ slotId ∈ DiskTableIterator.slotsFrom (iterator.currentSlot + 1).toNat content.count, _)
        ∨ _ ↔ _
      rw [next]
      constructor
      · rintro (⟨slotId, inside, isRow, isId⟩ | ⟨other, isLater, slotId, isId, lookup⟩)
        · have above := ((DiskTableIterator.mem_slotsFrom_iff small.le).mp inside).1
          refine ⟨⟨iterator.currentPageId, member, slotId, isId, ?_⟩, ?_⟩
          · rw [isId, TableContent.lookup_heap found]
            exact isRow
          · rw [isId]
            show _ < position pages (makeRowId iterator.currentPageId slotId)
            rw [position_makeRowId, here]
            omega
        · have behindPage := later other isLater
          have slotBound : iterator.currentSlot.toNat < 2 ^ 16 := UInt16.toNat_lt _
          refine ⟨⟨other, ?_, slotId, isId, lookup⟩, ?_⟩
          · rw [isList]
            exact List.mem_append_right before (List.mem_cons_of_mem _ isLater)
          · rw [isId, position_makeRowId]
            omega
      · rintro ⟨⟨other, isPage, slotId, isId, lookup⟩, isBehind⟩
        have slotBound : slotId.toNat < 2 ^ 16 := UInt16.toNat_lt _
        rw [isId, position_makeRowId] at isBehind
        rw [isList] at isPage
        rcases List.mem_append.mp isPage with isEarlier | fromPage
        · have beforePage := earlier other isEarlier
          omega
        · rcases List.mem_cons.mp fromPage with rfl | isLater
          · rw [here] at isBehind
            rw [isId, TableContent.lookup_heap found] at lookup
            refine Or.inl ⟨slotId, ?_, lookup, isId⟩
            refine (DiskTableIterator.mem_slotsFrom_iff small.le).mpr ⟨by omega, ?_⟩
            exact shows_.below lookup
          · exact Or.inr ⟨other, isLater, slotId, isId, lookup⟩

/-! ### The invariant -/

/-- Every live row has an id that was returned. -/
def IssuesLive (map : TableMap) : Prop := ∀ rowId, map.rows rowId ≠ none → rowId ∈ map.issued

theorem IssuesLive.update {map : TableMap} (issues : IssuesLive map) (op : TableOp)
    (answer : TableAnswer) : IssuesLive (map.update op answer) ∧
      map.issued ⊆ (map.update op answer).issued := by
  have deleted : ∀ rowId, IssuesLive (map.delete rowId) := by
    intro rowId other isRow
    refine issues other fun absent => isRow ?_
    show Function.update map.rows rowId none other = none
    by_cases same : other = rowId
    · rw [same, Function.update_self]
    · rw [Function.update_of_ne same, absent]
  have inserted : ∀ (map : TableMap) rowId row, IssuesLive map →
      IssuesLive (map.insert rowId row) := by
    intro map rowId row issues other isRow
    by_cases same : other = rowId
    · rw [same]
      exact List.mem_cons_self
    · have isRow : Function.update map.rows rowId (some row) other ≠ none := isRow
      rw [Function.update_of_ne same] at isRow
      exact List.mem_cons_of_mem rowId (issues other isRow)
  have longer : ∀ rowId, map.issued ⊆ rowId :: map.issued := fun rowId =>
    List.subset_cons_self rowId map.issued
  cases op with
  | insertRow row fresh =>
      cases answer with
      | rowId rowId => exact ⟨inserted map rowId row issues, longer rowId⟩
      | done | failed _ => exact ⟨issues, List.Subset.refl _⟩
  | updateRow old row fresh =>
      cases answer with
      | rowId rowId => exact ⟨inserted (map.delete old) rowId row (deleted old), longer rowId⟩
      | done | failed _ => exact ⟨issues, List.Subset.refl _⟩
  | deleteRow old =>
      cases answer with
      | done => exact ⟨deleted old, List.Subset.refl _⟩
      | rowId _ | failed _ => exact ⟨issues, List.Subset.refl _⟩

/-- Where an iterator stands. -/
def standsAt (iterator : DiskTableIterator) : RowId :=
  makeRowId iterator.currentPageId iterator.currentSlot

/-- **The invariant of the run.** The rows that were yielded are at or before the iterator. -/
structure Passing (fileId : FileId) (state : ScanState) (table : TableContent)
    (pages : List PageId) : Prop where
  holds : Holds fileId (state.1.1, state.2.map) table pages
  issues : IssuesLive state.2.map
  onLastList : state.1.2.OnLastList
  place : state.1.2.currentPageId ≠ nullPageId → standsAt state.1.2 ∈ state.2.map.issued
  issued : ∀ row ∈ state.2.yielded, row.rowId ∈ state.2.map.issued
  once : (state.2.yielded.map Row.rowId).Nodup
  behind : state.1.2.currentPageId ≠ nullPageId → ∀ row ∈ state.2.yielded,
    position pages row.rowId ≤ position pages (standsAt state.1.2)

/-- The row was yielded, or the iterator has still to come to it. -/
def Waits (state : ScanState) (pages : List PageId) (row : Row) : Prop :=
  row ∈ state.2.yielded ∨ state.1.2.currentPageId ≠ nullPageId ∧
    position pages (standsAt state.1.2) < position pages row.rowId

/-- An id that was returned is on a page of the list. -/
theorem Holds.onPage {state : PageStore × TableMap} (holds : Holds fileId state table pages)
    (issued : rowId ∈ state.2.issued) : getPageIdFromRowId rowId ∈ pages := by
  obtain ⟨content, found, _⟩ := holds.issued rowId issued
  exact holds.listed.all _ (by rw [found]; exact nofun)

/-- The rows of the pages are the live rows. -/
theorem Holds.mem_rows {state : PageStore × TableMap} (holds : Holds fileId state table pages)
    {row : Row} : row ∈ table.rows pages ↔ state.2.rows row.rowId = some row.data := by
  obtain ⟨rows, scanned, _, lists⟩ := holds.scanShows
  have same := DiskTableIterator.scan_spec holds.file holds.listed.chain
  cases scanned.symm.trans same
  exact lists row

/-- A call that failed changed nothing. -/
theorem recorded_failed {map : TableMap} {op : TableOp} {failure : TableFailure}
    (failed : (tableMachine fileId).answer store op = .failed failure) :
    (recorded fileId).next (store, map) op = (store, map) := by
  have failed : (step fileId store op).1 = .failed failure := failed
  show ((step fileId store op).2, map.update op (step fileId store op).1) = _
  rw [failed]
  have same : map.update op (.failed failure) = map := by
    cases op <;> rfl
  rw [same, step]
  rw [step] at failed
  cases run : call fileId store op with
  | error _ => rfl
  | ok result =>
      rw [run] at failed
      -- a call that returns does not answer with a failure
      obtain ⟨answer, store'⟩ := result
      have failed : answer = .failed failure := failed
      subst failed
      cases op with
      | insertRow row fresh =>
          obtain ⟨_, _, returned⟩ := of_bind_ok run
          cases returned
      | updateRow old row fresh =>
          obtain ⟨_, _, returned⟩ := of_bind_ok run
          cases returned
      | deleteRow old =>
          obtain ⟨_, _, returned⟩ := of_bind_ok run
          cases returned

/-- **A call of a client**, also one for which the disk has no page to hand out. -/
theorem permits_extends {map : TableMap} (holds : Holds fileId (store, map) table pages)
    (op : TableOp) (permits : Permits map op) : ∃ table' added,
      Holds fileId ((recorded fileId).next (store, map) op) table' (pages ++ added) := by
  by_cases noPage : OutOfPages ((tableMachine fileId).answer store op)
  · have failed : ∃ failure, (tableMachine fileId).answer store op = .failed failure := by
      cases answered : (tableMachine fileId).answer store op with
      | failed failure => exact ⟨failure, rfl⟩
      | rowId _ | done =>
          rw [answered] at noPage
          exact noPage.elim
    obtain ⟨failure, failed⟩ := failed
    refine ⟨table, [], ?_⟩
    rw [recorded_failed failed, List.append_nil]
    exact holds
  · exact (step_extends holds op ⟨permits, noPage⟩).2

/-- What an increment that returns does. -/
theorem increment_eq (state : ScanState) {iterator' : DiskTableIterator}
    (run : state.1.2.next state.1.1 fileId = .ok iterator') :
    (scanMachine fileId).answer state .increment = standing iterator' ∧
      (scanMachine fileId).next state .increment
        = ((state.1.1, iterator'), state.2.update .increment (standing iterator')) := by
  have stepped : scanStep fileId state.1 .increment = (standing iterator', state.1.1, iterator') := by
    rw [scanStep, run]
  constructor
  · show (scanStep fileId state.1 .increment).1 = _
    rw [stepped]
  · show ((scanStep fileId state.1 .increment).2,
      state.2.update .increment (scanStep fileId state.1 .increment).1) = _
    rw [stepped]

namespace Passing

variable {state : ScanState}

/-- **The table is modified**: nothing moves. -/
theorem modify (passing : Passing fileId state table pages) (op : TableOp)
    (permits : Permits state.2.map op) : ∃ table' pages',
      Passing fileId ((scanMachine fileId).next state (.modify op)) table' pages' ∧
      ∀ row, LiveRow row state → Waits state pages row →
        Waits ((scanMachine fileId).next state (.modify op)) pages' row := by
  obtain ⟨⟨store, iterator⟩, ⟨map, yielded⟩⟩ := state
  obtain ⟨table', added, holds'⟩ := permits_extends passing.holds op permits
  obtain ⟨issues, longer⟩ := passing.issues.update op ((tableMachine fileId).answer store op)
  have stays : ∀ rowId ∈ map.issued, position (pages ++ added) rowId = position pages rowId :=
    fun rowId isIssued => position_append (passing.holds.onPage isIssued)
  refine ⟨table', pages ++ added, ⟨holds', issues, passing.onLastList, fun notEnd =>
    longer (passing.place notEnd), fun row member => longer (passing.issued row member),
    passing.once, fun notEnd row member => ?_⟩, fun row live => ?_⟩
  · have before := passing.behind notEnd row member
    rw [← stays _ (passing.issued row member), ← stays _ (passing.place notEnd)] at before
    exact before
  · rintro (isYielded | ⟨notEnd, ahead⟩)
    · exact Or.inl isYielded
    · have live : map.rows row.rowId = some row.data := live
      have isIssued := passing.issues row.rowId (by rw [live]; exact nofun)
      rw [← stays _ isIssued, ← stays _ (passing.place notEnd)] at ahead
      exact Or.inr ⟨notEnd, ahead⟩

/-- The next row of an iterator, or its end. -/
theorem ahead (passing : Passing fileId state table pages)
    (notEnd : state.1.2.currentPageId ≠ nullPageId) :
    ∃ iterator' rest, state.1.2.next state.1.1 fileId = .ok iterator' ∧ iterator'.OnLastList ∧
      DiskTableIterator.At table iterator' rest ∧
      ∀ row, row ∈ rest ↔ row ∈ table.rows pages ∧
        position pages (standsAt state.1.2) < position pages row.rowId := by
  have file := passing.holds.file
  have chain := passing.holds.listed.chain
  obtain ⟨content, found, below⟩ := passing.holds.issued _ (passing.place notEnd)
  have member := passing.holds.onPage (passing.place notEnd)
  rw [standsAt, rowId_pageId] at found member
  rw [standsAt, rowId_slotId] at below
  obtain ⟨_, _, _, suffix⟩ := chain.suffix member
  obtain ⟨_, _, content', found', behind⟩ := DiskTableIterator.chain_cons suffix
  cases found.symm.trans found'
  have isAhead : DiskTableIterator.Ahead table
      { state.1.2 with currentSlot := state.1.2.currentSlot + 1 } _ :=
    .onPage found passing.onLastList behind
  obtain ⟨iterator', run, isAt⟩ := DiskTableIterator.advance_spec file isAhead
  have onLastList : DiskTableIterator.OnLastList
    { state.1.2 with currentSlot := state.1.2.currentSlot + 1 } := passing.onLastList
  exact ⟨iterator', _, run, DiskTableIterator.onLastList_advance onLastList run, isAt,
    fun row => mem_ahead file chain found member below isAhead⟩

/-- The rows behind the row that an iterator came to. -/
theorem mem_behind {map : TableMap} (holds : Holds fileId (store, map) table pages)
    {iterator : DiskTableIterator} {row : Row} {rest : List Row}
    (isAt : DiskTableIterator.At table iterator (row :: rest)) (live : row ∈ table.rows pages) :
    iterator.currentPageId ≠ nullPageId ∧ iterator.get = .ok row ∧
      row.rowId = standsAt iterator ∧ ∀ other, other ∈ rest ↔ other ∈ table.rows pages ∧
        position pages (standsAt iterator) < position pages other.rowId := by
  cases isAt with
  | onRow notEnd isAhead =>
      have lookup := holds.mem_rows.mp live
      obtain ⟨content, data, found, isRow⟩ := holds.liveSlot (by rw [lookup]; exact nofun)
      rw [rowId_pageId] at found
      rw [rowId_slotId] at isRow
      obtain ⟨page, _, shows_⟩ := holds.file.heap _ content found
      have member := holds.listed.all _ (by rw [found]; exact nofun)
      exact ⟨notEnd, if_neg notEnd, rfl, fun other => mem_ahead holds.file holds.listed.chain found
        member (shows_.below isRow) isAhead⟩

/-- The iterator comes to its end, or stays there, with no live row ahead of it. -/
theorem comesToEnd (passing : Passing fileId state table pages) {iterator' : DiskTableIterator}
    (run : state.1.2.next state.1.1 fileId = .ok iterator') (onLastList : iterator'.OnLastList)
    (isEnd : iterator'.currentPageId = nullPageId)
    (nothingAhead : ∀ row ∈ table.rows pages, state.1.2.currentPageId ≠ nullPageId →
      ¬ position pages (standsAt state.1.2) < position pages row.rowId) :
    Passing fileId ((scanMachine fileId).next state .increment) table pages ∧
      YieldsLive fileId state .increment ∧
      ∀ row, LiveRow row state → Waits state pages row →
        Waits ((scanMachine fileId).next state .increment) pages row := by
  have stands : standing iterator' = .ends := by
    rw [standing, DiskTableIterator.get, if_pos isEnd]
  obtain ⟨answer, next⟩ := increment_eq state run
  rw [YieldsLive, answer, next, stands]
  refine ⟨⟨passing.holds, passing.issues, onLastList, fun notEnd => absurd isEnd notEnd,
    passing.issued, passing.once, fun notEnd => absurd isEnd notEnd⟩,
    ⟨fun _ => ScanAnswer.noConfusion, fun _ => ScanAnswer.noConfusion⟩, fun row live => ?_⟩
  rintro (isYielded | ⟨notEnd, isAhead⟩)
  · exact Or.inl isYielded
  · exact absurd isAhead (nothingAhead row (passing.holds.mem_rows.mpr live) notEnd)

/-- The iterator comes to the first row ahead of it. -/
theorem comesToRow (passing : Passing fileId state table pages)
    (started : state.1.2.currentPageId ≠ nullPageId) {iterator' : DiskTableIterator}
    (run : state.1.2.next state.1.1 fileId = .ok iterator') (onLastList : iterator'.OnLastList)
    {first : Row} {rest : List Row} (isAt : DiskTableIterator.At table iterator' (first :: rest))
    (ahead : ∀ row, row ∈ first :: rest ↔ row ∈ table.rows pages ∧
      position pages (standsAt state.1.2) < position pages row.rowId) :
    Passing fileId ((scanMachine fileId).next state .increment) table pages ∧
      YieldsLive fileId state .increment ∧
      ∀ row, LiveRow row state → Waits state pages row →
        Waits ((scanMachine fileId).next state .increment) pages row := by
  obtain ⟨isRow, isAhead⟩ := (ahead first).mp List.mem_cons_self
  obtain ⟨notEnd, isHere, isId, behind⟩ := mem_behind passing.holds isAt isRow
  have live : LiveRow first state := passing.holds.mem_rows.mp isRow
  have issued := passing.issues first.rowId (live ▸ Option.some_ne_none _)
  have stands : standing iterator' = .yields first := by
    rw [standing, isHere]
  obtain ⟨answer, next⟩ := increment_eq state run
  rw [YieldsLive, answer, next, stands]
  refine ⟨⟨passing.holds, passing.issues, onLastList, fun _ => isId ▸ issued, ?_, ?_, ?_⟩,
    ⟨nofun, ?_⟩, ?_⟩
  · intro row member
    rcases List.mem_append.mp member with before | isFirst
    · exact passing.issued row before
    · cases List.mem_singleton.mp isFirst
      exact issued
  · -- what was yielded before is not behind the place the iterator stood at
    show ((state.2.yielded ++ [first]).map Row.rowId).Nodup
    rw [List.map_append]
    refine List.nodup_append.mpr ⟨passing.once, List.nodup_singleton _, ?_⟩
    intro rowId member other isFirst same
    obtain ⟨row, isYielded, rfl⟩ := List.mem_map.mp member
    have before := passing.behind started row isYielded
    rw [same, List.mem_singleton.mp isFirst] at before
    omega
  · intro _ row member
    show position pages row.rowId ≤ position pages (standsAt iterator')
    rw [← isId]
    rcases List.mem_append.mp member with before | isFirst
    · exact (passing.behind started row before).trans isAhead.le
    · cases List.mem_singleton.mp isFirst
      exact Nat.le_refl _
  · rintro row ⟨⟩
    exact live
  · intro row isLive
    rintro (isYielded | ⟨_, isBehind⟩)
    · exact Or.inl (List.mem_append_left [first] isYielded)
    · have member := (ahead row).mpr ⟨passing.holds.mem_rows.mpr isLive, isBehind⟩
      rcases List.mem_cons.mp member with rfl | later
      · exact Or.inl (List.mem_append_right _ (List.mem_singleton.mpr rfl))
      · exact Or.inr ⟨notEnd, ((behind row).mp later).2⟩

/-- **The iterator comes to the next row**, or to the end if there is none. -/
theorem increment (passing : Passing fileId state table pages) :
    Passing fileId ((scanMachine fileId).next state .increment) table pages ∧
      YieldsLive fileId state .increment ∧
      ∀ row, LiveRow row state → Waits state pages row →
        Waits ((scanMachine fileId).next state .increment) pages row := by
  by_cases ended : state.1.2.currentPageId = nullPageId
  · -- past the end, the iterator stays there
    have run : state.1.2.next state.1.1 fileId
        = .ok { state.1.2 with currentSlot := state.1.2.currentSlot + 1 } := if_pos ended
    exact passing.comesToEnd run passing.onLastList ended fun _ _ notEnd => absurd ended notEnd
  · obtain ⟨iterator', rest, run, onLastList, isAt, ahead⟩ := passing.ahead ended
    cases rest with
    | nil =>
        cases isAt with
        | done isEnd =>
            exact passing.comesToEnd run onLastList isEnd fun row isRow _ isAhead =>
              absurd ((ahead row).mpr ⟨isRow, isAhead⟩) List.not_mem_nil
    | cons first rest => exact passing.comesToRow ended run onLastList isAt ahead

end Passing

/-! ### Runs -/

/-- **The iterator is constructed** at the first row. -/
theorem passing_start {state : PageStore × TableMap} (holds : Holds fileId state table pages)
    (issues : IssuesLive state.2) {iterator : DiskTableIterator}
    (begins : DiskTableIterator.begin state.1 fileId = .ok iterator) :
    Passing fileId (scanStart state iterator) table pages ∧
      (∀ row, standing iterator = .yields row → LiveRow row (scanStart state iterator)) ∧
      ∀ row, LiveRow row (scanStart state iterator) → Waits (scanStart state iterator) pages row := by
  obtain ⟨iterator', run, isAt⟩ := DiskTableIterator.begin_spec holds.file holds.listed.chain
  cases begins.symm.trans run
  have onLastList := DiskTableIterator.onLastList_begin holds.file run
  generalize isRows : table.rows pages = rows at isAt
  cases rows with
  | nil =>
      cases isAt with
      | done isEnd =>
          have stands : standing iterator = .ends := by
            rw [standing, DiskTableIterator.get, if_pos isEnd]
          rw [scanStart, stands]
          refine ⟨⟨holds, issues, onLastList, fun notEnd => absurd isEnd notEnd,
            List.forall_mem_nil _, List.nodup_nil, fun _ => List.forall_mem_nil _⟩,
            fun _ => ScanAnswer.noConfusion, fun row live => ?_⟩
          have isRow := holds.mem_rows.mpr live
          rw [isRows] at isRow
          cases isRow
  | cons first rest =>
      have isRow : first ∈ table.rows pages := isRows ▸ List.mem_cons_self
      obtain ⟨notEnd, isHere, isId, behind⟩ := Passing.mem_behind holds isAt isRow
      have live := holds.mem_rows.mp isRow
      have issued := issues first.rowId (live ▸ Option.some_ne_none _)
      have stands : standing iterator = .yields first := by
        rw [standing, isHere]
      rw [scanStart, stands]
      refine ⟨⟨holds, issues, onLastList, fun _ => isId ▸ issued, ?_, List.nodup_singleton _, ?_⟩, ?_,
        ?_⟩
      · intro row member
        cases List.mem_singleton.mp member
        exact issued
      · intro _ row member
        cases List.mem_singleton.mp member
        exact (congrArg (position pages) isId).le
      · rintro row ⟨⟩
        exact live
      · intro row isLive
        have member := holds.mem_rows.mpr isLive
        rw [isRows] at member
        rcases List.mem_cons.mp member with rfl | later
        · exact Or.inl (List.mem_singleton.mpr rfl)
        · exact Or.inr ⟨notEnd, ((behind row).mp later).2⟩

/-- The ids of the live rows were returned, in every state of a run. -/
theorem issuesLive_of_run {state : PageStore × TableMap} (issues : IssuesLive state.2)
    (ops : List TableOp) : IssuesLive ((recorded fileId).exec state ops).2 := by
  induction ops generalizing state with
  | nil => exact issues
  | cons op ops ih => exact ih (issues.update op _).1

theorem Passing.next {state : ScanState} (passing : Passing fileId state table pages) (op : ScanOp)
    (modifies : Modifies state op) : ∃ table' pages',
      Passing fileId ((scanMachine fileId).next state op) table' pages' ∧
      ∀ row, LiveRow row state → Waits state pages row →
        Waits ((scanMachine fileId).next state op) pages' row := by
  cases op with
  | modify op => exact passing.modify op modifies
  | increment =>
      obtain ⟨passing', _, waits⟩ := passing.increment
      exact ⟨table, pages, passing', waits⟩

/-- **Scans are stable under modification.** An iterator constructed on any table that a run
reaches, and any calls between its increments: every increment returns, and yields a live row with
its bytes; no row id is yielded twice; a row that is live up to the end of the iteration is yielded;
and no call between two increments changes the row of the iterator. -/
theorem scan_stable (fileId : FileId) (store created : PageStore) (fresh : FreshPage)
    (init : initTableRootPage store fileId fresh = .ok created) (before : List TableOp)
    (completed : (recorded fileId).Along (Completed fileId) (created, TableMap.empty) before)
    (state : PageStore × TableMap)
    (reached : (recorded fileId).exec (created, TableMap.empty) before = state) :
    ∃ iterator, DiskTableIterator.begin state.1 fileId = .ok iterator ∧
      (∀ row, standing iterator = .yields row → LiveRow row (scanStart state iterator)) ∧
      ∀ ops, (scanMachine fileId).Along Modifies (scanStart state iterator) ops →
        (scanMachine fileId).Along (YieldsLive fileId) (scanStart state iterator) ops ∧
        (scanMachine fileId).Along (RowStays fileId) (scanStart state iterator) ops ∧
        (((scanMachine fileId).exec (scanStart state iterator) ops).2.yielded.map Row.rowId).Nodup ∧
        (((scanMachine fileId).exec (scanStart state iterator) ops).1.2.atEnd = true → ∀ row,
          (scanMachine fileId).Always (LiveRow row) (scanStart state iterator) ops →
          row ∈ ((scanMachine fileId).exec (scanStart state iterator) ops).2.yielded) := by
  obtain ⟨table, pages, holds⟩ := holds_of_completed init completed
  rw [reached] at holds
  have issues : IssuesLive state.2 := by
    rw [← reached]
    exact issuesLive_of_run (fun _ isRow => absurd rfl isRow) before
  obtain ⟨iterator, begins, _⟩ := DiskTableIterator.begin_spec holds.file holds.listed.chain
  obtain ⟨passing, yields, waits⟩ := passing_start holds issues begins
  refine ⟨iterator, begins, yields, fun ops modifies => ⟨?_, ?_, ?_, ?_⟩⟩
  · refine Machine.along_of_step (Q := fun state => ∃ table pages, Passing fileId state table pages)
      ?_ ?_ ⟨table, pages, passing⟩ modifies
    · rintro state op ⟨table, pages, passing⟩ modifies
      obtain ⟨table', pages', passing', _⟩ := passing.next op modifies
      exact ⟨table', pages', passing'⟩
    · rintro state op ⟨table, pages, passing⟩ _
      cases op with
      | modify op => exact ⟨nofun, nofun⟩
      | increment => exact passing.increment.2.1
  · refine Machine.along_of_mem fun op _ state => ?_
    cases op with
    | modify op => rfl
    | increment => trivial
  · refine (Machine.always_of_step (Q := fun state => ∃ table pages, Passing fileId state table pages)
      ?_ ⟨table, pages, passing⟩ modifies).last.elim fun table passing => ?_
    · rintro state op ⟨table, pages, passing⟩ modifies
      obtain ⟨table', pages', passing', _⟩ := passing.next op modifies
      exact ⟨table', pages', passing'⟩
    · exact passing.elim fun pages passing => passing.once
  · intro ended row live
    have throughout := modifies.and live.steps
    have last := (Machine.always_of_step (Q := fun state => ∃ table pages,
      Passing fileId state table pages ∧ Waits state pages row) ?_
      ⟨table, pages, passing, waits row live.first⟩ throughout).last
    · obtain ⟨_, _, _, isYielded | ⟨notEnd, _⟩⟩ := last
      · exact isYielded
      · exact absurd (beq_iff_eq.mp ended) notEnd
    · rintro state op ⟨table, pages, passing, waits⟩ ⟨modifies, live, _⟩
      obtain ⟨table', pages', passing', kept⟩ := passing.next op modifies
      exact ⟨table', pages', passing', kept row live waits⟩

/-- Two rows on pages of their own. -/
def twoRows : PageStore × TableMap :=
  (recorded 1).exec (createdTable, TableMap.empty)
    [.insertRow (List.replicate 2500 7) ⟨1, fun _ => 0⟩,
      .insertRow (List.replicate 2500 8) ⟨2, fun _ => 0⟩]

/-- The iterator that was constructed, or one past the end. -/
def constructed (begun : Except TableFailure DiskTableIterator) : DiskTableIterator :=
  begun.toOption.getD ⟨nullPageId, 0, nullPageId, false, []⟩

theorem constructed_ok {begun : Except TableFailure DiskTableIterator}
    {iterator : DiskTableIterator} (begins : begun = .ok iterator) : constructed begun = iterator := by
  rw [begins]
  rfl

/-- An iterator on the first of them. -/
def firstRow : DiskTableIterator := constructed (DiskTableIterator.begin twoRows.1 1)

/-- A row is inserted ahead of the iterator, and the one behind it is deleted. -/
def insertAndDelete : List ScanOp :=
  [.modify (.insertRow [9] ⟨3, fun _ => 0⟩), .increment, .modify (.deleteRow (makeRowId 1 0)),
    .increment, .increment]

theorem insertAndDelete_stable :
    (scanMachine 1).Along (YieldsLive 1) (scanStart twoRows firstRow) insertAndDelete ∧
      (scanMachine 1).Along (RowStays 1) (scanStart twoRows firstRow) insertAndDelete ∧
      (((scanMachine 1).exec (scanStart twoRows firstRow) insertAndDelete).2.yielded.map
        Row.rowId).Nodup ∧
      ⟨makeRowId 2 0, List.replicate 2500 8⟩ ∈
        ((scanMachine 1).exec (scanStart twoRows firstRow) insertAndDelete).2.yielded := by
  obtain ⟨iterator, begins, _, stable⟩ := scan_stable 1 emptyFile createdTable ⟨0, fun _ => 0⟩ rfl
    [.insertRow (List.replicate 2500 7) ⟨1, fun _ => 0⟩,
      .insertRow (List.replicate 2500 8) ⟨2, fun _ => 0⟩]
    (by decide +kernel) twoRows rfl
  have isFirst : firstRow = iterator := constructed_ok begins
  rw [← isFirst] at stable
  obtain ⟨lives, stays, once, all⟩ := stable insertAndDelete (by decide +kernel)
  exact ⟨lives, stays, once, all (by decide +kernel) _ (by decide +kernel)⟩

end DiskTable

end Yadb
