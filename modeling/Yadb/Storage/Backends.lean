/-
**The two kinds of table side by side.**

`backends` runs every call on a disk table and on an ephemeral table; the rows of the two are
matched by the pairs of ids that the same insert returned.

* `Paired`: the invariant of the run. The disk table holds a map as in `DiskTable.Holds`, the
  ephemeral table has the same rows under the paired ids, and its next row id counts the inserts.
* `backends_agree_iff`: the tables agree on every call of a run and hold the same rows throughout it
  exactly when the run addresses rows by ids of live rows only.
* `deleteTwice_breaks`: the disk table also accepts the id of a row that was deleted, and the
  ephemeral table does not.
-/

import Yadb.Storage.Ephemeral.Table
import Yadb.Storage.Table.Links

namespace Yadb

open Foundation

/-- The id of a row in the disk table and in the ephemeral table. -/
abbrev RowIds := RowId × RowId

inductive BackendOp
  | insertRow (row : List UInt8) (fresh : FreshPage)
  | updateRow (ids : RowIds) (row : List UInt8) (fresh : FreshPage)
  | deleteRow (ids : RowIds)

/-- The ids in the order of the inserts, the last one first. -/
structure Backends where
  store : PageStore
  ephemeral : EphemeralTable
  ids : List RowIds

namespace BackendOp

def onDisk : BackendOp → TableOp
  | insertRow row fresh => .insertRow row fresh
  | updateRow ids row fresh => .updateRow ids.1 row fresh
  | deleteRow ids => .deleteRow ids.1

end BackendOp

namespace EphemeralTable

/-- What a call on an ephemeral table returns or throws, with the table after it. -/
def step (table : EphemeralTable) : BackendOp → Except EphemeralError (Option RowId) × EphemeralTable
  | .insertRow row _ => let (rowId, table) := table.insertRow row; (.ok (some rowId), table)
  | .updateRow ids row _ => match table.updateRow ids.2 row with
      | .error error => (.error error, table)
      | .ok (rowId, table) => (.ok (some rowId), table)
  | .deleteRow ids => match table.deleteRow ids.2 with
      | .error error => (.error error, table)
      | .ok table => (.ok none, table)

end EphemeralTable

namespace Backends

abbrev Answer := TableAnswer × Except EphemeralError (Option RowId)

/-- Both inserted a row. -/
def newIds (ids : List RowIds) : Answer → List RowIds
  | (.rowId disk, .ok (some ephemeral)) => (disk, ephemeral) :: ids
  | _ => ids

def step (fileId : FileId) (state : Backends) (op : BackendOp) : Answer × Backends :=
  let disk := DiskTable.step fileId state.store op.onDisk
  let ephemeral := state.ephemeral.step op
  ((disk.1, ephemeral.1), ⟨disk.2, ephemeral.2, newIds state.ids (disk.1, ephemeral.1)⟩)

end Backends

def backends (fileId : FileId) : Machine Backends BackendOp Backends.Answer :=
  ⟨Backends.step fileId⟩

namespace Backends

/-! ### Agreement -/

/-- The two scans yield the same rows. -/
def SameRows (fileId : FileId) (state : Backends) : Prop :=
  ∃ rows, DiskTableIterator.scan state.store fileId = .ok rows ∧
    (rows.map Row.data).Perm (state.ephemeral.scan.map Row.data)

def DiskAccepts : TableAnswer → Prop
  | .failed _ => False
  | _ => True

def EphemeralAccepts : Except EphemeralError (Option RowId) → Prop
  | .error _ => False
  | .ok _ => True

/-- Both accept the call, or both reject it and nothing changes. -/
def Agrees (fileId : FileId) (state : Backends) (op : BackendOp) : Prop :=
  let answer := (backends fileId).answer state op
  (DiskAccepts answer.1 ↔ EphemeralAccepts answer.2) ∧
    (¬ DiskAccepts answer.1 → (backends fileId).next state op = state)

/-- The row fits a fresh page, ids were returned by an insert, and the disk has a page to hand out
when one is needed. -/
def Issued (fileId : FileId) (state : Backends) (op : BackendOp) : Prop :=
  (match op with
    | .insertRow row _ => FitsFreshPage row
    | .updateRow ids row _ => ids ∈ state.ids ∧ FitsFreshPage row
    | .deleteRow ids => ids ∈ state.ids) ∧
  ¬ DiskTable.OutOfPages ((tableMachine fileId).answer state.store op.onDisk)

/-- The row that the call addresses was not deleted. -/
def Live (state : Backends) : BackendOp → Prop
  | .insertRow _ _ => True
  | .updateRow ids _ _ => state.ephemeral.tableData.find ids.2 ≠ none
  | .deleteRow ids => state.ephemeral.tableData.find ids.2 ≠ none

instance (state : Backends) : DecidablePred (Live state)
  | .insertRow _ _ => .isTrue trivial
  | .updateRow ids _ _ =>
      inferInstanceAs (Decidable (state.ephemeral.tableData.find ids.2 ≠ none))
  | .deleteRow ids => inferInstanceAs (Decidable (state.ephemeral.tableData.find ids.2 ≠ none))

/-! ### The invariant -/

/-- The rows of the disk table are those of a map, and the ephemeral table has them under the paired
ids. -/
structure Paired (fileId : FileId) (state : Backends) (map : TableMap) : Prop where
  holds : ∃ table pages, DiskTable.Holds fileId (state.store, map) table pages
  issued : map.issued = state.ids.map Prod.fst
  formed : ∀ ids ∈ state.ids, ∃ pageId slotId, ids.1 = makeRowId pageId slotId
  diskOnce : (state.ids.map Prod.fst).Nodup
  ephemeralOnce : (state.ids.map Prod.snd).Nodup
  sameRow : ∀ ids ∈ state.ids, map.rows ids.1 = state.ephemeral.tableData.find ids.2
  onDisk : ∀ rowId, map.rows rowId ≠ none → rowId ∈ state.ids.map Prod.fst
  inMemory : ∀ rowId, state.ephemeral.tableData.find rowId ≠ none →
    rowId ∈ state.ids.map Prod.snd
  counted : state.ephemeral.nextRow = state.ids.length % 2 ^ 48
  below : ∀ ids ∈ state.ids, ids.2.toNat < state.ids.length

/-- There are fewer than `2 ^ 48` different row ids that are packed from a page and a slot. -/
theorem length_lt_of_new {ids : List RowId} {rowId : RowId} (once : ids.Nodup)
    (new : rowId ∉ ids)
    (formed : ∀ other ∈ rowId :: ids, ∃ pageId slotId, other = makeRowId pageId slotId) :
    ids.length < 2 ^ 48 := by
  have numbers : ((rowId :: ids).map UInt64.toNat).Nodup :=
    (List.nodup_cons.mpr ⟨new, once⟩).map fun _ _ => UInt64.toNat.inj
  have bounded : (rowId :: ids).map UInt64.toNat ⊆ List.range (2 ^ 48) := by
    intro number member
    obtain ⟨other, isId, rfl⟩ := List.mem_map.mp member
    obtain ⟨pageId, slotId, rfl⟩ := formed other isId
    have pageBound : pageId.toNat < 2 ^ 32 := pageId.toNat_lt
    have slotBound : slotId.toNat < 2 ^ 16 := slotId.toNat_lt
    rw [List.mem_range, makeRowId_toNat]
    omega
  have fewer := (List.subperm_of_subset numbers bounded).length_le
  rw [List.length_map, List.length_cons, List.length_range] at fewer
  omega

namespace Paired

variable {fileId : FileId} {state : Backends} {map : TableMap}

/-- **The two tables hold the same rows.** -/
theorem sameRows (paired : Paired fileId state map) : SameRows fileId state := by
  obtain ⟨table, pages, holds⟩ := paired.holds
  obtain ⟨rows, scanned, once, lists⟩ := holds.scanShows
  refine ⟨rows, scanned, ?_⟩
  let listing := rows.map fun row => (row.rowId, row.data)
  have listedOnce : (listing.map Prod.fst).Nodup := by rwa [List.map_map]
  have disk := data_perm listedOnce paired.diskOnce ?_ paired.onDisk
  · have memory := data_perm state.ephemeral.tableData.nodup_keys paired.ephemeralOnce
      (fun _ _ => SortedMap.mem_entries) paired.inMemory
    have between : (state.ids.map Prod.fst).filterMap map.rows
        = (state.ids.map Prod.snd).filterMap state.ephemeral.tableData.find := by
      rw [List.filterMap_map, List.filterMap_map]
      exact List.filterMap_congr paired.sameRow
    rw [List.map_map, between] at disk
    rw [EphemeralTable.scan_data]
    exact disk.trans memory.symm
  · intro rowId data
    rw [List.mem_map]
    constructor
    · rintro ⟨row, member, same⟩
      cases same
      exact (lists row).mp member
    · intro found
      exact ⟨⟨rowId, data⟩, (lists ⟨rowId, data⟩).mpr found, rfl⟩

/-- Both tables insert a row. -/
theorem insert (paired : Paired fileId state map) {row : List UInt8} {rowId : RowId}
    {store : PageStore} (new : rowId ∉ map.issued)
    (holds : ∃ table pages, DiskTable.Holds fileId (store, map.insert rowId row) table pages) :
    Paired fileId ⟨store, (state.ephemeral.insertRow row).2,
      (rowId, (state.ephemeral.insertRow row).1) :: state.ids⟩ (map.insert rowId row) := by
  have isFormed : ∃ pageId slotId, rowId = makeRowId pageId slotId := by
    obtain ⟨table, pages, holds⟩ := holds
    refine holds.formed rowId ?_
    show Function.update map.rows rowId (some row) rowId ≠ none
    rw [Function.update_self]
    exact nofun
  rw [paired.issued] at new
  have few : state.ids.length < 2 ^ 48 := by
    have bound := length_lt_of_new paired.diskOnce new fun other member => by
      rcases List.mem_cons.mp member with rfl | member
      · exact isFormed
      · obtain ⟨ids, isPair, rfl⟩ := List.mem_map.mp member
        exact paired.formed ids isPair
    rwa [List.length_map] at bound
  have counted := paired.counted
  rw [Nat.mod_eq_of_lt few] at counted
  obtain ⟨number, nextRow, found⟩ := EphemeralTable.insertRow_spec state.ephemeral row
    fun other present => by
      obtain ⟨ids, isPair, rfl⟩ := List.mem_map.mp (paired.inMemory other present)
      rw [counted]
      exact Nat.ne_of_lt (paired.below ids isPair)
  have newInMemory : (state.ephemeral.insertRow row).1 ∉ state.ids.map Prod.snd := by
    intro member
    obtain ⟨ids, isPair, same⟩ := List.mem_map.mp member
    have below := paired.below ids isPair
    rw [same, number, counted] at below
    exact Nat.lt_irrefl _ below
  refine ⟨holds, ?_, ?_, List.nodup_cons.mpr ⟨new, paired.diskOnce⟩,
    List.nodup_cons.mpr ⟨newInMemory, paired.ephemeralOnce⟩, ?_, ?_, ?_, ?_, ?_⟩
  · exact congrArg (List.cons rowId) paired.issued
  · intro ids member
    rcases List.mem_cons.mp member with rfl | member
    · exact isFormed
    · exact paired.formed ids member
  · intro ids member
    rw [found]
    show Function.update map.rows rowId (some row) ids.1 = _
    rcases List.mem_cons.mp member with rfl | member
    · rw [Function.update_self, Function.update_self]
    · rw [Function.update_of_ne fun same => new (List.mem_map.mpr ⟨ids, member, same⟩),
        Function.update_of_ne fun same => newInMemory (List.mem_map.mpr ⟨ids, member, same⟩)]
      exact paired.sameRow ids member
  · intro other isRow
    have isRow : Function.update map.rows rowId (some row) other ≠ none := isRow
    by_cases same : other = rowId
    · exact List.mem_cons.mpr (Or.inl same)
    · rw [Function.update_of_ne same] at isRow
      exact List.mem_cons.mpr (Or.inr (paired.onDisk other isRow))
  · intro other present
    rw [found] at present
    by_cases same : other = (state.ephemeral.insertRow row).1
    · exact List.mem_cons.mpr (Or.inl same)
    · rw [Function.update_of_ne same] at present
      exact List.mem_cons.mpr (Or.inr (paired.inMemory other present))
  · rw [nextRow, counted, List.length_cons]
  · intro ids member
    rw [List.length_cons]
    rcases List.mem_cons.mp member with rfl | member
    · show (state.ephemeral.insertRow row).1.toNat < _
      rw [number, counted]
      exact Nat.lt_succ_self _
    · exact Nat.lt_succ_of_lt (paired.below ids member)

/-- Both tables delete a row. -/
theorem delete (paired : Paired fileId state map) {ids : RowIds} (isPair : ids ∈ state.ids)
    {store : PageStore} {ephemeral : EphemeralTable}
    (holds : ∃ table pages, DiskTable.Holds fileId (store, map.delete ids.1) table pages)
    (nextRow : ephemeral.nextRow = state.ephemeral.nextRow)
    (found : ephemeral.tableData.find
      = Function.update state.ephemeral.tableData.find ids.2 none) :
    Paired fileId ⟨store, ephemeral, state.ids⟩ (map.delete ids.1) := by
  refine ⟨holds, paired.issued, paired.formed, paired.diskOnce, paired.ephemeralOnce, ?_, ?_, ?_,
    nextRow.trans paired.counted, paired.below⟩
  · intro other member
    rw [found]
    show Function.update map.rows ids.1 none other.1 = _
    by_cases same : other = ids
    · rw [same, Function.update_self, Function.update_self]
    · rw [Function.update_of_ne fun sameDisk =>
          same (List.inj_on_of_nodup_map paired.diskOnce member isPair sameDisk),
        Function.update_of_ne fun sameMemory =>
          same (List.inj_on_of_nodup_map paired.ephemeralOnce member isPair sameMemory)]
      exact paired.sameRow other member
  · intro other isRow
    have isRow : Function.update map.rows ids.1 none other ≠ none := isRow
    by_cases same : other = ids.1
    · rw [same, Function.update_self] at isRow
      exact absurd rfl isRow
    · rw [Function.update_of_ne same] at isRow
      exact paired.onDisk other isRow
  · intro other present
    rw [found] at present
    by_cases same : other = ids.2
    · rw [same, Function.update_self] at present
      exact absurd rfl present
    · rw [Function.update_of_ne same] at present
      exact paired.inMemory other present

end Paired

/-! ### The run -/

variable {fileId : FileId} {state : Backends} {map : TableMap}

/-- What the run does when both tables accept the call. -/
theorem step_accepted (op : BackendOp) {answer : TableAnswer} {store : PageStore}
    {result : Option RowId} {ephemeral : EphemeralTable}
    (disk : DiskTable.step fileId state.store op.onDisk = (answer, store))
    (accepted : DiskAccepts answer)
    (memory : state.ephemeral.step op = (.ok result, ephemeral)) :
    Agrees fileId state op ∧ (backends fileId).next state op
      = ⟨store, ephemeral, newIds state.ids (answer, .ok result)⟩ := by
  have stepped : step fileId state op
      = ((answer, .ok result), ⟨store, ephemeral, newIds state.ids (answer, .ok result)⟩) := by
    rw [step, disk, memory]
  have isAnswer : (backends fileId).answer state op = (answer, .ok result) :=
    congrArg Prod.fst stepped
  refine ⟨?_, congrArg Prod.snd stepped⟩
  rw [Agrees, isAnswer]
  exact ⟨iff_of_true accepted trivial, fun rejected => absurd accepted rejected⟩

/-- A call that can only return a row id does so if it succeeds. -/
theorem rowId_of_succeeds {store : PageStore} {op : TableOp}
    (succeeds : DiskTable.Succeeds map (DiskTable.step fileId store op).1)
    {result : Except TableFailure (RowId × PageStore)}
    (returns : DiskTable.call fileId store op
      = result >>= fun placed => pure (.rowId placed.1, placed.2)) :
    ∃ rowId store', DiskTable.step fileId store op = (.rowId rowId, store') := by
  rw [DiskTable.step, returns] at succeeds ⊢
  cases result with
  | error failure => exact succeeds.elim
  | ok placed => exact ⟨placed.1, placed.2, rfl⟩

/-- **Calls on live rows are accepted by both tables** and keep the invariant. -/
theorem step_paired (paired : Paired fileId state map) {op : BackendOp}
    (issued : Issued fileId state op) (live : Live state op) :
    Agrees fileId state op ∧ ∃ map', Paired fileId ((backends fileId).next state op) map' := by
  obtain ⟨table, pages, holds⟩ := paired.holds
  cases op with
  | insertRow row fresh =>
      obtain ⟨succeeds, table', pages', holds'⟩ := DiskTable.step_holds holds
        (.insertRow row fresh) ⟨issued.1, issued.2⟩
      obtain ⟨rowId, store', run⟩ := rowId_of_succeeds succeeds rfl
      obtain ⟨agrees, next⟩ := step_accepted (.insertRow row fresh) run trivial rfl
      have stepped : (DiskTable.recorded fileId).next (state.store, map) (.insertRow row fresh)
          = (store', map.insert rowId row) := by
        show ((DiskTable.step fileId state.store _).2,
          map.update _ (DiskTable.step fileId state.store _).1) = _
        rw [run]
        rfl
      have succeeds : DiskTable.Succeeds map (DiskTable.step fileId state.store _).1 := succeeds
      rw [run] at succeeds
      rw [stepped] at holds'
      rw [next]
      exact ⟨agrees, _, paired.insert succeeds ⟨table', pages', holds'⟩⟩
  | updateRow ids row fresh =>
      obtain ⟨⟨isPair, fits⟩, allocates⟩ := issued
      have isRow : map.rows ids.1 ≠ none := by
        rw [paired.sameRow ids isPair]
        exact live
      obtain ⟨succeeds, table', pages', holds'⟩ := DiskTable.step_holds holds
        (.updateRow ids.1 row fresh) ⟨⟨isRow, fits⟩, allocates⟩
      obtain ⟨rowId, store', run⟩ := rowId_of_succeeds succeeds rfl
      obtain ⟨middle, middleTable, _, middleHolds⟩ := holds.delete isRow
      obtain ⟨ephemeral, deleted, nextRow, found⟩ := EphemeralTable.deleteRow_spec live
      have memory : state.ephemeral.step (.updateRow ids row fresh)
          = (.ok (some (ephemeral.insertRow row).1), (ephemeral.insertRow row).2) := by
        rw [EphemeralTable.step, EphemeralTable.updateRow, deleted]
        rfl
      obtain ⟨agrees, next⟩ := step_accepted (.updateRow ids row fresh) run trivial memory
      have stepped : (DiskTable.recorded fileId).next (state.store, map)
          (.updateRow ids.1 row fresh) = (store', (map.delete ids.1).insert rowId row) := by
        show ((DiskTable.step fileId state.store _).2,
          map.update _ (DiskTable.step fileId state.store _).1) = _
        rw [run]
        rfl
      have succeeds : DiskTable.Succeeds map (DiskTable.step fileId state.store _).1 := succeeds
      rw [run] at succeeds
      rw [stepped] at holds'
      rw [next]
      have middlePaired := paired.delete isPair ⟨middleTable, pages, middleHolds⟩ nextRow found
      exact ⟨agrees, _, middlePaired.insert succeeds ⟨table', pages', holds'⟩⟩
  | deleteRow ids =>
      obtain ⟨isPair, _⟩ := issued
      have isRow : map.rows ids.1 ≠ none := by
        rw [paired.sameRow ids isPair]
        exact live
      obtain ⟨store', table', deleted, holds'⟩ := holds.delete isRow
      have run : DiskTable.step fileId state.store (.deleteRow ids.1) = (.done, store') := by
        rw [DiskTable.step, DiskTable.call, deleted]
        rfl
      obtain ⟨ephemeral, memoryDeleted, nextRow, found⟩ := EphemeralTable.deleteRow_spec live
      have memory : state.ephemeral.step (.deleteRow ids) = (.ok none, ephemeral) := by
        rw [EphemeralTable.step, memoryDeleted]
      obtain ⟨agrees, next⟩ := step_accepted (.deleteRow ids) run trivial memory
      rw [next]
      exact ⟨agrees, _, paired.delete isPair ⟨table', pages, holds'⟩ nextRow found⟩

/-- An id that an insert returned names a slot, in use or not. -/
theorem Paired.namesSlot (paired : Paired fileId state map) {ids : RowIds}
    (isPair : ids ∈ state.ids) : DiskTable.NamesSlot state.store fileId ids.1 := by
  obtain ⟨table, pages, holds⟩ := paired.holds
  have isIssued : ids.1 ∈ map.issued := by
    rw [paired.issued]
    exact List.mem_map_of_mem isPair
  obtain ⟨content, found, below⟩ := holds.issued ids.1 isIssued
  obtain ⟨page, isPage, shows_⟩ := holds.file.heap _ content found
  refine ⟨page, isPage, UInt16.lt_iff_toNat_lt.mpr ?_⟩
  rwa [shows_.capacity]

theorem Issued.spanLength {op : BackendOp} (issued : Issued fileId state op) :
    DiskTable.SpanLength op.onDisk := by
  cases op with
  | insertRow row fresh => exact FitsFreshPage.short issued.1
  | updateRow ids row fresh => exact issued.1.2.short
  | deleteRow ids => trivial

/-- **The disk table accepts every id that it returned**, whether its row was deleted or not. -/
theorem disk_accepts {pages : List PageId} (paired : Paired fileId state map)
    (growing : DiskTable.Growing state.store fileId pages) {op : BackendOp}
    (issued : Issued fileId state op) : DiskAccepts ((backends fileId).answer state op).1 := by
  show DiskAccepts (DiskTable.step fileId state.store op.onDisk).1
  obtain ⟨isPermitted, allocates⟩ := issued
  have allocates : ¬ DiskTable.OutOfPages (DiskTable.step fileId state.store op.onDisk).1 :=
    allocates
  rw [DiskTable.step] at allocates ⊢
  cases op with
  | insertRow row fresh =>
      rcases growing.insertRow_ends isPermitted fresh with ⟨placed, run⟩ | ⟨error, run⟩
      · simp only [BackendOp.onDisk, DiskTable.call, run]
        trivial
      · simp only [BackendOp.onDisk, DiskTable.call, run] at allocates
        exact absurd trivial allocates
  | updateRow ids row fresh =>
      rcases growing.deleteRow_grows ids.1 with ⟨noSlot, _⟩ | ⟨_, middle, run, growing', _⟩
      · exact absurd (paired.namesSlot isPermitted.1) noSlot
      · simp only [BackendOp.onDisk, DiskTable.call, DiskTable.updateRow, run, ok_bind]
          at allocates ⊢
        rcases growing'.insertRow_ends isPermitted.2 fresh with ⟨placed, run⟩ | ⟨error, run⟩
        · simp only [run]
          trivial
        · simp only [run] at allocates
          exact absurd trivial allocates
  | deleteRow ids =>
      rcases growing.deleteRow_grows ids.1 with ⟨noSlot, _⟩ | ⟨_, middle, run, _⟩
      · exact absurd (paired.namesSlot isPermitted) noSlot
      · simp only [BackendOp.onDisk, DiskTable.call, run]
        trivial

/-- The ephemeral table rejects the id of a row that was deleted. -/
theorem ephemeral_rejects {op : BackendOp} (dead : ¬ Live state op) :
    ¬ EphemeralAccepts ((backends fileId).answer state op).2 := by
  show ¬ EphemeralAccepts (state.ephemeral.step op).1
  cases op with
  | insertRow row fresh => exact absurd trivial dead
  | updateRow ids row fresh =>
      have gone := EphemeralTable.deleteRow_dead (not_not.mp dead)
      rw [EphemeralTable.step, EphemeralTable.updateRow, gone]
      exact id
  | deleteRow ids =>
      have gone := EphemeralTable.deleteRow_dead (not_not.mp dead)
      rw [EphemeralTable.step, gone]
      exact id

/-- **The tables agree on a call exactly when it addresses a live row.** -/
theorem agrees_iff {pages : List PageId} (paired : Paired fileId state map)
    (growing : DiskTable.Growing state.store fileId pages) {op : BackendOp}
    (issued : Issued fileId state op) : Agrees fileId state op ↔ Live state op := by
  refine ⟨fun agrees => ?_, fun live => (step_paired paired issued live).1⟩
  by_contra dead
  exact ephemeral_rejects dead (agrees.1.mp (disk_accepts paired growing issued))

/-- A fresh table of each kind. -/
theorem paired_empty {store : PageStore} (file : TableFile store fileId TableContent.empty) :
    Paired fileId ⟨store, .empty, []⟩ TableMap.empty where
  holds := ⟨_, _, DiskTable.holds_empty file⟩
  issued := rfl
  formed := nofun
  diskOnce := .nil
  ephemeralOnce := .nil
  sameRow := nofun
  onDisk _ isRow := absurd rfl isRow
  inMemory _ present := absurd rfl present
  counted := EphemeralTable.nextRow_empty
  below := nofun

/-- **The two backends agree exactly in the runs that address live rows only**: on every call both
accept it or both reject it and change nothing, and in every state the scans yield the same rows. -/
theorem backends_agree_iff (fileId : FileId) (store created : PageStore) (fresh : FreshPage)
    (init : DiskTable.initTableRootPage store fileId fresh = .ok created) (ops : List BackendOp)
    (issued : (backends fileId).Along (Issued fileId) ⟨created, .empty, []⟩ ops) :
    (backends fileId).Always (SameRows fileId) ⟨created, .empty, []⟩ ops ∧
        (backends fileId).Along (Agrees fileId) ⟨created, .empty, []⟩ ops ↔
      (backends fileId).Along Live ⟨created, .empty, []⟩ ops := by
  let Invariant (state : Backends) : Prop := (∃ map, Paired fileId state map) ∧
    ∃ pages, DiskTable.Growing state.store fileId pages
  have start : Invariant ⟨created, .empty, []⟩ :=
    ⟨⟨_, paired_empty (DiskTable.initTableRootPage_spec init)⟩, [], DiskTable.growing_empty init⟩
  have keeps : ∀ state op, Invariant state → Issued fileId state op → Live state op →
      Invariant ((backends fileId).next state op) := by
    rintro state op ⟨⟨map, paired⟩, pages, growing⟩ issued live
    obtain ⟨pages', growing', _⟩ := growing.step_grows op.onDisk issued.spanLength
    exact ⟨(step_paired paired issued live).2, pages', growing'⟩
  have exactly : (backends fileId).Along (Agrees fileId) ⟨created, .empty, []⟩ ops ↔
      (backends fileId).Along Live ⟨created, .empty, []⟩ ops := by
    refine Machine.along_iff_along keeps ?_ start issued
    rintro state op ⟨⟨map, paired⟩, pages, growing⟩ issued
    exact agrees_iff paired growing issued
  refine ⟨fun both => exactly.mp both.2, fun live => ⟨?_, exactly.mpr live⟩⟩
  refine (Machine.always_of_step (fun state op invariant both => keeps state op invariant both.1
    both.2) start (issued.and live)).imp ?_
  rintro state ⟨⟨map, paired⟩, _⟩
  exact paired.sameRows

instance (fileId : FileId) (state : Backends) : DecidablePred (Issued fileId state)
  | .insertRow row _ => inferInstanceAs (Decidable (FitsFreshPage row ∧ _))
  | .updateRow ids row _ =>
      inferInstanceAs (Decidable ((ids ∈ state.ids ∧ FitsFreshPage row) ∧ _))
  | .deleteRow ids => inferInstanceAs (Decidable (ids ∈ state.ids ∧ _))

instance : DecidablePred DiskAccepts
  | .failed _ => .isFalse id
  | .rowId _ => .isTrue trivial
  | .done => .isTrue trivial

instance : DecidablePred EphemeralAccepts
  | .error _ => .isFalse id
  | .ok _ => .isTrue trivial

/-- Two rows, one of them moved and the other deleted. -/
def moveAndDelete : List BackendOp :=
  [.insertRow [7] ⟨1, fun _ => 0⟩, .insertRow [8, 8] ⟨2, fun _ => 0⟩,
    .updateRow (makeRowId 1 0, makeRowId 0 0) [9, 9, 9] ⟨2, fun _ => 0⟩,
    .deleteRow (makeRowId 1 1, makeRowId 0 1)]

theorem moveAndDelete_agrees :
    (backends 1).Always (SameRows 1) ⟨DiskTable.createdTable, .empty, []⟩ moveAndDelete ∧
      (backends 1).Along (Agrees 1) ⟨DiskTable.createdTable, .empty, []⟩ moveAndDelete :=
  (backends_agree_iff 1 DiskTable.emptyFile DiskTable.createdTable ⟨0, fun _ => 0⟩ rfl moveAndDelete
    (by decide +kernel)).mpr (by decide +kernel)

/-- A row that is deleted twice. -/
def deleteTwice : List BackendOp :=
  [.insertRow [7] ⟨1, fun _ => 0⟩, .deleteRow (makeRowId 1 0, makeRowId 0 0),
    .deleteRow (makeRowId 1 0, makeRowId 0 0)]

/-- The disk table deletes the row again, and the ephemeral table throws. -/
theorem deleteTwice_breaks :
    (backends 1).Along (Issued 1) ⟨DiskTable.createdTable, .empty, []⟩ deleteTwice ∧
      ¬ (backends 1).Along (Agrees 1) ⟨DiskTable.createdTable, .empty, []⟩ deleteTwice := by
  refine ⟨by decide +kernel, fun ⟨_, _, agrees, _⟩ => absurd agrees.1 ?_⟩
  decide +kernel

end Backends

end Yadb
