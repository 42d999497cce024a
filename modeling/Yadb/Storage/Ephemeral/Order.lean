/-
**Tables in memory keep the order of insertion.**

`ephemeralMachine` runs the calls on an `EphemeralTable`. `LogStep` says what they do to a log of
the rows: an insertion appends its row under an id above all ids before it, a delete takes a row
out, an update does both, and a call on a row that is not live throws and changes nothing.

* `step_logged`, `run_logged`: a call is a step of the log, and a run is one of its runs.
* `keepsInsertionOrder`: over every run with fewer than `2 ^ 48` insertions the ids increase, and a
  scan lists the log.
-/

import Yadb.Foundation.Machine
import Yadb.Storage.Ephemeral.Table

namespace Yadb

open Foundation

inductive EphemeralOp
  | insertRow (row : List UInt8)
  | updateRow (rowId : RowId) (row : List UInt8)
  | deleteRow (rowId : RowId)

/-- The row id of an insertion, or what was thrown. -/
abbrev EphemeralAnswer := Except EphemeralError (Option RowId)

namespace EphemeralTable

def call (table : EphemeralTable) :
    EphemeralOp → Except EphemeralError (Option RowId × EphemeralTable)
  | .insertRow row => .ok (some (table.insertRow row).1, (table.insertRow row).2)
  | .updateRow rowId row => do
      let (newRowId, table) ← table.updateRow rowId row
      return (some newRowId, table)
  | .deleteRow rowId => do
      return (none, ← table.deleteRow rowId)

/-- What throws has changed nothing. -/
def perform (table : EphemeralTable) (op : EphemeralOp) : EphemeralAnswer × EphemeralTable :=
  match table.call op with
  | .ok (answer, table) => (.ok answer, table)
  | .error error => (.error error, table)

end EphemeralTable

def ephemeralMachine : Machine EphemeralTable EphemeralOp EphemeralAnswer :=
  ⟨EphemeralTable.perform⟩

/-! ### What a table is for -/

/-- The row ids in the order in which they were returned, and the live rows in the order in which
they were inserted last. -/
structure RowLog where
  issued : List RowId
  rows : List Row

namespace RowLog

def empty : RowLog := ⟨[], []⟩

def Live (log : RowLog) (rowId : RowId) : Prop := rowId ∈ log.rows.map Row.rowId

/-- The id is above all ids returned so far. -/
def Fresh (log : RowLog) (rowId : RowId) : Prop := ∀ other ∈ log.issued, other < rowId

def append (log : RowLog) (rowId : RowId) (row : List UInt8) : RowLog :=
  ⟨log.issued ++ [rowId], log.rows ++ [⟨rowId, row⟩]⟩

def remove (log : RowLog) (rowId : RowId) : RowLog :=
  ⟨log.issued, log.rows.filter fun row => row.rowId ≠ rowId⟩

end RowLog

/-- What one call does to the log. -/
inductive LogStep (log : RowLog) : EphemeralOp → EphemeralAnswer → RowLog → Prop
  | inserted {row : List UInt8} {rowId : RowId} : log.Fresh rowId →
      LogStep log (.insertRow row) (.ok (some rowId)) (log.append rowId row)
  | updated {old rowId : RowId} {row : List UInt8} : log.Live old → log.Fresh rowId →
      LogStep log (.updateRow old row) (.ok (some rowId)) ((log.remove old).append rowId row)
  | deleted {old : RowId} : log.Live old → LogStep log (.deleteRow old) (.ok none) (log.remove old)
  | updateThrows {old : RowId} {row : List UInt8} {error : EphemeralError} : ¬ log.Live old →
      LogStep log (.updateRow old row) (.error error) log
  | deleteThrows {old : RowId} {error : EphemeralError} : ¬ log.Live old →
      LogStep log (.deleteRow old) (.error error) log

/-- The row ids that the calls of a run returned. -/
def insertedIds (trace : List (EphemeralOp × EphemeralAnswer)) : List RowId :=
  trace.filterMap fun entry => match entry.2 with
    | .ok rowId => rowId
    | .error _ => none

/-- A call that throws changes nothing. -/
def ThrowsUntouched (table : EphemeralTable) (op : EphemeralOp) : Prop :=
  ∀ error, ephemeralMachine.answer table op = .error error → ephemeralMachine.next table op = table

/-! ### One call -/

namespace EphemeralTable

variable {table : EphemeralTable} {log : RowLog}

/-- The table holds the rows of the log, and its next row id is above all ids of the log. -/
structure Logs (table : EphemeralTable) (log : RowLog) : Prop where
  entries : table.tableData.entries = log.rows.map fun row => (row.rowId, row.data)
  next : table.nextRow = log.issued.length
  below : ∀ rowId ∈ log.issued, rowId.toNat < table.nextRow
  issued : ∀ row ∈ log.rows, row.rowId ∈ log.issued
  increasing : log.issued.Pairwise (· < ·)

namespace Logs

theorem live_iff (logs : Logs table log) (rowId : RowId) :
    table.tableData.find rowId ≠ none ↔ log.Live rowId := by
  have listed : ∀ data, table.tableData.find rowId = some data ↔ (⟨rowId, data⟩ : Row) ∈ log.rows := by
    intro data
    rw [← SortedMap.mem_entries, logs.entries, List.mem_map]
    constructor
    · rintro ⟨row, member, same⟩
      cases same
      exact member
    · exact fun member => ⟨_, member, rfl⟩
  rw [Option.ne_none_iff_exists']
  unfold RowLog.Live
  rw [List.mem_map]
  constructor
  · rintro ⟨data, found⟩
    exact ⟨_, (listed data).mp found, rfl⟩
  · rintro ⟨row, member, rfl⟩
    exact ⟨row.data, (listed row.data).mpr member⟩

theorem scan_eq (logs : Logs table log) : table.scan = log.rows := by
  rw [scan, logs.entries, List.map_map]
  exact List.map_id _

/-- **An insertion appends its row.** -/
theorem insertRow (logs : Logs table log) (few : table.nextRow + 1 < 2 ^ 48) (row : List UInt8) :
    log.Fresh (table.insertRow row).1 ∧
      Logs (table.insertRow row).2 (log.append (table.insertRow row).1 row) := by
  have number : (table.insertRow row).1.toNat = table.nextRow := generateRowId_toNat table
  have next : (table.insertRow row).2.nextRow = table.nextRow + 1 :=
    (nextRow_generateRowId table).trans (Nat.mod_eq_of_lt few)
  have fresh : log.Fresh (table.insertRow row).1 := fun other member => by
    rw [UInt64.lt_iff_toNat_lt, number]
    exact logs.below other member
  refine ⟨fresh, ?_, ?_, ?_, ?_, ?_⟩
  · have last : ∀ entry ∈ table.tableData.entries, entry.1 < (table.insertRow row).1 := by
      rw [logs.entries]
      intro entry member
      obtain ⟨old, isOld, rfl⟩ := List.mem_map.mp member
      exact fresh _ (logs.issued old isOld)
    show SortedMap.insertIn (table.insertRow row).1 row table.tableData.entries = _
    rw [SortedMap.insertIn_last last, logs.entries, RowLog.append, List.map_append]
    rfl
  · rw [next, logs.next, RowLog.append, List.length_append, List.length_singleton]
  · intro rowId member
    rw [next]
    rcases List.mem_append.mp member with old | new
    · exact Nat.lt_succ_of_lt (logs.below rowId old)
    · rw [List.mem_singleton.mp new, number]
      exact Nat.lt_succ_self _
  · intro other member
    rcases List.mem_append.mp member with old | new
    · exact List.mem_append_left _ (logs.issued other old)
    · rw [List.mem_singleton.mp new]
      exact List.mem_append_right _ List.mem_cons_self
  · refine List.pairwise_append.mpr ⟨logs.increasing, List.pairwise_singleton _ _, ?_⟩
    intro other member rowId isRowId
    rw [List.mem_singleton.mp isRowId]
    exact fresh other member

/-- **A delete takes the row out.** -/
theorem deleteRow (logs : Logs table log) {rowId : RowId} (live : log.Live rowId) :
    ∃ table', table.deleteRow rowId = .ok table' ∧ table'.nextRow = table.nextRow ∧
      Logs table' (log.remove rowId) := by
  obtain ⟨data, found⟩ := Option.ne_none_iff_exists'.mp ((logs.live_iff rowId).mpr live)
  refine ⟨{ table with tableData := table.tableData.erase rowId }, ?_, rfl, ?_, logs.next, logs.below,
    fun row member => logs.issued row (List.mem_of_mem_filter member), logs.increasing⟩
  · rw [EphemeralTable.deleteRow, found]
  · show table.tableData.entries.filter _ = _
    rw [logs.entries, List.filter_map, RowLog.remove]
    rfl

theorem deleteRow_throws (logs : Logs table log) {rowId : RowId} (dead : ¬ log.Live rowId) :
    table.deleteRow rowId = .error (.invalidRowId "delete_row") := by
  refine EphemeralTable.deleteRow_dead (not_not.mp fun present => ?_)
  exact dead ((logs.live_iff rowId).mp present)

end Logs

/-- What a call inserts is counted. -/
def Counted (table : EphemeralTable) (op : EphemeralOp) : Prop :=
  ∀ rowId, ephemeralMachine.answer table op = .ok (some rowId) → table.nextRow + 1 < 2 ^ 48

theorem step_updateRow {middle : EphemeralTable} {rowId : RowId}
    (deleted : table.deleteRow rowId = .ok middle) (row : List UInt8) :
    ephemeralMachine.step table (.updateRow rowId row)
      = (.ok (some (middle.insertRow row).1), (middle.insertRow row).2) := by
  show table.perform _ = _
  rw [perform, call, updateRow, deleted]
  rfl

theorem step_updateRow_throws {error : EphemeralError} {rowId : RowId}
    (failed : table.deleteRow rowId = .error error) (row : List UInt8) :
    ephemeralMachine.step table (.updateRow rowId row) = (.error error, table) := by
  show table.perform _ = _
  rw [perform, call, updateRow, failed]
  rfl

theorem step_deleteRow {table' : EphemeralTable} {rowId : RowId}
    (deleted : table.deleteRow rowId = .ok table') :
    ephemeralMachine.step table (.deleteRow rowId) = (.ok none, table') := by
  show table.perform _ = _
  rw [perform, call, deleted]
  rfl

theorem step_deleteRow_throws {error : EphemeralError} {rowId : RowId}
    (failed : table.deleteRow rowId = .error error) :
    ephemeralMachine.step table (.deleteRow rowId) = (.error error, table) := by
  show table.perform _ = _
  rw [perform, call, failed]
  rfl

/-- **One call is a step of the log.** -/
theorem step_logged (logs : Logs table log) (op : EphemeralOp) (counted : Counted table op) :
    ∃ log', LogStep log op (ephemeralMachine.answer table op) log' ∧
      Logs (ephemeralMachine.next table op) log' := by
  unfold Counted at counted
  rw [Machine.answer] at counted ⊢
  rw [Machine.next]
  cases op with
  | insertRow row =>
      obtain ⟨fresh, logs'⟩ := logs.insertRow (counted _ rfl) row
      exact ⟨_, .inserted fresh, logs'⟩
  | updateRow rowId row =>
      by_cases live : log.Live rowId
      · obtain ⟨middle, deleted, sameNext, middleLogs⟩ := logs.deleteRow live
        rw [step_updateRow deleted] at counted ⊢
        have few : middle.nextRow + 1 < 2 ^ 48 := by
          rw [sameNext]
          exact counted _ rfl
        obtain ⟨fresh, logs'⟩ := middleLogs.insertRow few row
        exact ⟨_, .updated live fresh, logs'⟩
      · rw [step_updateRow_throws (logs.deleteRow_throws live)]
        exact ⟨log, .updateThrows live, logs⟩
  | deleteRow rowId =>
      by_cases live : log.Live rowId
      · obtain ⟨table', deleted, _, logs'⟩ := logs.deleteRow live
        rw [step_deleteRow deleted]
        exact ⟨_, .deleted live, logs'⟩
      · rw [step_deleteRow_throws (logs.deleteRow_throws live)]
        exact ⟨log, .deleteThrows live, logs⟩

theorem throwsUntouched (table : EphemeralTable) (op : EphemeralOp) : ThrowsUntouched table op := by
  intro error failed
  show (table.perform op).2 = table
  have failed : (table.perform op).1 = .error error := failed
  unfold perform at failed ⊢
  cases run : table.call op with
  | error _ => rfl
  | ok result =>
      rw [run] at failed
      cases failed

end EphemeralTable

/-! ### Runs -/

/-- The log lists the ids that were returned. -/
theorem LogStep.issued {log log' : RowLog} {op : EphemeralOp} {answer : EphemeralAnswer}
    (transition : LogStep log op answer log') :
    log'.issued = log.issued ++ insertedIds [(op, answer)] := by
  cases transition with
  | inserted _ => rfl
  | updated _ _ => rfl
  | deleted _ => exact (List.append_nil _).symm
  | updateThrows _ => exact (List.append_nil _).symm
  | deleteThrows _ => exact (List.append_nil _).symm

theorem insertedIds_cons (op : EphemeralOp) (answer : EphemeralAnswer)
    (trace : List (EphemeralOp × EphemeralAnswer)) :
    insertedIds ((op, answer) :: trace) = insertedIds [(op, answer)] ++ insertedIds trace :=
  List.filterMap_append (l := [_])

/-- **A run with few insertions is a run of the log**, which lists the ids that were returned. -/
theorem run_logged {table : EphemeralTable} {log : RowLog} {ops : List EphemeralOp}
    (logs : EphemeralTable.Logs table log)
    (few : log.issued.length + (insertedIds (ephemeralMachine.trace table ops)).length < 2 ^ 48) :
    ∃ log', Machine.SpecRun LogStep log (ephemeralMachine.trace table ops) log' ∧
      log'.issued = log.issued ++ insertedIds (ephemeralMachine.trace table ops) ∧
      EphemeralTable.Logs (ephemeralMachine.exec table ops) log' := by
  induction ops generalizing table log with
  | nil => exact ⟨log, .nil log, (List.append_nil _).symm, logs⟩
  | cons op ops ih =>
      rw [Machine.trace, insertedIds_cons, List.length_append] at few
      have counted : EphemeralTable.Counted table op := fun rowId answered => by
        have one : (insertedIds [(op, ephemeralMachine.answer table op)]).length = 1 := by
          rw [answered]
          rfl
        rw [logs.next]
        omega
      obtain ⟨middle, transition, middleLogs⟩ := EphemeralTable.step_logged logs op counted
      have isMiddle := transition.issued
      obtain ⟨log', run, isLast, logs'⟩ := ih middleLogs (by
        rw [isMiddle, List.length_append]
        omega)
      refine ⟨log', .cons transition run, ?_, logs'⟩
      rw [isLast, isMiddle, List.append_assoc, ← insertedIds_cons]
      rfl

/-- **A table in memory keeps the order of insertion**, over every run with fewer than `2 ^ 48`
insertions. -/
theorem keepsInsertionOrder (ops : List EphemeralOp)
    (few : (insertedIds (ephemeralMachine.trace .empty ops)).length < 2 ^ 48) :
    (insertedIds (ephemeralMachine.trace .empty ops)).Pairwise (· < ·) ∧
    (∃ log, Machine.SpecRun LogStep .empty (ephemeralMachine.trace .empty ops) log ∧
      (ephemeralMachine.exec .empty ops).scan = log.rows) ∧
    ephemeralMachine.Along ThrowsUntouched .empty ops := by
  have start : EphemeralTable.Logs .empty .empty :=
    ⟨rfl, EphemeralTable.nextRow_empty, nofun, nofun, .nil⟩
  obtain ⟨log, run, issued, logs⟩ := run_logged start (by rwa [RowLog.empty, List.length_nil, Nat.zero_add])
  rw [RowLog.empty, List.nil_append] at issued
  exact ⟨issued ▸ logs.increasing, ⟨log, run, logs.scan_eq⟩,
    Machine.along_of_mem fun op _ table => EphemeralTable.throwsUntouched table op⟩

/-- Three rows, of which the first is updated and the second deleted twice. -/
def updateAndDelete : List EphemeralOp :=
  [.insertRow [1], .insertRow [2], .insertRow [3], .updateRow 0 [4], .deleteRow 1, .deleteRow 1]

theorem updateAndDelete_keepsOrder :
    (insertedIds (ephemeralMachine.trace .empty updateAndDelete)).Pairwise (· < ·) ∧
    (∃ log, Machine.SpecRun LogStep .empty (ephemeralMachine.trace .empty updateAndDelete) log ∧
      (ephemeralMachine.exec .empty updateAndDelete).scan = log.rows) ∧
    ephemeralMachine.Along ThrowsUntouched .empty updateAndDelete :=
  keepsInsertionOrder updateAndDelete (by decide)

end Yadb
