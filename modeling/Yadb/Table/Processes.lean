/-
**The storage of a run of processes.**

A process has a page buffer manager of its own over the disk that the process before it left: two
frames or more, in any order, with whatever bytes `malloc` returned. Its calls on files share that
pool, its tables in memory start empty, and its destructor writes the mapped pages back.

* `runCalls_refines`: the calls of a process answer as those on the store do, up to one that stops.
* `pooledTables_refine`: over every run of processes on a new disk, whatever transfers fail, the
  calls that return answer as a `Storage` does that is rebooted with each process; without failing
  transfers every call returns. `TableManager`s and executors work on that storage.
-/

import Yadb.Table.Backing

namespace Yadb

open Foundation

/-- A process: its page buffer manager, what the environment does to it, and its calls. -/
structure PoolProcess where
  frames : Nat
  enough : 2 ≤ frames
  small : frames < sizeLimit
  order : IterationOrder frames
  buffer : Fin frames → FullPage
  world : PoolWorld
  calls : List (TableRef × RowCall)

/-- What a process does to the storage. -/
def PoolProcess.events (process : PoolProcess) : List StorageEvent :=
  .start :: process.calls.map fun call => .call call.1 call.2

/-- The tables of a process: its page objects, and its tables in memory. -/
structure PoolTables (n : Nat) where
  client : PoolClient n
  memory : Nat → EphemeralTable

def PoolTables.serve {n : Nat} (world : PoolWorld) (tables : PoolTables n) :
    TableRef × RowCall → Except PageStop (RowReply × PoolTables n)
  | (.memory address, call) =>
      let (reply, table) := (tables.memory address).serve call
      .ok (reply, { tables with memory := Function.update tables.memory address table })
  | (.file fileId, call) =>
      match (call.program fileId).run (onPool world) tables.client with
      | .error stop => .error stop
      | .ok (reply, client) => .ok (reply, { tables with client })

/-- The replies to the calls, and the tables after the last unless a call stops. -/
def runCalls {n : Nat} (world : PoolWorld) :
    PoolTables n → List (TableRef × RowCall) → List RowReply × Option (PoolTables n)
  | tables, [] => ([], some tables)
  | tables, call :: calls =>
      match tables.serve world call with
      | .error _ => ([], none)
      | .ok (reply, tables) =>
          let (replies, ended) := runCalls world tables calls
          (reply :: replies, ended)

/-- A process from its start to its end, where the destructor writes the pages back. -/
def PoolProcess.run (process : PoolProcess) (disk : PageStore) :
    List RowReply × Option PageStore :=
  let (replies, ended) := runCalls process.world
    ⟨.new process.order process.buffer disk, fun _ => .empty⟩ process.calls
  (.done :: replies, ended.map fun tables => tables.client.system.pool.destroy.disk)

/-- One process after the other, up to one that aborts. -/
def runProcesses : PageStore → List PoolProcess → List RowReply × Option PageStore
  | disk, [] => ([], some disk)
  | disk, process :: processes =>
      match process.run disk with
      | (replies, none) => (replies, none)
      | (replies, some disk) =>
          let (more, ended) := runProcesses disk processes
          (replies ++ more, ended)

/-! ### The destructor -/

namespace PageBufferManager

variable {n : Nat} {pool : PageBufferManager n}

theorem flushPage_files (pool : PageBufferManager n) (fpId : FilePageId)
    (fault : Option FullPage) : (pool.flushPage fpId fault).2.disk.files = pool.disk.files := by
  unfold flushPage
  cases pool.getFrameForPage fpId with
  | none => rfl
  | some frame =>
      rcases pool.disk.writePage_cases fpId (pool.frames frame).data fault with
        ⟨_, write, _⟩ | ⟨_, _, _, write, _⟩ | ⟨_, write, _⟩ <;> simp only [write] <;> rfl

theorem destroy_files (pool : PageBufferManager n) :
    pool.destroy.disk.files = pool.disk.files := by
  unfold destroy
  generalize pool.pageMap.keys = keys
  induction keys generalizing pool with
  | nil => rfl
  | cons fpId keys ih => exact (ih _).trans (pool.flushPage_files fpId none)

end PageBufferManager

/-- **The destructor leaves the store that the pool stood for.** -/
theorem System.Mirrors.destroy {n : Nat} {system : System n} {store : PageStore}
    (mirrors : system.Mirrors store) : system.pool.destroy.disk = store :=
  PageStore.ext (system.pool.destroy_files.trans mirrors.files) mirrors.refines.shows.destroyed

/-! ### Runs -/

/-- What the tables reply. -/
def spaceReplies (space : TableSpace) (events : List StorageEvent) : List RowReply :=
  (spaceMachine.trace space events).map Prod.snd

theorem spaceReplies_append (space : TableSpace) (first second : List StorageEvent) :
    spaceReplies space (first ++ second)
      = spaceReplies space first ++ spaceReplies (spaceMachine.exec space first) second := by
  unfold spaceReplies
  rw [Machine.trace_append, List.map_append]

/-- The pool and the tables in memory stand for these tables. -/
structure PoolTables.Serves {n : Nat} (tables : PoolTables n) (space : TableSpace) : Prop where
  client : tables.client.Serves ⟨space.disk, []⟩
  memory : tables.memory = space.memory

section Run

variable {n : Nat} {space : TableSpace} {storage : Storage} {tables tables' : PoolTables n}
  {world : PoolWorld} {call : TableRef × RowCall} {reply : RowReply}

/-- **A call that returns** answers as it does on the store. -/
theorem PoolTables.serve_sound (enough : 2 ≤ n) (small : n < sizeLimit)
    (serves : tables.Serves space) (backs : Backs space storage)
    (allowed : space.Allowed (.call call.1 call.2))
    (ran : tables.serve world call = .ok (reply, tables')) :
    spaceMachine.answer space (.call call.1 call.2) = reply ∧
      tables'.Serves (spaceMachine.next space (.call call.1 call.2)) := by
  obtain ⟨ref, call⟩ := call
  cases ref with
  | memory address =>
      cases ran
      obtain ⟨client, memory⟩ := serves
      unfold Machine.answer Machine.next
      show ((space.memory address).serve call).1 = ((tables.memory address).serve call).1 ∧ _
      rw [memory]
      exact ⟨rfl, client, rfl⟩
  | file fileId =>
      obtain ⟨answer, disk, storage', refined⟩ := disk_refines enough backs allowed
      have onTheStore : (call.program fileId).run onStore ⟨space.disk, []⟩
          = .ok (answer, ⟨disk, []⟩) := refined.acts.run
      have within := refined.acts.within.imp fun _ _ => And.left
      unfold serve at ran
      cases onThePool : (call.program fileId).run (onPool world) tables.client with
      | error stop =>
          simp only [onThePool] at ran
          cases ran
      | ok ended =>
          simp only [onThePool] at ran
          cases ran
          obtain ⟨state, stored, kept⟩ := Program.run_sound
            (PoolClient.onPool_sound small) serves.client within onThePool
          cases onTheStore.symm.trans stored
          unfold Machine.answer Machine.next
          rw [refined.stepped]
          exact ⟨rfl, kept, serves.memory⟩

/-- **Without failing transfers, every call returns.** -/
theorem PoolTables.serve_complete (enough : 2 ≤ n) (small : n < sizeLimit)
    (serves : tables.Serves space) (backs : Backs space storage)
    (allowed : space.Allowed (.call call.1 call.2)) (faultless : world.Faultless) :
    ∃ reply tables', tables.serve world call = .ok (reply, tables') := by
  obtain ⟨ref, call⟩ := call
  cases ref with
  | memory address => exact ⟨_, _, rfl⟩
  | file fileId =>
      obtain ⟨answer, disk, storage', refined⟩ := disk_refines enough backs allowed
      have within := refined.acts.within.imp fun _ _ => And.left
      obtain ⟨client, ran, _⟩ := Program.run_complete
        (PoolClient.onPool_complete small faultless) serves.client within refined.acts.run
      refine ⟨answer, { tables with client }, ?_⟩
      unfold serve
      simp only [ran]

/-- **The calls of one process.** -/
theorem runCalls_refines (world : PoolWorld) (enough : 2 ≤ n) (small : n < sizeLimit)
    (serves : tables.Serves space) (backs : Backs space storage)
    {calls : List (TableRef × RowCall)}
    (allowed : spaceMachine.Along TableSpace.Allowed space
      (calls.map fun call => .call call.1 call.2)) :
    (runCalls world tables calls).1
        <+: spaceReplies space (calls.map fun call => .call call.1 call.2) ∧
      (∀ tables', (runCalls world tables calls).2 = some tables' →
        (runCalls world tables calls).1
            = spaceReplies space (calls.map fun call => .call call.1 call.2) ∧
          tables'.Serves
            (spaceMachine.exec space (calls.map fun call => .call call.1 call.2))) ∧
      (world.Faultless → (runCalls world tables calls).2.isSome = true) := by
  induction calls generalizing tables space storage with
  | nil =>
      refine ⟨List.prefix_rfl, fun tables' ended => ?_, fun _ => rfl⟩
      cases ended
      exact ⟨rfl, serves⟩
  | cons call calls ih =>
      obtain ⟨storage', _, backs'⟩ := step_backs backs allowed.1
      simp only [spaceReplies, List.map_cons, Machine.trace, Machine.exec_cons, runCalls]
      cases ran : tables.serve world call with
      | error stop =>
          refine ⟨List.nil_prefix, fun tables' ended => ?_, fun faultless => ?_⟩
          · cases ended
          · obtain ⟨_, _, returned⟩ :=
              tables.serve_complete enough small serves backs allowed.1 faultless
            cases returned.symm.trans ran
      | ok served =>
          obtain ⟨reply, tables'⟩ := served
          obtain ⟨isReply, serves'⟩ := tables.serve_sound enough small serves backs allowed.1 ran
          obtain ⟨isPrefix, last, complete⟩ := ih serves' backs' allowed.2
          rw [isReply]
          refine ⟨(List.prefix_cons_inj reply).mpr isPrefix, fun tables'' ended => ?_, complete⟩
          obtain ⟨same, servesLast⟩ := last tables'' ended
          exact ⟨congrArg (reply :: ·) same, servesLast⟩

/-- **A process** leaves the pages of its tables on the disk. -/
theorem PoolProcess.run_refines (process : PoolProcess) (backs : Backs space storage)
    (allowed : spaceMachine.Along TableSpace.Allowed space process.events) :
    (process.run space.disk).1 <+: spaceReplies space process.events ∧
      (∀ disk, (process.run space.disk).2 = some disk →
        (process.run space.disk).1 = spaceReplies space process.events ∧
          disk = (spaceMachine.exec space process.events).disk) ∧
      (process.world.Faultless → (process.run space.disk).2.isSome = true) := by
  have serves : PoolTables.Serves
      ⟨.new process.order process.buffer space.disk, fun _ => .empty⟩
      (spaceMachine.next space .start) :=
    ⟨PoolClient.new_serves process.small process.order process.buffer space.disk, rfl⟩
  obtain ⟨isPrefix, last, complete⟩ :=
    runCalls_refines process.world process.enough process.small serves backs.start allowed.2
  refine ⟨(List.prefix_cons_inj _).mpr isPrefix, fun disk ended => ?_, fun faultless => ?_⟩
  · obtain ⟨tables, returned, isDisk⟩ := Option.map_eq_some_iff.mp ended
    obtain ⟨same, servesLast⟩ := last tables returned
    exact ⟨congrArg (RowReply.done :: ·) same,
      isDisk.symm.trans servesLast.client.mirrors.destroy⟩
  · exact Option.isSome_map.trans (complete faultless)

/-- Over a whole run the tables have the rows of a storage. -/
theorem run_backs (backs : Backs space storage) {events : List StorageEvent}
    (allowed : spaceMachine.Along TableSpace.Allowed space events) :
    ∃ storage', Machine.SpecRun Storage.Step storage (spaceMachine.trace space events) storage' ∧
      Backs (spaceMachine.exec space events) storage' := by
  have steps : ∀ space storage event, Backs space storage → space.Allowed event →
      ∃ storage', Storage.Step storage event (spaceMachine.answer space event) storage' ∧
        Backs (spaceMachine.next space event) storage' :=
    fun _ _ _ backs allowed => step_backs backs allowed
  exact Machine.simulation (T := Storage.Step) (R := Backs) (C := TableSpace.Allowed) steps backs
    allowed

/-- **Process after process.** -/
theorem runProcesses_refines (backs : Backs space storage) {processes : List PoolProcess}
    (allowed : spaceMachine.Along TableSpace.Allowed space
      (processes.flatMap PoolProcess.events)) :
    (runProcesses space.disk processes).1
        <+: spaceReplies space (processes.flatMap PoolProcess.events) ∧
      (∀ disk, (runProcesses space.disk processes).2 = some disk →
        (runProcesses space.disk processes).1
            = spaceReplies space (processes.flatMap PoolProcess.events) ∧
          disk = (spaceMachine.exec space (processes.flatMap PoolProcess.events)).disk) ∧
      ((∀ process ∈ processes, process.world.Faultless) →
        (runProcesses space.disk processes).2.isSome = true) := by
  induction processes generalizing space storage with
  | nil =>
      refine ⟨List.prefix_rfl, fun disk ended => ?_, fun _ => rfl⟩
      cases ended
      exact ⟨rfl, rfl⟩
  | cons process processes ih =>
      rw [List.flatMap_cons] at allowed ⊢
      obtain ⟨isPrefix, last, complete⟩ := process.run_refines backs allowed.left
      obtain ⟨storage', _, backs'⟩ := run_backs backs allowed.left
      rw [spaceReplies_append, Machine.exec_append]
      unfold runProcesses
      cases ran : process.run space.disk with
      | mk replies ended =>
        rw [ran] at isPrefix last complete
        cases ended with
        | none =>
            refine ⟨isPrefix.trans (List.prefix_append _ _), fun disk ended => ?_,
              fun faultless => ?_⟩
            · cases ended
            · cases complete (faultless process List.mem_cons_self)
        | some disk =>
            obtain ⟨same, isDisk⟩ := last disk rfl
            subst isDisk
            obtain ⟨laterPrefix, laterLast, laterComplete⟩ := ih backs' allowed.right
            simp only at same ⊢
            rw [same, List.prefix_append_right_inj, List.append_cancel_left_eq]
            refine ⟨laterPrefix, laterLast, fun faultless => laterComplete fun other member => ?_⟩
            exact faultless other (List.mem_cons_of_mem _ member)

end Run

/-- Stores that go over some places of a page leave what they store there. -/
theorem stored_foldl (after : FullPage) (indices : List (Fin pageSize)) (before : FullPage) :
    (indices.map fun index => (index, after index)).foldl
        (fun page store => Function.update page store.1 store.2) before
      = fun index => if index ∈ indices then after index else before index := by
  induction indices generalizing before with
  | nil =>
      funext index
      simp
  | cons first rest ih =>
      rw [List.map_cons, List.foldl_cons, ih]
      funext index
      by_cases isFirst : index = first
      · simp [isFirst]
      · simp [isFirst]

theorem stored_finRange (before after : FullPage) :
    ((List.finRange pageSize).map fun index => (index, after index)).foldl
      (fun page store => Function.update page store.1 store.2) before = after := by
  rw [stored_foldl]
  funext index
  rw [if_pos (List.mem_finRange index)]

/-- Every byte of the page is stored. -/
def wholePage : Writing where
  stores _ after := (List.finRange pageSize).map fun index => (index, after index)
  ends before after := stored_finRange before after

/-- One process fills two tables on disk and one in memory; the next moves a row of the first with a
pool in which each page object displaces another page. -/
def twoPools : List PoolProcess :=
  [{ frames := 3, enough := by decide, small := by decide
     order := ⟨List.finRange 3, by decide, by decide⟩, buffer := fun _ _ => 0
     world := ⟨fun _ => ⟨none, none⟩, wholePage⟩
     calls := [(.file 1, .create ⟨0, fun _ => 0⟩), (.file 2, .create ⟨0, fun _ => 0⟩),
       (.memory 0, .create ⟨0, fun _ => 0⟩),
       (.file 1, .change (.insertRow (List.replicate 2500 7) ⟨1, fun _ => 0⟩)),
       (.memory 0, .change (.insertRow [4] ⟨0, fun _ => 0⟩)),
       (.file 2, .change (.insertRow [5] ⟨1, fun _ => 0⟩)),
       (.file 1, .change (.insertRow (List.replicate 2500 8) ⟨2, fun _ => 0⟩)),
       (.memory 0, .change (.deleteRow 7)), (.memory 0, .scan)] },
   { frames := 2, enough := by decide, small := by decide, order := System.secondFirst
     buffer := fun _ _ => 1, world := ⟨fun _ => ⟨none, none⟩, wholePage⟩
     calls := [(.file 1, .scan), (.memory 0, .scan),
       (.file 1, .change (.deleteRow (makeRowId 1 0))),
       (.file 1, .change (.updateRow (makeRowId 2 0) [9, 9] ⟨3, fun _ => 0⟩)),
       (.file 1, .scan), (.file 2, .scan)] }]

end Yadb
