/-
**Handles that callers keep.**

`GetTable` gives a `TableHandle`, which may be used long after the call: when the table was deleted,
or when its file has another table. `Holding` is a manager with the handles that its callers keep,
and `heldMachine` takes calls of the manager and calls on any of these handles.

A handle in memory shares its table, so no other name ever gets that table. A handle on disk is a
file id, and the id of a deleted file may be drawn again. A call on such a handle is `Proper` as
long as the manager would give the same handle for its name.

* `tables_isolated`: a call on one table, through the manager or a kept handle, leaves the others,
  and a created table starts empty.
-/

import Yadb.Table.Isolation

namespace Yadb

open Foundation

namespace TableManager

/-- A handle, and the name that it was got for. -/
structure HeldTable where
  name : Bytes
  handle : TableHandle

/-- A manager, and the handles that its callers keep. -/
structure Holding where
  manager : Catalog × Storage
  held : List HeldTable

/-- A call on a handle. -/
inductive RowCall
  | insertRow (values : List Value) (place : Placement)
  | updateRow (rowId : RowId) (values : List Value) (place : Placement)
  | deleteRow (rowId : RowId)

def RowCall.run (handle : TableHandle) : RowCall → Call Unit
  | .insertRow values place => do
      let _ ← handle.insertRow values place
  | .updateRow rowId values place => do
      let _ ← handle.updateRow rowId values place
  | .deleteRow rowId => handle.deleteRow rowId

inductive HeldOp
  | manager (op : Op)
  | getTable (name : Bytes)
  | row (index : Nat) (call : RowCall)

/-- The name that the call is about. -/
def HeldOp.name (state : Holding) : HeldOp → Option Bytes
  | .manager op => some op.name
  | .getTable name => some name
  | .row index _ => state.held[index]?.map HeldTable.name

def heldStep (state : Holding) : HeldOp → Except CallFailure Bool × Holding
  | .manager op => ((step state.manager op).1, ⟨(step state.manager op).2, state.held⟩)
  | .getTable name => match getTable state.manager.1 name state.manager.2 with
    | (.ok (some handle), storage) =>
        (.ok true, ⟨(state.manager.1, storage), state.held ++ [⟨name, handle⟩]⟩)
    | (.ok none, storage) => (.ok false, ⟨(state.manager.1, storage), state.held⟩)
    | (.error failure, storage) => (.error failure, ⟨(state.manager.1, storage), state.held⟩)
  | .row index call => match state.held[index]? with
    | none => (.ok false, state)
    | some table => match call.run table.handle state.manager.2 with
      | (.ok (), storage) => (.ok true, ⟨(state.manager.1, storage), state.held⟩)
      | (.error failure, storage) => (.error failure, ⟨(state.manager.1, storage), state.held⟩)

def heldMachine : Machine Holding HeldOp (Except CallFailure Bool) := ⟨heldStep⟩

/-- The manager would give the same handle again. -/
def Current (state : Holding) (table : HeldTable) : Prop :=
  (getTable state.manager.1 table.name state.manager.2).1.toOption = some (some table.handle)

instance (state : Holding) (table : HeldTable) : Decidable (Current state table) :=
  inferInstanceAs (Decidable (_ = _))

/-- The disk factory is asked for new names only, and no handle is used after its file was
deleted. -/
def Proper (state : Holding) : HeldOp → Prop
  | .manager op => CreatesNew state.manager op
  | .getTable _ => True
  | .row index _ => ∀ table ∈ state.held[index]?,
      table.handle.storage.isMemory = true ∨ Current state table

instance (state : Holding) : DecidablePred (Proper state)
  | .manager op => inferInstanceAs (Decidable (CreatesNew state.manager op))
  | .getTable _ => .isTrue trivial
  | .row index _ => inferInstanceAs (Decidable (∀ table ∈ state.held[index]?, _))

/-- The call returns. -/
def HeldReturns (state : Holding) (op : HeldOp) : Prop :=
  (heldMachine.answer state op).toBool = true

instance (state : Holding) (op : HeldOp) : Decidable (HeldReturns state op) :=
  inferInstanceAs (Decidable (_ = _))

/-- **The call leaves the other tables**: whether they exist, their types and schemas and their
rows. A table that it creates has no rows. -/
def Isolated (state : Holding) (op : HeldOp) : Prop :=
  (∀ other, op.name state ≠ some other → ¬ IsCatalogName other →
    tableExists (heldMachine.next state op).manager.1 other = tableExists state.manager.1 other ∧
      (heldMachine.next state op).manager.1.tableInfo other = state.manager.1.tableInfo other ∧
      scanOf (heldMachine.next state op).manager other = scanOf state.manager other) ∧
  match op with
  | .manager (.createTable name _ _ _) => heldMachine.answer state op = .ok true →
      scanOf (heldMachine.next state op).manager name = .ok (some [])
  | _ => True

variable {engine type : TableType} {names names' : Names} {schemaOf schemaOf' : TableRef → Schema}
  {catalog catalog' : Catalog} {storage storage' : Storage} {name other : Bytes}
  {table : HeldTable} {state : Holding} {op : HeldOp}

/-- No other name has the table of the handle, whose rows have its schema. -/
structure OwnTable (names : Names) (schemaOf : TableRef → Schema) (storage : Storage)
    (table : HeldTable) : Prop where
  allocated : storage.Allocated table.handle.storage
  schema : schemaOf table.handle.storage = table.handle.schema
  own : ∀ type other, names type other = some table.handle.storage → other = table.name

/-- A table in memory stays the one of its handle, also when it is deleted. -/
theorem OwnTable.later (own : OwnTable names schemaOf storage table)
    (isMemory : table.handle.storage.isMemory = true)
    (leaves : Leaves name names schemaOf catalog storage names' schemaOf' catalog' storage') :
    OwnTable names' schemaOf' storage' table := by
  refine ⟨?_, (leaves.schemas _ own.allocated).trans own.schema, fun type other isRef =>
    own.own type other (leaves.noNew type other _ isRef own.allocated)⟩
  have allocated := own.allocated
  cases isRef : table.handle.storage with
  | memory address =>
      rw [isRef] at allocated
      exact leaves.memory address allocated
  | file fileId =>
      rw [isRef] at isMemory
      cases isMemory

/-- **A manager with kept handles**, of which those in memory keep their tables. -/
structure GoodHolding (engine : TableType) (names : Names) (schemaOf : TableRef → Schema)
    (state : Holding) : Prop where
  good : Good engine names schemaOf state.manager.1 state.manager.2
  held : ∀ table ∈ state.held, table.handle.storage.isMemory = true →
    OwnTable names schemaOf state.manager.2 table

namespace GoodHolding

theorem keepHeld (holding : GoodHolding engine names schemaOf state)
    (leaves : Leaves name names schemaOf state.manager.1 state.manager.2 names' schemaOf' catalog'
      storage') : ∀ table ∈ state.held, table.handle.storage.isMemory = true →
      OwnTable names' schemaOf' storage' table :=
  fun table member isMemory => (holding.held table member isMemory).later isMemory leaves

/-- **A handle that may be used** is on the table of its name. -/
theorem proper (holding : GoodHolding engine names schemaOf state) (member : table ∈ state.held)
    (proper : table.handle.storage.isMemory = true ∨ Current state table) :
    schemaOf table.handle.storage = table.handle.schema ∧
      table.handle.storage ≠ DiskTableFactory.mappingTable.storage ∧
      ∀ type other, names type other = some table.handle.storage → other = table.name := by
  rcases proper with isMemory | current
  · have own := holding.held table member isMemory
    refine ⟨own.schema, fun same => ?_, own.own⟩
    rw [same] at isMemory
    cases isMemory
  · obtain ⟨storage', got⟩ : ∃ storage', getTable state.manager.1 table.name state.manager.2
        = (.ok (some table.handle), storage') := by
      rw [Current] at current
      cases got : getTable state.manager.1 table.name state.manager.2 with
      | mk outcome storage' =>
          rw [got] at current
          cases outcome with
          | error failure => cases current
          | ok found => exact ⟨storage', by rw [Option.some.inj current]⟩
    obtain ⟨isSchema, notMapping, _, own⟩ := of_getTable holding.good got
    exact ⟨isSchema, notMapping, own⟩

end GoodHolding

theorem rowCall_moves (call : RowCall) (handle : TableHandle)
    (isSchema : schemaOf handle.storage = handle.schema) :
    (call.run handle).Moves (Rewrites (· = handle.storage) schemaOf) := by
  cases call with
  | insertRow values place => exact moves_unit (insertRow_moves handle values isSchema place)
  | updateRow rowId values place =>
      exact moves_unit (updateRow_moves handle values isSchema rowId place)
  | deleteRow rowId => exact storageDelete_moves schemaOf handle.storage rowId

/-- What a call on a kept handle does to the storage, however it ends. -/
theorem next_row {index : Nat} (found : state.held[index]? = some table) (call : RowCall) :
    heldMachine.next state (.row index call)
      = ⟨(state.manager.1, (call.run table.handle state.manager.2).2), state.held⟩ := by
  show (heldStep state _).2 = _
  simp only [heldStep, found]
  cases call.run table.handle state.manager.2 with
  | mk outcome storage' => cases outcome <;> rfl

theorem next_row_none {index : Nat} (missing : state.held[index]? = none) (call : RowCall) :
    heldMachine.next state (.row index call) = state := by
  show (heldStep state _).2 = _
  rw [heldStep, missing]

/-- **One call** that returns keeps a manager good with the handles in memory, and leaves the tables
of the other names. -/
theorem held_good (holding : GoodHolding engine names schemaOf state)
    (returns : HeldReturns state op) (proper : Proper state op) :
    ∃ names' schemaOf', GoodHolding engine names' schemaOf' (heldMachine.next state op) ∧
      ∀ other, op.name state ≠ some other → ∃ name, other ≠ name ∧
        Leaves name names schemaOf state.manager.1 state.manager.2 names' schemaOf'
          (heldMachine.next state op).manager.1 (heldMachine.next state op).manager.2 := by
  cases op with
  | manager op =>
      obtain ⟨answer, catalog', storage', run, _, next⟩ := of_returns returns
      obtain ⟨names', schemaOf', good', leaves⟩ := call_good holding.good proper run
      have isNext : heldMachine.next state (.manager op) = ⟨(catalog', storage'), state.held⟩ :=
        congrArg (Holding.mk · state.held) next
      rw [isNext]
      exact ⟨names', schemaOf', ⟨good', holding.keepHeld leaves⟩, fun other different =>
        ⟨op.name, fun same => different (congrArg some same.symm), leaves⟩⟩
  | getTable name =>
      obtain ⟨good', leaves⟩ := getTable_leaves holding.good name
      have others : ∀ other, HeldOp.name state (.getTable name) ≠ some other → other ≠ name :=
        fun other different same => different (congrArg some same.symm)
      have isNext : heldMachine.next state (.getTable name) = (heldStep state _).2 := rfl
      rw [heldStep] at isNext
      cases got : getTable state.manager.1 name state.manager.2 with
      | mk outcome storage' =>
          rw [got] at isNext good' leaves
          cases outcome with
          | error failure =>
              rw [isNext]
              exact ⟨names, schemaOf, ⟨good', holding.keepHeld leaves⟩, fun other different =>
                ⟨name, others other different, leaves⟩⟩
          | ok found =>
              cases found with
              | none =>
                  rw [isNext]
                  exact ⟨names, schemaOf, ⟨good', holding.keepHeld leaves⟩, fun other different =>
                    ⟨name, others other different, leaves⟩⟩
              | some handle =>
                  rw [isNext]
                  obtain ⟨isSchema, _, allocated, own⟩ := of_getTable holding.good got
                  refine ⟨names, schemaOf, ⟨good', fun table member isMemory => ?_⟩,
                    fun other different => ⟨name, others other different, leaves⟩⟩
                  rcases List.mem_append.mp member with old | new
                  · exact holding.keepHeld leaves table old isMemory
                  · cases List.mem_singleton.mp new
                    have ownTable : OwnTable names schemaOf state.manager.2 ⟨name, handle⟩ :=
                      ⟨allocated, isSchema, own⟩
                    exact ownTable.later isMemory leaves
  | row index call =>
      cases found : state.held[index]? with
      | none =>
          rw [next_row_none found]
          exact ⟨names, schemaOf, holding, fun other _ =>
            ⟨0 :: other, (List.cons_ne_self 0 other).symm, leaves_refl _ _ _ _ _⟩⟩
      | some table =>
          obtain ⟨isSchema, notMapping, own⟩ :=
            holding.proper (List.mem_of_getElem? found) (proper table found)
          obtain ⟨good', leaves⟩ :=
            handle_good holding.good (rowCall_moves call table.handle isSchema) notMapping own
          rw [next_row found]
          refine ⟨names, schemaOf, ⟨good', holding.keepHeld leaves⟩, fun other different =>
            ⟨table.name, fun same => different ?_, leaves⟩⟩
          show state.held[index]?.map HeldTable.name = some other
          rw [found, same]
          rfl

/-- What a call on one table leaves of the others. -/
theorem Good.unchanged (good : Good engine names schemaOf catalog storage)
    (good' : Good engine names' schemaOf' catalog' storage')
    (leaves : Leaves name names schemaOf catalog storage names' schemaOf' catalog' storage')
    (different : other ≠ name) (notCatalog : ¬ IsCatalogName other) :
    catalog'.tableInfo other = catalog.tableInfo other ∧
      scanOf (catalog', storage') other = scanOf (catalog, storage) other := by
  have info := leaves.info other different
  refine ⟨info, ?_⟩
  rw [scanOf_good good', scanOf_good good, info]
  cases known : catalog.tableInfo other with
  | none => rfl
  | some table =>
      rw [Option.bind_some, Option.bind_some, leaves.others _ _ different]
      cases found : names table.type other with
      | none => rfl
      | some ref =>
          exact congrArg Except.ok (leaves.rows _ other ref different found fun owned =>
            notCatalog (good.ownNames _ _ _ found owned))

/-- Some view of the manager and its kept handles is good. -/
def HeldSound (engine : TableType) (state : Holding) : Prop :=
  ∃ names schemaOf, GoodHolding engine names schemaOf state

theorem step_heldSound (sound : HeldSound engine state)
    (allowed : HeldReturns state op ∧ Proper state op) :
    HeldSound engine (heldMachine.next state op) := by
  obtain ⟨names, schemaOf, holding⟩ := sound
  obtain ⟨names', schemaOf', holding', _⟩ := held_good holding allowed.1 allowed.2
  exact ⟨names', schemaOf', holding'⟩

theorem step_isolated (sound : HeldSound engine state)
    (allowed : HeldReturns state op ∧ Proper state op) : Isolated state op := by
  obtain ⟨names, schemaOf, holding⟩ := sound
  constructor
  · intro other different notCatalog
    obtain ⟨names', schemaOf', holding', others⟩ := held_good holding allowed.1 allowed.2
    obtain ⟨name, differs, leaves⟩ := others other different
    obtain ⟨info, scans⟩ := holding.good.unchanged holding'.good leaves differs notCatalog
    exact ⟨congrArg Option.isSome info, info, scans⟩
  · cases op with
    | getTable name => trivial
    | row index call => trivial
    | manager op =>
        cases op with
        | createTable name type schema choices =>
            intro isTrue
            obtain ⟨answer, catalog', storage', run, isAnswer, next⟩ := of_returns allowed.1
            obtain ⟨names', schemaOf', good', _, created⟩ :=
              createTable_good holding.good allowed.2 run
            have isTrue : machine.answer state.manager _ = .ok true := isTrue
            rw [isAnswer, Except.ok.injEq] at isTrue
            obtain ⟨ref, isRef, isEmpty, isInfo⟩ := created isTrue
            show scanOf (machine.next state.manager _) name = _
            rw [next, scanOf_good good', isInfo, Option.bind_some, isRef, Option.bind_some, isEmpty]
        | deleteTable name => trivial
        | insertRow name values place => trivial
        | updateRow name rowId values place => trivial
        | deleteRow name rowId => trivial

/-- **Tables are isolated from each other** in every run of calls on a manager and on the handles
that it gave, as long as the calls return, the disk factory is asked for new names only and no
handle is used after its file was deleted. -/
theorem tables_isolated (engine : TableType) {setup : Catalog.Setup} {manager : Catalog × Storage}
    (made : construct engine setup .empty = (.ok manager.1, manager.2)) (ops : List HeldOp)
    (returns : heldMachine.Along HeldReturns ⟨manager, []⟩ ops)
    (proper : heldMachine.Along Proper ⟨manager, []⟩ ops) :
    heldMachine.Along Isolated ⟨manager, []⟩ ops := by
  obtain ⟨names, schemaOf, good⟩ := sound_of_construct made
  have sound : HeldSound engine ⟨manager, []⟩ := ⟨names, schemaOf, good, List.forall_mem_nil _⟩
  exact Machine.along_of_step (fun _ _ sound allowed => step_heldSound sound allowed)
    (fun _ _ sound allowed => step_isolated sound allowed) sound (returns.and proper)

/-! ### Samples -/

/-- Handles in use while tables come and go, one of them after its table in memory was deleted. -/
def handlesInUse : List HeldOp :=
  [.manager (.createTable [7] .disk [⟨[1], 0⟩] (sampleChoices 7 2)), .getTable [7],
    .manager (.createTable [8] .inMemory [⟨[1], 1⟩] (sampleChoices 8 3)), .getTable [8],
    .row 0 (.insertRow [.i32 5] (Catalog.counted 0)),
    .row 1 (.insertRow [.string [9]] (Catalog.counted 0)), .manager (.deleteTable [8]),
    .manager (.createTable [8] .inMemory [⟨[2], 0⟩] (sampleChoices 8 4)),
    .row 1 (.updateRow 0 [.string [10]] (Catalog.counted 1)), .row 0 (.deleteRow 0),
    .manager (.deleteTable [7]),
    .manager (.createTable [7] .disk [⟨[2], 1⟩] (sampleChoices 7 5))]

theorem handlesInUse_isolated : heldMachine.Along Isolated ⟨started .disk, []⟩ handlesInUse :=
  tables_isolated .disk (construct_started .disk) handlesInUse (by decide +kernel)
    (by decide +kernel)

/-- Deleting the second table with the name of a catalog table deletes the file of the catalog, and
the next table may get it. -/
def catalogFileTaken : List HeldOp :=
  catalogAgain.map .manager ++ [.manager (.deleteTable tableCatalogName),
    .manager (.createTable [7] .disk [⟨[1], 0⟩] (sampleChoices 5 3)),
    .manager (.createTable [8] .inMemory [⟨[1], 0⟩] (sampleChoices 8 4))]

/-- A handle whose file was deleted, and has the next table. -/
def fileTaken : List HeldOp :=
  [.manager (.createTable [7] .disk [⟨[1], 0⟩] (sampleChoices 7 2)), .getTable [7],
    .manager (.deleteTable [7]),
    .manager (.createTable [8] .disk [⟨[1], 0⟩] (sampleChoices 7 3)),
    .row 0 (.insertRow [.i32 5] (Catalog.counted 0))]

/-- How many rows a scan of the table yields. -/
def countOf (state : Holding) (name : Bytes) : Option (Option Nat) :=
  (scanOf state.manager name).toOption.map (Option.map List.length)

theorem Isolated.count (isolated : Isolated state op) (different : op.name state ≠ some other)
    (notCatalog : ¬ IsCatalogName other) :
    countOf (heldMachine.next state op) other = countOf state other :=
  congrArg (fun rows => rows.toOption.map (Option.map List.length))
    (isolated.1 other different notCatalog).2.2

/-- The table in the file of the catalog gets a row when another table is created, and the table in
the file of a kept handle gets the rows of the handle. -/
theorem filesTaken_break :
    construct .disk Catalog.sampleSetup .empty = (.ok (started .disk).1, (started .disk).2) ∧
      (heldMachine.Along HeldReturns ⟨started .disk, []⟩ catalogFileTaken ∧
        ¬ heldMachine.Along Isolated ⟨started .disk, []⟩ catalogFileTaken) ∧
      heldMachine.Along HeldReturns ⟨started .disk, []⟩ fileTaken ∧
        ¬ heldMachine.Along Isolated ⟨started .disk, []⟩ fileTaken := by
  refine ⟨construct_started .disk, ⟨by decide +kernel, fun along => ?_⟩, by decide +kernel,
    fun along => ?_⟩
  · obtain ⟨_, _, _, _, isolated, _⟩ := along
    have same := isolated.count (by decide) (by decide : ¬ IsCatalogName [7])
    revert same
    decide +kernel
  · obtain ⟨_, _, _, _, isolated, _⟩ := along
    have same := isolated.count (by decide +kernel) (by decide : ¬ IsCatalogName [8])
    revert same
    decide +kernel

end TableManager

end Yadb
