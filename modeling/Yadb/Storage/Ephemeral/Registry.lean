/-
**Clients of one ephemeral table factory.**

Each section that `ephemeral_table_factory.cpp` executes under `registry_mutex_m` is one step, and
any number of clients take turns. `CreateTable` has two: it looks for the name under the shared
lock, and registers a new table under the exclusive lock without looking again.

* `Audit`: the tables that successful creations registered under each name since its last successful
  deletion, read off the answers of the run.
* `Linearized`: since then at most one creation returned `true`, and `GetTable` returns its table.
* `linearized_iff`: it holds throughout a run exactly when every registration finds its name free.
-/

import Yadb.Foundation.Machine
import Yadb.Storage.Disk.PageStore
import Yadb.Storage.Ephemeral.Table

set_option linter.unusedSectionVars false

namespace Yadb

open Foundation

/-- The factory's map from names to table objects, the objects, and what each client is doing: the
name whose absence it has seen, while it is between the sections of `CreateTable`. -/
structure SharedFactory (Client Name : Type) where
  tables : Name → Option Nat := fun _ => none
  objects : Nat → EphemeralTable := fun _ => .empty
  nextObject : Nat := 0
  creating : Client → Option Name := fun _ => none

/-- The sections, by client. `insertRow` uses a table object that the client got before. -/
inductive FactorySection (Client Name : Type)
  | tableExists (client : Client) (name : Name)
  | checkName (client : Client) (name : Name)
  | register (client : Client)
  | getTable (client : Client) (name : Name)
  | deleteTable (client : Client) (name : Name)
  | insertRow (client : Client) (object : Nat) (row : List UInt8)

inductive FactorySectionAnswer (Name : Type)
  | returned (value : Bool)
  /-- `CreateTable` goes on to its second section. -/
  | nameAbsent
  /-- `CreateTable` returns `true`, having registered this object. -/
  | created (name : Name) (object : Nat)
  /-- `DeleteTable` returns `true`. -/
  | deleted (name : Name)
  | table (object : Option Nat)
  | inserted (rowId : RowId)
  /-- The client is not at this section. -/
  | notThere

namespace SharedFactory

variable {Client Name : Type} [DecidableEq Client] [DecidableEq Name]

def tableExists (factory : SharedFactory Client Name) (name : Name) : Bool :=
  (factory.tables name).isSome

def getTable (factory : SharedFactory Client Name) (name : Name) : Option Nat := factory.tables name

/-- The first section of `CreateTable`. -/
def checkName (factory : SharedFactory Client Name) (client : Client) (name : Name) :
    FactorySectionAnswer Name × SharedFactory Client Name :=
  if factory.tableExists name then (.returned false, factory)
  else
    (.nameAbsent,
      { factory with creating := Function.update factory.creating client (some name) })

/-- The second section of `CreateTable`: `tables_m[name] = ...`. -/
def register (factory : SharedFactory Client Name) (client : Client) :
    FactorySectionAnswer Name × SharedFactory Client Name :=
  match factory.creating client with
  | none => (.notThere, factory)
  | some name =>
      (.created name factory.nextObject,
        { tables := Function.update factory.tables name (some factory.nextObject)
          objects := Function.update factory.objects factory.nextObject .empty
          nextObject := factory.nextObject + 1
          creating := Function.update factory.creating client none })

def deleteTable (factory : SharedFactory Client Name) (name : Name) :
    FactorySectionAnswer Name × SharedFactory Client Name :=
  if factory.tableExists name then
    (.deleted name, { factory with tables := Function.update factory.tables name none })
  else (.returned false, factory)

def insertRow (factory : SharedFactory Client Name) (object : Nat) (row : List UInt8) :
    FactorySectionAnswer Name × SharedFactory Client Name :=
  let (rowId, table) := (factory.objects object).insertRow row
  (.inserted rowId, { factory with objects := Function.update factory.objects object table })

/-- A client between the sections of `CreateTable` can only register. -/
def whenFree (factory : SharedFactory Client Name) (client : Client)
    (next : FactorySectionAnswer Name × SharedFactory Client Name) :
    FactorySectionAnswer Name × SharedFactory Client Name :=
  match factory.creating client with
  | none => next
  | some _ => (.notThere, factory)

def step (factory : SharedFactory Client Name) :
    FactorySection Client Name → FactorySectionAnswer Name × SharedFactory Client Name
  | .tableExists client name => factory.whenFree client (.returned (factory.tableExists name), factory)
  | .checkName client name => factory.whenFree client (factory.checkName client name)
  | .register client => factory.register client
  | .getTable client name => factory.whenFree client (.table (factory.getTable name), factory)
  | .deleteTable client name => factory.whenFree client (factory.deleteTable name)
  | .insertRow client object row => factory.whenFree client (factory.insertRow object row)

end SharedFactory

def factorySectionMachine (Client Name : Type) [DecidableEq Client] [DecidableEq Name] :
    Machine (SharedFactory Client Name) (FactorySection Client Name)
      (FactorySectionAnswer Name) := ⟨SharedFactory.step⟩

/-! ### What the answers of a run say -/

/-- The tables registered under each name since its last successful deletion, newest first. -/
abbrev Audit (Name : Type) := Name → List Nat

namespace Audit

variable {Client Name : Type} [DecidableEq Name]

def update (audit : Audit Name) (_ : FactorySection Client Name) :
    FactorySectionAnswer Name → Audit Name
  | .created name object => Function.update audit name (object :: audit name)
  | .deleted name => Function.update audit name []
  | _ => audit

end Audit

/-- The factory with the audit of its run. -/
def auditedFactory (Client Name : Type) [DecidableEq Client] [DecidableEq Name] :
    Machine (SharedFactory Client Name × Audit Name) (FactorySection Client Name)
      (FactorySectionAnswer Name) :=
  (factorySectionMachine Client Name).withReplay Audit.update

namespace SharedFactory

variable {Client Name : Type} [DecidableEq Client] [DecidableEq Name]

/-- Since the last successful deletion of a name at most one creation of it succeeded, and the table
that it registered is the one `GetTable` returns. -/
def Linearized (state : SharedFactory Client Name × Audit Name) : Prop :=
  ∀ name, (state.2 name).length ≤ 1 ∧ ∀ object ∈ state.2 name, state.1.getTable name = some object

/-- A registration finds its name free. -/
def RegistersFree (state : SharedFactory Client Name × Audit Name) :
    FactorySection Client Name → Prop
  | .register client => ∀ name, state.1.creating client = some name → state.1.getTable name = none
  | _ => True

/-- **The invariant.** The audit is what the factory's map holds. -/
def Agrees (state : SharedFactory Client Name × Audit Name) : Prop :=
  ∀ name, state.2 name = (state.1.tables name).toList

theorem Agrees.linearized {state : SharedFactory Client Name × Audit Name} (agrees : Agrees state) :
    Linearized state := by
  intro name
  rw [agrees name, getTable]
  cases state.1.tables name with
  | none => exact ⟨Nat.zero_le _, nofun⟩
  | some object => exact ⟨le_rfl, fun other member => by rw [List.mem_singleton.mp member]⟩

/-- A section that neither registers nor deletes leaves the map and the audit as they are. -/
theorem next_of_quiet {state : SharedFactory Client Name × Audit Name}
    {op : FactorySection Client Name}
    (tables : (state.1.step op).2.tables = state.1.tables)
    (quiet : Audit.update state.2 op (state.1.step op).1 = state.2) (agrees : Agrees state) :
    Agrees ((auditedFactory Client Name).next state op) := by
  intro name
  show Audit.update state.2 op (state.1.step op).1 name = ((state.1.step op).2.tables name).toList
  rw [tables, quiet, agrees name]

/-- **One step keeps the invariant** if a registration finds its name free. -/
theorem agrees_step (state : SharedFactory Client Name × Audit Name)
    (op : FactorySection Client Name) (agrees : Agrees state) (free : RegistersFree state op) :
    Agrees ((auditedFactory Client Name).next state op) := by
  cases op with
  | tableExists client name =>
      apply next_of_quiet _ _ agrees <;> simp only [step, whenFree] <;> split <;> rfl
  | checkName client name =>
      apply next_of_quiet _ _ agrees <;> simp only [step, whenFree, checkName] <;> split <;>
        first | rfl | (split <;> rfl)
  | getTable client name =>
      apply next_of_quiet _ _ agrees <;> simp only [step, whenFree] <;> split <;> rfl
  | insertRow client object row =>
      apply next_of_quiet _ _ agrees <;> simp only [step, whenFree] <;> split <;> rfl
  | register client =>
      cases pending : state.1.creating client with
      | none =>
          apply next_of_quiet _ _ agrees
          · simp only [step, register, pending]
          · simp only [step, register, pending]
            rfl
      | some name =>
          have absent : state.1.tables name = none := free name pending
          intro other
          simp only [auditedFactory, Machine.withReplay, Machine.next, Machine.answer,
            factorySectionMachine, step, register, pending, Audit.update]
          by_cases same : other = name
          · subst same
            rw [Function.update_self, Function.update_self, agrees other, absent]
            rfl
          · rw [Function.update_of_ne same, Function.update_of_ne same]
            exact agrees other
  | deleteTable client name =>
      cases pending : state.1.creating client with
      | some waiting =>
          apply next_of_quiet _ _ agrees
          · simp only [step, whenFree, pending]
          · simp only [step, whenFree, pending]
            rfl
      | none =>
          by_cases known : state.1.tableExists name = true
          · intro other
            simp only [auditedFactory, Machine.withReplay, Machine.next, Machine.answer,
              factorySectionMachine, step, whenFree, pending, deleteTable, known, if_true,
              Audit.update]
            by_cases same : other = name
            · subst same
              rw [Function.update_self, Function.update_self]
              rfl
            · rw [Function.update_of_ne same, Function.update_of_ne same]
              exact agrees other
          · apply next_of_quiet _ _ agrees
            · simp only [step, whenFree, pending, deleteTable, known]
              rfl
            · simp only [step, whenFree, pending, deleteTable, known]
              rfl

/-- A registration of a name that is taken makes a second successful creation. -/
theorem free_of_linearized (state : SharedFactory Client Name × Audit Name)
    (op : FactorySection Client Name) (agrees : Agrees state)
    (linearized : Linearized ((auditedFactory Client Name).next state op)) :
    RegistersFree state op := by
  cases op with
  | register client =>
      intro name pending
      by_contra taken
      obtain ⟨object, registered⟩ := Option.ne_none_iff_exists'.mp taken
      have twice : ((auditedFactory Client Name).next state (.register client)).2 name
          = [state.1.nextObject, object] := by
        simp only [auditedFactory, Machine.withReplay, Machine.next, Machine.answer,
          factorySectionMachine, step, register, pending, Audit.update, Function.update_self]
        rw [agrees name, show state.1.tables name = some object from registered]
        rfl
      have once := (linearized name).1
      rw [twice] at once
      exact absurd once (Nat.not_succ_le_self 1)
  | tableExists client name => trivial
  | checkName client name => trivial
  | getTable client name => trivial
  | deleteTable client name => trivial
  | insertRow client object row => trivial

def start : SharedFactory Client Name × Audit Name := ({}, fun _ => [])

/-- **Concurrent creation**: for every schedule of the sections of any number of clients, creations
and deletions of every name alternate and `GetTable` returns what was registered, throughout the
run, exactly when every registration of the run finds its name free. -/
theorem linearized_iff (ops : List (FactorySection Client Name)) :
    (auditedFactory Client Name).Always Linearized start ops
      ↔ (auditedFactory Client Name).Along RegistersFree start ops := by
  have any : (auditedFactory Client Name).Along (fun _ _ => True) start ops :=
    Machine.along_of_mem fun _ _ _ => trivial
  refine Machine.always_iff_along (J := Agrees) ?_ ?_ ?_ (fun name => rfl) any
  · exact fun state op agrees _ free => agrees_step state op agrees free
  · exact fun state agrees => agrees.linearized
  · exact fun state op agrees _ linearized => free_of_linearized state op agrees linearized

/-- While this holds, a row inserted through the table that a creation registered is in the table
that `GetTable` returns. -/
theorem row_found {state : SharedFactory Client Name × Audit Name} (linearized : Linearized state)
    {name : Name} {object : Nat} (created : object ∈ state.2 name) (row : List UInt8)
    (unused : ∀ rowId, (state.1.objects object).tableData.find rowId ≠ none →
      rowId.toNat ≠ (state.1.objects object).nextRow) :
    (state.1.insertRow object row).2.getTable name = some object ∧
      ∃ rowId, ((state.1.insertRow object row).2.objects object).tableData.find rowId = some row := by
  refine ⟨(linearized name).2 object created, ((state.1.objects object).insertRow row).1, ?_⟩
  show (Function.update state.1.objects object ((state.1.objects object).insertRow row).2
    object).tableData.find _ = some row
  obtain ⟨_, _, found⟩ := EphemeralTable.insertRow_spec (state.1.objects object) row unused
  rw [Function.update_self, found, Function.update_self]

/-- Two clients that look for one name before either registers it. -/
def twoCreators : List (FactorySection (Fin 2) Nat) :=
  (List.finRange 2).map (.checkName · 7) ++ (List.finRange 2).map .register

/-- Both creations of the name return `true`, and the table of the first is lost. -/
theorem twoCreators_not_linearized :
    ¬ (auditedFactory (Fin 2) Nat).Always Linearized start twoCreators := by
  rw [linearized_iff]
  rintro ⟨_, _, _, taken, _⟩
  have absent := taken 7 rfl
  cases absent

end SharedFactory

end Yadb
