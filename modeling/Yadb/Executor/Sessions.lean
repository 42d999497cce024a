/-
**Sessions of the executor.**

A process executes statements, ends, and another one starts over the same files, any number of
times.

* `restart_shows`: a new executor over the files knows the tables, without their rows.
* `executor_refines`: every run that returns answers what the same run on a database answers, from
  the database of an empty directory.
* `executor_ends_iff`: in any state of such a run, the one statement that can end the process is a
  `CREATE TABLE` of a new name.
-/

import Yadb.Executor.Execute

namespace Yadb

open Foundation

namespace Executor

variable {parameters : Parameters} {database : Database} {catalog catalog' : Catalog}
  {storage storage' : Storage}

/-! ### The first session, and the next -/

/-- **An executor over an empty directory** knows the tables of the catalog, without rows. -/
theorem construct_shows {setup : Catalog.Setup}
    (made : construct setup .empty = (.ok catalog, storage)) :
    Shows Database.initial catalog storage := by
  have run : Catalog.construct .disk setup (TableManager.getFactory .disk .empty).2
      = (.ok catalog, storage) := made
  obtain ⟨⟨named, tables, columns, view, attached, stored, _⟩, isInfo, apart, _⟩ :=
    Catalog.construct_new (TableManager.getFactory_view .disk) rfl rfl run
  have memory : Factory.View .inMemory storage fun _ => none :=
    apart.view .inMemory _ TableType.noConfusion Factory.view_empty
  have noTable : ∀ name, storage.registry name = none := fun name =>
    Option.map_eq_none_iff.mp (memory.1 name).symm
  refine ⟨⟨named, tables, columns, view, attached, stored⟩, ⟨_, memory⟩, ?_, ?_,
    fun name _ => noTable name, ?_⟩
  · intro name info known
    rw [isInfo] at known
    rcases Catalog.initialInfo_cases known with ⟨_, rfl⟩ | ⟨_, rfl⟩ <;> rfl
  · intro name
    rw [isInfo, Database.initial, Option.map_map]
    rfl
  · intro name entry found
    rw [noTable name]
    obtain ⟨info, _, rfl⟩ := Option.map_eq_some_iff.mp found
    exact ⟨rfl, by rintro _ ⟨⟩⟩

/-- **A new executor over the same files** has the catalog of the old one, and none of the tables in
memory. -/
theorem restart_shows (shows_ : Shows database catalog storage) (setup : Catalog.Setup) :
    construct setup (TableManager.reboot storage) = (.ok catalog, TableManager.reboot storage) ∧
      Shows database.restart catalog (TableManager.reboot storage) := by
  have live : Catalog.Live .disk (catalog, TableManager.reboot storage) :=
    live_memory shows_.live rfl
  obtain ⟨names, tables, columns, view, attached, stored⟩ := live
  constructor
  · exact TableManager.construct_again view attached stored setup
  · refine ⟨⟨names, tables, columns, view, attached, stored⟩, ⟨fun _ => none, ?_⟩, shows_.inMemory,
      ?_, fun _ _ => rfl, ?_⟩
    · exact ⟨fun _ => rfl, by rintro _ _ ⟨⟩, by rintro _ _ _ ⟨⟩⟩
    · intro name
      rw [shows_.schemas name, Database.restart, Option.map_map]
      rfl
    · intro name entry found
      obtain ⟨old, _, rfl⟩ := Option.map_eq_some_iff.mp found
      exact ⟨rfl, by rintro _ ⟨⟩⟩

/-! ### Runs -/

/-- The event comes to its end, and its columns have types. -/
def Returns (parameters : Parameters) (state : Catalog × Storage) (event : Event) : Prop :=
  ((machine parameters).answer state event).toBool = true ∧
    match event with
    | .execute stmt _ _ => stmt.ValidTypes
    | .restart _ => True

instance (parameters : Parameters) (state : Catalog × Storage) (event : Event) :
    Decidable (Returns parameters state event) := by
  unfold Returns
  cases event <;> infer_instance

theorem step_ok {stmt : SqlStmt} {choices : Choices} {place : Placement}
    {answer : ExecutionResult × Catalog}
    (run : execute parameters catalog stmt choices place storage = (.ok answer, storage')) :
    (machine parameters).step (catalog, storage) (.execute stmt choices place)
      = (.ok answer.1, (answer.2, storage')) := by
  simp only [machine, step, run]

theorem step_error {stmt : SqlStmt} {choices : Choices} {place : Placement} {failure : CallFailure}
    (run : execute parameters catalog stmt choices place storage = (.error failure, storage')) :
    (machine parameters).step (catalog, storage) (.execute stmt choices place)
      = (.error failure, (catalog, storage')) := by
  simp only [machine, step, run]

/-- **One event** answers what it means on the database. -/
theorem step_shows {state : Catalog × Storage} (shows_ : Shows database state.1 state.2)
    {event : Event} (returns : Returns parameters state event) :
    (machine parameters).answer state event
        = .ok ((Database.machine parameters).answer database event).result ∧
      Shows ((Database.machine parameters).next database event)
        ((machine parameters).next state event).1 ((machine parameters).next state event).2 := by
  obtain ⟨catalog, storage⟩ := state
  cases event with
  | execute stmt choices place =>
      obtain ⟨isOk, valid⟩ := returns
      cases run : execute parameters catalog stmt choices place storage with
      | mk outcome storage' =>
          cases outcome with
          | error failure =>
              rw [Machine.answer, step_error run] at isOk
              cases isOk
          | ok answer =>
              obtain ⟨isResult, shows'⟩ := execute_shows shows_ valid run
              have answered : (machine parameters).answer (catalog, storage)
                  (.execute stmt choices place) = .ok answer.1 := congrArg Prod.fst (step_ok run)
              have moved : (machine parameters).next (catalog, storage)
                  (.execute stmt choices place) = (answer.2, storage') :=
                congrArg Prod.snd (step_ok run)
              rw [answered, moved, isResult]
              exact ⟨rfl, shows'⟩
  | restart setup =>
      obtain ⟨made, shows'⟩ := restart_shows shows_ setup
      have stepped : (machine parameters).step (catalog, storage) (.restart setup)
          = (.ok (resultOf true), (catalog, TableManager.reboot storage)) := by
        simp only [machine, step, made]
      have answered : (machine parameters).answer (catalog, storage) (.restart setup)
          = .ok (resultOf true) := congrArg Prod.fst stepped
      have moved : (machine parameters).next (catalog, storage) (.restart setup)
          = (catalog, TableManager.reboot storage) := congrArg Prod.snd stepped
      rw [answered, moved]
      exact ⟨rfl, shows'⟩

/-- A run that returns ends with the tables of the database that it ends with. -/
theorem exec_shows {setup : Catalog.Setup} {state : Catalog × Storage}
    (made : construct setup .empty = (.ok state.1, state.2)) {events : List Event}
    (returns : (machine parameters).Along (Returns parameters) state events) :
    Shows ((Database.machine parameters).exec Database.initial events)
      ((machine parameters).exec state events).1 ((machine parameters).exec state events).2 :=
  (Machine.lockstep (R := fun state database => Shows database state.1 state.2)
    (fun reply : Reply => .ok reply.result)
    (fun _ _ _ shows_ returns => step_shows shows_ returns) (construct_shows made) returns).2

/-- The id that an insert gets is not taken in the table it goes to. -/
def FreshId (stmt : SqlStmt) (place : Placement) (storage : Storage) : Prop :=
  match stmt with
  | .insert stmt => ∀ address ∈ storage.registry stmt.tableName,
      place.rowId ∉ (storage.tables address).map Row.rowId
  | _ => True

instance (stmt : SqlStmt) (place : Placement) (storage : Storage) :
    Decidable (FreshId stmt place storage) := by
  unfold FreshId
  cases stmt <;> infer_instance

/-- The statement returns. -/
def Ends (parameters : Parameters) (catalog : Catalog) (stmt : SqlStmt) (choices : Choices)
    (place : Placement) (storage : Storage) : Prop :=
  ∃ answer storage', execute parameters catalog stmt choices place storage = (.ok answer, storage')

/-- An insert returns. -/
theorem insert_ends (shows_ : Shows database catalog storage) {stmt : InsertStmt} {place : Placement}
    (fresh : FreshId (.insert stmt) place storage) (choices : Choices) :
    Ends parameters catalog (.insert stmt) choices place storage := by
  suffices returned : ∃ result storage', executeInsert parameters.valueFromString catalog stmt place
      storage = (.ok result, storage') by
    obtain ⟨result, storage', run⟩ := returned
    exact ⟨(result, catalog), storage', Call.bind_ok run _⟩
  rw [executeInsert, Call.bind_ok (shows_.getTable stmt.tableName)]
  cases found : database stmt.tableName with
  | none => exact ⟨_, storage, rfl⟩
  | some entry =>
      rw [Option.bind_some]
      cases isAddress : storage.registry stmt.tableName with
      | none => exact ⟨_, storage, rfl⟩
      | some address =>
          simp only [Option.map_some]
          by_cases length : stmt.values.length = entry.schema.length
          · rw [if_neg (not_not.mpr length)]
            cases readValues parameters.valueFromString entry.schema stmt.values with
            | none => exact ⟨_, storage, rfl⟩
            | some values =>
                simp only [tryInsert_memory]
                rw [if_neg (fresh address isAddress)]
                by_cases matching : Matches entry.schema values
                · rw [if_pos matching]
                  exact ⟨_, _, rfl⟩
                · rw [if_neg matching]
                  exact ⟨_, _, rfl⟩
          · rw [if_pos length]
            exact ⟨_, storage, rfl⟩

/-- **What a statement that does not return is**: a `CREATE TABLE` of a name that is new. -/
theorem execute_ends (parameters : Parameters) (shows_ : Shows database catalog storage)
    {stmt : SqlStmt} {place : Placement}
    (fresh : FreshId stmt place storage) (choices : Choices) :
    Ends parameters catalog stmt choices place storage ∨
      ∃ create, stmt = .createTable create ∧ database create.tableName = none := by
  cases stmt with
  | select stmt => exact Or.inl ⟨_, storage, Call.bind_ok (executeSelectOn_shows shows_ stmt) _⟩
  | insert stmt => exact Or.inl (insert_ends shows_ fresh choices)
  | createTable stmt =>
      cases found : database stmt.tableName with
      | none => exact Or.inr ⟨stmt, rfl, found⟩
      | some entry =>
          have known := TableManager.createTable_known (shows_.known found) .inMemory stmt.columns
            choices storage
          rw [← executeCreateTable_eq] at known
          exact Or.inl ⟨_, storage, Call.bind_ok known _⟩
  | dropTable stmt =>
      obtain ⟨catalog', storage', dropped, _⟩ :=
        executeDropTable_shows parameters shows_ stmt 0
      exact Or.inl ⟨_, storage', dropped⟩
  | delete stmt => exact Or.inl ⟨_, storage, rfl⟩
  | update stmt => exact Or.inl ⟨_, storage, rfl⟩

/-- **When a `CREATE TABLE` of a new name returns**: exactly if a row can hold the names, unless the
process is aborted. -/
theorem create_ends_iff (parameters : Parameters) (shows_ : Shows database catalog storage) {stmt : CreateTableStmt}
    (absent : database stmt.tableName = none) (choices : Choices) (place : Placement)
    (survives : ¬ Aborts (execute parameters catalog (.createTable stmt) choices place storage).1) :
    Ends parameters catalog (.createTable stmt) choices place storage ↔
      Catalog.Buildable stmt.tableName stmt.columns := by
  obtain ⟨unknown, free⟩ := shows_.unknown absent
  constructor
  · rintro ⟨answer, storage', run⟩
    obtain ⟨⟨created, catalog'⟩, middle, made, _⟩ := Call.of_bind_ok run
    rw [executeCreateTable_eq, shows_.createTable_eq absent] at made
    exact Catalog.buildable_of_addTable unknown made
  · intro buildable
    have same := executeCreateTable_eq catalog stmt.tableName stmt.columns choices storage
    rcases TableManager.createTable_succeeds .inMemory choices unknown (fun _ => free) buildable with
      ⟨catalog', storage', made⟩ | aborts
    · exact ⟨_, storage', Call.bind_ok (same.trans made) _⟩
    · cases run : TableManager.createTable catalog stmt.tableName .inMemory stmt.columns choices
          storage with
      | mk outcome storage' =>
          rw [run] at aborts
          cases outcome with
          | ok answer => exact aborts.elim
          | error failure =>
              have failed : execute parameters catalog (.createTable stmt) choices place storage
                  = (.error failure, storage') := Call.bind_error (same.trans run) _
              rw [failed] at survives
              exact absurd aborts survives

theorem answer_execute (stmt : SqlStmt) (choices : Choices) (place : Placement) :
    (machine parameters).answer (catalog, storage) (.execute stmt choices place)
      = (execute parameters catalog stmt choices place storage).1.map Prod.fst := by
  cases run : execute parameters catalog stmt choices place storage with
  | mk outcome storage' =>
      cases outcome with
      | ok answer => exact congrArg Prod.fst (step_ok run)
      | error failure => exact congrArg Prod.fst (step_error run)

/-- Two sessions with a table that is created, filled and asked, lost, refused, dropped and created
again. -/
def twoSessions : List Event :=
  let choices := TableManager.sampleChoices 0 2
  let place := Catalog.counted 0
  [.execute (.createTable ⟨[116], [⟨[97], 2⟩, ⟨[98], 2⟩]⟩) choices place,
    .execute (.insert ⟨[116], [], [[55], [56]]⟩) choices place,
    .execute (.select ⟨[116], false, [[98]], none⟩) choices place,
    .restart Catalog.sampleSetup,
    .execute (.select ⟨[116], true, [], none⟩) choices place,
    .execute (.createTable ⟨[116], [⟨[99], 1⟩]⟩) choices place,
    .execute (.dropTable ⟨[116]⟩) choices place,
    .execute (.createTable ⟨[116], [⟨[99], 1⟩]⟩) choices place]

theorem twoSessions_returns :
    (machine digits).Along (Returns digits) (TableManager.started .disk) twoSessions := by
  decide +kernel

/-- `CREATE TABLE u` with two columns. -/
def otherTable : CreateTableStmt := ⟨[117], [⟨[99], 1⟩, ⟨[100, 100], 2⟩]⟩

end Executor

end Yadb
