/-
**Which tables open with the disk engine.**

The catalog outlives its manager, and so do tables of type Disk. A table in memory goes with the
manager, and its entry in the catalog stays. A `Ledger` says of each name what type its table has
and whether it was made by the manager that there is; a table in memory that was not is lost. The
tables of the catalog are lost from the start: the catalog has them as tables in memory.

* `manager_follows`: the calls of a run answer what the ledger answers, and after it the names open
  that the ledger has not lost.
-/

import Yadb.Table.Openable

namespace Yadb

open Foundation

namespace TableManager

/-- What `Openable` says of one name: its table can be opened, and deleted, when it exists. -/
def Opens (state : Catalog × Storage) (name : Bytes) : Prop :=
  (tableExists state.1 name = true ↔
      ∃ handle, (getTable state.1 name state.2).1 = .ok (some handle)) ∧
    (tableExists state.1 name = true → machine.answer state (.deleteTable name) = .ok true)

/-! ### The ledger -/

structure Ledger.Entry where
  type : TableType
  fresh : Bool
  deriving DecidableEq

abbrev Ledger := Bytes → Option Ledger.Entry

namespace Ledger

/-- A table in memory whose manager is gone. -/
def lost : Entry := ⟨.inMemory, false⟩

def initial : Ledger := fun name => if IsCatalogName name then some lost else none

/-- There is a table under the name, and it opens. -/
def has (ledger : Ledger) (name : Bytes) : Bool :=
  match ledger name with
  | none => false
  | some entry => entry ≠ lost

theorem has_iff {ledger : Ledger} {name : Bytes} :
    ledger.has name = true ↔ ledger name ≠ none ∧ ledger name ≠ some lost := by
  rw [has]
  cases ledger name with
  | none => exact iff_of_false Bool.false_ne_true fun found => found.1 rfl
  | some entry => simp

def restart (ledger : Ledger) : Ledger := fun name =>
  (ledger name).map fun entry => { entry with fresh := false }

def step (ledger : Ledger) : Event → Bool × Ledger
  | .call (.createTable name type _ _) =>
      if (ledger name).isSome then (false, ledger)
      else (true, Function.update ledger name (some ⟨type, true⟩))
  -- A lost table leaves the catalog, and its factory does not know it.
  | .call (.deleteTable name) => (ledger.has name, Function.update ledger name none)
  | .call (.insertRow name _ _) | .call (.updateRow name _ _ _) | .call (.deleteRow name _) =>
      (ledger.has name, ledger)
  | .restart _ => (true, ledger.restart)

def machine : Machine Ledger Event Bool := ⟨step⟩

end Ledger

/-! ### Deleting what a factory has -/

variable {ledger : Ledger} {names : Names} {schemaOf : TableRef → Schema}
  {catalog catalog' : Catalog} {storage storage' : Storage} {name : Bytes} {type : TableType}

/-- `DeleteTable` of a name that the catalog and the factory have returns true. -/
theorem deleteTable_found (good : Good .disk names schemaOf catalog storage) {info : TableInfo}
    (known : catalog.tableInfo name = some info) {ref : TableRef}
    (found : names info.type name = some ref) :
    machine.answer (catalog, storage) (.deleteTable name) = .ok true := by
  obtain ⟨tables, isTables⟩ := rowsOf_of_allocated (good.owned _ (Or.inl rfl)).1
  obtain ⟨columns, isColumns⟩ := rowsOf_of_allocated (good.owned _ (Or.inr rfl)).1
  have tablesTyped := good.typed _ (good.owned _ (Or.inl rfl)).2.1 tables isTables
  have columnsTyped := good.typed _ (good.owned _ (Or.inr rfl)).2.1 columns isColumns
  rw [good.schemas.tables] at tablesTyped
  rw [good.schemas.columns] at columnsTyped
  obtain ⟨middle, removed⟩ := Catalog.removeTable_typed (ownSchemas_different good.schemas) isTables
    tablesTyped isColumns columnsTyped (by rw [known]; rfl : (catalog.tableInfo name).isSome)
  have rewrites := Catalog.removeTable_moves catalog schemaOf name storage
  rw [removed] at rewrites
  have good₁ : Good .disk names schemaOf (catalog.withInfo name none) middle :=
    (good.rewrite rewrites fun owned => (good.owned _ owned).2.1 rfl).withInfo
      (by rintro _ ⟨⟩) (by rintro _ _ _ ⟨⟩)
  obtain ⟨opened, isOpened, _, view, _⟩ := good₁.open_ info.type
  obtain ⟨storage', deleted, _⟩ := Factory.deleteTable_view view found
  have run := deleteTable_run known removed isOpened deleted
  show (step (catalog, storage) (.deleteTable name)).1 = _
  rw [step, call, run]

/-! ### What a restart leaves -/

/-- The names of the factories after a restart. -/
def inFiles (names : Names) : Names := Function.update names .inMemory fun _ => none

@[simp] theorem inFiles_inMemory : inFiles names .inMemory = fun _ => none :=
  Function.update_self ..

@[simp] theorem inFiles_disk : inFiles names .disk = names .disk :=
  Function.update_of_ne TableType.noConfusion ..

theorem of_inFiles {ref : TableRef} (found : inFiles names type name = some ref) :
    names type name = some ref := by
  cases type with
  | inMemory =>
      rw [inFiles_inMemory] at found
      cases found
  | disk => rwa [inFiles_disk] at found

theorem reboot_rows {ref : TableRef} (isFile : ref.isMemory = false) :
    (reboot storage).rowsOf ref = storage.rowsOf ref := by
  cases ref with
  | memory address => cases isFile
  | file fileId => rfl

namespace Good

/-- With the disk engine the tables of the catalog are files. -/
theorem ownFile (good : Good .disk names schemaOf catalog storage) {ref : TableRef}
    (owned : catalog.Owns ref) : ref.isMemory = false :=
  Bool.eq_false_iff.mpr fun isMemory =>
    TableType.noConfusion ((good.owned ref owned).2.2.mp isMemory)

theorem rebootView (good : Good .disk names schemaOf catalog storage) :
    Factory.View .disk (TableManager.reboot storage) (names .disk) := by
  have view : Factory.View .disk storage (names .disk) := good.disk.resolve_right fun none_ => by
    have attached := good.attached rfl
    rw [none_.2] at attached
    cases attached.tables
  exact view.disk rfl

/-- **What is in memory is gone**, and the files are as they were. -/
theorem reboot (good : Good .disk names schemaOf catalog storage) :
    Good .disk (inFiles names) schemaOf catalog (TableManager.reboot storage) := by
  refine ⟨?_, ?_, good.schemas, fun ref owned => ⟨?_, (good.owned ref owned).2⟩,
    fun type other ref found => good.ownNames type other ref (of_inFiles found),
    fun ref notMapping rows isRows => ?_,
    fun other info ref known found => good.recorded other info ref known (of_inFiles found),
    fun _ => ?_, good.inMemory⟩
  · rw [inFiles_inMemory]
    exact ⟨fun _ => rfl, by rintro _ _ ⟨⟩, by rintro _ _ _ ⟨⟩⟩
  · rw [inFiles_disk]
    exact Or.inl good.rebootView
  · have there := (good.owned ref owned).1
    cases ref with
    | memory address => cases good.ownFile owned
    | file fileId => exact there
  · cases ref with
    | memory address =>
        cases isRows
        exact typed_nil _
    | file fileId => exact good.typed _ notMapping rows isRows
  · rw [inFiles_disk]
    exact good.attached rfl

end Good

/-! ### A manager that follows the ledger -/

/-- **The manager follows the ledger**: the catalog has the types of the ledger, and the factories
have the tables that are not lost. -/
structure Follows (ledger : Ledger) (names : Names) (schemaOf : TableRef → Schema)
    (catalog : Catalog) (storage : Storage) : Prop where
  good : Good .disk names schemaOf catalog storage
  stored : ∃ tables columns, Catalog.Stored catalog storage tables columns
  types : ∀ name, (catalog.tableInfo name).map TableInfo.type = (ledger name).map Ledger.Entry.type
  memory : ∀ name, (names .inMemory name).isSome = decide (ledger name = some ⟨.inMemory, true⟩)
  disk : ∀ name fresh, ledger name = some ⟨.disk, fresh⟩ → (names .disk name).isSome = true
  own : ∀ name, IsCatalogName name → ledger name = some Ledger.lost

namespace Follows

theorem unknown (follows : Follows ledger names schemaOf catalog storage) :
    catalog.tableInfo name = none ↔ ledger name = none := by
  rw [← Option.map_eq_none_iff (f := TableInfo.type), follows.types, Option.map_eq_none_iff]

/-- The factory of the type has the table unless it is lost. -/
theorem found (follows : Follows ledger names schemaOf catalog storage) {info : TableInfo}
    (known : catalog.tableInfo name = some info) :
    (names info.type name).isSome = ledger.has name := by
  have same := follows.types name
  rw [known] at same
  obtain ⟨⟨type, fresh⟩, isEntry, isType⟩ := Option.map_eq_some_iff.mp same.symm
  have isType : type = info.type := isType
  subst isType
  rw [Ledger.has, isEntry]
  cases isKind : info.type with
  | inMemory =>
      rw [isKind] at isEntry
      rw [follows.memory, isEntry]
      cases fresh <;> rfl
  | disk =>
      rw [isKind] at isEntry
      rw [follows.disk name fresh isEntry]
      cases fresh <;> rfl

/-- **Which names open.** -/
theorem opens_iff (follows : Follows ledger names schemaOf catalog storage) (name : Bytes) :
    Opens (catalog, storage) name ↔ ledger name ≠ some Ledger.lost := by
  cases known : catalog.tableInfo name with
  | none =>
      have absent : tableExists catalog name = false := by
        rw [tableExists, known]
        rfl
      have notListed := follows.unknown.mp known
      refine iff_of_true ⟨iff_of_false (by rw [absent]; exact Bool.false_ne_true) ?_,
        fun found => ?_⟩ (by rw [notListed]; exact (Option.some_ne_none _).symm)
      · rintro ⟨handle, got⟩
        have got : (getTable catalog name storage).1 = .ok (some handle) := got
        rw [getTable_unknown known] at got
        cases got
      · cases absent.symm.trans found
  | some info =>
      have present : tableExists catalog name = true := by
        rw [tableExists, known]
        rfl
      have listed : ledger name ≠ none := fun none_ => by
        rw [follows.unknown.mpr none_] at known
        cases known
      have same := follows.found known
      obtain ⟨opened, got, _⟩ := getTable_good follows.good name
      rw [known, Option.bind_some] at got
      cases found : names info.type name with
      | none =>
          rw [found] at same got
          refine iff_of_false (fun opens => ?_) fun notLost => ?_
          · obtain ⟨handle, isHandle⟩ := opens.1.mp present
            have isHandle : (getTable catalog name storage).1 = .ok (some handle) := isHandle
            rw [got] at isHandle
            cases isHandle
          · cases same.trans (Ledger.has_iff.mpr ⟨listed, notLost⟩)
      | some ref =>
          rw [found] at same got
          exact iff_of_true ⟨iff_of_true present ⟨_, congrArg Prod.fst got⟩,
            fun _ => deleteTable_found follows.good known found⟩ (Ledger.has_iff.mp same.symm).2

/-- A name that the ledger has not got is in no factory in memory. -/
theorem lacksMemory (follows : Follows ledger names schemaOf catalog storage)
    (other : ∀ fresh, ledger name ≠ some ⟨.inMemory, fresh⟩) : names .inMemory name = none := by
  have isSome := follows.memory name
  rw [decide_eq_false (other true)] at isSome
  exact Option.not_isSome_iff_eq_none.mp (Bool.eq_false_iff.mp isSome)

/-- A new table, in its factory and in the catalog. -/
theorem record (follows : Follows ledger names schemaOf catalog storage)
    {schemaOf' : TableRef → Schema} {schema : Schema} {ref : TableRef}
    (notListed : ledger name = none)
    (good : Good .disk (Good.rename names type name (some ref)) schemaOf'
      (catalog.withInfo name (some ⟨type, schema⟩)) storage')
    (stored : ∃ tables columns,
      Catalog.Stored (catalog.withInfo name (some ⟨type, schema⟩)) storage' tables columns) :
    Follows (Function.update ledger name (some ⟨type, true⟩))
      (Good.rename names type name (some ref)) schemaOf'
      (catalog.withInfo name (some ⟨type, schema⟩)) storage' := by
  refine ⟨good, stored, fun other => ?_, fun other => ?_, fun other fresh isDisk => ?_,
    fun other isCatalog => ?_⟩
  · show Option.map _ (Function.update catalog.tableInfo name _ other) = _
    by_cases isName : other = name
    · rw [isName, Function.update_self, Function.update_self]
      rfl
    · rw [Function.update_of_ne isName, Function.update_of_ne isName, follows.types]
  · by_cases isName : other = name
    · subst isName
      rw [Function.update_self]
      cases type with
      | inMemory =>
          rw [Good.rename_self]
          rfl
      | disk =>
          have lacks : names .inMemory other = none := follows.lacksMemory fun fresh => by
            rw [notListed]
            exact (Option.some_ne_none _).symm
          have unchanged : Good.rename names .disk other (some ref) .inMemory other = none :=
            (congrFun (Function.update_of_ne TableType.noConfusion ..) other).trans lacks
          rw [unchanged]
          rfl
    · rw [Good.rename_of_ne isName, Function.update_of_ne isName, follows.memory]
  · by_cases isName : other = name
    · subst isName
      rw [Function.update_self] at isDisk
      cases isDisk
      rw [Good.rename_self]
      rfl
    · rw [Function.update_of_ne isName] at isDisk
      rw [Good.rename_of_ne isName]
      exact follows.disk other fresh isDisk
  · rw [Function.update_of_ne, follows.own other isCatalog]
    rintro rfl
    rw [follows.own other isCatalog] at notListed
    cases notListed

/-- An entry of the catalog that is gone, and its table. -/
theorem forget (follows : Follows ledger names schemaOf catalog storage) {info : TableInfo}
    (known : catalog.tableInfo name = some info) (notCatalog : ¬ IsCatalogName name)
    (good : Good .disk (Good.rename names info.type name none) schemaOf (catalog.withInfo name none)
      storage')
    (stored : ∃ tables columns,
      Catalog.Stored (catalog.withInfo name none) storage' tables columns) :
    Follows (Function.update ledger name none) (Good.rename names info.type name none) schemaOf
      (catalog.withInfo name none) storage' := by
  refine ⟨good, stored, fun other => ?_, fun other => ?_, fun other fresh isDisk => ?_,
    fun other isCatalog => ?_⟩
  · show Option.map _ (Function.update catalog.tableInfo name none other) = _
    by_cases isName : other = name
    · rw [isName, Function.update_self, Function.update_self]
      rfl
    · rw [Function.update_of_ne isName, Function.update_of_ne isName, follows.types]
  · by_cases isName : other = name
    · subst isName
      have gone : Good.rename names info.type other none .inMemory other = none := by
        cases isKind : info.type with
        | inMemory => rw [Good.rename, Function.update_self, Function.update_self]
        | disk =>
            have isType := follows.types other
            rw [known, Option.map_some, isKind] at isType
            refine (congrFun (Function.update_of_ne TableType.noConfusion ..) other).trans
              (follows.lacksMemory fun fresh isMemory => ?_)
            rw [isMemory] at isType
            cases isType
      rw [gone, Function.update_self]
      rfl
    · rw [Good.rename_of_ne isName, Function.update_of_ne isName, follows.memory]
  · by_cases isName : other = name
    · rw [isName, Function.update_self] at isDisk
      cases isDisk
    · rw [Function.update_of_ne isName] at isDisk
      rw [Good.rename_of_ne isName]
      exact follows.disk other fresh isDisk
  · rw [Function.update_of_ne, follows.own other isCatalog]
    rintro rfl
    exact notCatalog isCatalog

/-! ### One event -/

/-- **`CreateTable`** -/
theorem createTable (follows : Follows ledger names schemaOf catalog storage) {schema : Schema}
    {choices : Choices} {created : Bool} (valid : ∀ attr ∈ schema, isValidTypeId attr.type.toNat)
    (new : CreatesNew (catalog, storage) (.createTable name type schema choices))
    (run : TableManager.createTable catalog name type schema choices storage
      = (.ok (created, catalog'), storage')) :
    created = (Ledger.step ledger (.call (.createTable name type schema choices))).1 ∧
      ∃ names' schemaOf',
        Follows (Ledger.step ledger (.call (.createTable name type schema choices))).2 names'
          schemaOf' catalog' storage' := by
  cases known : catalog.tableInfo name with
  | some info =>
      have listed : (ledger name).isSome = true := by
        rw [Option.isSome_iff_ne_none]
        intro none_
        rw [follows.unknown.mpr none_] at known
        cases known
      rw [createTable_known known] at run
      cases run
      rw [Ledger.step, if_pos listed]
      exact ⟨rfl, names, schemaOf, follows⟩
  | none =>
      have notListed := follows.unknown.mp known
      have lacks : names type name = none := by
        cases type with
        | inMemory =>
            refine follows.lacksMemory fun fresh => ?_
            rw [notListed]
            exact (Option.some_ne_none _).symm
        | disk => exact createsNew_lacks follows.good known new
      obtain ⟨rfl, rfl, ⟨middle, same, added⟩, ref, good', _⟩ :=
        createTable_new follows.good known lacks run
      obtain ⟨tables, columns, stored⟩ := follows.stored
      obtain ⟨_, _, _, stored'⟩ := Catalog.addTable_stored (stored.congr same) valid added
      rw [Ledger.step, if_neg (by rw [notListed]; exact Bool.false_ne_true)]
      exact ⟨rfl, _, _, follows.record notListed good' stored'⟩

/-- **`DeleteTable`** -/
theorem deleteTable (follows : Follows ledger names schemaOf catalog storage) {deleted : Bool}
    (notCatalog : ¬ IsCatalogName name)
    (run : TableManager.deleteTable catalog name storage = (.ok (deleted, catalog'), storage')) :
    deleted = ledger.has name ∧
      ∃ names', Follows (Function.update ledger name none) names' schemaOf catalog' storage' := by
  cases known : catalog.tableInfo name with
  | none =>
      have notListed := follows.unknown.mp known
      rw [deleteTable_unknown known] at run
      cases run
      have same : Function.update ledger name none = ledger := by
        rw [← notListed, Function.update_eq_self]
      rw [same, Ledger.has, notListed]
      exact ⟨rfl, names, follows⟩
  | some info =>
      obtain ⟨rfl, isDeleted, ⟨middle, removed, same⟩, good', _⟩ :=
        deleteTable_gone follows.good known run
      obtain ⟨tables, columns, stored⟩ := follows.stored
      obtain ⟨_, _, _, tables', columns', stored'⟩ := Catalog.removeTable_stored stored removed
      exact ⟨isDeleted.trans (follows.found known), _, follows.forget known notCatalog good'
        ⟨tables', columns', stored'.congr same⟩⟩

/-- **A call on the rows of a table**, which is not one of the catalog. -/
theorem withTable (follows : Follows ledger names schemaOf catalog storage)
    {body : TableHandle → Call Unit} {answer : Bool}
    (moves : ∀ handle : TableHandle, schemaOf handle.storage = handle.schema →
      (body handle).Moves (Rewrites (· = handle.storage) schemaOf))
    (run : TableManager.withTable catalog name body storage = (.ok (answer, catalog'), storage')) :
    answer = ledger.has name ∧ Follows ledger names schemaOf catalog' storage' := by
  obtain ⟨good', _⟩ := withTable_good follows.good moves run
  obtain ⟨opened, got, _, _, rows⟩ := getTable_good follows.good name
  obtain ⟨tables, columns, stored⟩ := follows.stored
  rw [TableManager.withTable, Call.bind_ok got] at run
  have openedRows : ∀ ref, catalog.Owns ref → opened.rowsOf ref = storage.rowsOf ref :=
    fun ref owned => rows ref (follows.good.owned ref owned).2.1
  have ended : answer = ledger.has name ∧ catalog' = catalog ∧
      ∀ ref, catalog.Owns ref → storage'.rowsOf ref = storage.rowsOf ref := by
    cases known : catalog.tableInfo name with
    | none =>
        rw [known] at run
        cases run
        have notListed := follows.unknown.mp known
        rw [Ledger.has, notListed]
        exact ⟨rfl, rfl, openedRows⟩
    | some info =>
        have same := follows.found known
        rw [known, Option.bind_some] at run
        cases found : names info.type name with
        | none =>
            rw [found] at run same
            cases run
            exact ⟨same, rfl, openedRows⟩
        | some ref =>
            rw [found] at run same
            obtain ⟨_, final, ran, rest⟩ := Call.of_bind_ok run
            cases rest
            have moved := moves ⟨ref, info.schema⟩
              (follows.good.recorded name info ref known found) opened
            rw [ran] at moved
            refine ⟨same, rfl, fun other owned => ?_⟩
            rw [moved.frame.rows other ?_, openedRows other owned]
            -- A table of the catalog is lost, so this one is none.
            rintro rfl
            have isLost := follows.own name (follows.good.ownNames _ _ _ found owned)
            exact (Ledger.has_iff.mp same.symm).2 isLost
  obtain ⟨isAnswer, rfl, same⟩ := ended
  exact ⟨isAnswer, { follows with
    good := good'
    stored := ⟨tables, columns, stored.congr same⟩ }⟩

/-- **The end of a manager, and another one over its files**: it has the same catalog. -/
theorem restart (follows : Follows ledger names schemaOf catalog storage) (setup : Catalog.Setup) :
    construct .disk setup (reboot storage) = (.ok catalog, reboot storage) ∧
      Follows ledger.restart (inFiles names) schemaOf catalog (reboot storage) := by
  obtain ⟨tables, columns, stored⟩ := follows.stored
  have stored' := stored.congr fun ref owned => reboot_rows (follows.good.ownFile owned)
  refine ⟨construct_again follows.good.rebootView (follows.good.attached rfl) stored' setup,
    follows.good.reboot, ⟨tables, columns, stored'⟩, fun other => ?_, fun other => ?_,
    fun other fresh isDisk => ?_, fun other isCatalog => ?_⟩
  · rw [follows.types, Ledger.restart, Option.map_map]
    rfl
  · rw [inFiles_inMemory, Ledger.restart]
    cases ledger other with
    | none => rfl
    | some entry =>
        obtain ⟨type, fresh⟩ := entry
        cases type <;> rfl
  · rw [Ledger.restart] at isDisk
    obtain ⟨entry, isEntry, same⟩ := Option.map_eq_some_iff.mp isDisk
    obtain ⟨type, made⟩ := entry
    cases same
    rw [inFiles_disk]
    exact follows.disk other made isEntry
  · rw [Ledger.restart, follows.own other isCatalog]
    rfl

end Follows

/-! ### Runs -/

/-- Its columns have types, and it deletes no table of the catalog. -/
def Op.Ordinary : Op → Prop
  | .createTable _ _ schema _ => ∀ attr ∈ schema, isValidTypeId attr.type.toNat
  | .deleteTable name => ¬ IsCatalogName name
  | .insertRow _ _ _ | .updateRow _ _ _ _ | .deleteRow _ _ => True

instance : DecidablePred Op.Ordinary
  | .createTable _ _ _ _ => inferInstanceAs (Decidable (∀ _ ∈ _, _))
  | .deleteTable _ => inferInstanceAs (Decidable (¬ _))
  | .insertRow _ _ _ | .updateRow _ _ _ _ | .deleteRow _ _ => .isTrue trivial

/-- The call returns, creates names that the disk factory has not, and is ordinary. -/
def Orderly (state : Catalog × Storage) : Event → Prop
  | .call op => Returns state op ∧ CreatesNew state op ∧ op.Ordinary
  | .restart _ => True

instance (state : Catalog × Storage) : DecidablePred (Orderly state)
  | .call _ => inferInstanceAs (Decidable (_ ∧ _ ∧ _))
  | .restart _ => .isTrue trivial

/-- Some view of the manager follows the ledger. -/
def FollowedBy (state : Catalog × Storage) (ledger : Ledger) : Prop :=
  ∃ names schemaOf, Follows ledger names schemaOf state.1 state.2

/-- **One event** answers what the ledger answers. -/
theorem step_follows {state : Catalog × Storage} (followed : FollowedBy state ledger)
    {event : Event} (orderly : Orderly state event) :
    (eventMachine .disk).answer state event = .ok (Ledger.machine.answer ledger event) ∧
      FollowedBy ((eventMachine .disk).next state event) (Ledger.machine.next ledger event) := by
  obtain ⟨names, schemaOf, follows⟩ := followed
  obtain ⟨catalog, storage⟩ := state
  cases event with
  | call op =>
      obtain ⟨returns, new, ordinary⟩ := orderly
      obtain ⟨answer, catalog', storage', run, answered, moved⟩ := of_returns returns
      suffices ended : answer = (Ledger.step ledger (.call op)).1 ∧
          FollowedBy (catalog', storage') (Ledger.step ledger (.call op)).2 by
        have answered : (eventMachine .disk).answer (catalog, storage) (.call op) = .ok answer :=
          answered
        have moved : (eventMachine .disk).next (catalog, storage) (.call op)
            = (catalog', storage') := moved
        rw [answered, moved, ended.1]
        exact ⟨rfl, ended.2⟩
      cases op with
      | createTable name type schema choices => exact follows.createTable ordinary new run
      | deleteTable name =>
          obtain ⟨isAnswer, names', follows'⟩ := follows.deleteTable ordinary run
          exact ⟨isAnswer, names', schemaOf, follows'⟩
      | insertRow name values place =>
          obtain ⟨isAnswer, follows'⟩ := follows.withTable (fun handle isSchema =>
            moves_unit (insertRow_moves handle values isSchema place)) run
          exact ⟨isAnswer, names, schemaOf, follows'⟩
      | updateRow name rowId values place =>
          obtain ⟨isAnswer, follows'⟩ := follows.withTable (fun handle isSchema =>
            moves_unit (updateRow_moves handle values isSchema rowId place)) run
          exact ⟨isAnswer, names, schemaOf, follows'⟩
      | deleteRow name rowId =>
          obtain ⟨isAnswer, follows'⟩ := follows.withTable (fun handle _ =>
            storageDelete_moves schemaOf handle.storage rowId) run
          exact ⟨isAnswer, names, schemaOf, follows'⟩
  | restart setup =>
      obtain ⟨made, follows'⟩ := follows.restart setup
      have stepped : eventStep .disk (catalog, storage) (.restart setup)
          = (.ok true, (catalog, reboot storage)) := by
        rw [eventStep, made]
      have moved : (eventMachine .disk).next (catalog, storage) (.restart setup)
          = (catalog, reboot storage) := congrArg Prod.snd stepped
      rw [moved]
      exact ⟨congrArg Prod.fst stepped, _, _, follows'⟩

/-- The two tables of a new catalog are tables in memory. -/
theorem initialInfo_types (name : Bytes) : (Catalog.initialInfo name).map TableInfo.type
    = if IsCatalogName name then some .inMemory else none := by
  cases known : Catalog.initialInfo name with
  | none =>
      rw [if_neg]
      · rfl
      · rintro (rfl | rfl)
        · rw [Catalog.initialInfo_tables] at known
          cases known
        · rw [Catalog.initialInfo, Function.update_self] at known
          cases known
  | some info =>
      rcases Catalog.initialInfo_cases known with ⟨rfl, rfl⟩ | ⟨rfl, rfl⟩
      · rfl
      · rfl

/-- A new manager over an empty directory. -/
theorem construct_follows {setup : Catalog.Setup} {state : Catalog × Storage}
    (made : construct .disk setup .empty = (.ok state.1, state.2)) :
    FollowedBy state Ledger.initial := by
  have run : Catalog.construct .disk setup (getFactory .disk .empty).2 = (.ok state.1, state.2) :=
    made
  obtain ⟨⟨_, tables, columns, _, _, stored, _⟩, _⟩ :=
    Catalog.construct_new (getFactory_view .disk) rfl rfl run
  obtain ⟨names, schemaOf, good, noNames, _, isInfo⟩ := construct_good made
  refine ⟨names, schemaOf, good, ⟨tables, columns, stored⟩, fun name => ?_, fun name => ?_,
    fun name fresh isDisk => ?_, fun name isCatalog => if_pos isCatalog⟩
  · rw [isInfo, initialInfo_types, Ledger.initial]
    split <;> rfl
  · rw [noNames .inMemory TableType.noConfusion, Ledger.initial]
    by_cases isCatalog : IsCatalogName name
    · rw [if_pos isCatalog]
      rfl
    · rw [if_neg isCatalog]
      rfl
  · rw [Ledger.initial] at isDisk
    by_cases isCatalog : IsCatalogName name
    · rw [if_pos isCatalog] at isDisk
      cases isDisk
    · rw [if_neg isCatalog] at isDisk
      cases isDisk

/-- **Which tables open, with the disk engine.** From an empty directory, every run of calls and
restarts answers what the ledger answers, and after it a name opens exactly when the ledger has not
lost it: a table of type Disk always, one in memory until its manager ends, one of the catalog
never. -/
theorem manager_follows {setup : Catalog.Setup} {state : Catalog × Storage}
    (made : construct .disk setup .empty = (.ok state.1, state.2)) (events : List Event)
    (orderly : (eventMachine .disk).Along Orderly state events) :
    ((eventMachine .disk).trace state events).map Prod.snd
        = (Ledger.machine.trace Ledger.initial events).map (fun entry => .ok entry.2) ∧
      ∀ name, Opens ((eventMachine .disk).exec state events) name ↔
        Ledger.machine.exec Ledger.initial events name ≠ some Ledger.lost := by
  obtain ⟨answers, _, _, follows⟩ := Machine.lockstep (R := FollowedBy) Except.ok
    (fun _ _ _ followed orderly => step_follows followed orderly) (construct_follows made) orderly
  exact ⟨answers, follows.opens_iff⟩

/-- Tables of both types, a restart, and a table under the name of a lost one. -/
def restarted : List Event :=
  [.call (.createTable [7] .disk [⟨[1], 0⟩] (sampleChoices 7 2)),
    .call (.createTable [8] .inMemory [⟨[1], 1⟩] (sampleChoices 8 3)),
    .call (.createTable [9] .inMemory [⟨[2], 1⟩] (sampleChoices 9 4)), .restart Catalog.sampleSetup,
    .call (.insertRow [7] [.i32 5] (Catalog.counted 0)), .call (.deleteTable [8]),
    .call (.createTable [8] .inMemory [⟨[1], 0⟩] (sampleChoices 8 5))]

theorem restarted_opens : Opens ((eventMachine .disk).exec (started .disk) restarted) [7] ∧
    Opens ((eventMachine .disk).exec (started .disk) restarted) [8] ∧
    ¬ Opens ((eventMachine .disk).exec (started .disk) restarted) [9] := by
  have opens := (manager_follows (construct_started .disk) restarted (by decide +kernel)).2
  exact ⟨(opens _).mpr (by decide), (opens _).mpr (by decide), fun found =>
    (opens _).mp found (by decide)⟩

end TableManager

end Yadb
