/-
**The execution of an `INSERT`.**

`insert_stmt` of the grammar and `Executor::execute(InsertStmt)`: the literals are read at the types
of the schema, one after the other, and the row is inserted through the handle. The parser keeps the
list of columns, and the executor does not look at it.

* `InsertStmt`, `executeInsert`: over the parser of literals (`ValueFromString`) and the manager.
* `Assigns`: each value is in the column that the statement names for it.
* `InPlace`: the list names the columns of the table, and each literal reads as the one at the place
  of its column in the schema.
* `executeInsert_assigns_iff`: a rejected statement changes no table, and a row that was inserted
  has its values where the statement wants them exactly if the literals are in place.
-/

import Yadb.Executor.SelectRefinement
import Yadb.Table.Isolation

namespace Yadb

open Foundation

/-- Literals are their texts. -/
structure InsertStmt where
  tableName : Bytes
  columns : List Bytes
  values : List Bytes

namespace InsertStmt

/-- The rule without a column list. -/
def ofValues (tableName : Bytes) (values : List Bytes) : InsertStmt := ⟨tableName, [], values⟩

/-- The rule with a column list, which has a first column. -/
def ofColumns (tableName : Bytes) (column : Bytes) (columns values : List Bytes) : InsertStmt :=
  ⟨tableName, column :: columns, values⟩

end InsertStmt

namespace Executor

/-- The loop over the literals. -/
def readValues (valueFromString : TypeId → Bytes → Option Value) :
    Schema → List Bytes → Option (List Value)
  | attr :: schema, text :: texts => do
      let value ← valueFromString attr.type text
      return value :: (← readValues valueFromString schema texts)
  | _, _ => some []

deriving instance DecidableEq for ExecutionResult

/-- `success` alone. -/
def resultOf (success : Bool) : ExecutionResult := ⟨success, none, none⟩

/-- `insert_row` in the `try` that catches every exception. -/
def tryInsert (handle : TableHandle) (values : List Value) (place : Placement) :
    Call ExecutionResult := fun storage =>
  match handle.insertRow values place storage with
  | (.ok _, storage) => (.ok (resultOf true), storage)
  | (.error failure, storage) =>
      if failure.Throws then (.ok (resultOf false), storage) else (.error failure, storage)

/-- `execute(InsertStmt)`. -/
def executeInsert (valueFromString : TypeId → Bytes → Option Value) (catalog : Catalog)
    (stmt : InsertStmt) (place : Placement) : Call ExecutionResult := do
  match ← TableManager.getTable catalog stmt.tableName with
  | none => return resultOf false
  | some handle =>
      if stmt.values.length ≠ handle.schema.length then return resultOf false
      else match readValues valueFromString handle.schema stmt.values with
        | none => return resultOf false
        | some values => tryInsert handle values place

end Executor

/-! ### What an `INSERT` is for -/

variable {valueFromString : TypeId → Bytes → Option Value} {schema : Schema} {stmt : InsertStmt}
  {row : Bytes}

/-- The column of the row reads the literal, taken at the type of the column. -/
def ReadsLiteral (valueFromString : TypeId → Bytes → Option Value) (schema : Schema) (row : Bytes)
    (pos : Nat) (attr : RelationAttribute) (text : Bytes) : Prop :=
  schema[pos]? = some attr ∧ ∃ value, valueFromString attr.type text = some value ∧
    RowReader.getValue ⟨row, schema⟩ pos = .ok value

/-- Each value is in the column that the statement names for it; without names, in the column at its
place. -/
def Assigns (valueFromString : TypeId → Bytes → Option Value) (schema : Schema) (stmt : InsertStmt)
    (row : Bytes) : Prop :=
  if stmt.columns = [] then
    stmt.values.length = schema.length ∧ ∀ (pos : Nat) (text : Bytes), stmt.values[pos]? = some text →
      ∃ attr, ReadsLiteral valueFromString schema row pos attr text
  else
    (∀ name, name ∈ stmt.columns ↔ name ∈ schema.map RelationAttribute.name) ∧
      ∀ (index : Nat) (name text : Bytes), stmt.columns[index]? = some name →
        stmt.values[index]? = some text →
        ∃ pos attr, attr.name = name ∧ ReadsLiteral valueFromString schema row pos attr text

/-- No column list; or one that names the columns of the table, each with a literal that reads, at
the type of the column, as the literal at the place of the column in the schema. -/
def InPlace (valueFromString : TypeId → Bytes → Option Value) (schema : Schema) (stmt : InsertStmt) :
    Prop :=
  stmt.columns = [] ∨
    (∀ name, name ∈ stmt.columns ↔ name ∈ schema.map RelationAttribute.name) ∧
      ∀ (index pos : Nat) (attr : RelationAttribute) (text text' : Bytes),
        stmt.columns[index]? = some attr.name → schema[pos]? = some attr →
        stmt.values[index]? = some text → stmt.values[pos]? = some text' →
          valueFromString attr.type text = valueFromString attr.type text'

/-- The columns of the table in their order, each named once. -/
theorem inPlace_of_order (distinct : (schema.map RelationAttribute.name).Nodup)
    (order : stmt.columns = schema.map RelationAttribute.name) :
    InPlace valueFromString schema stmt := by
  refine Or.inr ⟨fun name => by rw [order],
    fun index pos attr text text' named isAttr first second => ?_⟩
  have atPos : (schema.map RelationAttribute.name)[pos]? = some attr.name := by
    rw [List.getElem?_map, isAttr]
    rfl
  have inside : index < (schema.map RelationAttribute.name).length := by
    rw [order] at named
    exact (List.getElem?_eq_some_iff.mp named).1
  have same : index = pos := by
    rw [order, ← atPos] at named
    exact (List.getElem?_inj inside distinct).mp named
  rw [same, second] at first
  cases first
  rfl

/-! ### What the executor stores -/

theorem readValues_ok {texts : List Bytes} {values : List Value}
    (length : texts.length = schema.length)
    (read : Executor.readValues valueFromString schema texts = some values) :
    values.length = schema.length ∧ ∀ (pos : Nat) (attr : RelationAttribute) (text : Bytes),
      schema[pos]? = some attr → texts[pos]? = some text →
        valueFromString attr.type text = values[pos]? := by
  induction schema generalizing texts values with
  | nil =>
      cases read
      exact ⟨rfl, nofun⟩
  | cons attr schema ih =>
      cases texts with
      | nil => cases length
      | cons text texts =>
          obtain ⟨value, isValue, rest⟩ := Option.bind_eq_some_iff.mp read
          obtain ⟨values', isValues, isCons⟩ := Option.bind_eq_some_iff.mp rest
          cases isCons
          obtain ⟨sameLength, reads⟩ := ih (Nat.succ.inj length) isValues
          refine ⟨congrArg Nat.succ sameLength, fun pos other otherText isAttr isText => ?_⟩
          cases pos with
          | zero =>
              cases isAttr
              cases isText
              exact isValue
          | succ pos => exact reads pos other otherText isAttr isText

/-- **The literals are stored in the order of the schema.** -/
theorem readsLiteral_of_stored {texts : List Bytes} {values : List Value}
    (length : texts.length = schema.length)
    (read : Executor.readValues valueFromString schema texts = some values)
    (matching : Matches schema values) {pos : Nat} {attr : RelationAttribute} {text : Bytes}
    (isAttr : schema[pos]? = some attr) (isText : texts[pos]? = some text) :
    ReadsLiteral valueFromString schema (rowCode.encodeAll values) pos attr text := by
  obtain ⟨sameLength, reads⟩ := readValues_ok length read
  have inside : pos < values.length := by
    rw [sameLength]
    exact (List.getElem?_eq_some_iff.mp isAttr).1
  refine ⟨isAttr, values[pos], ?_, (decodes_encodeAll matching).2 pos inside⟩
  rw [reads pos attr text isAttr isText, List.getElem?_eq_getElem inside]

/-- **A row stored in the order of the schema** assigns the values as the statement says exactly if
the literals are in place. -/
theorem assigns_iff (distinct : (schema.map RelationAttribute.name).Nodup)
    (length : stmt.values.length = schema.length)
    (stored : ∀ (pos : Nat) (attr : RelationAttribute) (text : Bytes), schema[pos]? = some attr →
      stmt.values[pos]? = some text → ReadsLiteral valueFromString schema row pos attr text) :
    Assigns valueFromString schema stmt row ↔ InPlace valueFromString schema stmt := by
  unfold Assigns InPlace
  by_cases noList : stmt.columns = []
  · rw [if_pos noList]
    refine iff_of_true ⟨length, fun pos text isText => ?_⟩ (Or.inl noList)
    have inside : pos < schema.length := by
      rw [← length]
      exact (List.getElem?_eq_some_iff.mp isText).1
    exact ⟨schema[pos], stored pos _ text (List.getElem?_eq_getElem inside) isText⟩
  · rw [if_neg noList, or_iff_right noList]
    refine and_congr_right fun names => ?_
    constructor
    · intro assigned index pos attr text text' named isAttr first second
      obtain ⟨pos', attr', sameName, isAttr', value, isValue, isRead⟩ :=
        assigned index attr.name text named first
      have samePos : pos' = pos := by
        have inside : pos' < (schema.map RelationAttribute.name).length := by
          rw [List.length_map]
          exact (List.getElem?_eq_some_iff.mp isAttr').1
        refine (List.getElem?_inj inside distinct).mp ?_
        rw [List.getElem?_map, List.getElem?_map, isAttr, isAttr', Option.map_some, Option.map_some,
          sameName]
      subst samePos
      rw [isAttr, Option.some.injEq] at isAttr'
      subst isAttr'
      obtain ⟨_, value', isValue', isRead'⟩ := stored pos' attr text' isAttr second
      have sameValue : value = value' := Except.ok.inj (isRead.symm.trans isRead')
      rw [isValue, isValue', sameValue]
    · intro inPlace index name text named first
      obtain ⟨attr, member, sameName⟩ :=
        List.mem_map.mp ((names name).mp (List.mem_of_getElem? named))
      obtain ⟨pos, isAttr⟩ := List.mem_iff_getElem?.mp member
      have inside : pos < stmt.values.length := by
        rw [length]
        exact (List.getElem?_eq_some_iff.mp isAttr).1
      have second := List.getElem?_eq_getElem inside
      obtain ⟨_, value, isValue, isRead⟩ := stored pos attr _ isAttr second
      refine ⟨pos, attr, sameName, isAttr, value, ?_, isRead⟩
      rw [inPlace index pos attr text _ (sameName ▸ named) isAttr first second]
      exact isValue

/-! ### What the call changes -/

/-- Every table has the rows that it had. -/
def KeepsTables (storage storage' : Storage) : Prop :=
  ∀ ref rows, storage.rowsOf ref = some rows → storage'.rowsOf ref = some rows

theorem KeepsTables.refl (storage : Storage) : KeepsTables storage storage := fun _ _ found => found

theorem KeepsTables.trans {first second third : Storage} (before : KeepsTables first second)
    (after : KeepsTables second third) : KeepsTables first third :=
  fun ref rows found => after ref rows (before ref rows found)

section Keeps

variable {First Second : Type}

theorem keeps_pure (result : First) : (pure result : Call First).Moves KeepsTables :=
  Call.moves_pure .refl result

theorem keeps_bind {first : Call First} {next : First → Call Second}
    (moves : first.Moves KeepsTables) (continues : ∀ result, (next result).Moves KeepsTables) :
    (first >>= next).Moves KeepsTables :=
  Call.moves_bind (fun _ _ _ before after => before.trans after) moves continues

theorem keeps_read (result : Except ReadFailure First) : (Call.read result).Moves KeepsTables :=
  fun storage => .refl storage

/-- The mapping table is made only where there is none. -/
theorem getFactory_keeps (type : TableType) : (TableManager.getFactory type).Moves KeepsTables := by
  intro storage ref rows found
  cases type with
  | inMemory => exact found
  | disk =>
      show (DiskTableFactory.openMappingTable storage).rowsOf ref = some rows
      rw [DiskTableFactory.openMappingTable]
      cases isMapping : storage.files diskTableMappingFileId with
      | some _ => exact found
      | none =>
          show (storage.setRows DiskTableFactory.mappingTable.storage []).rowsOf ref = _
          rw [Storage.rowsOf_setRows, Function.update_of_ne]
          · exact found
          · rintro rfl
            cases isMapping.symm.trans found

theorem factory_getTable_keeps (type : TableType) (name : Bytes) :
    (Factory.getTable type name).Moves KeepsTables := by
  cases type with
  | inMemory => exact fun storage => .refl storage
  | disk =>
      refine keeps_bind (keeps_bind (fun storage => ?_) fun rows => ?_) fun fileId => keeps_pure _
      · rw [Storage.scan_storage]
        exact .refl storage
      · refine keeps_bind (keeps_read _) fun row => ?_
        cases row with
        | none => exact keeps_pure none
        | some row => exact keeps_bind (keeps_read _) fun fileId => keeps_pure _

/-- **`GetTable` changes no table.** -/
theorem getTable_keeps (catalog : Catalog) (name : Bytes) :
    (TableManager.getTable catalog name).Moves KeepsTables := by
  rw [TableManager.getTable]
  cases catalog.tableInfo name with
  | none => exact keeps_pure none
  | some info =>
      exact keeps_bind (getFactory_keeps info.type) fun _ =>
        keeps_bind (factory_getTable_keeps info.type name) fun _ => keeps_pure _

end Keeps

namespace Executor

variable {catalog : Catalog} {place : Placement} {storage storage' opened : Storage}
  {result : ExecutionResult} {handle : TableHandle} {values : List Value}

/-- The row that a call inserted through a handle. -/
def Inserted (handle : TableHandle) (place : Placement) (opened storage' : Storage) (row : Bytes) :
    Prop :=
  ∃ rows, opened.rowsOf handle.storage = some rows ∧
    storage'.rowsOf handle.storage = some (insertAt place.position ⟨place.rowId, row⟩ rows)

/-- **What the guarded insert can do**: insert the row of the values, or change nothing. -/
theorem tryInsert_cases (run : tryInsert handle values place opened = (.ok result, storage')) :
    (result.success = false ∧ storage' = opened) ∨
      (result.success = true ∧ Matches handle.schema values ∧
        Inserted handle place opened storage' (rowCode.encodeAll values)) := by
  unfold tryInsert at run
  cases inserting : handle.insertRow values place opened with
  | mk outcome final =>
      rw [inserting] at run
      cases outcome with
      | ok rowId =>
          cases run
          obtain ⟨matching, rows, found, _, _, isFinal⟩ := TableHandle.of_insertRow_ok inserting
          refine Or.inr ⟨rfl, matching, rows, found, ?_⟩
          rw [isFinal, Storage.rowsOf_setRows, Function.update_self]
      | error failure =>
          have same := TableHandle.insertRow_error inserting
          dsimp only at run
          by_cases throws : failure.Throws = true
          · rw [if_pos throws] at run
            cases run
            exact Or.inl ⟨rfl, same⟩
          · rw [if_neg throws] at run
            cases run

/-- **What `execute(InsertStmt)` can do**: insert the row of the literals, read in the order of the
schema, through the handle; or change no table. -/
theorem executeInsert_cases {stmt : InsertStmt}
    (run : executeInsert valueFromString catalog stmt place storage = (.ok result, storage')) :
    (result.success = false ∧ KeepsTables storage storage') ∨
      (result.success = true ∧ ∃ handle opened values,
        TableManager.getTable catalog stmt.tableName storage = (.ok (some handle), opened) ∧
        stmt.values.length = handle.schema.length ∧
        readValues valueFromString handle.schema stmt.values = some values ∧
        Matches handle.schema values ∧
        Inserted handle place opened storage' (rowCode.encodeAll values)) := by
  obtain ⟨found, opened, got, rest⟩ := Call.of_bind_ok run
  have kept : KeepsTables storage opened := by
    have moved := getTable_keeps catalog stmt.tableName storage
    rwa [got] at moved
  cases found with
  | none =>
      cases rest
      exact Or.inl ⟨rfl, kept⟩
  | some handle =>
      dsimp only at rest
      by_cases length : stmt.values.length = handle.schema.length
      · rw [if_neg (not_not.mpr length)] at rest
        cases read : readValues valueFromString handle.schema stmt.values with
        | none =>
            rw [read] at rest
            cases rest
            exact Or.inl ⟨rfl, kept⟩
        | some values =>
            rw [read] at rest
            rcases tryInsert_cases rest with ⟨rejected, rfl⟩ | ⟨accepted, matching, inserted⟩
            · exact Or.inl ⟨rejected, kept⟩
            · exact Or.inr ⟨accepted, handle, opened, values, got, length, read, matching, inserted⟩
      · rw [if_pos length] at rest
        cases rest
        exact Or.inl ⟨rfl, kept⟩

/-- **`INSERT` assigns the values in place.** A rejected statement changes no table. One that is
accepted inserts a row, in which each value is in the column that the statement names for it exactly
if there is no column list, or the literals are in place. -/
theorem executeInsert_assigns_iff (valueFromString : TypeId → Bytes → Option Value)
    (catalog : Catalog) (stmt : InsertStmt) (place : Placement) (storage storage' : Storage)
    (result : ExecutionResult)
    (run : executeInsert valueFromString catalog stmt place storage = (.ok result, storage')) :
    (result.success = false → KeepsTables storage storage') ∧
      (result.success = true → ∃ handle opened row,
        TableManager.getTable catalog stmt.tableName storage = (.ok (some handle), opened) ∧
        Inserted handle place opened storage' row ∧
        ((handle.schema.map RelationAttribute.name).Nodup →
          (Assigns valueFromString handle.schema stmt row ↔
            InPlace valueFromString handle.schema stmt))) := by
  rcases executeInsert_cases run with
    ⟨rejected, kept⟩ | ⟨accepted, handle, opened, values, got, length, read, matching, inserted⟩
  · refine ⟨fun _ => kept, fun accepted => ?_⟩
    cases rejected.symm.trans accepted
  · refine ⟨fun rejected => ?_, fun _ => ⟨handle, opened, _, got, inserted, fun distinct => ?_⟩⟩
    · cases accepted.symm.trans rejected
    · exact assigns_iff distinct length fun pos attr text isAttr isText =>
        readsLiteral_of_stored length read matching isAttr isText

/-- A table with two number columns. -/
def pairSchema : Schema := [⟨[97], 2⟩, ⟨[98], 2⟩]

def pairTable : Catalog × Storage :=
  TableManager.machine.exec (TableManager.started .inMemory)
    [.createTable [116] .inMemory pairSchema (TableManager.sampleChoices 0 2)]

/-- `INSERT INTO t (b, a) VALUES ('1', '2')`. -/
def insertSwapped : InsertStmt := .ofColumns [116] [98] [[97]] [[49], [50]]

/-- The statement on the table. -/
def swapped : Except CallFailure ExecutionResult × Storage :=
  executeInsert digits.valueFromString pairTable.1 insertSwapped (Catalog.counted 0) pairTable.2

theorem swapped_returns : executeInsert digits.valueFromString pairTable.1 insertSwapped
    (Catalog.counted 0) pairTable.2 = (.ok (resultOf true), swapped.2) := by
  have returned : swapped.1 = .ok (resultOf true) := by decide +kernel
  rw [← returned]
  exact (Prod.eta swapped).symm

theorem insertSwapped_assigns_iff : ∃ handle opened row,
    TableManager.getTable pairTable.1 [116] pairTable.2 = (.ok (some handle), opened) ∧
      Inserted handle (Catalog.counted 0) opened swapped.2 row ∧
      ((handle.schema.map RelationAttribute.name).Nodup →
        (Assigns digits.valueFromString handle.schema insertSwapped row ↔
          InPlace digits.valueFromString handle.schema insertSwapped)) := by
  have assigns := executeInsert_assigns_iff digits.valueFromString pairTable.1 insertSwapped
    (Catalog.counted 0) pairTable.2 swapped.2 (resultOf true) swapped_returns
  exact assigns.2 rfl

/-- The statement is accepted, and `a` is 1 and `b` is 2 in the row. -/
theorem insertSwapped_misplaced :
    (pairSchema.map RelationAttribute.name).Nodup ∧
      (TableManager.getTable pairTable.1 [116] pairTable.2).1
        = .ok (some ⟨.memory 2, pairSchema⟩) ∧
      swapped.1 = .ok (resultOf true) ∧
      swapped.2.rowsOf (.memory 2) = some [⟨0, rowCode.encodeAll [.u32 1, .u32 2]⟩] ∧
      ¬ Assigns digits.valueFromString pairSchema insertSwapped
        (rowCode.encodeAll [.u32 1, .u32 2]) := by
  refine ⟨by decide, by decide +kernel, by decide +kernel, by decide +kernel, ?_⟩
  have matching : Matches pairSchema [.u32 1, .u32 2] :=
    .cons ⟨rfl, trivial⟩ (.cons ⟨rfl, trivial⟩ .nil)
  have read : readValues digits.valueFromString pairSchema insertSwapped.values
      = some [.u32 1, .u32 2] := by decide
  rw [assigns_iff (by decide) rfl fun pos attr text isAttr isText =>
    readsLiteral_of_stored rfl read matching isAttr isText]
  rintro (noList | ⟨_, inPlace⟩)
  · cases noList
  · have same := inPlace 0 1 ⟨[98], 2⟩ [49] [50] rfl rfl rfl rfl
    exact absurd same (by decide)

end Executor

end Yadb
