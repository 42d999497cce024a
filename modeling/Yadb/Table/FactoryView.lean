/-
**A factory as a map from names to tables.**

`View` reads the names of either factory, the registry or the mapping table, as one map in which no
two names share a table. Each call of a factory is then a change of this map (`createTable_view`,
`deleteTable_view`) that leaves the rows of the other tables alone, and what is done to the rows of
a table changes no name (`View.frame`).
-/

import Yadb.Table.Catalog

namespace Yadb

open Foundation

/-- The call changed the rows of these tables at most. -/
structure Touches (touched : TableRef → Prop) (storage storage' : Storage) : Prop where
  rows : ∀ ref, ¬ touched ref → storage'.rowsOf ref = storage.rowsOf ref
  present : ∀ ref, storage.rowsOf ref ≠ none → storage'.rowsOf ref ≠ none
  registry : storage'.registry = storage.registry
  nextTable : storage'.nextTable = storage.nextTable

namespace Touches

variable {touched touched' : TableRef → Prop} {storage storage' storage'' : Storage}

theorem refl (touched : TableRef → Prop) (storage : Storage) : Touches touched storage storage :=
  ⟨fun _ _ => rfl, fun _ => id, rfl, rfl⟩

theorem trans (first : Touches touched storage storage') (second : Touches touched storage' storage'') :
    Touches touched storage storage'' :=
  ⟨fun ref outside => (second.rows ref outside).trans (first.rows ref outside),
    fun ref there => second.present ref (first.present ref there),
    second.registry.trans first.registry, second.nextTable.trans first.nextTable⟩

theorem mono (frame : Touches touched storage storage') (wider : ∀ ref, touched ref → touched' ref) :
    Touches touched' storage storage' :=
  ⟨fun ref outside => frame.rows ref (mt (wider ref) outside), frame.present, frame.registry,
    frame.nextTable⟩

theorem setRows (storage : Storage) (ref : TableRef) (rows : List Row) :
    Touches (· = ref) storage (storage.setRows ref rows) := by
  refine ⟨fun other outside => ?_, fun other there => ?_, Storage.registry_setRows ..,
    Storage.nextTable_setRows ..⟩
  · rw [Storage.rowsOf_setRows, Function.update_of_ne outside]
  · rw [Storage.rowsOf_setRows]
    by_cases same : other = ref
    · rw [same, Function.update_self]
      exact Option.some_ne_none _
    · rwa [Function.update_of_ne same]

theorem opened (storage : Storage) : Touches (· = DiskTableFactory.mappingTable.storage) storage
    (DiskTableFactory.openMappingTable storage) := by
  cases present : storage.files diskTableMappingFileId with
  | none =>
      rw [DiskTableFactory.opened_new present]
      exact setRows ..
  | some rows =>
      rw [DiskTableFactory.opened_found present]
      exact refl ..

end Touches

/-- The table has been created, and its file was not deleted. -/
def Storage.Allocated (storage : Storage) : TableRef → Prop
  | .memory address => address < storage.nextTable
  | .file fileId => storage.files fileId ≠ none

theorem Touches.allocated {touched : TableRef → Prop} {storage storage' : Storage} {ref : TableRef}
    (frame : Touches touched storage storage') (allocated : storage.Allocated ref) :
    storage'.Allocated ref := by
  cases ref with
  | memory address =>
      show address < storage'.nextTable
      rw [frame.nextTable]
      exact allocated
  | file fileId => exact frame.present (.file fileId) allocated

namespace Factory

/-- **The names of a factory**, each with a table of its own. -/
def View (engine : TableType) (storage : Storage) (names : Bytes → Option TableRef) : Prop :=
  match engine with
  | .inMemory => (∀ name, names name = (storage.registry name).map .memory) ∧
      (∀ name address, storage.registry name = some address → address < storage.nextTable) ∧
      ∀ name other address, storage.registry name = some address →
        storage.registry other = some address → name = other
  | .disk => ∃ mappings, DiskTableFactory.Mapped storage mappings ∧
      (∀ name, names name = (DiskTableFactory.fileOf mappings name).map .file) ∧
      (mappings.map fun mapping => mapping.2.2).Nodup ∧
      ∀ mapping ∈ mappings, storage.files mapping.2.2 ≠ none

variable {engine : TableType} {storage storage' : Storage} {names : Bytes → Option TableRef}
  {name other : Bytes} {ref : TableRef}

theorem fileOf_eq_some {mappings : List (RowId × Mapping)} {fileId : FileId}
    (found : DiskTableFactory.fileOf mappings name = some fileId) :
    ∃ mapping ∈ mappings, mapping.2.1 = name ∧ mapping.2.2 = fileId := by
  obtain ⟨mapping, isMapping, isFile⟩ := Option.map_eq_some_iff.mp found
  exact ⟨mapping, List.mem_of_find?_eq_some isMapping, by simpa using List.find?_some isMapping,
    isFile⟩

/-- Two names never share a table. -/
theorem View.injective (view : View engine storage names) (first : names name = some ref)
    (second : names other = some ref) : name = other := by
  cases engine with
  | inMemory =>
      obtain ⟨isNames, _, injective⟩ := view
      rw [isNames] at first second
      obtain ⟨address, isAddress, rfl⟩ := Option.map_eq_some_iff.mp first
      obtain ⟨address', isAddress', same⟩ := Option.map_eq_some_iff.mp second
      cases same
      exact injective name other address isAddress isAddress'
  | disk =>
      obtain ⟨mappings, _, isNames, distinct, _⟩ := view
      rw [isNames] at first second
      obtain ⟨fileId, isFile, rfl⟩ := Option.map_eq_some_iff.mp first
      obtain ⟨fileId', isFile', same⟩ := Option.map_eq_some_iff.mp second
      cases same
      obtain ⟨mapping, member, isName, isThis⟩ := fileOf_eq_some isFile
      obtain ⟨mapping', member', isOther, isThat⟩ := fileOf_eq_some isFile'
      rw [← isName, ← isOther, List.inj_on_of_nodup_map distinct member member'
        (isThis.trans isThat.symm)]

/-- The table of a name is there, and is not the mapping table. -/
theorem View.present (view : View engine storage names) (found : names name = some ref) :
    storage.Allocated ref ∧ ref ≠ DiskTableFactory.mappingTable.storage := by
  cases engine with
  | inMemory =>
      rw [view.1] at found
      obtain ⟨address, isAddress, rfl⟩ := Option.map_eq_some_iff.mp found
      exact ⟨view.2.1 name address isAddress, TableRef.noConfusion⟩
  | disk =>
      obtain ⟨mappings, mapped, isNames, _, present⟩ := view
      rw [isNames] at found
      obtain ⟨fileId, isFile, rfl⟩ := Option.map_eq_some_iff.mp found
      obtain ⟨mapping, member, _, rfl⟩ := fileOf_eq_some isFile
      exact ⟨present mapping member,
        fun same => mapped.notMapping mapping member (TableRef.file.inj same)⟩

/-- Tables in memory are those of the factory of ephemeral tables. -/
theorem View.isMemory (view : View engine storage names) (found : names name = some ref) :
    ref.isMemory = true ↔ engine = .inMemory := by
  cases engine with
  | inMemory =>
      rw [view.1] at found
      obtain ⟨address, _, rfl⟩ := Option.map_eq_some_iff.mp found
      exact iff_of_true rfl rfl
  | disk =>
      obtain ⟨mappings, _, isNames, _⟩ := view
      rw [isNames] at found
      obtain ⟨fileId, _, rfl⟩ := Option.map_eq_some_iff.mp found
      exact iff_of_false Bool.false_ne_true TableType.noConfusion

theorem tableExists_view (view : View engine storage names) (name : Bytes) :
    tableExists engine name storage = (.ok (names name).isSome, storage) := by
  cases engine with
  | inMemory =>
      rw [view.1, Option.isSome_map]
      rfl
  | disk =>
      obtain ⟨mappings, mapped, isNames, _⟩ := view
      rw [isNames, Option.isSome_map]
      exact (Call.bind_ok (DiskTableFactory.getFileId_mapped mapped name) _).trans rfl

theorem getTable_view (view : View engine storage names) (name : Bytes) :
    getTable engine name storage = (.ok (names name), storage) := by
  cases engine with
  | inMemory =>
      rw [view.1]
      rfl
  | disk =>
      obtain ⟨mappings, mapped, isNames, _⟩ := view
      rw [isNames]
      exact (Call.bind_ok (DiskTableFactory.getFileId_mapped mapped name) _).trans rfl

/-- Changes of rows leave the names. -/
theorem View.memory (view : View .inMemory storage names)
    (registry : storage'.registry = storage.registry)
    (nextTable : storage'.nextTable = storage.nextTable) : View .inMemory storage' names := by
  show (∀ name, names name = (storage'.registry name).map .memory) ∧ _
  rw [registry, nextTable]
  exact view

theorem View.disk (view : View .disk storage names) (files : storage'.files = storage.files) :
    View .disk storage' names := by
  obtain ⟨mappings, mapped, isNames, distinct, present⟩ := view
  refine ⟨mappings, ⟨?_, mapped.short, mapped.rowIds, mapped.names, mapped.notMapping⟩, isNames,
    distinct, ?_⟩
  · rw [files]
    exact mapped.rows
  · rw [files]
    exact present

theorem view_empty : View .inMemory .empty fun _ => none := by
  refine ⟨fun _ => rfl, fun name address found => ?_, fun name other address found _ => ?_⟩
  · cases found
  · cases found

/-- The view of the factory for disk tables that has just been made. -/
theorem View.new (absent : storage.files diskTableMappingFileId = none) :
    View .disk (DiskTableFactory.openMappingTable storage) fun _ => none :=
  ⟨[], DiskTableFactory.mapped_new absent, fun _ => rfl, .nil, List.forall_mem_nil _⟩

theorem View.frame {touched : TableRef → Prop} (view : View engine storage names)
    (frame : Touches touched storage storage')
    (outside : ¬ touched DiskTableFactory.mappingTable.storage) : View engine storage' names := by
  cases engine with
  | inMemory => exact view.memory frame.registry frame.nextTable
  | disk =>
      obtain ⟨mappings, mapped, isNames, distinct, present⟩ := view
      exact ⟨mappings, ⟨(frame.rows _ outside).trans mapped.rows, mapped.short, mapped.rowIds,
        mapped.names, mapped.notMapping⟩, isNames, distinct,
        fun mapping member => frame.present (.file mapping.2.2) (present mapping member)⟩

/-- What a call of one factory does to the other one: nothing. -/
structure Apart (engine : TableType) (storage storage' : Storage) : Prop where
  view : ∀ other names, other ≠ engine → View other storage names → View other storage' names
  present : engine = .inMemory → storage'.files = storage.files

theorem Apart.trans {storage'' : Storage} (first : Apart engine storage storage')
    (second : Apart engine storage' storage'') : Apart engine storage storage'' :=
  ⟨fun other names different view => second.view other names different
    (first.view other names different view),
    fun memory => (second.present memory).trans (first.present memory)⟩

/-- Changes of rows of the tables of one factory. -/
theorem Apart.of_frame {touched : TableRef → Prop} (frame : Touches touched storage storage')
    (outside : ¬ touched DiskTableFactory.mappingTable.storage)
    (memory : engine = .inMemory → ∀ fileId, ¬ touched (.file fileId)) :
    Apart engine storage storage' :=
  ⟨fun _ _ _ view => view.frame frame outside,
    fun isMemory => funext fun fileId => frame.rows (.file fileId) (memory isMemory fileId)⟩

/-- The storage has a new table under the name. -/
structure Created (engine : TableType) (names : Bytes → Option TableRef) (name : Bytes)
    (ref : TableRef) (storage storage' : Storage) : Prop where
  new : ¬ storage.Allocated ref
  view : View engine storage' (Function.update names name (some ref))
  allocated : ∀ other, storage.Allocated other → storage'.Allocated other
  empty : storage'.rowsOf ref = some []
  rows : ∀ other, other ≠ ref → other ≠ DiskTableFactory.mappingTable.storage →
    storage'.rowsOf other = storage.rowsOf other
  apart : Apart engine storage storage'

/-- A name gets another table, or none, on both sides of a map. -/
theorem update_named {Name Key Image : Type} [DecidableEq Name] {names : Name → Option Image}
    {keys : Name → Option Key} {f : Key → Image} (isNames : ∀ name, names name = (keys name).map f)
    (name : Name) (key : Option Key) (other : Name) :
    Function.update names name (key.map f) other = (Function.update keys name key other).map f := by
  have same : names = Option.map f ∘ keys := funext isNames
  rw [same, ← Function.comp_update]
  rfl

/-- A new table of the factory of ephemeral tables. -/
theorem Created.inMemory (view : View .inMemory storage names) :
    Created .inMemory names name (.memory storage.nextTable) storage
      (EphemeralTableFactory.withTable storage name) := by
  obtain ⟨isNames, below, injective⟩ := view
  have unused : ∀ other, storage.registry other ≠ some storage.nextTable := fun other found =>
    Nat.lt_irrefl _ (below other _ found)
  refine ⟨Nat.lt_irrefl _, ⟨fun other => ?_, fun other address found => ?_,
    fun first second address found found' => ?_⟩, fun other there => ?_, ?_,
    fun other outside _ => ?_, ⟨fun other names different view => ?_, fun _ => rfl⟩⟩
  · exact update_named isNames name (some storage.nextTable) other
  · show address < storage.nextTable + 1
    have found : Function.update storage.registry name (some storage.nextTable) other
        = some address := found
    by_cases same : other = name
    · rw [same, Function.update_self] at found
      cases found
      exact Nat.lt_succ_self _
    · rw [Function.update_of_ne same] at found
      exact (below other address found).trans (Nat.lt_succ_self _)
  · have found : Function.update storage.registry name (some storage.nextTable) first
        = some address := found
    have found' : Function.update storage.registry name (some storage.nextTable) second
        = some address := found'
    by_cases isFirst : first = name <;> by_cases isSecond : second = name
    · exact isFirst.trans isSecond.symm
    · rw [isFirst, Function.update_self] at found
      rw [Function.update_of_ne isSecond, ← found] at found'
      exact absurd found' (unused second)
    · rw [isSecond, Function.update_self] at found'
      rw [Function.update_of_ne isFirst, ← found'] at found
      exact absurd found (unused first)
    · rw [Function.update_of_ne isFirst] at found
      rw [Function.update_of_ne isSecond] at found'
      exact injective first second address found found'
  · cases other with
    | memory address => exact Nat.lt_succ_of_lt there
    | file fileId => exact there
  · exact congrArg some (Function.update_self ..)
  · cases other with
    | memory address =>
        exact congrArg some (Function.update_of_ne
          (fun same => outside (congrArg TableRef.memory same)) ..)
    | file fileId => rfl
  · cases other with
    | inMemory => exact absurd rfl different
    | disk => exact view.disk rfl

/-- A new file, with a row for it in the mapping table. -/
theorem Created.disk {mappings : List (RowId × Mapping)} {draw : FileId} {place : Placement}
    (mapped : DiskTableFactory.Mapped storage mappings)
    (isNames : ∀ name, names name = (DiskTableFactory.fileOf mappings name).map .file)
    (distinct : (mappings.map fun mapping => mapping.2.2).Nodup)
    (present : ∀ mapping ∈ mappings, storage.files mapping.2.2 ≠ none)
    (absent : DiskTableFactory.fileOf mappings name = none)
    (notMapping : draw ≠ diskTableMappingFileId) (free : storage.files draw = none)
    (short : name.length ≤ maxStringLength) (newRow : place.rowId ∉ mappings.map Prod.fst) :
    Created .disk names name (.file draw) storage
      ((storage.setRows (.file draw) []).setRows DiskTableFactory.mappingTable.storage
        (asRows DiskTableFactory.mappingRow
          (insertAt place.position (place.rowId, (name, draw)) mappings))) := by
  generalize isStorage : (storage.setRows (.file draw) []).setRows _ _ = storage'
  have mapped' := mapped.insert notMapping short newRow absent
  rw [isStorage] at mapped'
  have isRows : storage'.rowsOf = Function.update (Function.update storage.rowsOf (.file draw)
      (some [])) DiskTableFactory.mappingTable.storage (some (asRows DiskTableFactory.mappingRow
        (insertAt place.position (place.rowId, (name, draw)) mappings))) := by
    rw [← isStorage, Storage.rowsOf_setRows, Storage.rowsOf_setRows]
  have isFile : TableRef.file draw ≠ DiskTableFactory.mappingTable.storage :=
    fun same => notMapping (TableRef.file.inj same)
  have frame : Touches (fun ref => ref = .file draw ∨ ref = DiskTableFactory.mappingTable.storage)
      storage storage' := by
    rw [← isStorage]
    exact ((Touches.setRows _ _ _).mono fun _ => Or.inl).trans
      ((Touches.setRows _ _ _).mono fun _ => Or.inr)
  refine ⟨fun taken => taken free, ⟨_, mapped', fun other => ?_, ?_, ?_⟩,
    fun other there => frame.allocated there, ?_, fun other outside notThis => ?_,
    ⟨fun other names different view => ?_, TableType.noConfusion⟩⟩
  · rw [DiskTableFactory.fileOf_insertAt _ _ _ _ absent]
    exact update_named isNames name (some draw) other
  · rw [map_insertAt]
    refine (perm_insertAt _ _ _).nodup_iff.mpr (List.nodup_cons.mpr ⟨fun member => ?_, distinct⟩)
    obtain ⟨mapping, listed, isDraw⟩ := List.mem_map.mp member
    exact present mapping listed (isDraw ▸ free)
  · intro mapping member
    show storage'.rowsOf (.file mapping.2.2) ≠ none
    rw [isRows]
    rcases mem_insertAt.mp member with rfl | member
    · rw [Function.update_of_ne isFile, Function.update_self]
      exact Option.some_ne_none _
    · have notThis : TableRef.file mapping.2.2 ≠ DiskTableFactory.mappingTable.storage :=
        fun same => mapped.notMapping mapping member (TableRef.file.inj same)
      have notDraw : TableRef.file mapping.2.2 ≠ .file draw :=
        fun same => present mapping member (TableRef.file.inj same ▸ free)
      rw [Function.update_of_ne notThis, Function.update_of_ne notDraw]
      exact present mapping member
  · rw [isRows, Function.update_of_ne isFile, Function.update_self]
  · rw [isRows, Function.update_of_ne notThis, Function.update_of_ne outside]
  · cases other with
    | inMemory => exact view.memory frame.registry frame.nextTable
    | disk => exact absurd rfl different

/-- `CreateTable` in memory of a new name. -/
theorem createTable_absent (view : View .inMemory storage names) (lacks : names name = none)
    (draw : FileId) (place : Placement) : createTable .inMemory name draw place storage
      = (.ok true, EphemeralTableFactory.withTable storage name) := by
  have absent := Option.map_eq_none_iff.mp ((view.1 name).symm.trans lacks)
  exact if_neg (by rw [absent]; exact Bool.false_ne_true)

/-- `CreateTable` in memory of a name that is taken. -/
theorem createTable_present (view : View .inMemory storage names) (found : names name = some ref)
    (draw : FileId) (place : Placement) :
    createTable .inMemory name draw place storage = (.ok false, storage) := by
  rw [view.1] at found
  obtain ⟨address, isAddress, _⟩ := Option.map_eq_some_iff.mp found
  exact if_pos (by rw [isAddress]; rfl)

/-- **What a `CreateTable` of a new name that returned did.** -/
theorem createTable_view (view : View engine storage names) (lacks : names name = none)
    {draw : FileId} {place : Placement} {created : Bool}
    (run : createTable engine name draw place storage = (.ok created, storage')) :
    created = true ∧ ∃ ref, Created engine names name ref storage storage' := by
  cases engine with
  | inMemory =>
      cases (createTable_absent view lacks draw place).symm.trans run
      exact ⟨rfl, _, .inMemory view⟩
  | disk =>
      obtain ⟨mappings, mapped, isNames, distinct, present⟩ := view
      have absent : DiskTableFactory.fileOf mappings name = none :=
        Option.map_eq_none_iff.mp ((isNames name).symm.trans lacks)
      obtain ⟨rfl, notMapping, free, fits, newRow, rfl⟩ :=
        DiskTableFactory.of_createTable_ok mapped.listed run
      have short := DiskTableFactory.short_of_fits fits
      exact ⟨rfl, _, .disk mapped isNames distinct present absent notMapping free short newRow⟩

/-- The storage has no table under the name. -/
structure Deleted (engine : TableType) (names : Bytes → Option TableRef) (name : Bytes)
    (storage storage' : Storage) : Prop where
  view : View engine storage' (Function.update names name none)
  allocated : ∀ other, storage.Allocated other →
    (engine = .disk → names name ≠ some other) → storage'.Allocated other
  rows : ∀ other, names name ≠ some other → other ≠ DiskTableFactory.mappingTable.storage →
    storage'.rowsOf other = storage.rowsOf other
  gone : ∀ ref, names name = some ref →
    storage'.rowsOf ref = none ∨ storage'.rowsOf ref = storage.rowsOf ref
  apart : Apart engine storage storage'

/-- The entry of the registry is gone. -/
theorem Deleted.inMemory (view : View .inMemory storage names) :
    Deleted .inMemory names name storage
      { storage with registry := Function.update storage.registry name none } := by
  obtain ⟨isNames, below, injective⟩ := view
  have keeps : ∀ {other address}, Function.update storage.registry name none other
      = some address → storage.registry other = some address := by
    intro other address found
    by_cases same : other = name
    · rw [same, Function.update_self] at found
      cases found
    · rwa [Function.update_of_ne same] at found
  refine ⟨⟨fun other => update_named isNames name none other, fun other address found =>
    below other address (keeps found), fun first second address found found' =>
    injective first second address (keeps found) (keeps found')⟩, fun _ there _ => there,
    fun _ _ _ => rfl, fun _ _ => Or.inr rfl, ⟨fun other names different view => ?_, fun _ => rfl⟩⟩
  cases other with
  | inMemory => exact absurd rfl different
  | disk => exact view.disk rfl

/-- **`DeleteTable`** of a name of the factory. -/
theorem deleteTable_view (view : View engine storage names) (found : names name = some ref) :
    ∃ storage', deleteTable engine name storage = (.ok true, storage') ∧
      Deleted engine names name storage storage' := by
  cases engine with
  | inMemory =>
      have isSome : (storage.registry name).isSome = true := by
        rw [view.1] at found
        obtain ⟨address, isAddress, _⟩ := Option.map_eq_some_iff.mp found
        rw [isAddress]
        rfl
      exact ⟨_, if_pos isSome, .inMemory view⟩
  | disk =>
      obtain ⟨mappings, mapped, isNames, distinct, present⟩ := view
      rw [isNames] at found
      obtain ⟨fileId, isFile, rfl⟩ := Option.map_eq_some_iff.mp found
      obtain ⟨storage', run, mapped', registry, tables, nextTable, files⟩ :=
        DiskTableFactory.deleteTable_mapped mapped isFile
      obtain ⟨mapping, member, isName, isFileId⟩ := fileOf_eq_some isFile
      refine ⟨storage', run, ⟨_, mapped', fun other => ?_, distinct.sublist
        (List.filter_sublist.map _), fun other kept => ?_⟩, fun other there outside => ?_,
        fun other outside notThis => ?_, fun other isThis => ?_,
        ⟨fun other names different view => ?_, TableType.noConfusion⟩⟩
      · rw [DiskTableFactory.fileOf_filter]
        exact update_named isNames name none other
      · obtain ⟨listed, different⟩ := List.mem_filter.mp kept
        rw [files _ (mapped.notMapping other listed), Function.update_of_ne]
        · exact present other listed
        · intro same
          rw [List.inj_on_of_nodup_map distinct listed member (same.trans isFileId.symm)]
            at different
          exact of_decide_eq_true different isName
      · cases other with
        | memory address =>
            show address < storage'.nextTable
            rw [nextTable]
            exact there
        | file other =>
            show storage'.files other ≠ none
            by_cases isMapping : other = diskTableMappingFileId
            · rw [isMapping, mapped'.rows]
              exact Option.some_ne_none _
            · rw [files other isMapping, Function.update_of_ne]
              · exact there
              · rintro rfl
                exact outside rfl ((isNames name).trans (congrArg (Option.map TableRef.file) isFile))
      · rw [isNames, isFile] at outside
        cases other with
        | memory address => exact congrArg some (congrFun tables address)
        | file other =>
            rw [Storage.rowsOf, files other fun same => notThis (congrArg TableRef.file same),
              Function.update_of_ne fun same => outside (congrArg (some ∘ TableRef.file) same.symm)]
            rfl
      · left
        rw [isNames, isFile] at isThis
        cases isThis
        show storage'.files fileId = none
        rw [files fileId fun same => mapped.notMapping mapping member (isFileId.trans same),
          Function.update_self]
      · cases other with
        | inMemory => exact view.memory registry nextTable
        | disk => exact absurd rfl different

/-- `DeleteTable` of a name that the factory has not. -/
theorem deleteTable_lacks (view : View engine storage names) (lacks : names name = none) :
    deleteTable engine name storage = (.ok false, storage) := by
  cases engine with
  | inMemory =>
      have absent := Option.map_eq_none_iff.mp ((view.1 name).symm.trans lacks)
      exact if_neg (by rw [absent]; exact Bool.false_ne_true)
  | disk =>
      obtain ⟨mappings, mapped, isNames, _⟩ := view
      have absent := Option.map_eq_none_iff.mp ((isNames name).symm.trans lacks)
      have found := DiskTableFactory.getFileId_mapped mapped name
      rw [absent] at found
      exact Call.bind_ok found _

end Factory

end Yadb
