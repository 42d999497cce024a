/-
**Tables of a manager keep apart.**

`Good`: the names of the two factories have tables of their own, none of which is a table of the
catalog under another name, and each table holds rows of the schema that the catalog has for it. One
call keeps it (`step_good`) and changes no other table (`Leaves`), as long as the disk factory is
not asked to create a name that it has: it creates the name again, and its first table answers for
both.

* `call_good`: one call keeps a manager good, and leaves the other tables.
* `rows_wellTyped`: the rows of every table decode under its schema.
-/

import Yadb.Table.Manager

namespace Yadb

open Foundation

namespace TableManager

/-- The names of a disk factory, which may not have been made yet. -/
def DiskView (storage : Storage) (names : Bytes → Option TableRef) : Prop :=
  Factory.View .disk storage names ∨
    storage.files diskTableMappingFileId = none ∧ names = fun _ => none

theorem DiskView.opened {storage : Storage} {names : Bytes → Option TableRef}
    (view : DiskView storage names) :
    Factory.View .disk (DiskTableFactory.openMappingTable storage) names := by
  rcases view with view | ⟨absent, rfl⟩
  · have ⟨_, mapped, _⟩ := view
    rw [DiskTableFactory.opened_found mapped.rows]
    exact view
  · exact .new absent

def IsCatalogName (name : Bytes) : Prop := name = tableCatalogName ∨ name = columnCatalogName

instance (name : Bytes) : Decidable (IsCatalogName name) :=
  inferInstanceAs (Decidable (_ ∨ _))

abbrev Names := TableType → Bytes → Option TableRef

/-- **The state of a manager**, with the tables of its factories and their schemas. -/
structure Good (engine : TableType) (names : Names) (schemaOf : TableRef → Schema)
    (catalog : Catalog) (storage : Storage) : Prop where
  memory : Factory.View .inMemory storage (names .inMemory)
  disk : DiskView storage (names .disk)
  schemas : catalog.OwnSchemas schemaOf
  owned : ∀ ref, catalog.Owns ref → storage.Allocated ref ∧
    ref ≠ DiskTableFactory.mappingTable.storage ∧ (ref.isMemory = true ↔ engine = .inMemory)
  ownNames : ∀ type name ref, names type name = some ref → catalog.Owns ref → IsCatalogName name
  typed : ∀ ref, ref ≠ DiskTableFactory.mappingTable.storage → ∀ rows,
    storage.rowsOf ref = some rows → Typed (schemaOf ref) rows
  recorded : ∀ name info ref, catalog.tableInfo name = some info →
    names info.type name = some ref → schemaOf ref = info.schema
  attached : engine = .disk → Catalog.Attached (names .disk) catalog
  inMemory : engine = .disk → ∀ name info, IsCatalogName name →
    catalog.tableInfo name = some info → info.type = .inMemory

variable {engine type type' : TableType} {names names' : Names} {schemaOf : TableRef → Schema}
  {catalog catalog' : Catalog} {storage storage' : Storage} {name other : Bytes} {ref : TableRef}

namespace Good

theorem present (good : Good engine names schemaOf catalog storage)
    (found : names type name = some ref) : storage.Allocated ref ∧
      ref ≠ DiskTableFactory.mappingTable.storage ∧ (ref.isMemory = true ↔ type = .inMemory) := by
  cases type with
  | inMemory =>
      have here := good.memory.present found
      exact ⟨here.1, here.2, good.memory.isMemory found⟩
  | disk =>
      rcases good.disk with view | ⟨_, none_⟩
      · have here := view.present found
        exact ⟨here.1, here.2, view.isMemory found⟩
      · rw [none_] at found
        cases found

/-- Two names never share a table. -/
theorem injective (good : Good engine names schemaOf catalog storage)
    (first : names type name = some ref) (second : names type' other = some ref) :
    type = type' ∧ name = other := by
  have isMemory := (good.present first).2.2.symm.trans (good.present second).2.2
  have same : type = type' := by
    cases type <;> cases type'
    · rfl
    · exact isMemory.mp rfl ▸ rfl
    · exact isMemory.mpr rfl ▸ rfl
    · rfl
  subst same
  refine ⟨rfl, ?_⟩
  cases type with
  | inMemory => exact good.memory.injective first second
  | disk =>
      rcases good.disk with view | ⟨_, none_⟩
      · exact view.injective first second
      · rw [none_] at first
        cases first

/-- A table that the catalog has as one of type Disk is not its own. -/
theorem notOwned_of_disk (good : Good engine names schemaOf catalog storage) {info : TableInfo}
    (known : catalog.tableInfo name = some info) (isDisk : info.type = .disk) (ref : TableRef)
    (isRef : names info.type name = some ref) : ¬ catalog.Owns ref := by
  intro owned
  have isCatalog := good.ownNames _ _ _ isRef owned
  have sameMemory := (good.owned ref owned).2.2.symm.trans (good.present isRef).2.2
  have onDisk : engine = .disk := by
    cases engine with
    | disk => rfl
    | inMemory => exact absurd (sameMemory.mp rfl) (by rw [isDisk]; exact TableType.noConfusion)
  have inMemory := good.inMemory onDisk name info isCatalog known
  rw [isDisk] at inMemory
  cases inMemory

/-- A factory that is made, when it was not. -/
theorem open_ (good : Good engine names schemaOf catalog storage) (type : TableType) :
    ∃ storage', getFactory type storage = (.ok (), storage') ∧
      Good engine names schemaOf catalog storage' ∧ Factory.View type storage' (names type) ∧
      (∀ ref, storage.Allocated ref → storage'.Allocated ref) ∧
      ∀ ref, ref ≠ DiskTableFactory.mappingTable.storage →
        storage'.rowsOf ref = storage.rowsOf ref := by
  cases type with
  | inMemory => exact ⟨storage, rfl, good, good.memory, fun _ => id, fun _ _ => rfl⟩
  | disk =>
      have frame := Touches.opened storage
      have view := good.disk.opened
      refine ⟨DiskTableFactory.openMappingTable storage, rfl,
        ⟨good.memory.memory frame.registry frame.nextTable, Or.inl view, good.schemas,
          fun ref owned => ⟨frame.allocated (good.owned ref owned).1, (good.owned ref owned).2⟩,
          good.ownNames, fun ref notMapping rows isRows => ?_, good.recorded, good.attached,
          good.inMemory⟩, view, fun _ => frame.allocated, frame.rows⟩
      rw [frame.rows ref notMapping] at isRows
      exact good.typed ref notMapping rows isRows

/-- Rows that were rewritten. -/
theorem rewrite {touched : TableRef → Prop} (good : Good engine names schemaOf catalog storage)
    (rewrites : Rewrites touched schemaOf storage storage')
    (outside : ¬ touched DiskTableFactory.mappingTable.storage) :
    Good engine names schemaOf catalog storage' where
  memory := good.memory.frame rewrites.frame outside
  disk := by
    rcases good.disk with view | ⟨absent, none_⟩
    · exact Or.inl (view.frame rewrites.frame outside)
    · exact Or.inr ⟨(rewrites.frame.rows _ outside).trans absent, none_⟩
  schemas := good.schemas
  owned ref owned :=
    ⟨rewrites.frame.allocated (good.owned ref owned).1, (good.owned ref owned).2⟩
  ownNames := good.ownNames
  typed ref notMapping := rewrites.typed ref (good.typed ref notMapping)
  recorded := good.recorded
  attached := good.attached
  inMemory := good.inMemory

/-- The names with another table, or none, under one of them. -/
def rename (names : Names) (type : TableType) (name : Bytes) (ref : Option TableRef) : Names :=
  Function.update names type (Function.update (names type) name ref)

theorem rename_self : rename names type name (some ref) type name = some ref := by
  rw [rename, Function.update_self, Function.update_self]

theorem rename_of_ne {found : Option TableRef} (different : other ≠ name) :
    rename names type name found type' other = names type' other := by
  rw [rename]
  by_cases same : type' = type
  · rw [same, Function.update_self, Function.update_of_ne different]
  · rw [Function.update_of_ne same]

/-- A table that is under a changed name is the new one, or was under the name before. -/
theorem of_rename {found : Option TableRef}
    (isRef : rename names type name found type' other = some ref) :
    found = some ref ∧ type' = type ∧ other = name ∨ names type' other = some ref := by
  by_cases sameType : type' = type
  · by_cases sameName : other = name
    · rw [rename, sameType, sameName, Function.update_self, Function.update_self] at isRef
      exact Or.inl ⟨isRef, sameType, sameName⟩
    · rw [rename_of_ne sameName] at isRef
      exact Or.inr isRef
  · rw [rename, Function.update_of_ne sameType] at isRef
    exact Or.inr isRef

/-- What the other factory has is not changed. -/
theorem apart_views {changed : Bytes → Option TableRef}
    (good : Good engine names schemaOf catalog storage)
    (apart : Factory.Apart type storage storage') (view : Factory.View type storage' changed) :
    Factory.View .inMemory storage' (Function.update names type changed .inMemory) ∧
      DiskView storage' (Function.update names type changed .disk) := by
  cases type with
  | inMemory =>
      rw [Function.update_self, Function.update_of_ne TableType.noConfusion]
      refine ⟨view, good.disk.imp (apart.view _ _ TableType.noConfusion) fun none_ => ?_⟩
      rw [apart.present rfl]
      exact none_
  | disk =>
      rw [Function.update_self, Function.update_of_ne TableType.noConfusion]
      exact ⟨apart.view _ _ TableType.noConfusion good.memory, Or.inl view⟩

/-- **A table that was created**, of which the catalog does not know yet. -/
theorem create (good : Good engine names schemaOf catalog storage)
    (created : Factory.Created type (names type) name ref storage storage')
    (unknown : catalog.tableInfo name = none) (lacks : names type name = none) (schema : Schema) :
    Good engine (rename names type name (some ref)) (Function.update schemaOf ref schema) catalog
      storage' := by
  have notOwned : ∀ owned, catalog.Owns owned → owned ≠ ref := fun owned isOwned same =>
    created.new (same ▸ (good.owned owned isOwned).1)
  obtain ⟨memory, disk⟩ := good.apart_views created.apart created.view
  refine ⟨memory, disk, ⟨?_, ?_⟩, fun owned isOwned => ?_, fun type' other found isFound owned => ?_,
    fun other notMapping rows isRows => ?_, fun other info found known isFound => ?_,
    fun onDisk => ?_, good.inMemory⟩
  · rw [Function.update_of_ne (notOwned _ (Or.inl rfl)), good.schemas.tables]
  · rw [Function.update_of_ne (notOwned _ (Or.inr rfl)), good.schemas.columns]
  · exact ⟨created.allocated owned (good.owned owned isOwned).1, (good.owned owned isOwned).2⟩
  · rcases of_rename isFound with ⟨same, _, _⟩ | before
    · cases same
      exact absurd rfl (notOwned _ owned)
    · exact good.ownNames type' other found before owned
  · by_cases same : other = ref
    · rw [same, created.empty, Option.some.injEq] at isRows
      rw [← isRows]
      exact typed_nil _
    · rw [created.rows other same notMapping] at isRows
      rw [Function.update_of_ne same]
      exact good.typed other notMapping rows isRows
  · rcases of_rename isFound with ⟨_, _, rfl⟩ | before
    · rw [unknown] at known
      cases known
    · have different : found ≠ ref := by
        rintro rfl
        exact created.new (good.present before).1
      rw [Function.update_of_ne different]
      exact good.recorded other info found known before
  · have attached := good.attached onDisk
    have keeps : ∀ catalogName found, names .disk catalogName = some found →
        rename names type name (some ref) .disk catalogName = some found := by
      intro catalogName found before
      rw [rename]
      by_cases sameType : TableType.disk = type
      · subst sameType
        rw [Function.update_self, Function.update_of_ne, before]
        rintro rfl
        rw [lacks] at before
        cases before
      · rw [Function.update_of_ne sameType, before]
    exact ⟨keeps _ _ attached.tables, keeps _ _ attached.columns⟩

/-- **A table that was deleted.** -/
theorem delete (good : Good engine names schemaOf catalog storage)
    (deleted : Factory.Deleted type (names type) name storage storage')
    (notOwned : type = .disk → ∀ ref, names type name = some ref → ¬ catalog.Owns ref) :
    Good engine (rename names type name none) schemaOf catalog storage' := by
  have before : ∀ {type' other found}, rename names type name none type' other = some found →
      names type' other = some found := fun isFound =>
    (of_rename isFound).resolve_left fun same => Option.some_ne_none _ same.1.symm
  obtain ⟨memory, disk⟩ := good.apart_views deleted.apart deleted.view
  refine ⟨memory, disk, good.schemas, fun owned isOwned => ⟨?_, (good.owned owned isOwned).2⟩,
    fun type' other found isFound => good.ownNames type' other found (before isFound),
    fun other notMapping rows isRows => ?_,
    fun other info found known isFound => good.recorded other info found known (before isFound),
    fun onDisk => ?_, good.inMemory⟩
  · exact deleted.allocated owned (good.owned owned isOwned).1
      fun isDisk found => notOwned isDisk owned found isOwned
  · by_cases this : names type name = some other
    · rcases deleted.gone other this with gone | same
      · rw [gone] at isRows
        cases isRows
      · rw [same] at isRows
        exact good.typed other notMapping rows isRows
    · rw [deleted.rows other this notMapping] at isRows
      exact good.typed other notMapping rows isRows
  · have attached := good.attached onDisk
    have keeps : ∀ catalogName found, names .disk catalogName = some found →
        catalog.Owns found → rename names type name none .disk catalogName = some found := by
      intro catalogName found isFound owned
      rw [rename]
      by_cases sameType : TableType.disk = type
      · subst sameType
        rw [Function.update_self, Function.update_of_ne, isFound]
        rintro rfl
        exact notOwned rfl found isFound owned
      · rw [Function.update_of_ne sameType, isFound]
    exact ⟨keeps _ _ attached.tables (Or.inl rfl), keeps _ _ attached.columns (Or.inr rfl)⟩

/-- The catalog has another entry. -/
theorem withInfo (good : Good engine names schemaOf catalog storage) {name : Bytes}
    {info : Option TableInfo}
    (isSchema : ∀ found, info = some found → ∀ ref, names found.type name = some ref →
      schemaOf ref = found.schema)
    (inMemory : engine = .disk → IsCatalogName name → ∀ found, info = some found →
      found.type = .inMemory) :
    Good engine names schemaOf (catalog.withInfo name info) storage := by
  refine ⟨good.memory, good.disk, ⟨good.schemas.tables, good.schemas.columns⟩, good.owned,
    good.ownNames, good.typed, fun other found ref known isRef => ?_,
    fun onDisk => ⟨(good.attached onDisk).tables, (good.attached onDisk).columns⟩,
    fun onDisk other found isCatalog known => ?_⟩
  · have known : Function.update catalog.tableInfo name info other = some found := known
    by_cases same : other = name
    · rw [same, Function.update_self] at known
      exact isSchema found known ref (same ▸ isRef)
    · rw [Function.update_of_ne same] at known
      exact good.recorded other found ref known isRef
  · have known : Function.update catalog.tableInfo name info other = some found := known
    by_cases same : other = name
    · rw [same, Function.update_self] at known
      exact inMemory onDisk (same ▸ isCatalog) found known
    · rw [Function.update_of_ne same] at known
      exact good.inMemory onDisk other found isCatalog known

end Good

/-! ### One call -/

/-- **What a call on one table leaves**: the names of the others, and their rows. A table that was
there gets no new name and no new schema, and stays when it is in memory. -/
structure Leaves (name : Bytes) (names : Names) (schemaOf : TableRef → Schema) (catalog : Catalog)
    (storage : Storage) (names' : Names) (schemaOf' : TableRef → Schema) (catalog' : Catalog)
    (storage' : Storage) : Prop where
  info : ∀ other, other ≠ name → catalog'.tableInfo other = catalog.tableInfo other
  others : ∀ type other, other ≠ name → names' type other = names type other
  rows : ∀ type other ref, other ≠ name → names type other = some ref → ¬ catalog.Owns ref →
    storage'.rowsOf ref = storage.rowsOf ref
  noNew : ∀ type other ref, names' type other = some ref → storage.Allocated ref →
    names type other = some ref
  schemas : ∀ ref, storage.Allocated ref → schemaOf' ref = schemaOf ref
  memory : ∀ address, storage.Allocated (.memory address) → storage'.Allocated (.memory address)

/-- The name is not in the mapping table when the disk factory is asked to create it. -/
def CreatesNew (state : Catalog × Storage) : Op → Prop
  | .createTable name .disk _ _ => (state.1.tableInfo name).isNone = true →
      ((DiskTableFactory.tableExists name
        (DiskTableFactory.openMappingTable state.2)).1.toOption = some false)
  | _ => True

instance (state : Catalog × Storage) : DecidablePred (CreatesNew state)
  | .createTable _ .disk _ _ => inferInstanceAs (Decidable (_ → _))
  | .createTable _ .inMemory _ _ | .deleteTable _ | .insertRow _ _ _ | .updateRow _ _ _ _
  | .deleteRow _ _ => .isTrue trivial

/-- Rows that were rewritten. -/
theorem leaves_of_rows {name : Bytes} {names : Names} (schemaOf : TableRef → Schema)
    {catalog : Catalog} (rows : ∀ type other ref, other ≠ name → names type other = some ref →
      ¬ catalog.Owns ref → storage'.rowsOf ref = storage.rowsOf ref)
    (allocated : ∀ ref, storage.Allocated ref → storage'.Allocated ref) :
    Leaves name names schemaOf catalog storage names schemaOf catalog storage' :=
  ⟨fun _ _ => rfl, fun _ _ _ => rfl, rows, fun _ _ _ isRef _ => isRef, fun _ _ => rfl,
    fun _ => allocated _⟩

theorem Leaves.trans {catalog'' : Catalog} {storage'' : Storage}
    (first : Leaves name names schemaOf catalog storage names schemaOf catalog storage')
    (second : Leaves name names schemaOf catalog storage' names schemaOf catalog'' storage'') :
    Leaves name names schemaOf catalog storage names schemaOf catalog'' storage'' :=
  ⟨second.info, fun _ _ _ => rfl, fun type other ref different isRef notOwned =>
    (second.rows type other ref different isRef notOwned).trans
      (first.rows type other ref different isRef notOwned), fun _ _ _ isRef _ => isRef,
    fun _ _ => rfl, fun address there => second.memory address (first.memory address there)⟩

theorem leaves_refl (name : Bytes) (names : Names) (schemaOf : TableRef → Schema)
    (catalog : Catalog) (storage : Storage) :
    Leaves name names schemaOf catalog storage names schemaOf catalog storage :=
  leaves_of_rows schemaOf (fun _ _ _ _ _ _ => rfl) fun _ => id

theorem createsNew_lacks (good : Good engine names schemaOf catalog storage) {schema : Schema}
    {choices : Choices} (unknown : catalog.tableInfo name = none)
    (new : CreatesNew (catalog, storage) (.createTable name .disk schema choices)) :
    names .disk name = none := by
  obtain ⟨opened, isOpened, _, view, _⟩ := good.open_ .disk
  cases isOpened
  have exists_ := new (by rw [unknown]; rfl)
  have answer : DiskTableFactory.tableExists name (DiskTableFactory.openMappingTable storage)
      = _ := Factory.tableExists_view view name
  rw [answer] at exists_
  exact Option.not_isSome_iff_eq_none.mp (by simpa using Option.some.inj exists_)

theorem rowsOf_of_allocated (allocated : storage.Allocated ref) :
    ∃ rows, storage.rowsOf ref = some rows := by
  cases ref with
  | memory address => exact ⟨_, rfl⟩
  | file fileId => exact Option.ne_none_iff_exists'.mp allocated

/-- **`CreateTable`** of a name that neither the catalog nor the factory has: the factory gets a
table, and then the catalog an entry. -/
theorem createTable_new (good : Good engine names schemaOf catalog storage) {schema : Schema}
    {choices : Choices} {created : Bool} (unknown : catalog.tableInfo name = none)
    (lacks : names type name = none)
    (run : createTable catalog name type schema choices storage
      = (.ok (created, catalog'), storage')) :
    created = true ∧ catalog' = catalog.withInfo name (some ⟨type, schema⟩) ∧
      (∃ middle, (∀ ref, catalog.Owns ref → middle.rowsOf ref = storage.rowsOf ref) ∧
        catalog.addTable name type schema choices middle = (.ok (true, catalog'), storage')) ∧
      ∃ ref, Good engine (Good.rename names type name (some ref))
          (Function.update schemaOf ref schema) catalog' storage' ∧
        Leaves name names schemaOf catalog storage (Good.rename names type name (some ref))
          (Function.update schemaOf ref schema) catalog' storage' ∧
        storage'.rowsOf ref = some [] := by
  obtain ⟨opened, isOpened, good₁, view, allocated, rows⟩ := good.open_ type
  rw [createTable_unknown unknown, Call.bind_ok isOpened] at run
  obtain ⟨made, middle, making, rest⟩ := Call.of_bind_ok run
  obtain ⟨rfl, ref, isCreated⟩ := Factory.createTable_view view lacks making
  have good₂ := good₁.create isCreated unknown lacks schema
  have isRef : Good.rename names type name (some ref) type name = some ref := Good.rename_self
  have rest : catalog.addTable name type schema choices middle
      = (.ok (created, catalog'), storage') := rest
  obtain ⟨isAdded, isCatalog⟩ := Catalog.of_addTable_ok rest
  have rewrites := Catalog.addTable_moves good₂.schemas name type schema choices middle
  rw [rest] at rewrites
  have good₃ := good₂.rewrite rewrites fun owned => (good₂.owned _ owned).2.1 rfl
  rw [unknown] at isAdded
  have isAdded : created = true := isAdded
  subst isAdded
  have isCatalog : catalog' = catalog.withInfo name (some ⟨type, schema⟩) := isCatalog
  subst isCatalog
  have notOwned : ¬ catalog.Owns ref := fun owned => isCreated.new (good₁.owned ref owned).1
  have isNew : ∀ {other}, storage.Allocated other → other ≠ ref := by
    rintro other there rfl
    exact isCreated.new (allocated _ there)
  refine ⟨rfl, rfl, ⟨middle, fun other owned => ?_, rest⟩, ref,
    good₃.withInfo (fun found isFound other isOther => ?_) fun onDisk isName found isFound => ?_,
    ⟨fun other different => Function.update_of_ne different .., fun type' other different =>
      Good.rename_of_ne different, fun type' named other _ isOther notOwned' => ?_,
      fun type' other found isFound there => ?_, fun other there => ?_, fun address there =>
        rewrites.frame.allocated (isCreated.allocated _ (allocated _ there))⟩, ?_⟩
  · obtain ⟨there, notMapping, _⟩ := good.owned other owned
    rw [isCreated.rows other (isNew there) notMapping, rows other notMapping]
  · cases isFound
    rw [isRef] at isOther
    cases isOther
    exact Function.update_self ..
  · cases isFound
    cases type with
    | inMemory => rfl
    | disk =>
        have attached := good₁.attached onDisk
        obtain same | same : name = tableCatalogName ∨ name = columnCatalogName := isName
        · rw [same, attached.tables] at lacks
          cases lacks
        · rw [same, attached.columns] at lacks
          cases lacks
  · obtain ⟨there, notMapping, _⟩ := good.present isOther
    rw [rewrites.frame.rows other notOwned', isCreated.rows other (isNew there) notMapping,
      rows other notMapping]
  · rcases Good.of_rename isFound with ⟨same, _, _⟩ | before
    · exact absurd (Option.some.inj same).symm (isNew there)
    · exact before
  · exact Function.update_of_ne (isNew there) ..
  · rw [rewrites.frame.rows ref notOwned]
    exact isCreated.empty

/-- **`CreateTable`** of a name that the disk factory has not. -/
theorem createTable_good (good : Good engine names schemaOf catalog storage) {schema : Schema}
    {choices : Choices} {created : Bool}
    (new : CreatesNew (catalog, storage) (.createTable name type schema choices))
    (run : createTable catalog name type schema choices storage
      = (.ok (created, catalog'), storage')) :
    ∃ names' schemaOf', Good engine names' schemaOf' catalog' storage' ∧
      Leaves name names schemaOf catalog storage names' schemaOf' catalog' storage' ∧
      (created = true → ∃ ref, names' type name = some ref ∧ storage'.rowsOf ref = some [] ∧
        catalog'.tableInfo name = some ⟨type, schema⟩) := by
  cases unknown : catalog.tableInfo name with
  | some info =>
      rw [createTable_known unknown] at run
      cases run
      exact ⟨names, schemaOf, good, leaves_refl _ _ _ _ _, nofun⟩
  | none =>
      cases lacks : names type name with
      | some ref =>
          have isMemory : type = .inMemory := by
            cases type with
            | inMemory => rfl
            | disk =>
                rw [createsNew_lacks good unknown new] at lacks
                cases lacks
          subst isMemory
          obtain ⟨opened, isOpened, good₁, view, allocated, rows⟩ := good.open_ .inMemory
          rw [createTable_unknown unknown, Call.bind_ok isOpened,
            Call.bind_ok (Factory.createTable_present good₁.memory lacks _ _)] at run
          cases run
          exact ⟨names, schemaOf, good₁, leaves_of_rows schemaOf
            (fun _ _ ref _ isRef _ => rows ref (good.present isRef).2.1) allocated, nofun⟩
      | none =>
          obtain ⟨_, rfl, _, ref, good', leaves, empty⟩ := createTable_new good unknown lacks run
          exact ⟨_, _, good', leaves,
            fun _ => ⟨ref, Good.rename_self, empty, Function.update_self ..⟩⟩

/-- The factory has no table under the name, also when it had none before. -/
theorem rename_none (lacks : names type name = none) :
    Good.rename names type name none = names := by
  rw [Good.rename, ← lacks, Function.update_eq_self, Function.update_eq_self]

/-- **`DeleteTable`** of a name that the catalog has: the catalog loses its entry, and then the
factory its table. -/
theorem deleteTable_gone (good : Good engine names schemaOf catalog storage) {info : TableInfo}
    {deleted : Bool} (known : catalog.tableInfo name = some info)
    (run : deleteTable catalog name storage = (.ok (deleted, catalog'), storage')) :
    catalog' = catalog.withInfo name none ∧ deleted = (names info.type name).isSome ∧
      (∃ middle, catalog.removeTable name storage = (.ok (true, catalog'), middle) ∧
        ∀ ref, catalog.Owns ref → storage'.rowsOf ref = middle.rowsOf ref) ∧
      Good engine (Good.rename names info.type name none) schemaOf catalog' storage' ∧
      Leaves name names schemaOf catalog storage (Good.rename names info.type name none) schemaOf
        catalog' storage' := by
  rw [deleteTable, known] at run
  obtain ⟨⟨removed, middleCatalog⟩, middle, removing, rest⟩ := Call.of_bind_ok run
  obtain ⟨isRemoved, isCatalog⟩ := Catalog.of_removeTable_ok removing
  rw [known] at isRemoved
  have isRemoved : removed = true := isRemoved
  subst isRemoved
  have isCatalog : middleCatalog = catalog.withInfo name none := isCatalog
  subst isCatalog
  have rewrites := Catalog.removeTable_moves catalog schemaOf name storage
  rw [removing] at rewrites
  have good₁ : Good engine names schemaOf (catalog.withInfo name none) middle :=
    (good.rewrite rewrites fun owned => (good.owned _ owned).2.1 rfl).withInfo
      (by rintro _ ⟨⟩) (by rintro _ _ _ ⟨⟩)
  obtain ⟨opened, isOpened, good₂, view, allocated, rows⟩ := good₁.open_ info.type
  have rest : (getFactory info.type >>= fun _ => Factory.deleteTable info.type name >>=
      fun answer => pure (answer, catalog.withInfo name none)) middle
      = (.ok (deleted, catalog'), storage') := rest
  rw [Call.bind_ok isOpened] at rest
  have openedRows : ∀ ref, catalog.Owns ref → opened.rowsOf ref = middle.rowsOf ref :=
    fun ref owned => rows ref (good.owned ref owned).2.1
  have removedRows : ∀ ref, ¬ catalog.Owns ref → ref ≠ DiskTableFactory.mappingTable.storage →
      opened.rowsOf ref = storage.rowsOf ref := fun ref notOwned notMapping =>
    (rows ref notMapping).trans (rewrites.frame.rows ref notOwned)
  have removedKept : ∀ {ref}, storage.Allocated ref → opened.Allocated ref := fun there =>
    allocated _ (rewrites.frame.allocated there)
  have others : ∀ other, other ≠ name →
      (catalog.withInfo name none).tableInfo other = catalog.tableInfo other :=
    fun other different => Function.update_of_ne different ..
  cases found : names info.type name with
  | none =>
      have missed : Factory.deleteTable info.type name opened = (.ok false, opened) :=
        Factory.deleteTable_lacks view found
      rw [Call.bind_ok missed] at rest
      cases rest
      rw [rename_none found]
      exact ⟨rfl, rfl, ⟨middle, removing, openedRows⟩, good₂, others, fun _ _ _ => rfl,
        fun _ _ ref _ isRef notOwned => removedRows ref notOwned (good.present isRef).2.1,
        fun _ _ _ isRef _ => isRef, fun _ _ => rfl, fun _ => removedKept⟩
  | some ref =>
      obtain ⟨final, deleting, isDeleted⟩ := Factory.deleteTable_view view found
      rw [Call.bind_ok deleting] at rest
      cases rest
      have notOwned : info.type = .disk → ∀ ref, names info.type name = some ref →
          ¬ (catalog.withInfo name none).Owns ref := good.notOwned_of_disk known
      have good₃ := good₂.delete isDeleted notOwned
      refine ⟨rfl, rfl, ⟨middle, removing, fun other owned => ?_⟩, good₃, others,
        fun type' other different => Good.rename_of_ne different,
        fun type' named other different isOther notOwned' => ?_,
        fun type' other table isTable _ => ?_, fun _ _ => rfl, fun address there =>
          isDeleted.allocated _ (removedKept there) fun isDisk isTable => ?_⟩
      · rw [← openedRows other owned]
        by_cases this : names info.type name = some other
        · refine (isDeleted.gone other this).resolve_left fun gone => ?_
          obtain ⟨_, isRows⟩ := rowsOf_of_allocated (good₃.owned other owned).1
          exact Option.some_ne_none _ (isRows.symm.trans gone)
        · exact isDeleted.rows other this (good.owned other owned).2.1
      · have notMapping := (good.present isOther).2.1
        rw [isDeleted.rows other (fun same => different (good.injective isOther same).2)
          notMapping]
        exact removedRows other notOwned' notMapping
      · rcases Good.of_rename isTable with ⟨none_, _, _⟩ | before
        · cases none_
        · exact before
      · have inMemory := (good.present isTable).2.2.mp rfl
        rw [isDisk] at inMemory
        cases inMemory

/-- **`DeleteTable`** -/
theorem deleteTable_good (good : Good engine names schemaOf catalog storage) {deleted : Bool}
    (run : deleteTable catalog name storage = (.ok (deleted, catalog'), storage')) :
    ∃ names', Good engine names' schemaOf catalog' storage' ∧
      Leaves name names schemaOf catalog storage names' schemaOf catalog' storage' := by
  cases known : catalog.tableInfo name with
  | none =>
      rw [deleteTable_unknown known] at run
      cases run
      exact ⟨names, good, leaves_refl _ _ _ _ _⟩
  | some info =>
      obtain ⟨_, _, _, good', leaves⟩ := deleteTable_gone good known run
      exact ⟨_, good', leaves⟩

/-- **`GetTable`** gives the table under the name, with the schema of the catalog. -/
theorem getTable_good (good : Good engine names schemaOf catalog storage) (name : Bytes) :
    ∃ storage', getTable catalog name storage
        = (.ok ((catalog.tableInfo name).bind fun info =>
            (names info.type name).map fun ref => ⟨ref, info.schema⟩), storage') ∧
      Good engine names schemaOf catalog storage' ∧
      (∀ ref, storage.Allocated ref → storage'.Allocated ref) ∧
      ∀ ref, ref ≠ DiskTableFactory.mappingTable.storage →
        storage'.rowsOf ref = storage.rowsOf ref := by
  rw [getTable]
  cases known : catalog.tableInfo name with
  | none => exact ⟨storage, rfl, good, fun _ => id, fun _ _ => rfl⟩
  | some info =>
      obtain ⟨opened, isOpened, good', view, allocated, rows⟩ := good.open_ info.type
      refine ⟨opened, ?_, good', allocated, rows⟩
      show (getFactory info.type >>= fun _ => _) storage = _
      rw [Call.bind_ok isOpened, Call.bind_ok (Factory.getTable_view view name)]
      rfl

/-- **A call on the handle of a table** that no other name has. -/
theorem handle_good (good : Good engine names schemaOf catalog storage) {handle : TableHandle}
    {body : Call Unit} (moves : body.Moves (Rewrites (· = handle.storage) schemaOf))
    (notMapping : handle.storage ≠ DiskTableFactory.mappingTable.storage)
    (own : ∀ type other, names type other = some handle.storage → other = name) :
    Good engine names schemaOf catalog (body storage).2 ∧
      Leaves name names schemaOf catalog storage names schemaOf catalog (body storage).2 :=
  ⟨good.rewrite (moves storage) notMapping.symm, leaves_of_rows schemaOf
    (fun type other ref different isRef _ => (moves storage).frame.rows ref fun same =>
      different (own type other (same ▸ isRef))) fun _ => (moves storage).frame.allocated⟩

/-- A handle that `GetTable` gives. -/
theorem of_getTable (good : Good engine names schemaOf catalog storage) {handle : TableHandle}
    (got : getTable catalog name storage = (.ok (some handle), storage')) :
    schemaOf handle.storage = handle.schema ∧
      handle.storage ≠ DiskTableFactory.mappingTable.storage ∧ storage.Allocated handle.storage ∧
      ∀ type other, names type other = some handle.storage → other = name := by
  obtain ⟨opened, run, _⟩ := getTable_good good name
  rw [run] at got
  cases known : catalog.tableInfo name with
  | none =>
      rw [known] at got
      cases got
  | some info =>
      rw [known, Option.bind_some] at got
      cases found : names info.type name with
      | none =>
          rw [found] at got
          cases got
      | some ref =>
          rw [found] at got
          cases got
          exact ⟨good.recorded name info ref known found, (good.present found).2.1,
            (good.present found).1, fun type other isRef => (good.injective isRef found).2⟩

/-- What a `GetTable` that opens the disk factory leaves. -/
theorem getTable_leaves (good : Good engine names schemaOf catalog storage) (name : Bytes) :
    Good engine names schemaOf catalog (getTable catalog name storage).2 ∧
      Leaves name names schemaOf catalog storage names schemaOf catalog
        (getTable catalog name storage).2 := by
  obtain ⟨opened, run, good', allocated, rows⟩ := getTable_good good name
  rw [run]
  exact ⟨good', leaves_of_rows schemaOf (fun _ _ ref _ isRef _ =>
    rows ref (good.present isRef).2.1) allocated⟩

/-- **A call on a handle** that rewrites the rows of its table. -/
theorem withTable_good (good : Good engine names schemaOf catalog storage)
    {body : TableHandle → Call Unit} {answer : Bool}
    (moves : ∀ handle : TableHandle, schemaOf handle.storage = handle.schema →
      (body handle).Moves (Rewrites (· = handle.storage) schemaOf))
    (run : withTable catalog name body storage = (.ok (answer, catalog'), storage')) :
    Good engine names schemaOf catalog' storage' ∧
      Leaves name names schemaOf catalog storage names schemaOf catalog' storage' := by
  obtain ⟨found, opened, got, rest⟩ := Call.of_bind_ok run
  obtain ⟨good', leaves⟩ := getTable_leaves good name
  rw [got] at good' leaves
  cases found with
  | none =>
      cases rest
      exact ⟨good', leaves⟩
  | some handle =>
      obtain ⟨isSchema, notMapping, _, own⟩ := of_getTable good got
      obtain ⟨_, final, ran, rest⟩ := Call.of_bind_ok rest
      cases rest
      obtain ⟨good'', leaves'⟩ := handle_good good' (moves handle isSchema) notMapping own
      rw [ran] at good'' leaves'
      exact ⟨good'', leaves.trans leaves'⟩

theorem moves_unit {First : Type} {touched : TableRef → Prop} {first : Call First}
    (moves : first.Moves (Rewrites touched schemaOf)) :
    (do let _ ← first : Call Unit).Moves (Rewrites touched schemaOf) :=
  Rewrites.bind moves fun _ => Call.moves_pure (Rewrites.refl _ _) _

/-- **One call** that returns keeps a manager good, and leaves the other tables. -/
theorem call_good (good : Good engine names schemaOf catalog storage) {op : Op} {answer : Bool}
    (new : CreatesNew (catalog, storage) op)
    (run : call catalog op storage = (.ok (answer, catalog'), storage')) :
    ∃ names' schemaOf', Good engine names' schemaOf' catalog' storage' ∧
      Leaves op.name names schemaOf catalog storage names' schemaOf' catalog' storage' := by
  cases op with
  | createTable name type schema choices =>
      obtain ⟨names', schemaOf', good', leaves, _⟩ := createTable_good good new run
      exact ⟨names', schemaOf', good', leaves⟩
  | deleteTable name =>
      obtain ⟨names', good', leaves⟩ := deleteTable_good good run
      exact ⟨names', schemaOf, good', leaves⟩
  | insertRow name values place =>
      obtain ⟨good', leaves⟩ := withTable_good good
        (fun handle isSchema => moves_unit (insertRow_moves handle values isSchema place)) run
      exact ⟨names, schemaOf, good', leaves⟩
  | updateRow name rowId values place =>
      obtain ⟨good', leaves⟩ := withTable_good good
        (fun handle isSchema => moves_unit (updateRow_moves handle values isSchema rowId place)) run
      exact ⟨names, schemaOf, good', leaves⟩
  | deleteRow name rowId =>
      obtain ⟨good', leaves⟩ := withTable_good good
        (fun handle _ => storageDelete_moves schemaOf handle.storage rowId) run
      exact ⟨names, schemaOf, good', leaves⟩

/-! ### The first state -/

theorem typed_asRows {Record : Type} {encode : Record → Bytes} {records : List (RowId × Record)}
    {schema : Schema} (lists : Lists storage ref encode records)
    (encodes : ∀ record ∈ records, Encodes schema (encode record.2)) :
    Typed schema (asRows encode records) := by
  refine ⟨?_, fun row member => ?_⟩
  · rw [DiskTableFactory.asRows_rowIds]
    exact lists.once
  · obtain ⟨record, listed, rfl⟩ := List.mem_map.mp member
    exact encodes record listed

/-- The rows of the tables of the catalog. -/
theorem typed_stored {tables : List (RowId × TableRecord)} {columns : List (RowId × ColumnRecord)}
    (stored : Catalog.Stored catalog storage tables columns) (own : catalog.OwnSchemas schemaOf)
    (owned : catalog.Owns ref) {rows : List Row} (isRows : storage.rowsOf ref = some rows) :
    Typed (schemaOf ref) rows := by
  rcases owned with rfl | rfl
  · rw [stored.tableRows.rows, Option.some.injEq] at isRows
    rw [own.tables, ← isRows]
    exact typed_asRows stored.tableRows fun record listed =>
      ⟨_, TableRecord.matches_ (stored.tablesStorable record listed).name, rfl⟩
  · rw [stored.columnRows.rows, Option.some.injEq] at isRows
    rw [own.columns, ← isRows]
    exact typed_asRows stored.columnRows fun record listed =>
      ⟨_, ColumnRecord.matches_ (stored.columnsStorable record listed).name
        (stored.columnsStorable record listed).relation, rfl⟩

/-- The factory of the engine on an empty directory, which has no table and no rows. -/
theorem getFactory_view (engine : TableType) :
    Factory.View engine (getFactory engine .empty).2 fun _ => none := by
  cases engine with
  | inMemory => exact Factory.view_empty
  | disk =>
      show Factory.View .disk (DiskTableFactory.openMappingTable .empty) _
      exact .new rfl

theorem getFactory_rows (engine : TableType) {ref : TableRef}
    (notMapping : ref ≠ DiskTableFactory.mappingTable.storage) {rows : List Row}
    (isRows : (getFactory engine .empty).2.rowsOf ref = some rows) : rows = [] := by
  have same : (getFactory engine .empty).2.rowsOf ref = Storage.empty.rowsOf ref := by
    cases engine with
    | inMemory => rfl
    | disk => exact (Touches.opened .empty).rows ref notMapping
  rw [same] at isRows
  cases ref with
  | memory address =>
      cases isRows
      rfl
  | file fileId => cases isRows

/-- **A new manager**, on an empty directory, is good. -/
theorem construct_good {setup : Catalog.Setup}
    (run : construct engine setup .empty = (.ok catalog, storage)) :
    ∃ names schemaOf, Good engine names schemaOf catalog storage ∧
      (∀ type, type ≠ engine → names type = fun _ => none) ∧
      Catalog.Attached (names engine) catalog ∧ catalog.tableInfo = Catalog.initialInfo := by
  have run : Catalog.construct engine setup (getFactory engine .empty).2 = (.ok catalog, storage) :=
    run
  obtain ⟨⟨named, tables, columns, view, attached, stored, others⟩, isInfo, apart, rows⟩ :=
    Catalog.construct_new (getFactory_view engine) rfl rfl run
  let names : Names := Function.update (fun _ _ => none) engine named
  let schemaOf : TableRef → Schema := Function.update (Function.update (fun _ => [])
    catalog.tableCatalog tableCatalogSchema) catalog.columnCatalog columnCatalogSchema
  have isTables : schemaOf catalog.tableCatalog = tableCatalogSchema := by
    show Function.update _ catalog.columnCatalog _ catalog.tableCatalog = _
    rw [Function.update_of_ne stored.different, Function.update_self]
  have own : catalog.OwnSchemas schemaOf := ⟨isTables, Function.update_self ..⟩
  have isNames : names engine = named := Function.update_self ..
  have noNames : ∀ {type}, type ≠ engine → names type = fun _ => none := fun different =>
    Function.update_of_ne different ..
  have ownedName : ∀ {ref}, catalog.Owns ref → ∃ name, IsCatalogName name ∧
      named name = some ref := by
    rintro ref (rfl | rfl)
    · exact ⟨_, Or.inl rfl, attached.tables⟩
    · exact ⟨_, Or.inr rfl, attached.columns⟩
  have found : ∀ {type name ref}, names type name = some ref → type = engine ∧
      named name = some ref := by
    intro type name ref isRef
    by_cases same : type = engine
    · subst same
      rw [isNames] at isRef
      exact ⟨rfl, isRef⟩
    · rw [noNames same] at isRef
      cases isRef
  refine ⟨names, schemaOf, ⟨?_, ?_, own, fun ref owned => ?_,
    fun type name ref isRef owned => ?_, fun ref notMapping rows' isRows => ?_,
    fun name info ref known isRef => ?_, fun onDisk => ?_, fun onDisk name info isCatalog known => ?_⟩,
    fun _ => noNames, isNames ▸ attached, isInfo⟩
  · cases engine with
    | inMemory => exact isNames ▸ view
    | disk =>
        rw [noNames TableType.noConfusion]
        exact apart.view _ _ TableType.noConfusion Factory.view_empty
  · cases engine with
    | inMemory =>
        refine Or.inr ⟨?_, noNames TableType.noConfusion⟩
        rw [apart.present rfl]
        rfl
    | disk =>
        rw [isNames]
        exact Or.inl view
  · obtain ⟨name, _, isRef⟩ := ownedName owned
    exact ⟨(view.present isRef).1, (view.present isRef).2, view.isMemory isRef⟩
  · obtain ⟨other, isCatalog, isOther⟩ := ownedName owned
    rw [view.injective (found isRef).2 isOther]
    exact isCatalog
  · by_cases owned : catalog.Owns ref
    · exact typed_stored stored own owned isRows
    · rw [rows ref owned notMapping] at isRows
      rw [getFactory_rows engine notMapping isRows]
      exact typed_nil _
  · obtain ⟨_, isNamed⟩ := found isRef
    rw [isInfo] at known
    rcases Catalog.initialInfo_cases known with ⟨rfl, rfl⟩ | ⟨rfl, rfl⟩
    · rw [attached.tables, Option.some.injEq] at isNamed
      exact isNamed ▸ own.tables
    · rw [attached.columns, Option.some.injEq] at isNamed
      exact isNamed ▸ own.columns
  · subst onDisk
    rw [isNames]
    exact attached
  · rw [isInfo] at known
    rcases Catalog.initialInfo_cases known with ⟨_, rfl⟩ | ⟨_, rfl⟩
    · rfl
    · rfl

/-- The mapping table, whether the factory was made or not. -/
theorem DiskView.listed {names : Bytes → Option TableRef} (view : DiskView storage names) :
    ∃ mappings, DiskTableFactory.Listed storage mappings ∨
      storage.files diskTableMappingFileId = none ∧ mappings = [] := by
  rcases view with ⟨mappings, mapped, _⟩ | ⟨absent, _⟩
  · exact ⟨mappings, Or.inl mapped.listed⟩
  · exact ⟨[], Or.inr ⟨absent, rfl⟩⟩

/-! ### Runs -/

/-- The call returns. -/
def Returns (state : Catalog × Storage) (op : Op) : Prop :=
  (machine.answer state op).toBool = true

instance (state : Catalog × Storage) (op : Op) : Decidable (Returns state op) :=
  inferInstanceAs (Decidable (_ = _))

theorem of_returns {op : Op} (returns : Returns (catalog, storage) op) :
    ∃ answer catalog' storage', call catalog op storage = (.ok (answer, catalog'), storage') ∧
      machine.answer (catalog, storage) op = .ok answer ∧
      machine.next (catalog, storage) op = (catalog', storage') := by
  have returns : (step (catalog, storage) op).1.toBool = true := returns
  show ∃ answer catalog' storage', _ ∧ (step (catalog, storage) op).1 = _ ∧
    (step (catalog, storage) op).2 = _
  rw [step] at returns ⊢
  cases run : call catalog op storage with
  | mk outcome storage' =>
      rw [run] at returns
      cases outcome with
      | error failure => cases returns
      | ok result => exact ⟨result.1, result.2, storage', rfl, rfl, rfl⟩

/-- Some view of the manager is good. -/
def Sound (engine : TableType) (state : Catalog × Storage) : Prop :=
  ∃ names schemaOf, Good engine names schemaOf state.1 state.2

theorem sound_of_construct {setup : Catalog.Setup} {state : Catalog × Storage}
    (made : construct engine setup .empty = (.ok state.1, state.2)) : Sound engine state := by
  obtain ⟨names, schemaOf, good, _⟩ := construct_good made
  exact ⟨names, schemaOf, good⟩

theorem step_sound {state : Catalog × Storage} {op : Op} (sound : Sound engine state)
    (allowed : Returns state op ∧ CreatesNew state op) :
    Sound engine (machine.next state op) := by
  obtain ⟨names, schemaOf, good⟩ := sound
  obtain ⟨answer, catalog', storage', run, _, next⟩ := of_returns allowed.1
  obtain ⟨names', schemaOf', good', _⟩ := call_good good allowed.2 run
  rw [next]
  exact ⟨names', schemaOf', good'⟩

/-- The rows that a scan of every table yields decode under its schema: the segments tile the row,
and every column reads a value. -/
def WellTyped (state : Catalog × Storage) : Prop :=
  ∀ name handle storage', getTable state.1 name state.2 = (.ok (some handle), storage') →
    ∃ rows, Storage.scan handle.storage storage' = (.ok rows, storage') ∧ ∀ row ∈ rows,
      RowReader.Tiled ⟨row.data, handle.schema⟩ ∧ ∀ pos < handle.schema.length,
        ∃ value, RowReader.getValue ⟨row.data, handle.schema⟩ pos = .ok value

theorem encodes_wellTyped {schema : Schema} {data : Bytes} (encodes : Encodes schema data) :
    RowReader.Tiled ⟨data, schema⟩ ∧ ∀ pos < schema.length,
      ∃ value, RowReader.getValue ⟨data, schema⟩ pos = .ok value := by
  refine ⟨tiled_iff.mpr encodes, fun pos inside => ?_⟩
  obtain ⟨values, matching, rfl⟩ := encodes
  exact ⟨_, (encodes_read matching (matching.length_eq ▸ inside)).2.2⟩

theorem Good.wellTyped (good : Good engine names schemaOf catalog storage) :
    WellTyped (catalog, storage) := by
  intro name handle storage' got
  obtain ⟨opened, run, good', _⟩ := getTable_good good name
  rw [run] at got
  cases known : catalog.tableInfo name with
  | none =>
      rw [known] at got
      cases got
  | some info =>
      rw [known, Option.bind_some] at got
      cases found : names info.type name with
      | none =>
          rw [found] at got
          cases got
      | some ref =>
          rw [found] at got
          cases got
          obtain ⟨rows, isRows⟩ := rowsOf_of_allocated (good'.present found).1
          refine ⟨rows, Storage.scan_ok isRows, fun row member => encodes_wellTyped ?_⟩
          have typed := good'.typed ref (good'.present found).2.1 rows isRows
          rw [good'.recorded name info ref known found] at typed
          exact typed.2 row member

/-- **Every stored row is well typed for its table**, in every state of a run whose calls return and
create new names only. -/
theorem rows_wellTyped (engine : TableType) {setup : Catalog.Setup} {state : Catalog × Storage}
    (made : construct engine setup .empty = (.ok state.1, state.2)) (ops : List Op)
    (returns : machine.Along Returns state ops) (new : machine.Along CreatesNew state ops) :
    machine.Always WellTyped state ops := by
  have sound := Machine.always_of_step (fun _ _ sound allowed => step_sound sound allowed)
    (sound_of_construct made) (returns.and new)
  exact sound.imp fun state ⟨names, schemaOf, good⟩ => good.wellTyped

/-- What a scan of the table under a name yields. -/
def scanOf (state : Catalog × Storage) (name : Bytes) : Except CallFailure (Option (List Row)) :=
  ((do
    match ← getTable state.1 name with
    | none => return none
    | some handle => return some (← Storage.scan handle.storage) : Call (Option (List Row)))
    state.2).1

theorem scanOf_good (good : Good engine names schemaOf catalog storage) (name : Bytes) :
    scanOf (catalog, storage) name = .ok ((catalog.tableInfo name).bind fun info =>
      (names info.type name).bind storage.rowsOf) := by
  obtain ⟨opened, run, good', _, rows⟩ := getTable_good good name
  rw [scanOf, Call.bind_ok run]
  cases known : catalog.tableInfo name with
  | none => rfl
  | some info =>
      cases found : names info.type name with
      | none =>
          rw [Option.bind_some, Option.bind_some, found]
          rfl
      | some ref =>
          obtain ⟨scanned, isRows⟩ := rowsOf_of_allocated (good'.present found).1
          rw [Option.bind_some, Option.bind_some, found, Option.bind_some,
            ← rows ref (good'.present found).2.1, isRows]
          show ((Storage.scan ref >>= fun rows => (pure (some rows) : Call (Option (List Row))))
            opened).1 = _
          rw [Call.bind_ok (Storage.scan_ok isRows)]
          rfl

/-! ### Samples -/

/-- A new manager. -/
def started (engine : TableType) : Catalog × Storage :=
  match construct engine Catalog.sampleSetup .empty with
  | (.ok catalog, storage) => (catalog, storage)
  | (.error _, storage) => (⟨fun _ => none, .memory 0, .memory 0⟩, storage)

theorem construct_started (engine : TableType) : construct engine Catalog.sampleSetup .empty
    = (.ok (started engine).1, (started engine).2) := by
  have returned : (construct engine Catalog.sampleSetup .empty).1.toBool = true := by
    cases engine <;> decide +kernel
  rw [started]
  cases run : construct engine Catalog.sampleSetup .empty with
  | mk outcome storage =>
      rw [run] at returned
      cases outcome with
      | error failure => cases returned
      | ok catalog => rfl

/-- The choices of the table number `index`. -/
def sampleChoices (draw : FileId) (index : Nat) : Choices :=
  ⟨draw, Catalog.counted index, Catalog.counted index, fun column =>
    Catalog.counted (7 * index + column)⟩

/-- Two tables with rows, one of which is deleted and created again. -/
def twoTables : List Op :=
  [.createTable [7] .disk [⟨[1], 0⟩] (sampleChoices 7 2), .insertRow [7] [.i32 5] (Catalog.counted 0),
    .createTable [8] .disk [⟨[1], 1⟩] (sampleChoices 8 3),
    .insertRow [8] [.string [9]] (Catalog.counted 0),
    .updateRow [8] 0 [.string [10]] (Catalog.counted 1), .deleteTable [7],
    .createTable [7] .inMemory [⟨[2], 1⟩] (sampleChoices 7 4)]

theorem twoTables_returns : machine.Along Returns (started .disk) twoTables := by decide +kernel

theorem twoTables_new : machine.Along CreatesNew (started .disk) twoTables := by decide +kernel

theorem twoTables_wellTyped : machine.Always WellTyped (started .disk) twoTables :=
  rows_wellTyped .disk (construct_started .disk) twoTables twoTables_returns twoTables_new

/-- The first table with the name of a catalog table stays the one of the catalog. -/
def catalogAgain : List Op :=
  [.deleteTable tableCatalogName,
    .createTable tableCatalogName .disk (List.replicate 7 ⟨[1], 0⟩) (sampleChoices 7 2)]

theorem catalogAgain_returns : machine.Along Returns (started .disk) catalogAgain := by
  decide +kernel

/-- Every column of every row of a table reads. -/
def Reads (state : Catalog × Storage) (name : Bytes) : Bool :=
  match getTable state.1 name state.2 with
  | (.ok (some handle), storage) => match (Storage.scan handle.storage storage).1 with
    | .ok rows => rows.all fun row => (List.range handle.schema.length).all fun pos =>
        (RowReader.getValue ⟨row.data, handle.schema⟩ pos).toBool
    | .error _ => false
  | _ => true

theorem reads_of_wellTyped {state : Catalog × Storage} (typed : WellTyped state) (name : Bytes) :
    Reads state name = true := by
  rw [Reads]
  cases got : getTable state.1 name state.2 with
  | mk outcome storage' =>
      cases outcome with
      | error failure => rfl
      | ok found =>
          cases found with
          | none => rfl
          | some handle =>
              obtain ⟨rows, scanned, all⟩ := typed name handle storage' got
              simp only [scanned]
              refine List.all_eq_true.mpr fun row member => List.all_eq_true.mpr fun pos inside => ?_
              obtain ⟨value, read⟩ := (all row member).2 pos (List.mem_range.mp inside)
              rw [read]
              rfl

/-- A table with the name of a catalog table gets the rows of the catalog. -/
theorem catalogAgain_breaks :
    construct .disk Catalog.sampleSetup .empty = (.ok (started .disk).1, (started .disk).2) ∧
      machine.Along Returns (started .disk) catalogAgain ∧
      ¬ machine.Always WellTyped (started .disk) catalogAgain := by
  refine ⟨construct_started .disk, catalogAgain_returns, fun always => ?_⟩
  have reads := reads_of_wellTyped always.last tableCatalogName
  have fails : Reads (machine.exec (started .disk) catalogAgain) tableCatalogName = false := by
    decide +kernel
  rw [fails] at reads
  cases reads

end TableManager

end Yadb
