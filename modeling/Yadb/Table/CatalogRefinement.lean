/-
**The rows of the catalog are its map.**

`Lists` says that a table holds the rows of some records, `Touches` that a call changes some tables
only. `Stored`: the two tables of a catalog hold one record for each table of its map and one for
each of its columns. Adding and removing a table keep it (`addTable_stored`, `removeTable_stored`),
and a catalog that is made over such tables loads the same map (`load_stored`).

* `catalog_reloads`: in every state of a run of calls that return, a new catalog on the same factory
  has the map of the live one.
-/

import Yadb.Table.FactoryView

namespace Yadb

open Foundation

/-! ### Tables of records -/

def tableRow (record : TableRecord) : Bytes := rowCode.encodeAll record.values

def columnRow (record : ColumnRecord) : Bytes := rowCode.encodeAll record.values

section Lists

variable {Record : Type} {encode : Record → Bytes} {records : List (RowId × Record)}
  {storage storage' : Storage} {ref : TableRef}

/-- The table holds the rows of these records, each under an id of its own. -/
structure Lists (storage : Storage) (ref : TableRef) (encode : Record → Bytes)
    (records : List (RowId × Record)) : Prop where
  rows : storage.rowsOf ref = some (asRows encode records)
  once : (records.map Prod.fst).Nodup

theorem Lists.frame {touched : TableRef → Prop} (lists : Lists storage ref encode records)
    (frame : Touches touched storage storage') (outside : ¬ touched ref) :
    Lists storage' ref encode records := ⟨(frame.rows ref outside).trans lists.rows, lists.once⟩

/-- **A row that was inserted** is one more record. -/
theorem Lists.insert (lists : Lists storage ref encode records) {schema : Schema}
    {values : List Value} {place : Placement} {rowId : RowId} {record : Record}
    (run : TableHandle.insertRow ⟨ref, schema⟩ values place storage = (.ok rowId, storage'))
    (isRecord : encode record = rowCode.encodeAll values) :
    Matches schema values ∧ Touches (· = ref) storage storage' ∧
      Lists storage' ref encode (insertAt place.position (place.rowId, record) records) := by
  obtain ⟨matching, rows, found, new, _, rfl⟩ := TableHandle.of_insertRow_ok run
  have found : storage.rowsOf ref = some rows := found
  rw [lists.rows, Option.some.injEq] at found
  subst found
  rw [DiskTableFactory.asRows_rowIds] at new
  refine ⟨matching, Touches.setRows .., ?_, ?_⟩
  · rw [Storage.rowsOf_setRows, Function.update_self, asRows, asRows, map_insertAt, isRecord]
  · rw [map_insertAt]
    exact (perm_insertAt _ _ _).nodup_iff.mpr (List.nodup_cons.mpr ⟨new, lists.once⟩)

/-- **A row that was deleted** is one record less. -/
theorem Lists.delete (lists : Lists storage ref encode records) {rowId : RowId}
    (run : Storage.deleteRow ref rowId storage = (.ok (), storage')) :
    Touches (· = ref) storage storage' ∧
      Lists storage' ref encode (records.filter fun record => record.1 ≠ rowId) := by
  obtain ⟨rows, found, rfl⟩ := Storage.of_deleteRow_ok run
  rw [lists.rows, Option.some.injEq] at found
  subst found
  refine ⟨Touches.setRows .., ?_, lists.once.sublist (List.filter_sublist.map _)⟩
  rw [Storage.rowsOf_setRows, Function.update_self, DiskTableFactory.asRows_filter]

/-- Rows that were inserted one after the other are so many more records. -/
theorem insertRecords_lists (lists : Lists storage ref encode records) {schema : Schema}
    {values : Record → List Value}
    (isRecord : ∀ record, encode record = rowCode.encodeAll (values record))
    {place : Nat → Placement} {index : Nat} (new : List Record)
    (run : Catalog.insertRecords ⟨ref, schema⟩ place index (new.map values) storage
      = (.ok (), storage')) :
    ∃ records', Touches (· = ref) storage storage' ∧ Lists storage' ref encode records' ∧
      (records'.map Prod.snd).Perm (new ++ records.map Prod.snd) := by
  induction new generalizing storage records index with
  | nil =>
      cases run
      exact ⟨records, Touches.refl _ _, lists, .refl _⟩
  | cons record new ih =>
      obtain ⟨rowId, middle, inserted, rest⟩ := Call.of_bind_ok run
      obtain ⟨_, frame, lists⟩ := lists.insert inserted (isRecord record)
      obtain ⟨records', frame', lists, perm⟩ := ih lists rest
      refine ⟨records', frame.trans frame', lists, perm.trans ?_⟩
      rw [map_insertAt]
      exact ((perm_insertAt _ _ _).append_left new).trans List.perm_middle

theorem addColumns_lists {columns : List (RowId × ColumnRecord)} {schema : Schema}
    (lists : Lists storage ref columnRow columns)
    {place : Nat → Placement} {new : List ColumnRecord}
    (run : Catalog.addColumns ⟨ref, schema⟩ place new storage = (.ok (), storage')) :
    (∀ record ∈ new, Matches schema record.values ∧ record.position + 1 ≠ 2 ^ 31) ∧
      ∃ columns', Touches (· = ref) storage storage' ∧ Lists storage' ref columnRow columns' ∧
        (columns'.map Prod.snd).Perm (new ++ columns.map Prod.snd) := by
  induction new generalizing storage columns with
  | nil =>
      cases run
      exact ⟨nofun, columns, Touches.refl _ _, lists, .refl _⟩
  | cons record new ih =>
      obtain ⟨rowId, middle, inserted, rest⟩ := Call.of_bind_ok run
      obtain ⟨matching, frame, lists⟩ := lists.insert inserted rfl
      by_cases overflow : record.position + 1 = 2 ^ 31
      · rw [if_pos overflow] at rest
        cases rest
      · rw [if_neg overflow] at rest
        obtain ⟨all, columns', frame', lists, perm⟩ := ih lists rest
        refine ⟨fun other member => ?_, columns', frame.trans frame', lists, perm.trans ?_⟩
        · rcases List.mem_cons.mp member with rfl | member
          · exact ⟨matching, overflow⟩
          · exact all other member
        · rw [map_insertAt]
          exact ((perm_insertAt _ _ _).append_left new).trans List.perm_middle

/-- The records without those that pass a test, which have ids of their own. -/
theorem Lists.filter_ids (lists : Lists storage ref encode records) (passes : Record → Bool) :
    (records.filter fun record => record.1 ∉ (records.filter fun record => passes record.2).map
      Prod.fst) = records.filter fun record => !passes record.2 := by
  refine List.filter_congr fun record listed => ?_
  cases pass : passes record.2 with
  | true =>
      refine decide_eq_false (not_not.mpr ?_)
      exact List.mem_map_of_mem (List.mem_filter.mpr ⟨listed, pass⟩)
  | false =>
      refine decide_eq_true fun member => ?_
      obtain ⟨other, kept, same⟩ := List.mem_map.mp member
      obtain ⟨listed', passed⟩ := List.mem_filter.mp kept
      rw [List.inj_on_of_nodup_map lists.once listed' listed same, pass] at passed
      cases passed

theorem deleteRows_lists (lists : Lists storage ref encode records) {schema : Schema}
    {rowIds : List RowId}
    (run : Catalog.deleteRows ⟨ref, schema⟩ rowIds storage = (.ok (), storage')) :
    Touches (· = ref) storage storage' ∧
      Lists storage' ref encode (records.filter fun record => record.1 ∉ rowIds) := by
  induction rowIds generalizing storage records with
  | nil =>
      cases run
      have all : (records.filter fun record => record.1 ∉ ([] : List RowId)) = records :=
        List.filter_eq_self.mpr fun _ _ => by simp
      rw [all]
      exact ⟨Touches.refl _ _, lists⟩
  | cons rowId rowIds ih =>
      obtain ⟨_, middle, deleted, rest⟩ := Call.of_bind_ok run
      obtain ⟨frame, lists⟩ := lists.delete deleted
      obtain ⟨frame', lists⟩ := ih lists rest
      refine ⟨frame.trans frame', ?_⟩
      rw [List.filter_filter] at lists
      have same : (records.filter fun record => record.1 ∉ rowId :: rowIds) = records.filter
          fun record => decide (record.1 ∉ rowIds) && decide (record.1 ≠ rowId) := by
        refine List.filter_congr fun record _ => ?_
        rw [Bool.and_comm, ← Bool.decide_and]
        exact decide_eq_decide.mpr (by rw [List.mem_cons, not_or])
      rw [same]
      exact lists

end Lists

/-! ### The rows of a catalog -/

/-- The row can be stored, and reads back as the same record. -/
structure TableRecord.Storable (record : TableRecord) : Prop where
  name : record.name.length ≤ maxStringLength
  numAttributes : record.numAttributes < 2 ^ 31

structure ColumnRecord.Storable (record : ColumnRecord) : Prop where
  name : record.attr.name.length ≤ maxStringLength
  relation : record.relation.length ≤ maxStringLength
  type : isValidTypeId record.attr.type.toNat
  position : record.position < 2 ^ 31

theorem TableRecord.matches_ {record : TableRecord} (name : record.name.length ≤ maxStringLength) :
    Matches tableCatalogSchema record.values :=
  .cons ⟨rfl, name⟩ (.cons ⟨rfl, trivial⟩ (.cons ⟨rfl, trivial⟩ .nil))

theorem TableRecord.name_of_matches {record : TableRecord}
    (matching : Matches tableCatalogSchema record.values) :
    record.name.length ≤ maxStringLength := by
  cases matching with
  | cons first _ => exact first.2

theorem ColumnRecord.matches_ {record : ColumnRecord}
    (name : record.attr.name.length ≤ maxStringLength)
    (relation : record.relation.length ≤ maxStringLength) :
    Matches columnCatalogSchema record.values :=
  .cons ⟨rfl, name⟩ (.cons ⟨rfl, relation⟩ (.cons ⟨rfl, trivial⟩ (.cons ⟨rfl, trivial⟩ .nil)))

theorem ColumnRecord.names_of_matches {record : ColumnRecord}
    (matching : Matches columnCatalogSchema record.values) :
    record.attr.name.length ≤ maxStringLength ∧ record.relation.length ≤ maxStringLength := by
  cases matching with
  | cons first rest =>
      cases rest with
      | cons second _ => exact ⟨first.2, second.2⟩

namespace Catalog

theorem hasName_tableRow {record : TableRecord} (short : record.name.length ≤ maxStringLength)
    (name : Bytes) : hasName name (tableRow record) = .ok (record.name == name) :=
  bind_of_ok (getString_encode (TableRecord.matches_ short) rfl) _

theorem ofRelation_columnRow {record : ColumnRecord} (storable : record.Storable) (name : Bytes) :
    ofRelation name (columnRow record) = .ok (record.relation == name) :=
  bind_of_ok (getString_encode (ColumnRecord.matches_ storable.name storable.relation) rfl) _

theorem mapError_ok {Value : Type} {result : Except ReadFailure Value} {value : Value}
    (ok : result = .ok value) : result.mapError CallFailure.unreadable = .ok value := by
  rw [ok]
  rfl

theorem tableTypeOfNumber_number (type : TableType) :
    tableTypeOfNumber (tableTypeNumber type) = .ok type := by
  cases type <;> rfl

/-- The empty columns of a table that was loaded. -/
def blank (numAttributes : Nat) : Schema := List.replicate numAttributes ⟨[], 0⟩

/-- Loading a row of the table catalog. -/
theorem loadTable_row (info : Bytes → Option TableInfo) {record : TableRecord}
    (storable : record.Storable) (rowId : RowId) : loadTable info ⟨rowId, tableRow record⟩
      = .ok (Function.update info record.name (some ⟨record.type, blank record.numAttributes⟩)) := by
  have matching := TableRecord.matches_ storable.name
  have number := Int32.toInt_ofNat_of_lt storable.numAttributes
  have notNegative : ¬ Int32.ofNat record.numAttributes < 0 := by
    rw [Int32.lt_iff_toInt_lt, number]
    exact not_lt.mpr (Int.natCast_nonneg _)
  refine (bind_of_ok (mapError_ok (getString_encode matching rfl)) _).trans ?_
  refine (bind_of_ok (mapError_ok (getI32_encode matching rfl)) _).trans ?_
  refine (bind_of_ok (mapError_ok (getI32_encode matching rfl)) _).trans ?_
  refine (bind_of_ok (tableTypeOfNumber_number record.type) _).trans ?_
  show (if Int32.ofNat record.numAttributes < 0 then _ else _) = _
  rw [if_neg notNegative, number]
  rfl

/-- Loading a row of the column catalog, of a table that has the column. -/
theorem loadColumn_row {info : Bytes → Option TableInfo} {record : ColumnRecord}
    (storable : record.Storable) (rowId : RowId) {table : TableInfo}
    (found : info record.relation = some table) (inside : record.position < table.schema.length) :
    loadColumn info ⟨rowId, columnRow record⟩ = .ok (Function.update info record.relation
      (some { table with schema := table.schema.set record.position record.attr })) := by
  have matching := ColumnRecord.matches_ storable.name storable.relation
  have position := Int32.toInt_ofNat_of_lt storable.position
  have typeBound : record.attr.type.toNat < 2 ^ 31 := record.attr.type.toNat_lt.trans (by decide)
  have type := Int32.toInt_ofNat_of_lt typeBound
  have inBounds : ¬ (Int32.ofNat record.position < 0 ∨
      table.schema.length ≤ (Int32.ofNat record.position).toInt.toNat) := by
    rw [Int32.lt_iff_toInt_lt, position, Int.toNat_natCast]
    rintro (negative | outside)
    · exact absurd negative (not_lt.mpr (Int.natCast_nonneg _))
    · omega
  refine (bind_of_ok (mapError_ok (getString_encode matching rfl)) _).trans ?_
  refine (bind_of_ok (mapError_ok (getString_encode matching rfl)) _).trans ?_
  refine (bind_of_ok (mapError_ok (getI32_encode matching rfl)) _).trans ?_
  show (if !isValidTypeId (Int32.ofNat record.attr.type.toNat).toInt then _ else _) = _
  rw [type, storable.type, if_neg (by decide)]
  refine (bind_of_ok (mapError_ok (getI32_encode matching rfl)) _).trans ?_
  rw [found]
  show (if _ then _ else _) = _
  rw [if_neg inBounds, position, Int.toNat_natCast, Int.toNat_natCast, UInt8.ofNat_toNat]
  rfl

/-! ### The invariant -/

/-- The table of the map has this record. -/
def Recorded (info : Bytes → Option TableInfo) (record : TableRecord) : Prop :=
  ∃ table, info record.name = some table ∧ record.type = table.type ∧
    record.numAttributes = table.schema.length

/-- A table of the map has this column. -/
def HasColumn (info : Bytes → Option TableInfo) (record : ColumnRecord) : Prop :=
  ∃ table, info record.relation = some table ∧ table.schema[record.position]? = some record.attr

/-- **The two tables hold the map.** -/
structure Stored (catalog : Catalog) (storage : Storage) (tables : List (RowId × TableRecord))
    (columns : List (RowId × ColumnRecord)) : Prop where
  different : catalog.tableCatalog ≠ catalog.columnCatalog
  tableRows : Lists storage catalog.tableCatalog tableRow tables
  columnRows : Lists storage catalog.columnCatalog columnRow columns
  names : (tables.map fun table => table.2.name).Nodup
  tablesStorable : ∀ table ∈ tables, table.2.Storable
  columnsStorable : ∀ column ∈ columns, column.2.Storable
  recorded : ∀ record, record ∈ tables.map Prod.snd ↔ Recorded catalog.tableInfo record
  hasColumn : ∀ record, record ∈ columns.map Prod.snd ↔ HasColumn catalog.tableInfo record

theorem mem_columnsOf {relation : Bytes} {start : Nat} {schema : Schema} {record : ColumnRecord} :
    record ∈ columnsOf relation start schema ↔ record.relation = relation ∧
      start ≤ record.position ∧ schema[record.position - start]? = some record.attr := by
  induction schema generalizing start with
  | nil => simp [columnsOf]
  | cons attr schema ih =>
      rw [columnsOf, List.mem_cons, ih]
      constructor
      · rintro (rfl | ⟨isRelation, after, found⟩)
        · refine ⟨rfl, Nat.le_refl _, ?_⟩
          rw [Nat.sub_self]
          rfl
        · refine ⟨isRelation, by omega, ?_⟩
          obtain ⟨gap, isGap⟩ : ∃ gap, record.position - start = gap + 1 :=
            ⟨record.position - start - 1, by omega⟩
          rw [isGap, List.getElem?_cons_succ, ← found]
          congr 1
          omega
      · rintro ⟨isRelation, after, found⟩
        rcases Nat.eq_or_lt_of_le after with here | later
        · left
          rw [← here, Nat.sub_self, List.getElem?_cons_zero, Option.some.injEq] at found
          cases record
          cases found
          cases isRelation
          cases here
          rfl
        · refine Or.inr ⟨isRelation, later, ?_⟩
          obtain ⟨gap, isGap⟩ : ∃ gap, record.position - start = gap + 1 :=
            ⟨record.position - start - 1, by omega⟩
          rw [isGap, List.getElem?_cons_succ] at found
          rw [← found]
          congr 1
          omega

/-! ### Loading -/

/-- The map after the tables were loaded. -/
theorem foldlM_loadTable {tables : List (RowId × TableRecord)} (info : Bytes → Option TableInfo)
    (names : (tables.map fun table => table.2.name).Nodup)
    (storable : ∀ table ∈ tables, table.2.Storable) :
    ∃ loaded, (asRows tableRow tables).foldlM loadTable info = .ok loaded ∧
      (∀ table ∈ tables, loaded table.2.name
        = some ⟨table.2.type, blank table.2.numAttributes⟩) ∧
      ∀ name, name ∉ tables.map (fun table => table.2.name) → loaded name = info name := by
  induction tables generalizing info with
  | nil => exact ⟨info, rfl, nofun, fun _ _ => rfl⟩
  | cons table tables ih =>
      rw [List.map_cons, List.nodup_cons] at names
      obtain ⟨loaded, run, inside, outside⟩ := ih (Function.update info table.2.name
        (some ⟨table.2.type, blank table.2.numAttributes⟩)) names.2
        fun other member => storable other (List.mem_cons_of_mem table member)
      refine ⟨loaded, ?_, fun other member => ?_, fun name absent => ?_⟩
      · show ((⟨table.1, tableRow table.2⟩ : Row) :: asRows tableRow tables).foldlM loadTable info
          = _
        rw [List.foldlM_cons, bind_of_ok (loadTable_row info (storable table List.mem_cons_self) _)]
        exact run
      · rcases List.mem_cons.mp member with rfl | member
        · rw [outside _ names.1, Function.update_self]
        · exact inside other member
      · rw [List.map_cons, List.mem_cons, not_or] at absent
        rw [outside name absent.2, Function.update_of_ne absent.1]

/-- What is loaded so far is a part of the map. -/
structure PartOf (target loaded : Bytes → Option TableInfo) (done : List ColumnRecord) : Prop where
  tables : ∀ name table, target name = some table → ∃ schema,
    loaded name = some ⟨table.type, schema⟩ ∧ schema.length = table.schema.length ∧
      ∀ record ∈ done, record.relation = name →
        schema[record.position]? = table.schema[record.position]?
  others : ∀ name, target name = none → loaded name = none

theorem foldlM_loadColumn {columns : List (RowId × ColumnRecord)}
    {target loaded : Bytes → Option TableInfo} {done : List ColumnRecord}
    (part : PartOf target loaded done) (storable : ∀ column ∈ columns, column.2.Storable)
    (hasColumn : ∀ column ∈ columns, HasColumn target column.2) :
    ∃ final, (asRows columnRow columns).foldlM loadColumn loaded = .ok final ∧
      PartOf target final (columns.map Prod.snd ++ done) := by
  induction columns generalizing loaded done with
  | nil => exact ⟨loaded, rfl, part⟩
  | cons column columns ih =>
      obtain ⟨table, isTable, isColumn⟩ := hasColumn column List.mem_cons_self
      obtain ⟨schema, isLoaded, length, agree⟩ := part.tables _ table isTable
      obtain ⟨inTable, isAttr⟩ := List.getElem?_eq_some_iff.mp isColumn
      have inside : column.2.position < schema.length := by rwa [length]
      have run := loadColumn_row (storable column List.mem_cons_self) column.1 isLoaded inside
      have next : PartOf target (Function.update loaded column.2.relation
          (some ⟨table.type, schema.set column.2.position column.2.attr⟩)) (column.2 :: done) := by
        refine ⟨fun name other isOther => ?_, fun name none_ => ?_⟩
        · by_cases same : name = column.2.relation
          · subst same
            rw [isTable, Option.some.injEq] at isOther
            subst isOther
            refine ⟨_, Function.update_self .., ?_, fun record member sameName => ?_⟩
            · rw [List.length_set, length]
            · by_cases here : column.2.position = record.position
              · rw [← here, List.getElem?_set_self inside, isColumn]
              · rw [List.getElem?_set_ne here]
                rcases List.mem_cons.mp member with rfl | member
                · exact absurd rfl here
                · exact agree record member sameName
          · obtain ⟨schema', isLoaded', length', agree'⟩ := part.tables name other isOther
            refine ⟨schema', ?_, length', fun record member sameName => ?_⟩
            · rw [Function.update_of_ne same, isLoaded']
            · rcases List.mem_cons.mp member with rfl | member
              · exact absurd sameName.symm same
              · exact agree' record member sameName
        · rw [Function.update_of_ne]
          · exact part.others name none_
          · rintro rfl
            rw [isTable] at none_
            cases none_
      obtain ⟨final, rest, part'⟩ := ih next
        (fun other member => storable other (List.mem_cons_of_mem column member))
        (fun other member => hasColumn other (List.mem_cons_of_mem column member))
      refine ⟨final, ?_, ⟨fun name other isOther => ?_, part'.others⟩⟩
      · show ((⟨column.1, columnRow column.2⟩ : Row) :: asRows columnRow columns).foldlM loadColumn
          loaded = _
        rw [List.foldlM_cons, bind_of_ok run]
        exact rest
      · obtain ⟨schema', isLoaded', length', agree'⟩ := part'.tables name other isOther
        refine ⟨schema', isLoaded', length', fun record member => agree' record ?_⟩
        rw [List.map_cons, List.cons_append, List.mem_cons, List.mem_append] at member
        rw [List.mem_append, List.mem_cons]
        tauto

/-- **A catalog loads the map that its tables hold.** -/
theorem load_stored {catalog : Catalog} {storage : Storage} {tables : List (RowId × TableRecord)}
    {columns : List (RowId × ColumnRecord)} (stored : Stored catalog storage tables columns) :
    load (asRows tableRow tables) (asRows columnRow columns) = .ok catalog.tableInfo := by
  obtain ⟨loaded, run, inside, outside⟩ := foldlM_loadTable (fun _ => none) stored.names
    stored.tablesStorable
  have start : PartOf catalog.tableInfo loaded [] := by
    refine ⟨fun name table isTable => ?_, fun name none_ => outside name fun member => ?_⟩
    · have member : (⟨name, table.type, table.schema.length⟩ : TableRecord)
          ∈ tables.map Prod.snd := (stored.recorded _).mpr ⟨table, isTable, rfl, rfl⟩
      obtain ⟨entry, listed, isEntry⟩ := List.mem_map.mp member
      have isLoaded := inside entry listed
      rw [isEntry] at isLoaded
      exact ⟨_, isLoaded, List.length_replicate, nofun⟩
    · obtain ⟨entry, listed, isName⟩ := List.mem_map.mp member
      obtain ⟨table, isTable, _⟩ := (stored.recorded entry.2).mp (List.mem_map_of_mem listed)
      rw [isName, none_] at isTable
      cases isTable
  obtain ⟨final, rest, part⟩ := foldlM_loadColumn start stored.columnsStorable
    fun column member => (stored.hasColumn column.2).mp (List.mem_map_of_mem member)
  rw [load, bind_of_ok run, rest]
  refine congrArg _ (funext fun name => ?_)
  cases isTable : catalog.tableInfo name with
  | none => exact part.others name isTable
  | some table =>
      obtain ⟨schema, isLoaded, length, agree⟩ := part.tables name table isTable
      have same : schema = table.schema := by
        refine List.ext_getElem? fun position => ?_
        by_cases inTable : position < table.schema.length
        · have listed : (⟨table.schema[position], name, position⟩ : ColumnRecord)
              ∈ columns.map Prod.snd :=
            (stored.hasColumn _).mpr ⟨table, isTable, List.getElem?_eq_getElem inTable⟩
          exact agree _ (List.mem_append_left _ listed) rfl
        · rw [List.getElem?_eq_none (by omega), List.getElem?_eq_none (by omega)]
      rw [isLoaded, same]

/-! ### Adding and removing a table -/

variable {catalog catalog' : Catalog} {storage storage' : Storage}
  {tables : List (RowId × TableRecord)} {columns : List (RowId × ColumnRecord)}

/-- One of the tables of the catalog. -/
def Owns (catalog : Catalog) (ref : TableRef) : Prop :=
  ref = catalog.tableCatalog ∨ ref = catalog.columnCatalog

/-- The rows of the two tables of the catalog are all that it needs of the storage. -/
theorem Stored.congr (stored : Stored catalog storage tables columns)
    (same : ∀ ref, catalog.Owns ref → storage'.rowsOf ref = storage.rowsOf ref) :
    Stored catalog storage' tables columns :=
  { stored with
    tableRows := ⟨(same _ (Or.inl rfl)).trans stored.tableRows.rows, stored.tableRows.once⟩
    columnRows := ⟨(same _ (Or.inr rfl)).trans stored.columnRows.rows, stored.columnRows.once⟩ }

/-- The catalog with another map. -/
def withInfo (catalog : Catalog) (name : Bytes) (info : Option TableInfo) : Catalog :=
  { catalog with tableInfo := Function.update catalog.tableInfo name info }

theorem recorded_update {info : Bytes → Option TableInfo} {name : Bytes} (table : TableInfo)
    (absent : info name = none) (record : TableRecord) :
    Recorded (Function.update info name (some table)) record ↔
      record = ⟨name, table.type, table.schema.length⟩ ∨ Recorded info record := by
  constructor
  · rintro ⟨table', isTable, type, length⟩
    by_cases same : record.name = name
    · rw [same, Function.update_self, Option.some.injEq] at isTable
      subst isTable
      left
      cases record
      simp_all
    · rw [Function.update_of_ne same] at isTable
      exact Or.inr ⟨table', isTable, type, length⟩
  · rintro (rfl | ⟨table', isTable, type, length⟩)
    · exact ⟨table, Function.update_self .., rfl, rfl⟩
    · refine ⟨table', ?_, type, length⟩
      rw [Function.update_of_ne, isTable]
      rintro rfl
      rw [absent] at isTable
      cases isTable

theorem hasColumn_update {info : Bytes → Option TableInfo} {name : Bytes} (table : TableInfo)
    (absent : info name = none) (record : ColumnRecord) :
    HasColumn (Function.update info name (some table)) record ↔
      record ∈ columnsOf name 0 table.schema ∨ HasColumn info record := by
  rw [mem_columnsOf, Nat.sub_zero]
  constructor
  · rintro ⟨table', isTable, isColumn⟩
    by_cases same : record.relation = name
    · rw [same, Function.update_self, Option.some.injEq] at isTable
      subst isTable
      exact Or.inl ⟨same, Nat.zero_le _, isColumn⟩
    · rw [Function.update_of_ne same] at isTable
      exact Or.inr ⟨table', isTable, isColumn⟩
  · rintro (⟨rfl, _, isColumn⟩ | ⟨table', isTable, isColumn⟩)
    · exact ⟨table, Function.update_self .., isColumn⟩
    · refine ⟨table', ?_, isColumn⟩
      rw [Function.update_of_ne, isTable]
      rintro rfl
      rw [absent] at isTable
      cases isTable

theorem recorded_remove {info : Bytes → Option TableInfo} {name : Bytes} (record : TableRecord) :
    Recorded (Function.update info name none) record ↔
      record.name ≠ name ∧ Recorded info record := by
  by_cases same : record.name = name
  · refine iff_of_false ?_ fun kept => kept.1 same
    rintro ⟨table, isTable, _⟩
    rw [same, Function.update_self] at isTable
    cases isTable
  · rw [Recorded, Function.update_of_ne same]
    exact ⟨fun recorded => ⟨same, recorded⟩, And.right⟩

theorem hasColumn_remove {info : Bytes → Option TableInfo} {name : Bytes} (record : ColumnRecord) :
    HasColumn (Function.update info name none) record ↔
      record.relation ≠ name ∧ HasColumn info record := by
  by_cases same : record.relation = name
  · refine iff_of_false ?_ fun kept => kept.1 same
    rintro ⟨table, isTable, _⟩
    rw [same, Function.update_self] at isTable
    cases isTable
  · rw [HasColumn, Function.update_of_ne same]
    exact ⟨fun hasColumn => ⟨same, hasColumn⟩, And.right⟩

/-- **`AddTable`** keeps the tables at the map. -/
theorem addTable_stored (stored : Stored catalog storage tables columns) {name : Bytes}
    {type : TableType} {schema : Schema} {choices : Choices} {added : Bool}
    (valid : ∀ attr ∈ schema, isValidTypeId attr.type.toNat)
    (run : addTable catalog name type schema choices storage = (.ok (added, catalog'), storage')) :
    (added = true → catalog.tableInfo name = none) ∧
      catalog' = (if added then withInfo catalog name (some ⟨type, schema⟩) else catalog) ∧
      Touches catalog.Owns storage storage' ∧
      ∃ tables' columns', Stored catalog' storage' tables' columns' := by
  cases absent : catalog.tableInfo name with
  | some table =>
      rw [addTable, if_pos (by rw [absent]; rfl)] at run
      cases run
      exact ⟨nofun, rfl, Touches.refl _ _, tables, columns, stored⟩
  | none =>
      rw [addTable, if_neg (by rw [absent]; exact Bool.false_ne_true)] at run
      obtain ⟨rowId, middle, inserted, rest⟩ := Call.of_bind_ok run
      obtain ⟨_, final, addedColumns, rest⟩ := Call.of_bind_ok rest
      cases rest
      let record : TableRecord := ⟨name, type, schema.length⟩
      have isRecord : tableRow record = rowCode.encodeAll record.values := rfl
      obtain ⟨matching, frame, tableRows⟩ := stored.tableRows.insert inserted isRecord
      have columnRows := stored.columnRows.frame frame (Ne.symm stored.different)
      obtain ⟨all, columns', frame', columnRows, perm⟩ := addColumns_lists columnRows addedColumns
      have short : schema.length < 2 ^ 31 := by
        by_contra long
        obtain ⟨last, isLast⟩ : ∃ last, last + 1 = 2 ^ 31 :=
          ⟨2 ^ 31 - 1, Nat.sub_add_cancel Nat.one_le_two_pow⟩
        have inside : last < schema.length := by omega
        have listed : (⟨schema[last], name, last⟩ : ColumnRecord) ∈ columnsOf name 0 schema :=
          mem_columnsOf.mpr ⟨rfl, Nat.zero_le _, List.getElem?_eq_getElem inside⟩
        exact (all _ listed).2 isLast
      refine ⟨fun _ => rfl, rfl, (frame.mono fun _ => Or.inl).trans (frame'.mono fun _ => Or.inr),
        _, columns', stored.different, tableRows.frame frame' stored.different, columnRows,
        ?_, ?_, ?_, ?_, ?_⟩
      · rw [map_insertAt]
        refine (perm_insertAt _ _ _).nodup_iff.mpr (List.nodup_cons.mpr ⟨fun member => ?_,
          stored.names⟩)
        obtain ⟨entry, listed, isName⟩ := List.mem_map.mp member
        obtain ⟨table, isTable, _⟩ := (stored.recorded entry.2).mp (List.mem_map_of_mem listed)
        rw [isName, absent] at isTable
        cases isTable
      · intro entry member
        rcases mem_insertAt.mp member with rfl | member
        · exact ⟨TableRecord.name_of_matches matching, short⟩
        · exact stored.tablesStorable entry member
      · intro entry member
        have listed := perm.mem_iff.mp (List.mem_map_of_mem (f := Prod.snd) member)
        rcases List.mem_append.mp listed with new | old
        · have names := ColumnRecord.names_of_matches (all _ new).1
          obtain ⟨_, _, isAttr⟩ := mem_columnsOf.mp new
          rw [Nat.sub_zero] at isAttr
          obtain ⟨inside, isAttr⟩ := List.getElem?_eq_some_iff.mp isAttr
          refine ⟨names.1, names.2, ?_, inside.trans short⟩
          rw [← isAttr]
          exact valid _ (List.getElem_mem inside)
        · obtain ⟨entry', listed', same⟩ := List.mem_map.mp old
          rw [← same]
          exact stored.columnsStorable entry' listed'
      · intro record
        rw [map_insertAt, mem_insertAt, stored.recorded]
        exact (recorded_update ⟨type, schema⟩ absent record).symm
      · intro record
        rw [perm.mem_iff, List.mem_append, stored.hasColumn]
        exact (hasColumn_update ⟨type, schema⟩ absent record).symm

theorem mem_filter_snd {Record : Type} {records : List (RowId × Record)} (keep : Record → Bool)
    {record : Record} : record ∈ (records.filter fun entry => keep entry.2).map Prod.snd ↔
      keep record = true ∧ record ∈ records.map Prod.snd := by
  have kept : (records.filter fun entry => keep entry.2).map Prod.snd
      = (records.map Prod.snd).filter keep := List.filter_map.symm
  rw [kept, List.mem_filter, and_comm]

/-- **`RemoveTable`** keeps the tables at the map. -/
theorem removeTable_stored (stored : Stored catalog storage tables columns) {name : Bytes}
    {removed : Bool}
    (run : removeTable catalog name storage = (.ok (removed, catalog'), storage')) :
    removed = (catalog.tableInfo name).isSome ∧
      catalog' = (if removed then withInfo catalog name none else catalog) ∧
      Touches catalog.Owns storage storage' ∧
      ∃ tables' columns', Stored catalog' storage' tables' columns' := by
  cases present : catalog.tableInfo name with
  | none =>
      rw [removeTable, if_pos (by rw [present]; rfl)] at run
      cases run
      exact ⟨rfl, rfl, Touches.refl _ _, tables, columns, stored⟩
  | some table =>
      have columnsRead : allWhere (ofRelation name) (asRows columnRow columns)
          = .ok (asRows columnRow (columns.filter fun column => column.2.relation == name)) :=
        allWhere_asRows (fun column => column.relation == name) fun column member =>
          ofRelation_columnRow (stored.columnsStorable column member) name
      have tablesRead : firstWhere (hasName name) (asRows tableRow tables)
          = .ok ((tables.find? fun table => table.2.name == name).map fun table =>
              ⟨table.1, tableRow table.2⟩) :=
        firstWhere_asRows (fun table => table.name == name) fun table member =>
          hasName_tableRow (stored.tablesStorable table member).name name
      have listed : (⟨name, table.type, table.schema.length⟩ : TableRecord)
          ∈ tables.map Prod.snd := (stored.recorded _).mpr ⟨table, present, rfl, rfl⟩
      obtain ⟨entry, member, isEntry⟩ := List.mem_map.mp listed
      obtain ⟨found, isFound⟩ := Option.isSome_iff_exists.mp
        (List.find?_isSome (p := fun table : RowId × TableRecord => table.2.name == name)
          |>.mpr ⟨entry, member, by simp [isEntry]⟩)
      have foundName : found.2.name = name := by simpa using List.find?_some isFound
      have foundMember := List.mem_of_find?_eq_some isFound
      rw [removeTable, if_neg (by rw [present]; exact Bool.false_ne_true),
        Call.bind_ok (Storage.scan_ok stored.columnRows.rows),
        Call.bind_ok (Call.read_ok columnsRead storage)] at run
      obtain ⟨_, middle, deleted, rest⟩ := Call.of_bind_ok run
      obtain ⟨frame, columnRows⟩ := deleteRows_lists stored.columnRows deleted
      rw [DiskTableFactory.asRows_rowIds,
        stored.columnRows.filter_ids fun column => column.relation == name] at columnRows
      have tableRows := stored.tableRows.frame frame stored.different
      rw [Call.bind_ok (Storage.scan_ok tableRows.rows),
        Call.bind_ok (Call.read_ok tablesRead middle), isFound] at rest
      obtain ⟨_, final, deletedTable, rest⟩ := Call.of_bind_ok rest
      cases rest
      obtain ⟨frame', tableRows⟩ := tableRows.delete deletedTable
      rw [DiskTableFactory.filter_key TableRecord.name stored.tableRows.once stored.names foundMember,
        foundName] at tableRows
      refine ⟨rfl, rfl, (frame.mono fun _ => Or.inr).trans (frame'.mono fun _ => Or.inl),
        _, _, stored.different, tableRows, columnRows.frame frame' (Ne.symm stored.different),
        ?_, ?_, ?_, ?_, ?_⟩
      · exact stored.names.sublist (List.filter_sublist.map _)
      · exact fun entry member => stored.tablesStorable entry (List.mem_of_mem_filter member)
      · exact fun entry member => stored.columnsStorable entry (List.mem_of_mem_filter member)
      · intro record
        refine Iff.trans ?_ (recorded_remove record).symm
        rw [← stored.recorded]
        exact (mem_filter_snd fun record : TableRecord => decide (record.name ≠ name)).trans
          (and_congr_left fun _ => decide_eq_true_iff)
      · intro record
        refine Iff.trans ?_ (hasColumn_remove record).symm
        rw [← stored.hasColumn]
        exact (mem_filter_snd fun record : ColumnRecord => !(record.relation == name)).trans
          (and_congr_left fun _ => by rw [Bool.not_eq_true', beq_eq_false_iff_ne])

/-! ### The factory under the catalog -/

/-- The catalog works on the tables that its factory has under the two names. -/
structure Attached (names : Bytes → Option TableRef) (catalog : Catalog) : Prop where
  tables : names tableCatalogName = some catalog.tableCatalog
  columns : names columnCatalogName = some catalog.columnCatalog

section Construct

variable {engine : TableType} {names : Bytes → Option TableRef} {ref : TableRef} {name : Bytes}

theorem Attached.owns (attached : Attached names catalog) (view : Factory.View engine storage names)
    (owned : catalog.Owns ref) : storage.Allocated ref ∧
      ref ≠ DiskTableFactory.mappingTable.storage := by
  rcases owned with rfl | rfl
  · exact view.present attached.tables
  · exact view.present attached.columns

theorem getStorage_view (view : Factory.View engine storage names) (found : names name = some ref)
    (label : String) : getStorage engine name label storage = (.ok ref, storage) := by
  have got := Factory.getTable_view view name
  rw [found] at got
  exact Call.bind_ok got _

theorem createIfMissing_present (view : Factory.View engine storage names)
    (found : names name = some ref) (label : String) (choices : Choices) :
    createIfMissing engine name label choices storage = (.ok false, storage) := by
  have exists_ := Factory.tableExists_view view name
  rw [found] at exists_
  exact Call.bind_ok exists_ _

/-- **A catalog that is made on the tables of a live one** is that catalog, and changes nothing. -/
theorem construct_stored (view : Factory.View engine storage names)
    (attached : Attached names catalog) (stored : Stored catalog storage tables columns)
    (setup : Setup) : construct engine setup storage = (.ok catalog, storage) := by
  rw [construct, Call.bind_ok (createIfMissing_present view attached.tables _ _),
    Call.bind_ok (createIfMissing_present view attached.columns _ _),
    Call.bind_ok (getStorage_view view attached.tables _),
    Call.bind_ok (getStorage_view view attached.columns _)]
  show (Storage.scan catalog.tableCatalog >>= _) storage = _
  rw [Call.bind_ok (Storage.scan_ok stored.tableRows.rows),
    Call.bind_ok (Storage.scan_ok stored.columnRows.rows), load_stored stored]
  rfl

/-- Making a missing table. -/
theorem of_createIfMissing (view : Factory.View engine storage names) (lacks : names name = none)
    {label : String} {choices : Choices} {created : Bool}
    (run : createIfMissing engine name label choices storage = (.ok created, storage')) :
    created = true ∧ ∃ ref, Factory.Created engine names name ref storage storage' := by
  have exists_ := Factory.tableExists_view view name
  rw [lacks] at exists_
  rw [createIfMissing, Call.bind_ok exists_] at run
  obtain ⟨made, middle, creating, rest⟩ := Call.of_bind_ok run
  obtain ⟨rfl, created'⟩ := Factory.createTable_view view lacks creating
  cases rest
  exact ⟨rfl, created'⟩

/-- The tables of a new catalog. -/
def initialTables : List TableRecord :=
  [⟨tableCatalogName, .inMemory, tableCatalogSchema.length⟩,
    ⟨columnCatalogName, .inMemory, columnCatalogSchema.length⟩]

/-- The map of a new catalog: its two tables. -/
def initialInfo : Bytes → Option TableInfo :=
  Function.update (Function.update (fun _ => none) tableCatalogName
    (some ⟨.inMemory, tableCatalogSchema⟩)) columnCatalogName (some ⟨.inMemory, columnCatalogSchema⟩)

theorem recorded_initial (record : TableRecord) :
    Recorded initialInfo record ↔ record ∈ initialTables := by
  have none_ : ¬ Recorded (fun _ => none) record := nofun
  rw [initialInfo, recorded_update _ rfl, recorded_update _ rfl, initialTables,
    List.mem_cons, List.mem_singleton]
  tauto

theorem initialInfo_tables :
    initialInfo tableCatalogName = some ⟨.inMemory, tableCatalogSchema⟩ := by
  rw [initialInfo, Function.update_of_ne (by decide), Function.update_self]

/-- The two tables of a new catalog. -/
theorem initialInfo_cases {name : Bytes} {info : TableInfo} (known : initialInfo name = some info) :
    name = tableCatalogName ∧ info = ⟨.inMemory, tableCatalogSchema⟩ ∨
      name = columnCatalogName ∧ info = ⟨.inMemory, columnCatalogSchema⟩ := by
  by_cases isColumn : name = columnCatalogName
  · rw [isColumn, initialInfo, Function.update_self] at known
    cases known
    exact Or.inr ⟨isColumn, rfl⟩
  · rw [initialInfo, Function.update_of_ne isColumn] at known
    by_cases isTable : name = tableCatalogName
    · rw [isTable, Function.update_self] at known
      cases known
      exact Or.inl ⟨isTable, rfl⟩
    · rw [Function.update_of_ne isTable] at known
      cases known

theorem hasColumn_initial (record : ColumnRecord) : HasColumn initialInfo record ↔
    record ∈ columnsOf tableCatalogName 0 tableCatalogSchema
      ++ columnsOf columnCatalogName 0 columnCatalogSchema := by
  have none_ : ¬ HasColumn (fun _ => none) record := nofun
  rw [initialInfo, hasColumn_update _ rfl, hasColumn_update _ rfl, List.mem_append]
  tauto

instance (record : TableRecord) : Decidable record.Storable :=
  decidable_of_iff (record.name.length ≤ maxStringLength ∧ record.numAttributes < 2 ^ 31)
    ⟨fun both => ⟨both.1, both.2⟩, fun storable => ⟨storable.name, storable.numAttributes⟩⟩

instance (record : ColumnRecord) : Decidable record.Storable :=
  decidable_of_iff (record.attr.name.length ≤ maxStringLength ∧
      record.relation.length ≤ maxStringLength ∧ isValidTypeId record.attr.type.toNat ∧
      record.position < 2 ^ 31)
    ⟨fun all => ⟨all.1, all.2.1, all.2.2.1, all.2.2.2⟩,
      fun storable => ⟨storable.name, storable.relation, storable.type, storable.position⟩⟩

/-- The records of a new catalog, in whatever order the two tables have them. -/
theorem stored_initial {tableRef columnRef : TableRef} {tables : List (RowId × TableRecord)}
    {columns : List (RowId × ColumnRecord)} (different : tableRef ≠ columnRef)
    (tableRows : Lists storage tableRef tableRow tables)
    (columnRows : Lists storage columnRef columnRow columns)
    (tablesPerm : (tables.map Prod.snd).Perm initialTables)
    (columnsPerm : (columns.map Prod.snd).Perm (columnsOf tableCatalogName 0 tableCatalogSchema
      ++ columnsOf columnCatalogName 0 columnCatalogSchema)) :
    Stored ⟨initialInfo, tableRef, columnRef⟩ storage tables columns := by
  refine ⟨different, tableRows, columnRows, ?_, fun entry member => ?_, fun entry member => ?_,
    fun record => ?_, fun record => ?_⟩
  · have nodup := (tablesPerm.map TableRecord.name).nodup_iff.mpr (by decide)
    rwa [List.map_map] at nodup
  · have listed := tablesPerm.mem_iff.mp (List.mem_map_of_mem (f := Prod.snd) member)
    have all : ∀ record ∈ initialTables, record.Storable := by decide
    exact all _ listed
  · have listed := columnsPerm.mem_iff.mp (List.mem_map_of_mem (f := Prod.snd) member)
    have all : ∀ record ∈ columnsOf tableCatalogName 0 tableCatalogSchema
        ++ columnsOf columnCatalogName 0 columnCatalogSchema, record.Storable := by decide
    exact all _ listed
  · rw [tablesPerm.mem_iff]
    exact (recorded_initial record).symm
  · rw [columnsPerm.mem_iff]
    exact (hasColumn_initial record).symm

/-- **A new catalog**, on a factory that has neither of its tables. -/
theorem construct_new (view : Factory.View engine storage names)
    (lacksTables : names tableCatalogName = none) (lacksColumns : names columnCatalogName = none)
    {setup : Setup} (run : construct engine setup storage = (.ok catalog, storage')) :
    (∃ names' tables columns, Factory.View engine storage' names' ∧ Attached names' catalog ∧
      Stored catalog storage' tables columns ∧ ∀ name, name ≠ tableCatalogName →
        name ≠ columnCatalogName → names' name = names name) ∧
      catalog.tableInfo = initialInfo ∧ Factory.Apart engine storage storage' ∧
      ∀ ref, ¬ catalog.Owns ref → ref ≠ DiskTableFactory.mappingTable.storage →
        storage'.rowsOf ref = storage.rowsOf ref := by
  obtain ⟨_, storage₁, createdTables, run⟩ := Call.of_bind_ok run
  obtain ⟨rfl, tableRef, tablesCreated⟩ := of_createIfMissing view lacksTables createdTables
  have differentNames : columnCatalogName ≠ tableCatalogName := by decide
  have lacksColumns' : Function.update names tableCatalogName (some tableRef) columnCatalogName
      = none := by rw [Function.update_of_ne differentNames, lacksColumns]
  obtain ⟨_, storage₂, createdColumns, run⟩ := Call.of_bind_ok run
  obtain ⟨rfl, columnRef, columnsCreated⟩ :=
    of_createIfMissing tablesCreated.view lacksColumns' createdColumns
  let names' := Function.update (Function.update names tableCatalogName (some tableRef))
    columnCatalogName (some columnRef)
  have isTables : names' tableCatalogName = some tableRef := by
    show Function.update _ columnCatalogName _ tableCatalogName = _
    rw [Function.update_of_ne (Ne.symm differentNames), Function.update_self]
  have isColumns : names' columnCatalogName = some columnRef := Function.update_self ..
  have view₂ : Factory.View engine storage₂ names' := columnsCreated.view
  have different : tableRef ≠ columnRef := by
    rintro rfl
    exact differentNames (view₂.injective isColumns isTables)
  rw [Call.bind_ok (getStorage_view view₂ isTables _),
    Call.bind_ok (getStorage_view view₂ isColumns _)] at run
  obtain ⟨_, storage₃, filledTables, run⟩ := Call.of_bind_ok run
  obtain ⟨_, storage₄, filledColumns, run⟩ := Call.of_bind_ok run
  have emptyTables : Lists storage₂ tableRef tableRow [] := by
    refine ⟨?_, .nil⟩
    rw [columnsCreated.rows _ different (view₂.present isTables).2, tablesCreated.empty]
    rfl
  obtain ⟨tables, frame, tableRows, tablesPerm⟩ :=
    insertRecords_lists emptyTables (fun _ => rfl) initialTables filledTables
  have emptyColumns : Lists storage₃ columnRef columnRow [] := by
    refine ⟨?_, .nil⟩
    rw [frame.rows _ (Ne.symm different), columnsCreated.empty]
    rfl
  obtain ⟨columns, frame', columnRows, columnsPerm⟩ :=
    insertRecords_lists emptyColumns (fun _ => rfl) _ filledColumns
  have tableRows := tableRows.frame frame' different
  rw [List.map_nil, List.append_nil] at tablesPerm columnsPerm
  have stored := stored_initial different tableRows columnRows tablesPerm columnsPerm
  change (Storage.scan tableRef >>= _) storage₄ = _ at run
  rw [Call.bind_ok (Storage.scan_ok tableRows.rows), Call.bind_ok (Storage.scan_ok columnRows.rows),
    load_stored stored] at run
  cases run
  have frames : Touches (fun ref => ref = tableRef ∨ ref = columnRef) storage₂ storage' :=
    (frame.mono fun _ => Or.inl).trans (frame'.mono fun _ => Or.inr)
  have outside : ¬ (DiskTableFactory.mappingTable.storage = tableRef ∨
      DiskTableFactory.mappingTable.storage = columnRef) := by
    rintro (same | same)
    · exact (view₂.present isTables).2 same.symm
    · exact (view₂.present isColumns).2 same.symm
  refine ⟨⟨names', tables, columns, view₂.frame frames outside, ⟨isTables, isColumns⟩, stored,
    fun name notTables notColumns => ?_⟩, rfl, ?_, fun ref notOwned notMapping => ?_⟩
  · show Function.update _ columnCatalogName _ name = _
    rw [Function.update_of_ne notColumns, Function.update_of_ne notTables]
  · refine (tablesCreated.apart.trans columnsCreated.apart).trans
      (Factory.Apart.of_frame frames outside fun isMemory fileId owned => ?_)
    rcases owned with same | same
    · cases (view₂.isMemory (same ▸ isTables)).mpr isMemory
    · cases (view₂.isMemory (same ▸ isColumns)).mpr isMemory
  · have notOwned : ref ≠ tableRef ∧ ref ≠ columnRef := not_or.mp notOwned
    rw [frames.rows ref (not_or.mpr notOwned), columnsCreated.rows ref notOwned.2 notMapping,
      tablesCreated.rows ref notOwned.1 notMapping]

end Construct

/-! ### Runs of a catalog -/

/-- A call on a catalog, or a new catalog on the same factory in its place. -/
inductive Op
  | addTable (name : Bytes) (type : TableType) (schema : Schema) (choices : Choices)
  | removeTable (name : Bytes)
  | reopen (setup : Setup)

def Op.ValidTypes : Op → Prop
  | .addTable _ _ schema _ => ∀ attr ∈ schema, isValidTypeId attr.type.toNat
  | .removeTable _ | .reopen _ => True

instance : DecidablePred Op.ValidTypes
  | .addTable _ _ _ _ => inferInstanceAs (Decidable (∀ _ ∈ _, _))
  | .removeTable _ | .reopen _ => .isTrue trivial

/-- What a call answers, and the catalog that it leaves. -/
def call (engine : TableType) (catalog : Catalog) : Op → Call (Bool × Catalog)
  | .addTable name type schema choices => catalog.addTable name type schema choices
  | .removeTable name => catalog.removeTable name
  | .reopen setup => do return (true, ← construct engine setup)

def step (engine : TableType) (state : Catalog × Storage) (op : Op) :
    Except CallFailure Bool × (Catalog × Storage) :=
  match call engine state.1 op state.2 with
  | (.ok (answer, catalog), storage) => (.ok answer, (catalog, storage))
  | (.error failure, storage) => (.error failure, (state.1, storage))

def machine (engine : TableType) : Machine (Catalog × Storage) Op (Except CallFailure Bool) :=
  ⟨step engine⟩

/-- The call returns, and its schema has types that there are. -/
def Returns (engine : TableType) (state : Catalog × Storage) (op : Op) : Prop :=
  ((machine engine).answer state op).toBool = true ∧ op.ValidTypes

instance (engine : TableType) (state : Catalog × Storage) (op : Op) :
    Decidable (Returns engine state op) :=
  inferInstanceAs (Decidable (_ ∧ _))

/-- A catalog on a factory that holds its tables. -/
def Live (engine : TableType) (state : Catalog × Storage) : Prop :=
  ∃ names tables columns, Factory.View engine state.2 names ∧ Attached names state.1 ∧
    Stored state.1 state.2 tables columns

theorem Live.of_frame {engine : TableType} {names : Bytes → Option TableRef}
    (view : Factory.View engine storage names) (attached : Attached names catalog)
    (frame : Touches catalog.Owns storage storage') (tableCatalog : catalog'.tableCatalog =
      catalog.tableCatalog) (columnCatalog : catalog'.columnCatalog = catalog.columnCatalog)
    (stored : ∃ tables columns, Stored catalog' storage' tables columns) :
    Live engine (catalog', storage') := by
  obtain ⟨tables, columns, stored⟩ := stored
  refine ⟨names, tables, columns, view.frame frame fun owned => (attached.owns view owned).2 rfl,
    ⟨?_, ?_⟩, stored⟩
  · rw [tableCatalog, attached.tables]
  · rw [columnCatalog, attached.columns]

/-- **One call** on a live catalog leaves a live catalog. -/
theorem step_live {engine : TableType} {state : Catalog × Storage} {op : Op}
    (live : Live engine state) (returns : Returns engine state op) :
    Live engine ((machine engine).next state op) := by
  obtain ⟨names, tables, columns, view, attached, stored⟩ := live
  obtain ⟨returned, valid⟩ := returns
  obtain ⟨catalog, storage⟩ := state
  have returned : (step engine (catalog, storage) op).1.toBool = true := returned
  show Live engine (step engine (catalog, storage) op).2
  rw [step] at returned ⊢
  cases run : call engine catalog op storage with
  | mk outcome storage' =>
      rw [run] at returned
      cases outcome with
      | error failure => cases returned
      | ok result =>
          obtain ⟨answer, catalog'⟩ := result
          cases op with
          | addTable name type schema choices =>
              obtain ⟨_, rfl, frame, stored'⟩ := addTable_stored stored valid run
              refine Live.of_frame view attached frame ?_ ?_ stored' <;> cases answer <;> rfl
          | removeTable name =>
              obtain ⟨_, rfl, frame, stored'⟩ := removeTable_stored stored run
              refine Live.of_frame view attached frame ?_ ?_ stored' <;> cases answer <;> rfl
          | reopen setup =>
              have run' := Call.bind_ok (construct_stored view attached stored setup)
                fun catalog => (pure (true, catalog) : Call (Bool × Catalog))
              have same := run.symm.trans run'
              cases same
              exact ⟨names, tables, columns, view, attached, stored⟩

/-- **The map of a catalog is what its tables hold**: after any calls that return, a new catalog on
the same factory has the same map. -/
theorem catalog_reloads (engine : TableType) {start : Storage} {names : Bytes → Option TableRef}
    (view : Factory.View engine start names) (lacksTables : names tableCatalogName = none)
    (lacksColumns : names columnCatalogName = none) {setup : Setup} {catalog : Catalog}
    {storage : Storage} (made : construct engine setup start = (.ok catalog, storage))
    (ops : List Op) (returns : (machine engine).Along (Returns engine) (catalog, storage) ops)
    (again : Setup) :
    ∃ reloaded,
      (construct engine again ((machine engine).exec (catalog, storage) ops).2).1 = .ok reloaded ∧
        reloaded.tableInfo = ((machine engine).exec (catalog, storage) ops).1.tableInfo := by
  have first : Live engine (catalog, storage) := by
    obtain ⟨⟨names', tables, columns, view, attached, stored, _⟩, _⟩ :=
      construct_new view lacksTables lacksColumns made
    exact ⟨names', tables, columns, view, attached, stored⟩
  obtain ⟨names', tables, columns, view, attached, stored⟩ :=
    (Machine.always_of_step (fun _ _ live returns => step_live live returns) first returns).last
  exact ⟨_, congrArg Prod.fst (construct_stored view attached stored again), rfl⟩

/-- Rows in turn; the two tables of the catalog take files 5 and 6. -/
def counted (index : Nat) : Placement := ⟨UInt64.ofNat index, index⟩

def sampleSetup : Setup :=
  ⟨⟨5, counted 0, counted 0, counted⟩, ⟨6, counted 1, counted 0, counted⟩, counted⟩

/-- What a name has been used for leaves no trace. -/
def addAgain : List Op :=
  [.addTable [7] .disk [⟨[1], 0⟩, ⟨[1], 1⟩] ⟨0, counted 2, counted 2, fun column => counted (7 + column)⟩,
    .removeTable [7],
    .addTable [7] .inMemory [⟨[2], 2⟩] ⟨0, counted 2, counted 2, fun column => counted (7 + column)⟩]

/-- The catalog that was constructed, or one without tables, and the storage after it. -/
def constructed (made : Except CallFailure Catalog × Storage) : Catalog × Storage :=
  (made.1.toOption.getD ⟨fun _ => none, .file 0, .file 0⟩, made.2)

theorem constructed_ok {made : Except CallFailure Catalog × Storage}
    (isOk : made.1.toBool = true) : made = (.ok (constructed made).1, (constructed made).2) := by
  obtain ⟨_ | catalog, storage⟩ := made
  · cases isOk
  · rfl

/-- A catalog on an empty directory. -/
def sampleCatalog : Catalog × Storage :=
  constructed (construct .disk sampleSetup (DiskTableFactory.openMappingTable .empty))

theorem construct_sample :
    construct .disk sampleSetup (DiskTableFactory.openMappingTable .empty) =
      (.ok sampleCatalog.1, sampleCatalog.2) :=
  constructed_ok (by decide +kernel)

theorem addAgain_along : (machine .disk).Along (Returns .disk)
    (sampleCatalog.1, sampleCatalog.2) addAgain := by
  decide +kernel

theorem addAgain_reloads : ∃ reloaded,
    (construct .disk sampleSetup ((machine .disk).exec
      (sampleCatalog.1, sampleCatalog.2) addAgain).2).1 = .ok reloaded ∧
      reloaded.tableInfo =
        ((machine .disk).exec (sampleCatalog.1, sampleCatalog.2) addAgain).1.tableInfo :=
  catalog_reloads .disk (.new rfl) rfl rfl construct_sample addAgain addAgain_along sampleSetup

end Catalog

end Yadb
