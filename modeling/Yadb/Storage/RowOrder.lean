/-
**The order in which tables yield their rows.**

A table in memory yields its rows by their ids, a disk table by their places: by the page on the
list, and by the slot on the page. The list of pages grows at its end, so no call moves a row that
stays. On both kinds of table an insertion puts its row somewhere between the others, a delete takes
its row out, and the others keep their order.

* `EphemeralTable.scan_insertRow`, `EphemeralTable.scan_deleteRow`: tables in memory.
* `rows_sorted`: the rows of a disk table in a strict order of places.
* `Lists.insertRow`, `Lists.deleteRow`: disk tables.
-/

import Yadb.Foundation.Ordered
import Yadb.Storage.Ephemeral.Table
import Yadb.Storage.Table.Stability

namespace Yadb

open Foundation

/-! ### Tables in memory -/

namespace EphemeralTable

variable {table : EphemeralTable} {rowId : RowId}

theorem mem_scan {row : Row} :
    row ∈ table.scan ↔ table.tableData.find row.rowId = some row.data := by
  rw [scan, List.mem_map, ← SortedMap.mem_entries]
  constructor
  · rintro ⟨entry, member, rfl⟩
    exact member
  · exact fun member => ⟨(row.rowId, row.data), member, rfl⟩

theorem mem_scan_ids : rowId ∈ table.scan.map Row.rowId ↔ table.tableData.find rowId ≠ none := by
  rw [List.mem_map, Option.ne_none_iff_exists']
  constructor
  · rintro ⟨row, member, rfl⟩
    exact ⟨row.data, mem_scan.mp member⟩
  · rintro ⟨data, found⟩
    exact ⟨⟨rowId, data⟩, mem_scan.mpr found, rfl⟩

theorem not_mem_scan_ids :
    rowId ∉ table.scan.map Row.rowId ↔ table.tableData.find rowId = none := by
  rw [mem_scan_ids, not_not]

theorem scan_sorted (table : EphemeralTable) :
    table.scan.Pairwise fun first second => first.rowId < second.rowId := by
  unfold scan
  rw [List.pairwise_map]
  exact table.tableData.sorted

theorem strict_ids : Strict fun first second : Row => first.rowId < second.rowId :=
  fun _ _ isBefore isAfter => absurd isBefore (UInt64.lt_asymm isAfter)

/-- **An insertion puts its row between the others**, if its id is not taken. -/
theorem scan_insertRow (free : table.tableData.find table.generateRowId.1 = none)
    (data : List UInt8) : ∃ front back, table.scan = front ++ back ∧
      (table.insertRow data).2.scan = front ++ ⟨(table.insertRow data).1, data⟩ :: back := by
  have found : (table.insertRow data).2.tableData.find
      = Function.update table.tableData.find (table.insertRow data).1 (some data) :=
    SortedMap.find_insertNew free
  refine strict_ids.exists_insert table.scan_sorted (scan_sorted _) ?_ fun row => ?_
  · rw [mem_scan]
    exact fun isRow => Option.some_ne_none data (isRow.symm.trans free)
  · rw [mem_scan, mem_scan, found]
    by_cases isNew : row.rowId = (table.insertRow data).1
    · have absent : table.tableData.find (table.insertRow data).1 = none := free
      rw [isNew, Function.update_self, absent, or_iff_left (Option.some_ne_none row.data).symm]
      constructor
      · intro same
        rw [← isNew, Option.some.inj same]
      · rintro rfl
        rfl
    · rw [Function.update_of_ne isNew, or_iff_right]
      rintro rfl
      exact isNew rfl

/-- **A delete takes its row out.** -/
theorem scan_deleteRow (live : table.tableData.find rowId ≠ none) :
    ∃ table', table.deleteRow rowId = .ok table' ∧
      table'.generateRowId.1 = table.generateRowId.1 ∧
      table'.tableData.find = Function.update table.tableData.find rowId none ∧
      table'.scan = table.scan.filter fun row => row.rowId ≠ rowId := by
  obtain ⟨data, found⟩ := Option.ne_none_iff_exists'.mp live
  refine ⟨{ table with tableData := table.tableData.erase rowId }, ?_, rfl,
    SortedMap.find_erase, ?_⟩
  · rw [deleteRow, found]
  · unfold scan
    rw [List.filter_map]
    rfl

end EphemeralTable

/-! ### Disk tables -/

theorem DiskTableIterator.slotsFrom_sorted (slot : Nat) {capacity : Nat}
    (small : capacity ≤ 2 ^ 16) :
    (slotsFrom slot capacity).Pairwise fun first second => first.toNat < second.toNat := by
  unfold slotsFrom
  rw [List.pairwise_map]
  have increasing : (List.range' slot (capacity - slot)).Pairwise (· < ·) :=
    List.pairwise_lt_range'
  refine increasing.imp_of_mem fun {first second} firstMember secondMember below => ?_
  have firstInside := List.mem_range'_1.mp firstMember
  have secondInside := List.mem_range'_1.mp secondMember
  rw [UInt16.toNat_ofNat', UInt16.toNat_ofNat']
  omega

/-- The place of the first row is before that of the second. -/
def DiskTable.PlacedBefore (pages : List PageId) (first second : Row) : Prop :=
  position pages first.rowId < position pages second.rowId

theorem DiskTable.strict_placedBefore (pages : List PageId) : Strict (PlacedBefore pages) :=
  fun _ _ isBefore isAfter => absurd isBefore (Nat.lt_asymm isAfter)

namespace TableContent

open DiskTable

variable {fileId : FileId} {store : PageStore} {table : TableContent} {pages all : List PageId}
  {pageId : PageId}

theorem rowsOfPage_sorted (file : TableFile store fileId table) (all : List PageId) :
    (table.rowsOfPage pageId).Pairwise (PlacedBefore all) := by
  unfold rowsOfPage
  cases found : table.heap pageId with
  | none => exact List.Pairwise.nil
  | some content =>
      obtain ⟨page, _, shows_⟩ := file.heap pageId content found
      have slots := DiskTableIterator.slotsFrom_sorted 0 shows_.holds.wf.count_lt.le
      unfold pageRows
      refine List.Pairwise.filterMap _ (fun first second below row isRow row' isRow' => ?_) slots
      obtain ⟨_, _, rfl⟩ := Option.map_eq_some_iff.mp isRow
      obtain ⟨_, _, rfl⟩ := Option.map_eq_some_iff.mp isRow'
      show position all (makeRowId pageId first) < position all (makeRowId pageId second)
      rw [position_makeRowId, position_makeRowId]
      omega

/-- **The rows come in the order of their places.** -/
theorem rows_sorted (file : TableFile store fileId table) (distinct : pages.Nodup) :
    (table.rows pages).Pairwise (PlacedBefore pages) := by
  unfold rows
  rw [List.pairwise_flatMap]
  refine ⟨fun pageId _ => rowsOfPage_sorted file pages, ?_⟩
  have inOrder : pages.Pairwise fun first second => pages.idxOf first < pages.idxOf second := by
    refine List.pairwise_iff_getElem.mpr fun first second inside inside' below => ?_
    rw [List.Nodup.idxOf_getElem distinct, List.Nodup.idxOf_getElem distinct]
    exact below
  refine inOrder.imp fun {first second} below row onFirst row' onSecond => ?_
  unfold PlacedBefore position
  rw [rowId_of_mem onFirst, rowId_of_mem onSecond]
  have slotBound : (getSlotIdFromRowId row.rowId).toNat < 2 ^ 16 := UInt16.toNat_lt _
  omega

end TableContent

namespace DiskTable

variable {fileId : FileId} {store : PageStore}

section Holds

variable {store' : PageStore} {map : TableMap} {table table' : TableContent}
  {pages added : List PageId} {rowId : RowId} {data : List UInt8}

theorem Holds.sorted (holds : Holds fileId (store, map) table pages) :
    (table.rows pages).Pairwise (PlacedBefore pages) :=
  TableContent.rows_sorted holds.file holds.listed.chain.nodup

/-- Pages at the end of the list do not move the rows. -/
theorem Holds.sorted_append (holds : Holds fileId (store, map) table pages)
    (added : List PageId) : (table.rows pages).Pairwise (PlacedBefore (pages ++ added)) := by
  have onList : ∀ row ∈ table.rows pages, getPageIdFromRowId row.rowId ∈ pages := by
    intro row member
    obtain ⟨pageId, isPage, slotId, isId, _⟩ := (TableContent.mem_rows holds.file).mp member
    rw [isId, rowId_pageId]
    exact isPage
  refine holds.sorted.imp_of_mem fun {first second} isFirst isSecond isBefore => ?_
  unfold PlacedBefore
  rw [position_append (onList first isFirst), position_append (onList second isSecond)]
  exact isBefore

/-- **An insertion puts its row between the others.** -/
theorem Holds.rows_insert (holds : Holds fileId (store, map) table pages)
    (new : map.rows rowId = none)
    (holds' : Holds fileId (store', map.insert rowId data) table' (pages ++ added)) :
    ∃ front back, table.rows pages = front ++ back ∧
      table'.rows (pages ++ added) = front ++ ⟨rowId, data⟩ :: back := by
  refine (strict_placedBefore (pages ++ added)).exists_insert (holds.sorted_append added)
    holds'.sorted ?_ fun row => ?_
  · rw [holds.mem_rows]
    exact fun found => Option.some_ne_none data (found.symm.trans new)
  · rw [holds'.mem_rows, holds.mem_rows]
    show Function.update map.rows rowId (some data) row.rowId = some row.data ↔ _
    by_cases isNew : row.rowId = rowId
    · rw [isNew, Function.update_self, new, or_iff_left (Option.some_ne_none row.data).symm]
      constructor
      · intro same
        cases same
        cases isNew
        rfl
      · rintro rfl
        rfl
    · rw [Function.update_of_ne isNew, or_iff_right]
      rintro rfl
      exact isNew rfl

/-- **A delete takes its row out.** -/
theorem Holds.rows_delete (holds : Holds fileId (store, map) table pages)
    (holds' : Holds fileId (store', map.delete rowId) table' pages) :
    table'.rows pages = (table.rows pages).filter fun row => row.rowId ≠ rowId := by
  refine (strict_placedBefore pages).eq_filter holds.sorted holds'.sorted fun row => ?_
  rw [holds'.mem_rows, holds.mem_rows, decide_eq_true_eq]
  show Function.update map.rows rowId none row.rowId = some row.data ↔ _
  by_cases isOld : row.rowId = rowId
  · rw [isOld, Function.update_self]
    exact iff_of_false (Option.some_ne_none row.data).symm fun both => both.2 rfl
  · rw [Function.update_of_ne isOld, and_iff_left isOld]

end Holds

/-! ### The rows of a file -/

/-- The file is a table with these rows in this order. -/
def Lists (fileId : FileId) (store : PageStore) (rows : List Row) : Prop :=
  ∃ map table pages, Holds fileId (store, map) table pages ∧ IssuesLive map ∧
    table.rows pages = rows

variable {rows : List Row}

theorem Lists.scan (lists : Lists fileId store rows) :
    DiskTableIterator.scan store fileId = .ok rows := by
  obtain ⟨map, table, pages, holds, _, rfl⟩ := lists
  exact DiskTableIterator.scan_spec holds.file holds.listed.chain

theorem Lists.nodup (lists : Lists fileId store rows) : (rows.map Row.rowId).Nodup := by
  obtain ⟨map, table, pages, holds, _, rfl⟩ := lists
  exact TableContent.nodup_rows holds.file holds.listed.chain.nodup

theorem lists_empty (file : TableFile store fileId TableContent.empty) : Lists fileId store [] :=
  ⟨.empty, .empty, [], holds_empty file, fun _ isRow => absurd rfl isRow, rfl⟩

/-- **`insert_row`.** -/
theorem Lists.insertRow (lists : Lists fileId store rows) {data : List UInt8}
    (fits : FitsFreshPage data) (fresh : FreshPage) :
    (∃ error, DiskTable.insertRow store fileId data fresh = .error (.allocatePage error)) ∨
      ∃ rowId store' front back, DiskTable.insertRow store fileId data fresh = .ok (rowId, store') ∧
        rowId ∉ rows.map Row.rowId ∧ rows = front ++ back ∧
        Lists fileId store' (front ++ ⟨rowId, data⟩ :: back) := by
  obtain ⟨map, table, pages, holds, issues, rfl⟩ := lists
  refine (insertRow_spec holds.file holds.listed.chain fits fresh).imp_right ?_
  rintro ⟨rowId, store', table', ran, inserts, file⟩
  obtain ⟨isFresh, added, holds'⟩ := holds.insert inserts file
  have new : map.rows rowId = none := by
    by_contra isRow
    exact isFresh (issues rowId isRow)
  obtain ⟨front, back, split, split'⟩ := holds.rows_insert new holds'
  refine ⟨rowId, store', front, back, ran, ?_, split, map.insert rowId data, table',
    pages ++ added, holds', (issues.update (.insertRow data fresh) (.rowId rowId)).1, split'⟩
  rintro member
  obtain ⟨row, isRow, rfl⟩ := List.mem_map.mp member
  exact Option.some_ne_none row.data ((holds.mem_rows.mp isRow).symm.trans new)

/-- **`delete_row`** of a row that is there. -/
theorem Lists.deleteRow (lists : Lists fileId store rows) {rowId : RowId}
    (isLive : rowId ∈ rows.map Row.rowId) :
    ∃ store', DiskTable.deleteRow store fileId rowId = .ok store' ∧
      Lists fileId store' (rows.filter fun row => row.rowId ≠ rowId) := by
  obtain ⟨map, table, pages, holds, issues, rfl⟩ := lists
  obtain ⟨row, isRow, rfl⟩ := List.mem_map.mp isLive
  have found := holds.mem_rows.mp isRow
  have live : map.rows row.rowId ≠ none := by
    rw [found]
    exact Option.some_ne_none row.data
  obtain ⟨store', table', ran, holds'⟩ := holds.delete live
  exact ⟨store', ran, map.delete row.rowId, table', pages, holds',
    (issues.update (.deleteRow row.rowId) .done).1, holds.rows_delete holds'⟩

end DiskTable

end Yadb
