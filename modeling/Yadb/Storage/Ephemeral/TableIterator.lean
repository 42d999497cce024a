/-
**Iterators over a table in memory.**

`ephemeral_table_iterator.cpp`: the iterator holds a place in the map, named here by the key of its
entry, and the row that was there when it last moved. A place whose entry was erased is invalid, and
so is every move from it.

* `collect_spec`: the loop of the client yields the entries from the place on.
* `begin_collect`: from the iterator that the constructor makes it yields the rows of
  `EphemeralTable.scan`.
* `seek_live`, `seek_dead`: a key of the map moves the iterator there; any other key moves it to the
  end before it throws, and leaves the row.
-/

import Yadb.Storage.Ephemeral.Order
import Yadb.Storage.TableIterator

namespace Yadb

open Foundation

structure EphemeralTableIterator where
  place : Option RowId
  current : Option Row
  deriving DecidableEq

inductive EphemeralIteratorFailure
  | pastTheEnd
  | invalidated
  deriving DecidableEq

def EphemeralIteratorFailure.message : EphemeralIteratorFailure → String
  | .pastTheEnd => "Dereferencing a past-the-end table iterator"
  | .invalidated => "invalid map iterator"

namespace EphemeralTableIterator

/-- `load_current()`. -/
def loadCurrent (table : EphemeralTable) (iterator : EphemeralTableIterator) :
    Except EphemeralIteratorFailure EphemeralTableIterator :=
  match iterator.place with
  | none => .ok { iterator with current := none }
  | some rowId =>
      match table.tableData.find rowId with
      | none => .error .invalidated
      | some data => .ok { iterator with current := some ⟨rowId, data⟩ }

/-- The place of the first entry of the map, or the end. -/
def firstPlace (entries : List (RowId × List UInt8)) : Option RowId := entries.head?.map Prod.fst

/-- The constructor. -/
def begin (table : EphemeralTable) : Except EphemeralIteratorFailure EphemeralTableIterator :=
  loadCurrent table ⟨firstPlace table.tableData.entries, none⟩

/-- `operator*`. -/
def get (iterator : EphemeralTableIterator) : Except EphemeralIteratorFailure Row :=
  match iterator.current with
  | none => .error .pastTheEnd
  | some row => .ok row

/-- Comparison with the sentinel. -/
def atEnd (iterator : EphemeralTableIterator) : Bool := iterator.place == none

/-- `operator++`: the entry with the next greater key. -/
def next (table : EphemeralTable) (iterator : EphemeralTableIterator) :
    Except EphemeralIteratorFailure EphemeralTableIterator :=
  match iterator.place with
  | none => .error .invalidated
  | some rowId =>
      match table.tableData.find rowId with
      | none => .error .invalidated
      | some _ =>
          loadCurrent table { iterator with
            place := firstPlace (table.tableData.entries.filter fun entry => rowId < entry.1) }

/-- `seek`: the place is written before it is compared with the end. -/
def seek (table : EphemeralTable) (iterator : EphemeralTableIterator) (rowId : RowId) :
    Except (SeekFailure EphemeralIteratorFailure) Unit × EphemeralTableIterator :=
  let place := (table.tableData.find rowId).map fun _ => rowId
  let iterator := { iterator with place }
  if place = none then (.error (.invalidArgument "Invalid row_id in seek"), iterator)
  else match loadCurrent table iterator with
    | .error failure => (.error (.aborts failure), iterator)
    | .ok iterator => (.ok (), iterator)

end EphemeralTableIterator

def ephemeralIterator (table : EphemeralTable) :
    TableIterator EphemeralTableIterator EphemeralIteratorFailure where
  get := EphemeralTableIterator.get
  atEnd := EphemeralTableIterator.atEnd
  next := EphemeralTableIterator.next table
  seek := EphemeralTableIterator.seek table

namespace EphemeralTableIterator

variable {table : EphemeralTable} {iterator : EphemeralTableIterator} {rowId : RowId}
  {data : List UInt8}

/-- The rows of some entries. -/
def rowsOf (entries : List (RowId × List UInt8)) : List Row :=
  entries.map fun entry => ⟨entry.1, entry.2⟩

/-- The iterator at the first of some entries, or at the end. -/
def atFirst (entries : List (RowId × List UInt8)) : EphemeralTableIterator :=
  ⟨firstPlace entries, (rowsOf entries).head?⟩

/-- Loading the row of the first of the last entries of the map. -/
theorem loadCurrent_atFirst {before after : List (RowId × List UInt8)} {current : Option Row}
    (split : table.tableData.entries = before ++ after) :
    loadCurrent table ⟨firstPlace after, current⟩ = .ok (atFirst after) := by
  cases after with
  | nil => rfl
  | cons entry rest =>
      have member : (entry.1, entry.2) ∈ table.tableData.entries := by
        rw [split]
        exact List.mem_append_right before List.mem_cons_self
      have found : table.tableData.find entry.1 = some entry.2 := SortedMap.mem_entries.mp member
      show (match table.tableData.find entry.1 with
        | none => _
        | some data => _) = _
      rw [found]
      rfl

/-- Behind an entry of the map are the entries with greater keys. -/
theorem filter_split {before after : List (RowId × List UInt8)} {entry : RowId × List UInt8}
    (split : table.tableData.entries = before ++ entry :: after) :
    table.tableData.entries.filter (fun other => entry.1 < other.1) = after := by
  have sorted := table.tableData.sorted
  rw [split] at sorted ⊢
  obtain ⟨_, fromEntry, lower⟩ := List.pairwise_append.mp sorted
  obtain ⟨upper, _⟩ := List.pairwise_cons.mp fromEntry
  rw [List.filter_append, List.filter_cons_of_neg (by simp)]
  have noneBefore : before.filter (fun other => decide (entry.1 < other.1)) = [] := by
    refine List.filter_eq_nil_iff.mpr fun other member => ?_
    have below := lower other member entry List.mem_cons_self
    rw [decide_eq_true_eq]
    exact fun above => absurd (UInt64.lt_trans above below) (UInt64.lt_irrefl _)
  have allAfter : after.filter (fun other => decide (entry.1 < other.1)) = after := by
    refine List.filter_eq_self.mpr fun other member => ?_
    exact decide_eq_true (upper other member)
  rw [noneBefore, allAfter, List.nil_append]

/-- One step from an entry of the map. -/
theorem next_atFirst {before after : List (RowId × List UInt8)} {entry : RowId × List UInt8}
    (split : table.tableData.entries = before ++ entry :: after) :
    next table (atFirst (entry :: after)) = .ok (atFirst after) := by
  have found : table.tableData.find entry.1 = some entry.2 := by
    refine SortedMap.mem_entries.mp ?_
    rw [split]
    exact List.mem_append_right before List.mem_cons_self
  show (match table.tableData.find entry.1 with
    | none => _
    | some _ => _) = _
  have behind : table.tableData.entries = (before ++ [entry]) ++ after := by
    rw [split, List.append_assoc]
    rfl
  rw [found, filter_split split]
  exact loadCurrent_atFirst behind

/-- **The loop of the client** yields the entries from the place on. -/
theorem collect_spec {before after : List (RowId × List UInt8)}
    (split : table.tableData.entries = before ++ after) {turns : Nat} (enough : after.length < turns) :
    (ephemeralIterator table).collect turns (atFirst after) = .ok (some (rowsOf after)) := by
  induction after generalizing before turns with
  | nil =>
      obtain ⟨turns, rfl⟩ : ∃ fewer, turns = fewer + 1 := ⟨turns - 1, by omega⟩
      rfl
  | cons entry rest ih =>
      rw [List.length_cons] at enough
      obtain ⟨turns, rfl⟩ : ∃ fewer, turns = fewer + 1 := ⟨turns - 1, by omega⟩
      have moved : (ephemeralIterator table).next (atFirst (entry :: rest)) = .ok (atFirst rest) :=
        next_atFirst split
      have behind : table.tableData.entries = (before ++ [entry]) ++ rest := by
        rw [split, List.append_assoc]
        rfl
      have here : (ephemeralIterator table).get (atFirst (entry :: rest))
          = .ok ⟨entry.1, entry.2⟩ := rfl
      have notEnd : ¬ (ephemeralIterator table).atEnd (atFirst (entry :: rest)) = true :=
        Bool.false_ne_true
      rw [TableIterator.collect, if_neg notEnd, here, ok_bind, moved, ok_bind,
        ih behind (Nat.lt_of_succ_lt_succ enough)]
      rfl

/-- **The range-based loop** over a table yields what its `scan` says: the iterator that the
constructor makes, and one `operator++` after each row. -/
theorem begin_collect (table : EphemeralTable) {turns : Nat} (enough : table.scan.length < turns) :
    ∃ iterator, begin table = .ok iterator ∧
      (ephemeralIterator table).collect turns iterator = .ok (some table.scan) := by
  refine ⟨atFirst table.tableData.entries, loadCurrent_atFirst (List.nil_append _).symm,
    collect_spec (List.nil_append _).symm ?_⟩
  rwa [EphemeralTable.scan, List.length_map] at enough

/-- **The key of an entry** moves the iterator there. -/
theorem seek_live {before after : List (RowId × List UInt8)} {entry : RowId × List UInt8}
    (split : table.tableData.entries = before ++ entry :: after)
    (iterator : EphemeralTableIterator) :
    seek table iterator entry.1 = (.ok (), atFirst (entry :: after)) := by
  have found : table.tableData.find entry.1 = some entry.2 := by
    refine SortedMap.mem_entries.mp ?_
    rw [split]
    exact List.mem_append_right before List.mem_cons_self
  have loaded : loadCurrent table ⟨some entry.1, iterator.current⟩
      = .ok (atFirst (entry :: after)) :=
    loadCurrent_atFirst split
  rw [seek, found, Option.map_some, if_neg nofun, loaded]

/-- **Any other key** moves the iterator to the end and leaves its row. -/
theorem seek_dead (absent : table.tableData.find rowId = none) (iterator : EphemeralTableIterator) :
    seek table iterator rowId
      = (.error (.invalidArgument "Invalid row_id in seek"), ⟨none, iterator.current⟩) := by
  rw [seek, absent]
  rfl

theorem nodup_scan (table : EphemeralTable) : (table.scan.map Row.rowId).Nodup := by
  have keys := table.tableData.nodup_keys
  rw [EphemeralTable.scan, List.map_map]
  exact keys

/-- **`seek` is exact for the rows of the map, and for an iterator at the end**; an iterator on a
row is moved to the end by the id of any other. -/
theorem seeksExactly_iff (table : EphemeralTable) (iterator : EphemeralTableIterator)
    (rowId : RowId) :
    (ephemeralIterator table).SeeksExactly table.scan iterator rowId ↔
      (∃ row ∈ table.scan, row.rowId = rowId) ∨ iterator.atEnd = true := by
  by_cases live : ∃ row ∈ table.scan, row.rowId = rowId
  · refine iff_of_true ?_ (Or.inl live)
    obtain ⟨row, member, rfl⟩ := live
    obtain ⟨entry, isEntry, rfl⟩ := List.mem_map.mp member
    obtain ⟨before, after, split⟩ := List.append_of_mem isEntry
    have moved : (ephemeralIterator table).seek iterator entry.1 = _ := seek_live split iterator
    have splitRows : table.scan = rowsOf before ++ ⟨entry.1, entry.2⟩ :: rowsOf after := by
      rw [EphemeralTable.scan, split, List.map_append, List.map_cons]
      rfl
    refine TableIterator.seeksExactly_of_split (nodup_scan table) splitRows ?_ ?_
    · rw [moved]
    · rw [moved]
      refine ⟨rfl, fun turns enough => collect_spec split ?_⟩
      rwa [rowsOf, List.length_map] at enough
  · have absent : table.tableData.find rowId = none := by
      refine Option.eq_none_iff_forall_ne_some.mpr fun data found => live ⟨⟨rowId, data⟩, ?_, rfl⟩
      exact List.mem_map.mpr ⟨(rowId, data), SortedMap.mem_entries.mpr found, rfl⟩
    have dead : ∀ row ∈ table.scan, row.rowId ≠ rowId := fun row member isId =>
      live ⟨row, member, isId⟩
    have moved : (ephemeralIterator table).seek iterator rowId = _ := seek_dead absent iterator
    rw [or_iff_right live]
    constructor
    · intro isExact
      obtain ⟨_, same⟩ := isExact.dead dead
      rw [moved] at same
      exact same.atEnd.symm
    · intro ended
      have isEnd : iterator.place = none := beq_iff_eq.mp ended
      refine TableIterator.seeksExactly_of_absent dead ?_ ?_
      · rw [moved]
      · have unmoved : (⟨none, iterator.current⟩ : EphemeralTableIterator) = iterator := by
          rw [← isEnd]
        rw [moved, unmoved]
        exact .refl iterator

end EphemeralTableIterator

end Yadb
