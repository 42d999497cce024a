/-
**Iterators over a table.**

`table_iterator.h`: what an iterator offers, whichever kind of table it walks. `collect` is the loop
of a client from an iterator on.

* `SeeksExactly`: what `seek` is for. The id of a row moves the iterator to it, with the rows behind
  it still to come; any other id throws, and the iterator is where it was.
* `seeksExactly_of_split`, `seeksExactly_of_absent`: for rows with different ids, one way to split
  them is enough.
-/

import Yadb.Storage.Table.DiskTableIterator

namespace Yadb

/-- How a `seek` ends when it does not return. -/
inductive SeekFailure (Failure : Type)
  | invalidArgument (text : String)
  | aborts (failure : Failure)
  deriving DecidableEq

/-- `TableIterator`: the virtual functions. A `seek` that throws leaves an iterator behind. -/
structure TableIterator (Iterator Failure : Type) where
  get : Iterator → Except Failure Row
  atEnd : Iterator → Bool
  next : Iterator → Except Failure Iterator
  seek : Iterator → RowId → Except (SeekFailure Failure) Unit × Iterator

namespace TableIterator

variable {Iterator Failure : Type} (walks : TableIterator Iterator Failure)

/-- The rows from an iterator on, or `none` where the turns do not suffice. -/
def collect : Nat → Iterator → Except Failure (Option (List Row))
  | 0, _ => .ok none
  | turns + 1, iterator =>
      if walks.atEnd iterator then .ok (some [])
      else do
        let row ← walks.get iterator
        let rest ← collect turns (← walks.next iterator)
        return rest.map (row :: ·)

/-- The iterators show the same current row, the same end and the same rows to come. -/
structure LooksLike (iterator iterator' : Iterator) : Prop where
  get : walks.get iterator' = walks.get iterator
  atEnd : walks.atEnd iterator' = walks.atEnd iterator
  rest : ∀ turns, walks.collect turns iterator' = walks.collect turns iterator

/-- The iterator is at this row, and the others follow. -/
structure StandsAt (iterator : Iterator) (row : Row) (after : List Row) : Prop where
  get : walks.get iterator = .ok row
  rest : ∀ turns, after.length + 1 < turns →
    walks.collect turns iterator = .ok (some (row :: after))

/-- **What `seek` is for**, in a table of these rows. -/
structure SeeksExactly (rows : List Row) (iterator : Iterator) (rowId : RowId) : Prop where
  live : ∀ before row after, rows = before ++ row :: after → row.rowId = rowId →
    (walks.seek iterator rowId).1 = .ok () ∧
      walks.StandsAt (walks.seek iterator rowId).2 row after
  dead : (∀ row ∈ rows, row.rowId ≠ rowId) →
    (walks.seek iterator rowId).1 = .error (.invalidArgument "Invalid row_id in seek") ∧
      walks.LooksLike iterator (walks.seek iterator rowId).2

variable {walks}

theorem LooksLike.refl (iterator : Iterator) : walks.LooksLike iterator iterator :=
  ⟨rfl, rfl, fun _ => rfl⟩

/-- A row with an id of its own splits the rows in one way. -/
theorem split_unique {before before' after after' : List Row} {row row' : Row}
    (once : ((before ++ row :: after).map Row.rowId).Nodup)
    (same : before ++ row :: after = before' ++ row' :: after') (sameId : row'.rowId = row.rowId) :
    row' = row ∧ after' = after := by
  induction before generalizing before' with
  | nil =>
      cases before' with
      | nil => exact ⟨(List.cons.inj same).1.symm, (List.cons.inj same).2.symm⟩
      | cons first rest =>
          obtain ⟨_, behind⟩ := List.cons.inj same
          obtain ⟨notLater, _⟩ := List.nodup_cons.mp once
          refine absurd (List.mem_map.mpr ⟨row', ?_, sameId⟩) notLater
          rw [behind]
          exact List.mem_append_right rest List.mem_cons_self
  | cons first rest ih =>
      cases before' with
      | nil =>
          obtain ⟨isRow, _⟩ := List.cons.inj same
          obtain ⟨notLater, _⟩ := List.nodup_cons.mp once
          refine absurd (List.mem_map.mpr ⟨row, ?_, ?_⟩) notLater
          · exact List.mem_append_right rest List.mem_cons_self
          · rw [isRow, sameId]
      | cons first' rest' =>
          obtain ⟨_, behind⟩ := List.cons.inj same
          exact ih (List.nodup_cons.mp once).2 behind

/-- **A row that is found with the rows behind it.** -/
theorem seeksExactly_of_split {rows before after : List Row} {row : Row} {iterator : Iterator}
    (once : (rows.map Row.rowId).Nodup) (split : rows = before ++ row :: after)
    (returns : (walks.seek iterator row.rowId).1 = .ok ())
    (stands : walks.StandsAt (walks.seek iterator row.rowId).2 row after) :
    walks.SeeksExactly rows iterator row.rowId where
  live before' row' after' split' sameId := by
    obtain ⟨rfl, rfl⟩ := split_unique (split ▸ once) (split.symm.trans split') sameId
    exact ⟨returns, stands⟩
  dead absent := by
    refine absurd rfl (absent row ?_)
    rw [split]
    exact List.mem_append_right before List.mem_cons_self

/-- **A row that is not there.** -/
theorem seeksExactly_of_absent {rows : List Row} {rowId : RowId} {iterator : Iterator}
    (absent : ∀ row ∈ rows, row.rowId ≠ rowId)
    (throws : (walks.seek iterator rowId).1 = .error (.invalidArgument "Invalid row_id in seek"))
    (same : walks.LooksLike iterator (walks.seek iterator rowId).2) :
    walks.SeeksExactly rows iterator rowId where
  live before row after split isId := by
    refine absurd isId (absent row ?_)
    rw [split]
    exact List.mem_append_right before List.mem_cons_self
  dead _ := ⟨throws, same⟩

end TableIterator

end Yadb
