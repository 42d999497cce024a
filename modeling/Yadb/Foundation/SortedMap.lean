/-
**Maps as lists in the order of their keys.**

An ordered map, as an iteration over it shows it: `insertNew` leaves the value of a key that is
present, `erase` removes a key. `find` describes both (`find_insertNew`, `find_erase`), and the
entries are the keys with their values (`mem_entries`), each key once (`nodup_keys`).

`data_perm` compares the values of two listings of a function: each lists every key that has a
value, once.
-/

import Mathlib.Logic.Function.Basic
import Mathlib.Data.List.Perm.Basic
import Mathlib.Data.List.Nodup

set_option linter.unusedSectionVars false

namespace Foundation

/-- The keys increase along the entries. -/
structure SortedMap (Key Value : Type) [LT Key] where
  entries : List (Key × Value)
  sorted : entries.Pairwise fun first second => first.1 < second.1

namespace SortedMap

variable {Key Value : Type} [LT Key] [DecidableLT Key]

/-- The value of a key among some entries. -/
def findIn [DecidableEq Key] (key : Key) : List (Key × Value) → Option Value
  | [] => none
  | entry :: rest => if entry.1 = key then some entry.2 else findIn key rest

/-- The entries with a key added, unless it is present. -/
def insertIn (key : Key) (value : Value) : List (Key × Value) → List (Key × Value)
  | [] => [(key, value)]
  | entry :: rest =>
      if key < entry.1 then (key, value) :: entry :: rest
      else if entry.1 < key then entry :: insertIn key value rest
      else entry :: rest

theorem mem_of_mem_insertIn {key : Key} {value : Value} {entries : List (Key × Value)}
    {entry : Key × Value} (member : entry ∈ insertIn key value entries) :
    entry = (key, value) ∨ entry ∈ entries := by
  induction entries with
  | nil => exact Or.inl (List.mem_singleton.mp member)
  | cons first rest ih =>
      rw [insertIn] at member
      split at member
      · exact List.mem_cons.mp member
      · split at member
        · rcases List.mem_cons.mp member with same | later
          · exact Or.inr (List.mem_cons.mpr (Or.inl same))
          · exact (ih later).imp_right (List.mem_cons_of_mem first)
        · exact Or.inr member

variable [LE Key] [Std.IsLinearOrder Key] [Std.LawfulOrderLT Key]

theorem sorted_insertIn {key : Key} {value : Value} {entries : List (Key × Value)}
    (sorted : entries.Pairwise fun first second => first.1 < second.1) :
    (insertIn key value entries).Pairwise fun first second => first.1 < second.1 := by
  induction sorted with
  | nil => exact List.pairwise_singleton _ _
  | @cons first rest below sorted ih =>
      rw [insertIn]
      split
      · refine .cons (fun entry member => ?_) (.cons below sorted)
        rcases List.mem_cons.mp member with rfl | later
        · assumption
        · exact Std.lt_trans ‹key < first.1› (below entry later)
      · split
        · refine .cons (fun entry member => ?_) ih
          rcases mem_of_mem_insertIn member with rfl | later
          · assumption
          · exact below entry later
        · exact .cons below sorted

/-- A key behind all others goes to the end. -/
theorem insertIn_last {key : Key} {value : Value} {entries : List (Key × Value)}
    (below : ∀ entry ∈ entries, entry.1 < key) :
    insertIn key value entries = entries ++ [(key, value)] := by
  induction entries with
  | nil => rfl
  | cons first rest ih =>
      obtain ⟨firstBelow, restBelow⟩ := List.forall_mem_cons.mp below
      have notBefore : ¬ key < first.1 := fun before =>
        Std.lt_irrefl (Std.lt_trans before firstBelow)
      rw [insertIn, if_neg notBefore, if_pos firstBelow, ih restBelow]
      rfl

def empty : SortedMap Key Value := ⟨[], .nil⟩

/-- `std::map::insert`. -/
def insertNew (map : SortedMap Key Value) (key : Key) (value : Value) : SortedMap Key Value :=
  ⟨insertIn key value map.entries, sorted_insertIn map.sorted⟩

variable [DecidableEq Key] {map : SortedMap Key Value} {key other : Key} {value : Value}

/-- `std::map::find`. -/
def find (map : SortedMap Key Value) (key : Key) : Option Value := findIn key map.entries

/-- `std::map::erase`. -/
def erase (map : SortedMap Key Value) (key : Key) : SortedMap Key Value :=
  ⟨map.entries.filter fun entry => entry.1 ≠ key, map.sorted.filter _⟩

theorem findIn_eq_none {entries : List (Key × Value)} (absent : ∀ entry ∈ entries, entry.1 ≠ key) :
    findIn key entries = none := by
  induction entries with
  | nil => rfl
  | cons first rest ih =>
      rw [findIn, if_neg (absent first List.mem_cons_self)]
      exact ih fun entry member => absent entry (List.mem_cons_of_mem first member)

theorem findIn_insertIn {entries : List (Key × Value)} (absent : findIn key entries = none) :
    findIn other (insertIn key value entries)
      = if key = other then some value else findIn other entries := by
  induction entries with
  | nil => rfl
  | cons first rest ih =>
      rw [findIn] at absent
      by_cases same : first.1 = key
      · rw [if_pos same] at absent
        cases absent
      · rw [if_neg same] at absent
        rw [insertIn]
        split
        · rfl
        · rcases Std.lt_trichotomy key first.1 with before | equal | after
          · exact absurd before ‹_›
          · exact absurd equal.symm same
          · rw [if_pos after, findIn, ih absent, findIn]
            by_cases found : first.1 = other
            · have different : key ≠ other := fun isKey => same (found.trans isKey.symm)
              rw [if_pos found, if_neg different, if_pos found]
            · rw [if_neg found, if_neg found]

/-- **Inserting a new key.** -/
theorem find_insertNew (absent : map.find key = none) :
    (map.insertNew key value).find = Function.update map.find key (some value) := by
  funext other
  refine (findIn_insertIn absent).trans ?_
  by_cases same : key = other
  · rw [if_pos same, same, Function.update_self]
  · rw [if_neg same, Function.update_of_ne (Ne.symm same)]
    rfl

theorem findIn_filter (entries : List (Key × Value)) :
    findIn other (entries.filter fun entry => entry.1 ≠ key)
      = if other = key then none else findIn other entries := by
  induction entries with
  | nil => simp only [List.filter_nil, findIn, ite_self]
  | cons first rest ih =>
      by_cases dropped : first.1 = key
      · rw [List.filter_cons_of_neg (by simpa using dropped), ih, findIn]
        by_cases same : other = key
        · rw [if_pos same, if_pos same]
        · have different : first.1 ≠ other := fun isOther => same (isOther.symm.trans dropped)
          rw [if_neg same, if_neg same, if_neg different]
      · rw [List.filter_cons_of_pos (by simpa using dropped), findIn, ih, findIn]
        by_cases found : first.1 = other
        · have different : other ≠ key := fun isKey => dropped (found.trans isKey)
          rw [if_pos found, if_pos found, if_neg different]
        · rw [if_neg found, if_neg found]

/-- **Erasing a key.** -/
theorem find_erase : (map.erase key).find = Function.update map.find key none := by
  funext other
  refine (findIn_filter map.entries).trans ?_
  by_cases same : other = key
  · rw [if_pos same, same, Function.update_self]
  · rw [if_neg same, Function.update_of_ne same]
    rfl

theorem mem_of_sorted {entries : List (Key × Value)}
    (sorted : entries.Pairwise fun first second => first.1 < second.1) :
    (key, value) ∈ entries ↔ findIn key entries = some value := by
  induction sorted with
  | nil => exact ⟨nofun, nofun⟩
  | @cons first rest below _ ih =>
      rw [List.mem_cons, ih, findIn]
      by_cases same : first.1 = key
      · have absent : findIn key rest = none := findIn_eq_none fun entry member isKey => by
          have later := below entry member
          rw [isKey, same] at later
          exact Std.lt_irrefl later
        rw [if_pos same, absent, Option.some.injEq]
        constructor
        · rintro (rfl | impossible)
          · rfl
          · cases impossible
        · rintro rfl
          exact Or.inl (Prod.ext same.symm rfl)
      · rw [if_neg same]
        refine ⟨fun either => either.resolve_left ?_, Or.inr⟩
        rintro rfl
        exact same rfl

/-- **The entries are the keys with their values.** -/
theorem mem_entries : (key, value) ∈ map.entries ↔ map.find key = some value :=
  mem_of_sorted map.sorted

/-- Every key is listed once. -/
theorem nodup_keys (map : SortedMap Key Value) : (map.entries.map Prod.fst).Nodup := by
  refine List.pairwise_map.mpr (map.sorted.imp ?_)
  intro first second below same
  rw [same] at below
  exact Std.lt_irrefl below

end SortedMap

/-- **Listings of a function.** A list of keys with their values, each key once, holds the same
values as any list of distinct keys on which the function has all its values. -/
theorem data_perm {Key Value : Type} {listing : List (Key × Value)} {keys : List Key}
    {function : Key → Option Value} (once : (listing.map Prod.fst).Nodup) (distinct : keys.Nodup)
    (lists : ∀ key value, (key, value) ∈ listing ↔ function key = some value)
    (covers : ∀ key, function key ≠ none → key ∈ keys) :
    (listing.map Prod.snd).Perm (keys.filterMap function) := by
  have pairs : (keys.filterMap fun key => (function key).map (key, ·)).Nodup := by
    refine distinct.filterMap ?_
    rintro key key' ⟨first, value⟩ found found'
    obtain ⟨_, _, same⟩ := Option.map_eq_some_iff.mp found
    obtain ⟨_, _, same'⟩ := Option.map_eq_some_iff.mp found'
    exact (congrArg Prod.fst same).trans (congrArg Prod.fst same').symm
  have same : listing.Perm (keys.filterMap fun key => (function key).map (key, ·)) := by
    refine (List.perm_ext_iff_of_nodup (List.Nodup.of_map _ once) pairs).mpr ?_
    rintro ⟨key, value⟩
    rw [lists, List.mem_filterMap]
    constructor
    · intro found
      exact ⟨key, covers key (by rw [found]; exact nofun), by rw [found]; rfl⟩
    · rintro ⟨other, _, found⟩
      obtain ⟨_, found, isPair⟩ := Option.map_eq_some_iff.mp found
      cases isPair
      exact found
  have values := same.map Prod.snd
  rw [List.map_filterMap] at values
  refine values.trans (List.Perm.of_eq (List.filterMap_congr fun key _ => ?_))
  rw [Option.map_map]
  exact Option.map_id'

end Foundation
