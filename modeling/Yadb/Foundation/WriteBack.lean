/-
**A write-back cache over a backing store.**

A cache maps some keys to slots; a slot has data and a dirty mark, and everything not mapped is
read from the backing store. `view` is what a client sees. The cache is `Coherent` when no two keys
share a slot and a clean slot agrees with the store behind it.

The moves of such a cache — writing a slot back, unmapping a key, filling a free slot from the
store, putting data in a free or in a mapped slot — keep coherence, and all but the last keep the
view (`view_writeBack_mapped`, `view_unmap`, `view_fill`, `view_put_free`, `view_put_mapped`). A key
may only be unmapped once its slot agrees with the store (`Synced`); this is the one obligation an
eviction has to meet. `backing_writeBackAll`: writing every mapped key back leaves the view in the
store.
-/

import Mathlib.Data.Fintype.Basic

set_option linter.unusedSectionVars false

namespace Foundation

/-- A write-back cache: mapped keys, slots, and the store behind them. -/
structure WriteBack (Key Slot Value : Type) where
  slotOf : Key → Option Slot
  data : Slot → Value
  dirty : Slot → Bool
  backing : Key → Option Value

namespace WriteBack

variable {Key Slot Value : Type} {cache : WriteBack Key Slot Value}

/-- What a client sees under a key. -/
def view (cache : WriteBack Key Slot Value) (key : Key) : Option Value :=
  match cache.slotOf key with
  | some slot => some (cache.data slot)
  | none => cache.backing key

theorem view_mapped (cache : WriteBack Key Slot Value) {key : Key} {slot : Slot}
    (mapped : cache.slotOf key = some slot) : cache.view key = some (cache.data slot) := by
  rw [view, mapped]

theorem view_unmapped (cache : WriteBack Key Slot Value) {key : Key}
    (absent : cache.slotOf key = none) : cache.view key = cache.backing key := by
  rw [view, absent]

/-- The slot of the key, if it has one, agrees with the store. -/
def Synced (cache : WriteBack Key Slot Value) (key : Key) : Prop :=
  ∀ slot, cache.slotOf key = some slot → cache.backing key = some (cache.data slot)

instance [Fintype Slot] [DecidableEq Slot] [DecidableEq Value] (cache : WriteBack Key Slot Value)
    (key : Key) : Decidable (cache.Synced key) :=
  inferInstanceAs (Decidable (∀ slot, cache.slotOf key = some slot →
    cache.backing key = some (cache.data slot)))

structure Coherent (cache : WriteBack Key Slot Value) : Prop where
  injective : ∀ key key' slot, cache.slotOf key = some slot → cache.slotOf key' = some slot →
    key = key'
  clean : ∀ key slot, cache.slotOf key = some slot → cache.dirty slot = false →
    cache.backing key = some (cache.data slot)

theorem Coherent.synced_of_clean (coherent : cache.Coherent) {key : Key}
    (clean : ∀ slot, cache.slotOf key = some slot → cache.dirty slot = false) :
    cache.Synced key :=
  fun slot mapped => coherent.clean key slot mapped (clean slot mapped)

section Moves

variable [DecidableEq Key] [DecidableEq Slot]

/-- Put the value behind a key. The dirty mark of its slot, if any, is left alone. -/
def writeBack (cache : WriteBack Key Slot Value) (key : Key) (value : Value) :
    WriteBack Key Slot Value :=
  { cache with backing := Function.update cache.backing key (some value) }

/-- Forget where a key is cached. -/
def unmap (cache : WriteBack Key Slot Value) (key : Key) : WriteBack Key Slot Value :=
  { cache with slotOf := Function.update cache.slotOf key none }

/-- Map a key to a slot that holds the given value, clean. -/
def fill (cache : WriteBack Key Slot Value) (key : Key) (slot : Slot) (value : Value) :
    WriteBack Key Slot Value :=
  { cache with
    slotOf := Function.update cache.slotOf key (some slot)
    data := Function.update cache.data slot value
    dirty := Function.update cache.dirty slot false }

/-- Put data in a slot, with a dirty mark. -/
def put (cache : WriteBack Key Slot Value) (slot : Slot) (value : Value) (mark : Bool) :
    WriteBack Key Slot Value :=
  { cache with
    data := Function.update cache.data slot value
    dirty := Function.update cache.dirty slot mark }

/-! ### Writing back -/

theorem view_writeBack_mapped {key : Key} {slot : Slot} (mapped : cache.slotOf key = some slot)
    (value : Value) : (cache.writeBack key value).view = cache.view := by
  funext other
  by_cases same : other = key
  · subst same
    rw [view_mapped cache mapped, view_mapped (cache.writeBack other value) mapped]
    rfl
  · simp only [view, writeBack, Function.update_of_ne same]

theorem synced_writeBack {key : Key} {slot : Slot} (mapped : cache.slotOf key = some slot) :
    (cache.writeBack key (cache.data slot)).Synced key := by
  intro found sameMap
  have : found = slot := Option.some.inj (sameMap.symm.trans mapped)
  subst this
  exact Function.update_self _ _ _

theorem coherent_writeBack (coherent : cache.Coherent) {key : Key} {slot : Slot}
    (mapped : cache.slotOf key = some slot) :
    (cache.writeBack key (cache.data slot)).Coherent where
  injective := coherent.injective
  clean other found foundMap clean := by
    by_cases same : other = key
    · subst same
      exact synced_writeBack mapped found foundMap
    · show Function.update cache.backing key (some (cache.data slot)) other = _
      rw [Function.update_of_ne same]
      exact coherent.clean other found foundMap clean

/-- Write a key back, if it is mapped. -/
def flush (cache : WriteBack Key Slot Value) (key : Key) : WriteBack Key Slot Value :=
  match cache.slotOf key with
  | some slot => cache.writeBack key (cache.data slot)
  | none => cache

theorem flush_mapped {key : Key} {slot : Slot} (mapped : cache.slotOf key = some slot) :
    cache.flush key = cache.writeBack key (cache.data slot) := by
  rw [flush, mapped]

theorem flush_unmapped {key : Key} (absent : cache.slotOf key = none) : cache.flush key = cache := by
  rw [flush, absent]

def writeBackAll (cache : WriteBack Key Slot Value) (keys : List Key) :
    WriteBack Key Slot Value :=
  keys.foldl flush cache

theorem backing_writeBackAll (cache : WriteBack Key Slot Value) (keys : List Key) :
    (cache.writeBackAll keys).backing
      = fun key => if key ∈ keys then cache.view key else cache.backing key := by
  induction keys generalizing cache with
  | nil =>
      funext key
      rw [if_neg List.not_mem_nil]
      rfl
  | cons head rest ih =>
      funext key
      rw [writeBackAll, List.foldl_cons]
      cases mapped : cache.slotOf head with
      | none =>
          rw [flush_unmapped mapped]
          refine (congrFun (ih cache) key).trans ?_
          by_cases same : key = head
          · subst same
            rw [if_pos List.mem_cons_self, view_unmapped cache mapped, ite_self]
          · simp only [List.mem_cons, same, false_or]
      | some slot =>
          rw [flush_mapped mapped]
          refine (congrFun (ih (cache.writeBack head (cache.data slot))) key).trans ?_
          rw [view_writeBack_mapped mapped]
          by_cases same : key = head
          · subst same
            rw [if_pos List.mem_cons_self, view_mapped cache mapped]
            show (if _ then _ else Function.update cache.backing key _ key) = _
            rw [Function.update_self, ite_self]
          · show (if _ then _ else Function.update cache.backing head _ key) = _
            rw [Function.update_of_ne same]
            simp only [List.mem_cons, same, false_or]

/-- **Written back, the store shows what the cache showed.** -/
theorem backing_writeBackAll_of_complete {keys : List Key}
    (complete : ∀ key slot, cache.slotOf key = some slot → key ∈ keys) :
    (cache.writeBackAll keys).backing = cache.view := by
  rw [backing_writeBackAll]
  funext key
  split
  · rfl
  · rename_i outside
    cases mapped : cache.slotOf key with
    | none => exact (view_unmapped cache mapped).symm
    | some slot => exact absurd (complete key slot mapped) outside

/-! ### Unmapping -/

theorem view_unmap {key : Key} (synced : cache.Synced key) : (cache.unmap key).view = cache.view := by
  funext other
  by_cases same : other = key
  · subst same
    rw [view_unmapped (cache.unmap other) (Function.update_self _ _ _)]
    cases mapped : cache.slotOf other with
    | none => exact (view_unmapped cache mapped).symm
    | some slot => rw [view_mapped cache mapped]; exact synced slot mapped
  · simp only [view, unmap, Function.update_of_ne same]

theorem slotOf_unmap {key other : Key} {slot : Slot}
    (mapped : (cache.unmap key).slotOf other = some slot) :
    other ≠ key ∧ cache.slotOf other = some slot := by
  replace mapped : Function.update cache.slotOf key none other = some slot := mapped
  by_cases same : other = key
  · rw [same, Function.update_self] at mapped
    cases mapped
  · rw [Function.update_of_ne same] at mapped
    exact ⟨same, mapped⟩

theorem coherent_unmap (coherent : cache.Coherent) (key : Key) : (cache.unmap key).Coherent where
  injective first second slot atFirst atSecond :=
    coherent.injective first second slot (slotOf_unmap atFirst).2 (slotOf_unmap atSecond).2
  clean other slot mapped clean := coherent.clean other slot (slotOf_unmap mapped).2 clean

/-! ### Filling a free slot -/

theorem slotOf_fill {key other : Key} {slot found : Slot} {value : Value}
    (mapped : (cache.fill key slot value).slotOf other = some found) :
    (other = key ∧ found = slot) ∨ (other ≠ key ∧ cache.slotOf other = some found) := by
  replace mapped : Function.update cache.slotOf key (some slot) other = some found := mapped
  by_cases same : other = key
  · rw [same, Function.update_self] at mapped
    exact Or.inl ⟨same, (Option.some.inj mapped).symm⟩
  · rw [Function.update_of_ne same] at mapped
    exact Or.inr ⟨same, mapped⟩

theorem view_fill {key : Key} {slot : Slot} {value : Value} (absent : cache.slotOf key = none)
    (free : ∀ other, cache.slotOf other ≠ some slot) (backed : cache.backing key = some value) :
    (cache.fill key slot value).view = cache.view := by
  funext other
  by_cases same : other = key
  · subst same
    rw [view_unmapped cache absent, backed,
      view_mapped (cache.fill other slot value) (Function.update_self _ _ _)]
    exact congrArg some (Function.update_self _ _ _)
  · cases mapped : cache.slotOf other with
    | none => simp only [view, fill, Function.update_of_ne same, mapped]
    | some found =>
        have different : found ≠ slot := fun equal => free other (equal ▸ mapped)
        simp only [view, fill, Function.update_of_ne same, mapped, Function.update_of_ne different]

theorem coherent_fill (coherent : cache.Coherent) {key : Key} {slot : Slot} {value : Value}
    (free : ∀ other, cache.slotOf other ≠ some slot) (backed : cache.backing key = some value) :
    (cache.fill key slot value).Coherent where
  injective first second found atFirst atSecond := by
    rcases slotOf_fill atFirst with ⟨firstKey, atSlot⟩ | ⟨_, oldFirst⟩ <;>
      rcases slotOf_fill atSecond with ⟨secondKey, atSlot'⟩ | ⟨_, oldSecond⟩
    · exact firstKey.trans secondKey.symm
    · exact absurd (atSlot ▸ oldSecond) (free second)
    · exact absurd (atSlot' ▸ oldFirst) (free first)
    · exact coherent.injective first second found oldFirst oldSecond
  clean other found mapped clean := by
    rcases slotOf_fill mapped with ⟨rfl, rfl⟩ | ⟨_, mapped⟩
    · show cache.backing other = some (Function.update cache.data found value found)
      rw [Function.update_self, backed]
    · have different : found ≠ slot := fun equal => free other (equal ▸ mapped)
      show cache.backing other = some (Function.update cache.data slot value found)
      rw [Function.update_of_ne different]
      refine coherent.clean other found mapped ?_
      rw [← clean]
      exact (Function.update_of_ne different _ _).symm

/-! ### Putting data in a slot -/

/-- Data in a slot that no key is mapped to is not seen. -/
theorem view_put_free {slot : Slot} (free : ∀ other, cache.slotOf other ≠ some slot)
    (value : Value) (mark : Bool) : (cache.put slot value mark).view = cache.view := by
  funext key
  cases mapped : cache.slotOf key with
  | none => simp only [view, put, mapped]
  | some found =>
      have different : found ≠ slot := fun equal => free key (equal ▸ mapped)
      simp only [view, put, mapped, Function.update_of_ne different]

theorem view_put_mapped {key : Key} {slot : Slot} (mapped : cache.slotOf key = some slot)
    (only : ∀ other, cache.slotOf other = some slot → other = key) (value : Value) (mark : Bool) :
    (cache.put slot value mark).view = Function.update cache.view key (some value) := by
  funext other
  by_cases same : other = key
  · subst same
    rw [Function.update_self, view_mapped (cache.put slot value mark) mapped]
    exact congrArg some (Function.update_self _ _ _)
  · rw [Function.update_of_ne same]
    cases otherMapped : cache.slotOf other with
    | none => simp only [view, put, otherMapped]
    | some found =>
        have different : found ≠ slot := fun equal => same (only other (equal ▸ otherMapped))
        simp only [view, put, otherMapped, Function.update_of_ne different]

/-- Data put in a slot needs the dirty mark to keep the cache coherent. -/
theorem coherent_put (coherent : cache.Coherent) (slot : Slot) (value : Value) :
    (cache.put slot value true).Coherent where
  injective := coherent.injective
  clean key found mapped clean := by
    replace clean : Function.update cache.dirty slot true found = false := clean
    have different : found ≠ slot := by
      rintro rfl
      rw [Function.update_self] at clean
      cases clean
    show cache.backing key = some (Function.update cache.data slot value found)
    rw [Function.update_of_ne different]
    refine coherent.clean key found mapped ?_
    rw [← clean]
    exact (Function.update_of_ne different _ _).symm

end Moves

end WriteBack

end Foundation
