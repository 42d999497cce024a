/-
**Sorting the slots of a page.**

`external_sort.cpp`: `ShiftSlotsLeft` moves the entries of the live slots to the front of the slot
directory, and `SortPageInPlace` sorts a range of live slots by exchanging slot entries, never the
bytes of a record. The loops run over slot ids of 16 bits; a comparison answers from the bytes of
two records, and nothing else is asked of it.

* `SlotsMoved`: what a step of the sort does to the page — it permutes the entries of a range of
  slots.
* `partitionSlots_spec`, `sortSlots_spec`: one partition, and the recursion.
* `shiftSlotsLeft_spec`: the compaction of the directory.
* `sortPageInPlace_sorts`, `sortSlots_sorts`: a whole page, and a range of live slots.
-/

import Mathlib.Data.Nat.Count
import Yadb.Foundation.Fallible
import Yadb.Foundation.Sorting
import Yadb.Storage.Page.Refinement

namespace Yadb

open Foundation

namespace Page

/-- `RecordComparisonFunction`: whether the first record comes before the second. -/
abbrev RecordComparison := List UInt8 → List UInt8 → Bool

/-! ### The functions -/

def swapSlots (page : FullPage) (slot1 slot2 : SlotId) : Except PageAssertion FullPage := do
  let tempOffset ← getSlotOffset page slot1
  let tempSize ← getSlotSize page slot1
  let tempIsDeleted ← isSlotDeleted page slot1
  let page ← setSlotOffset page slot1 (← getSlotOffset page slot2)
  let page ← setSlotSize page slot1 (← getSlotSize page slot2)
  let page ← setSlotDeleted page slot1 (← isSlotDeleted page slot2)
  let page ← setSlotOffset page slot2 tempOffset
  let page ← setSlotSize page slot2 tempSize
  setSlotDeleted page slot2 tempIsDeleted

/-- The comparison of the records of two slots. -/
def compareSlots (comp : RecordComparison) (page : FullPage) (slot1 slot2 : SlotId) :
    Except PageAssertion Bool := do
  return comp (← readRecord page slot1) (← readRecord page slot2)

theorem toNat_succ {ptr limit : SlotId} (less : ptr < limit) : (ptr + 1).toNat = ptr.toNat + 1 := by
  have bound := limit.toNat_lt
  have order := UInt16.lt_iff_toNat_lt.mp less
  have step : (ptr + 1).toNat = (ptr.toNat + 1) % 2 ^ 16 := UInt16.toNat_add _ _
  omega

/-- On to the first slot, up to the partition, whose comparison with the partition's record does not
have this answer. -/
def skipWhile (comp : RecordComparison) (page : FullPage) (partitionPtr : SlotId) (answer : Bool)
    (ptr : SlotId) : Except PageAssertion SlotId :=
  if less : ptr < partitionPtr then do
    if (← compareSlots comp page ptr partitionPtr) = answer then
      skipWhile comp page partitionPtr answer (ptr + 1)
    else return ptr
  else .ok ptr
termination_by partitionPtr.toNat - ptr.toNat
decreasing_by
  have step := toNat_succ less
  have order := UInt16.lt_iff_toNat_lt.mp less
  omega

/-- The loop before the partition loop: past the slots that are before the partition. -/
def skipBefore (comp : RecordComparison) (page : FullPage) (partitionPtr ptr : SlotId) :
    Except PageAssertion SlotId := skipWhile comp page partitionPtr true ptr

/-- The inner loop of the partition loop: on to the next slot that is before the partition. -/
def skipAfter (comp : RecordComparison) (page : FullPage) (partitionPtr ptr : SlotId) :
    Except PageAssertion SlotId := skipWhile comp page partitionPtr false ptr

/-- The loop stops between where it starts and the partition. -/
theorem skipWhile_bounds {comp : RecordComparison} {page : FullPage} {partitionPtr ptr next : SlotId}
    {answer : Bool} (run : skipWhile comp page partitionPtr answer ptr = .ok next)
    (start : ptr.toNat ≤ partitionPtr.toNat) :
    ptr.toNat ≤ next.toNat ∧ next.toNat ≤ partitionPtr.toNat := by
  induction ptr using skipWhile.induct partitionPtr with
  | case1 ptr less ih =>
      have step := toNat_succ less
      have order := UInt16.lt_iff_toNat_lt.mp less
      rw [skipWhile, dif_pos less] at run
      obtain ⟨compared, _, run⟩ := of_bind_ok run
      split at run
      · have later := ih run (by omega)
        omega
      · cases run
        omega
  | case2 ptr notLess =>
      rw [skipWhile, dif_neg notLess] at run
      cases run
      omega

/-- The partition loop: every slot that is before the partition goes to the left of those that are
not. The answer is `gt_ptr`. -/
def moveBefore (comp : RecordComparison) (page : FullPage) (partitionPtr ltPtr gtPtr : SlotId) :
    Except PageAssertion (SlotId × FullPage) :=
  if _ : ltPtr < partitionPtr then
    match found : skipAfter comp page partitionPtr ltPtr with
    | .error failure => .error failure
    | .ok next =>
        if nextLess : next < partitionPtr then do
          let page ← swapSlots page next gtPtr
          moveBefore comp page partitionPtr (next + 1) (gtPtr + 1)
        else moveBefore comp page partitionPtr next gtPtr
  else .ok (gtPtr, page)
termination_by partitionPtr.toNat - ltPtr.toNat
decreasing_by
  · have order := UInt16.lt_iff_toNat_lt.mp ‹ltPtr < partitionPtr›
    have bounds := skipWhile_bounds found order.le
    have step := toNat_succ nextLess
    omega
  · have order := UInt16.lt_iff_toNat_lt.mp ‹ltPtr < partitionPtr›
    have notLess := mt UInt16.lt_iff_toNat_lt.mpr nextLess
    omega

/-- From the first loop to the swap of the partition into its place, which is the answer. -/
def partitionSlots (comp : RecordComparison) (page : FullPage) (leftBound rightBound : SlotId) :
    Except PageAssertion (SlotId × FullPage) := do
  let partitionPtr := rightBound - 1
  let gtPtr ← skipBefore comp page partitionPtr leftBound
  let (gtPtr, page) ← moveBefore comp page partitionPtr gtPtr gtPtr
  let page ← swapSlots page gtPtr partitionPtr
  return (gtPtr, page)

/-! ### What the partition loop runs through -/

section Unfold

variable {comp : RecordComparison} {page page' : FullPage} {partitionPtr ltPtr gtPtr next : SlotId}

theorem moveBefore_done (done : ¬ ltPtr < partitionPtr) :
    moveBefore comp page partitionPtr ltPtr gtPtr = .ok (gtPtr, page) := by
  rw [moveBefore, dif_neg done]

/-- The inner loop found a slot to move. -/
theorem moveBefore_move (less : ltPtr < partitionPtr)
    (found : skipAfter comp page partitionPtr ltPtr = .ok next) (nextLess : next < partitionPtr) :
    moveBefore comp page partitionPtr ltPtr gtPtr = (do
      let page ← swapSlots page next gtPtr
      moveBefore comp page partitionPtr (next + 1) (gtPtr + 1)) := by
  rw [moveBefore, dif_pos less]
  split
  · rename_i failed
    rw [found] at failed
    cases failed
  · rename_i other same
    rw [found] at same
    cases same
    rw [dif_pos nextLess]

/-- The inner loop found none. -/
theorem moveBefore_none (less : ltPtr < partitionPtr)
    (found : skipAfter comp page partitionPtr ltPtr = .ok next)
    (notLess : ¬ next < partitionPtr) :
    moveBefore comp page partitionPtr ltPtr gtPtr = .ok (gtPtr, page) := by
  rw [moveBefore, dif_pos less]
  split
  · rename_i failed
    rw [found] at failed
    cases failed
  · rename_i other same
    rw [found] at same
    cases same
    rw [dif_neg notLess, moveBefore_done notLess]

theorem moveBefore_bounds {gtPtr' : SlotId}
    (run : moveBefore comp page partitionPtr ltPtr gtPtr = .ok (gtPtr', page'))
    (behind : gtPtr.toNat ≤ ltPtr.toNat) (start : ltPtr.toNat ≤ partitionPtr.toNat) :
    gtPtr.toNat ≤ gtPtr'.toNat ∧ gtPtr'.toNat ≤ partitionPtr.toNat := by
  induction page, ltPtr, gtPtr using moveBefore.induct comp partitionPtr
  case case1 page ltPtr gtPtr less failure found =>
    rw [moveBefore, dif_pos less] at run
    split at run
    · cases run
    · rename_i other same
      rw [found] at same
      cases same
  case case2 page ltPtr gtPtr less next found nextLess ih =>
    rw [moveBefore_move less found nextLess] at run
    obtain ⟨swapped, _, run⟩ := of_bind_ok run
    have order := UInt16.lt_iff_toNat_lt.mp less
    have nextOrder := UInt16.lt_iff_toNat_lt.mp nextLess
    have bounds := skipWhile_bounds found order.le
    have step := toNat_succ nextLess
    have gtStep : (gtPtr + 1).toNat = gtPtr.toNat + 1 :=
      toNat_succ (UInt16.lt_iff_toNat_lt.mpr (by omega : gtPtr.toNat < partitionPtr.toNat))
    have later := ih swapped run (by omega) (by omega)
    omega
  case case3 page ltPtr gtPtr less next found notLess ih =>
    rw [moveBefore_none less found notLess] at run
    cases run
    omega
  case case4 page ltPtr gtPtr done =>
    rw [moveBefore_done done] at run
    cases run
    omega

/-- The place of the partition lies in the range. -/
theorem partitionSlots_bounds {leftBound rightBound : SlotId}
    (run : partitionSlots comp page leftBound rightBound = .ok (gtPtr, page'))
    (some : leftBound.toNat < rightBound.toNat) :
    leftBound.toNat ≤ gtPtr.toNat ∧ gtPtr.toNat < rightBound.toNat := by
  have last : (rightBound - 1).toNat = rightBound.toNat - 1 :=
    UInt16.toNat_sub_of_le _ _ (UInt16.le_iff_toNat_le.mpr (by
      show 1 ≤ rightBound.toNat
      omega))
  obtain ⟨first, skipped, run⟩ := of_bind_ok run
  obtain ⟨⟨gtPtr', moved⟩, looped, run⟩ := of_bind_ok run
  obtain ⟨swapped, _, run⟩ := of_bind_ok run
  cases run
  have skip := skipWhile_bounds skipped (by omega)
  have loop := moveBefore_bounds looped (Nat.le_refl _) skip.2
  omega

end Unfold

/-- `SortPageInPlace` on the slots from `leftBound` up to `rightBound`. -/
def sortSlots (comp : RecordComparison) (page : FullPage) (leftBound rightBound : SlotId) :
    Except PageAssertion FullPage :=
  if (rightBound.toNat : Int) - (leftBound.toNat : Int) ≤ 1 then .ok page
  else
    match partitioned : partitionSlots comp page leftBound rightBound with
    | .error failure => .error failure
    | .ok (gtPtr, page) => do
        let page ← sortSlots comp page leftBound gtPtr
        sortSlots comp page (gtPtr + 1) rightBound
termination_by rightBound.toNat - leftBound.toNat
decreasing_by
  all_goals
    have bounds := partitionSlots_bounds partitioned (by omega)
  · omega
  · have step : (gtPtr + 1).toNat = gtPtr.toNat + 1 :=
      toNat_succ (UInt16.lt_iff_toNat_lt.mpr bounds.2)
    omega

/-- `while (ptr < GetPageCapacity(page) && !IsSlotDeleted(page, ptr))`; both pointers move alike. -/
def skipLive (page : FullPage) (ptr : SlotId) : Except PageAssertion SlotId :=
  if less : ptr < getPageCapacity page then do
    if ← isSlotDeleted page ptr then return ptr
    else skipLive page (ptr + 1)
  else .ok ptr
termination_by (getPageCapacity page).toNat - ptr.toNat
decreasing_by
  have step := toNat_succ less
  have order := UInt16.lt_iff_toNat_lt.mp less
  omega

theorem isSlotDeleted_below {page : FullPage} {ptr : SlotId} {deleted : Bool}
    (run : isSlotDeleted page ptr = .ok deleted) : ptr < getPageCapacity page := by
  obtain ⟨_, checked, _⟩ := of_bind_ok run
  by_contra outside
  rw [checkSlot, if_neg outside] at checked
  cases checked

/-- `while (IsSlotDeleted(page, ptr)) ptr++`: no bound but the assertion. -/
def skipDeleted (page : FullPage) (ptr : SlotId) : Except PageAssertion SlotId :=
  match tested : isSlotDeleted page ptr with
  | .error failure => .error failure
  | .ok true => skipDeleted page (ptr + 1)
  | .ok false => .ok ptr
termination_by (getPageCapacity page).toNat - ptr.toNat
decreasing_by
  have less := isSlotDeleted_below tested
  have step := toNat_succ less
  have order := UInt16.lt_iff_toNat_lt.mp less
  omega

/-- The entry of a live slot goes to a deleted slot on its left. -/
def moveEntry (page : FullPage) (deletedPtr ptr : SlotId) : Except PageAssertion FullPage := do
  let page ← setSlotDeleted page deletedPtr false
  let page ← setSlotOffset page deletedPtr (← getSlotOffset page ptr)
  let page ← setSlotSize page deletedPtr (← getSlotSize page ptr)
  let page ← setSlotDeleted page ptr true
  let page ← setSlotOffset page ptr 0
  setSlotSize page ptr 0

/-- The second loop of `ShiftSlotsLeft`. -/
def shiftLoop (page : FullPage) (deletedPtr ptr : SlotId) : Except PageAssertion FullPage :=
  if less : deletedPtr < getNumTuples page then do
    let ptr ← skipDeleted page ptr
    let page ← moveEntry page deletedPtr ptr
    shiftLoop page (deletedPtr + 1) (ptr + 1)
  else .ok page
termination_by 2 ^ 16 - deletedPtr.toNat
decreasing_by
  have step := toNat_succ less
  have bound := deletedPtr.toNat_lt
  omega

def shiftSlotsLeft (page : FullPage) : Except PageAssertion FullPage := do
  let ptr ← skipLive page 0
  shiftLoop page ptr ptr

def sortPageInPlace (comp : RecordComparison) (page : FullPage) : Except PageAssertion FullPage := do
  let page ← shiftSlotsLeft page
  sortSlots comp page 0 (getNumTuples page)

/-! ### Writing slot entries -/

section Entries

variable {page page' page'' : FullPage} {count : Nat}

/-- One slot entry has changed, and no byte outside it. -/
structure EntryWritten (page page' : FullPage) (index : Nat) (slot : Slot) : Prop where
  slots : slotAt page' = Function.update (slotAt page) index slot
  before : Agree page page' 0 (entryAt index)
  after : Agree page page' (entryAt (index + 1)) pageSize

theorem agree_trans {lower upper : Nat} (first : Agree page page' lower upper)
    (second : Agree page' page'' lower upper) : Agree page page'' lower upper :=
  fun position above below => (second position above below).trans (first position above below)

/-- Two writes to one entry. -/
theorem EntryWritten.trans {index : Nat} {slot slot' : Slot}
    (first : EntryWritten page page' index slot) (second : EntryWritten page' page'' index slot') :
    EntryWritten page page'' index slot' where
  slots := by rw [second.slots, first.slots, Function.update_idem]
  before := agree_trans first.before second.before
  after := agree_trans first.after second.after

/-- A directory keeps its slots when a slot entry is written. -/
theorem hasSlots_of_before {index : Nat} (slots : (directory page).HasSlots count)
    (before : Agree page page' 0 (entryAt index)) : (directory page').HasSlots count := by
  have freeStart : getStartFreeSpace page' = getStartFreeSpace page :=
    getU16_agree before (Nat.zero_le _) (by simp only [header, entryAt]; omega)
  exact ⟨(congrArg UInt16.toNat freeStart).trans slots.start, slots.inside⟩

theorem entryWritten_of_edits {index start : Nat} {bytes : List UInt8} {slot : Slot}
    (edits : Edits page (writeBytes page start bytes) ((directory page).setSlot index slot)
      (entryAt count))
    (lower : entryAt index ≤ start) (upper : start + bytes.length ≤ entryAt index + 5) :
    EntryWritten page (writeBytes page start bytes) index slot where
  slots := congrArg Directory.slot edits.decoded
  before := agree_writeBytes page (Or.inr lower)
  after := agree_writeBytes page (Or.inl (by unfold entryAt at *; omega))

variable {slotId : SlotId}

theorem setSlotDeleted_written (slots : (directory page).HasSlots count)
    (below : slotId.toNat < count) (deleted : Bool) :
    ∃ page', setSlotDeleted page slotId deleted = .ok page' ∧
      EntryWritten page page' slotId.toNat { slotAt page slotId.toNat with deleted } := by
  have place : entryOffset slotId slotEntry.deleted = _ :=
    entryOffset_eq slots.inside below (by decide)
  obtain ⟨page', run, edits⟩ := setSlotDeleted_edits slots below deleted
  have result : setSlotDeleted page slotId deleted = .ok (writeBytes page
      (entryOffset slotId slotEntry.deleted) [if deleted then 1 else 0]) := by
    rw [setSlotDeleted, checkSlot_ok slots below]
    rfl
  rw [result] at run
  cases run
  refine ⟨_, result, entryWritten_of_edits edits ?_ ?_⟩
  · rw [place]
    exact Nat.le_add_right _ _
  · rw [place, show slotEntry.deleted.toNat = 0 from rfl]
    simp only [List.length_singleton]
    omega

theorem setSlotOffset_written (slots : (directory page).HasSlots count)
    (below : slotId.toNat < count) (offset : Offset) :
    ∃ page', setSlotOffset page slotId offset = .ok page' ∧
      EntryWritten page page' slotId.toNat { slotAt page slotId.toNat with offset } := by
  have place : entryOffset slotId slotEntry.offset = _ :=
    entryOffset_eq slots.inside below (by decide)
  obtain ⟨page', run, edits⟩ := setSlotOffset_edits slots below offset
  have result : setSlotOffset page slotId offset = .ok (writeBytes page
      (entryOffset slotId slotEntry.offset) (leBytes 2 offset.toNat)) := by
    rw [setSlotOffset, checkSlot_ok slots below]
    rfl
  rw [result] at run
  cases run
  refine ⟨_, result, entryWritten_of_edits edits ?_ ?_⟩
  · rw [place]
    exact Nat.le_add_right _ _
  · rw [place, length_leBytes, show slotEntry.offset.toNat = 1 from rfl]
    omega

theorem setSlotSize_written (slots : (directory page).HasSlots count)
    (below : slotId.toNat < count) (size : UInt16) :
    ∃ page', setSlotSize page slotId size = .ok page' ∧
      EntryWritten page page' slotId.toNat { slotAt page slotId.toNat with size } := by
  have place : entryOffset slotId slotEntry.tupleSize = _ :=
    entryOffset_eq slots.inside below (by decide)
  obtain ⟨page', run, edits⟩ := setSlotSize_edits slots below size
  have result : setSlotSize page slotId size = .ok (writeBytes page
      (entryOffset slotId slotEntry.tupleSize) (leBytes 2 size.toNat)) := by
    rw [setSlotSize, checkSlot_ok slots below]
    rfl
  rw [result] at run
  cases run
  refine ⟨_, result, entryWritten_of_edits edits ?_ ?_⟩
  · rw [place]
    exact Nat.le_add_right _ _
  · rw [place, length_leBytes, show slotEntry.tupleSize.toNat = 3 from rfl]

/-- A whole entry written by its three setters, as `SwapSlots` does. -/
theorem writeEntry_spec (slots : (directory page).HasSlots count) (below : slotId.toNat < count)
    (slot : Slot) :
    ∃ page', (do
        let page ← setSlotOffset page slotId slot.offset
        let page ← setSlotSize page slotId slot.size
        setSlotDeleted page slotId slot.deleted) = .ok page' ∧
      EntryWritten page page' slotId.toNat slot := by
  obtain ⟨first, firstRun, firstWritten⟩ := setSlotOffset_written slots below slot.offset
  have firstSlots := hasSlots_of_before slots firstWritten.before
  obtain ⟨second, secondRun, secondWritten⟩ := setSlotSize_written firstSlots below slot.size
  have secondSlots := hasSlots_of_before firstSlots secondWritten.before
  obtain ⟨third, thirdRun, thirdWritten⟩ := setSlotDeleted_written secondSlots below slot.deleted
  refine ⟨third, by rw [firstRun, ok_bind, secondRun, ok_bind, thirdRun], ?_⟩
  have all := (firstWritten.trans secondWritten).trans thirdWritten
  simpa only [secondWritten.slots, firstWritten.slots, Function.update_self] using all

end Entries

/-! ### Permuting the entries of a range -/

/-- The entries of the slots from `left` up to `right` are permuted, and no byte outside these
entries changes. -/
structure SlotsMoved (page page' : FullPage) (left right : Nat) : Prop where
  moved : Moved left right (slotAt page) (slotAt page')
  before : Agree page page' 0 (entryAt left)
  after : Agree page page' (entryAt right) pageSize

namespace SlotsMoved

variable {page page' page'' : FullPage} {left right count : Nat}

theorem refl (page : FullPage) (left right : Nat) : SlotsMoved page page left right :=
  ⟨Moved.refl left right _, fun _ _ _ => rfl, fun _ _ _ => rfl⟩

theorem trans (first : SlotsMoved page page' left right)
    (second : SlotsMoved page' page'' left right) : SlotsMoved page page'' left right :=
  ⟨first.moved.trans second.moved, agree_trans first.before second.before,
    agree_trans first.after second.after⟩

theorem mono (moved : SlotsMoved page page' left right) {left' right' : Nat} (below : left' ≤ left)
    (above : right ≤ right') : SlotsMoved page page' left' right' where
  moved := moved.moved.mono below above
  before position lower upper := moved.before position lower (by unfold entryAt at *; omega)
  after position lower upper := moved.after position (by unfold entryAt at *; omega) upper

theorem hasSlots (moved : SlotsMoved page page' left right)
    (slots : (directory page).HasSlots count) : (directory page').HasSlots count :=
  hasSlots_of_before slots moved.before

end SlotsMoved

/-- **`SwapSlots` exchanges two entries.** -/
theorem swapSlots_spec {page : FullPage} {count left right : Nat} {slot1 slot2 : SlotId}
    (slots : (directory page).HasSlots count) (upTo : right ≤ count)
    (in1 : left ≤ slot1.toNat ∧ slot1.toNat < right)
    (in2 : left ≤ slot2.toNat ∧ slot2.toNat < right) :
    ∃ page', swapSlots page slot1 slot2 = .ok page' ∧ SlotsMoved page page' left right ∧
      ∀ index, slotAt page' index = slotAt page (Equiv.swap slot1.toNat slot2.toNat index) := by
  have below1 : slot1.toNat < count := by omega
  have below2 : slot2.toNat < count := by omega
  have others : ∀ {written : FullPage} {slot : Slot} (index : Nat),
      EntryWritten page written slot1.toNat slot → index ≠ slot1.toNat →
      slotAt written index = slotAt page index := by
    intro written slot index entry differ
    rw [entry.slots, Function.update_of_ne differ]
  obtain ⟨offset, offsetRun, offsetWritten⟩ :=
    setSlotOffset_written slots below1 (slotAt page slot2.toNat).offset
  have offsetSlots := hasSlots_of_before slots offsetWritten.before
  -- the entry that is read is the one being written if the two slots are one
  have readSize : (slotAt offset slot2.toNat).size = (slotAt page slot2.toNat).size := by
    by_cases same : slot2.toNat = slot1.toNat
    · rw [offsetWritten.slots, same, Function.update_self]
    · rw [others _ offsetWritten same]
  obtain ⟨size, sizeRun, sizeWritten⟩ :=
    setSlotSize_written offsetSlots below1 (slotAt page slot2.toNat).size
  have sizeSlots := hasSlots_of_before offsetSlots sizeWritten.before
  have sizeAll := offsetWritten.trans sizeWritten
  have readDeleted : (slotAt size slot2.toNat).deleted = (slotAt page slot2.toNat).deleted := by
    by_cases same : slot2.toNat = slot1.toNat
    · rw [sizeAll.slots, same, Function.update_self, offsetWritten.slots, Function.update_self]
    · rw [others _ sizeAll same]
  obtain ⟨first, firstRun, deletedWritten⟩ :=
    setSlotDeleted_written sizeSlots below1 (slotAt page slot2.toNat).deleted
  have firstWritten : EntryWritten page first slot1.toNat (slotAt page slot2.toNat) := by
    have all := sizeAll.trans deletedWritten
    simpa only [sizeWritten.slots, offsetWritten.slots, Function.update_self] using all
  have firstSlots := hasSlots_of_before slots firstWritten.before
  obtain ⟨page', run, written⟩ := writeEntry_spec firstSlots below2 (slotAt page slot1.toNat)
  have swapped : ∀ index, slotAt page' index
      = slotAt page (Equiv.swap slot1.toNat slot2.toNat index) := by
    intro index
    rw [written.slots, firstWritten.slots]
    by_cases is2 : index = slot2.toNat
    · rw [is2, Function.update_self, Equiv.swap_apply_right]
    · rw [Function.update_of_ne is2]
      by_cases is1 : index = slot1.toNat
      · rw [is1, Function.update_self, Equiv.swap_apply_left]
      · rw [Function.update_of_ne is1, Equiv.swap_apply_of_ne_of_ne is1 is2]
  refine ⟨page', ?_, ⟨?_, ?_, ?_⟩, swapped⟩
  · rw [swapSlots, getSlotOffset_eq slots below1, ok_bind, getSlotSize_eq slots below1, ok_bind,
      isSlotDeleted_eq slots below1, ok_bind, getSlotOffset_eq slots below2, ok_bind, offsetRun,
      ok_bind, getSlotSize_eq offsetSlots below2, ok_bind, readSize, sizeRun, ok_bind,
      isSlotDeleted_eq sizeSlots below2, ok_bind, readDeleted, firstRun, ok_bind]
    exact run
  · have moved := Moved.swap (slotAt page) in1 in2
    rwa [← funext swapped] at moved
  · exact agree_trans
      (fun position lower upper => firstWritten.before position lower (by unfold entryAt at *; omega))
      (fun position lower upper => written.before position lower (by unfold entryAt at *; omega))
  · exact agree_trans
      (fun position lower upper => firstWritten.after position (by unfold entryAt at *; omega) upper)
      (fun position lower upper => written.after position (by unfold entryAt at *; omega) upper)

/-! ### Ranges that can be sorted -/

/-- A live entry whose record lies behind the directory. -/
def ReadySlot (count : Nat) (slot : Slot) : Prop :=
  slot.deleted = false ∧ slot.extent.Inside (entryAt count) pageSize

/-- The comparison of two entries, by the bytes that their records have in `area`. -/
def entryBefore (comp : RecordComparison) (area : FullPage) (slot1 slot2 : Slot) : Bool :=
  comp (slot1.extent.read area) (slot2.extent.read area)

/-- The slots of the range are live, and the records are those of `area`. -/
structure Sortable (area page : FullPage) (count left right : Nat) : Prop where
  slots : (directory page).HasSlots count
  upTo : right ≤ count
  ready : ∀ index, left ≤ index → index < right → ReadySlot count (slotAt page index)
  agree : Agree area page (entryAt count) pageSize

variable {area page page' : FullPage} {comp : RecordComparison} {count left right : Nat}

theorem Sortable.mono (sortable : Sortable area page count left right) {left' right' : Nat}
    (below : left ≤ left') (above : right' ≤ right) : Sortable area page count left' right' where
  slots := sortable.slots
  upTo := above.trans sortable.upTo
  ready index lower upper := sortable.ready index (below.trans lower) (upper.trans_le above)
  agree := sortable.agree

/-- A permutation of the range leaves it sortable. -/
theorem Sortable.of_moved (sortable : Sortable area page count left right)
    (moved : SlotsMoved page page' left right) : Sortable area page' count left right where
  slots := moved.hasSlots sortable.slots
  upTo := sortable.upTo
  ready := moved.moved.forall_mem (P := ReadySlot count) sortable.ready
  agree := by
    have upTo := sortable.upTo
    refine agree_trans sortable.agree fun position lower upper => moved.after position ?_ upper
    unfold entryAt at *
    omega

/-- The record of a ready slot is the one of `area`. -/
theorem Sortable.record (sortable : Sortable area page count left right) {index : Nat}
    (lower : left ≤ index) (upper : index < right) :
    Page.record page index = (slotAt page index).extent.read area :=
  Extent.read_agree (sortable.ready index lower upper).2 sortable.agree

theorem Sortable.compare (comp : RecordComparison)
    (sortable : Sortable area page count left right) {slot1 slot2 : SlotId}
    (in1 : left ≤ slot1.toNat ∧ slot1.toNat < right)
    (in2 : left ≤ slot2.toNat ∧ slot2.toNat < right) :
    compareSlots comp page slot1 slot2
      = .ok (entryBefore comp area (slotAt page slot1.toNat) (slotAt page slot2.toNat)) := by
  have upTo := sortable.upTo
  have live1 : slot1.toNat ∈ (directory page).liveSlots count :=
    Directory.mem_liveSlots.mpr ⟨by omega, (sortable.ready _ in1.1 in1.2).1⟩
  have live2 : slot2.toNat ∈ (directory page).liveSlots count :=
    Directory.mem_liveSlots.mpr ⟨by omega, (sortable.ready _ in2.1 in2.2).1⟩
  rw [compareSlots, readRecord_live sortable.slots live1, ok_bind,
    readRecord_live sortable.slots live2, ok_bind, sortable.record in1.1 in1.2,
    sortable.record in2.1 in2.2]
  rfl

/-! ### The partition -/

/-- **The skipping loop** stops at the first other answer, or at the partition. -/
theorem skipWhile_spec (comp : RecordComparison)
    (sortable : Sortable area page count left right) {partitionPtr ptr : SlotId}
    (answer : Bool) (lower : left ≤ ptr.toNat)
    (start : ptr.toNat ≤ partitionPtr.toNat) (upper : partitionPtr.toNat < right) :
    ∃ next, skipWhile comp page partitionPtr answer ptr = .ok next ∧
      ptr.toNat ≤ next.toNat ∧ next.toNat ≤ partitionPtr.toNat ∧
      (∀ index, ptr.toNat ≤ index → index < next.toNat →
        entryBefore comp area (slotAt page index) (slotAt page partitionPtr.toNat) = answer) ∧
      (next.toNat < partitionPtr.toNat →
        entryBefore comp area (slotAt page next.toNat) (slotAt page partitionPtr.toNat)
          = !answer) := by
  induction ptr using skipWhile.induct partitionPtr with
  | case1 ptr less ih =>
      have step := toNat_succ less
      have order := UInt16.lt_iff_toNat_lt.mp less
      have compared : compareSlots comp page ptr partitionPtr = .ok _ :=
        sortable.compare comp ⟨lower, by omega⟩ ⟨by omega, upper⟩
      rw [skipWhile, dif_pos less, compared, ok_bind]
      by_cases same : entryBefore comp area (slotAt page ptr.toNat)
          (slotAt page partitionPtr.toNat) = answer
      · rw [if_pos same]
        obtain ⟨next, run, after, before, all, stop⟩ := ih (by omega) (by omega)
        refine ⟨next, run, by omega, before, fun index above below => ?_, stop⟩
        by_cases first : index = ptr.toNat
        · rw [first]
          exact same
        · exact all index (by omega) below
      · rw [if_neg same]
        refine ⟨ptr, rfl, Nat.le_refl _, order.le, fun index above below => by omega, fun _ => ?_⟩
        exact Bool.eq_not_of_ne same
  | case2 ptr notLess =>
      have order := mt UInt16.lt_iff_toNat_lt.mpr notLess
      rw [skipWhile, dif_neg notLess]
      exact ⟨ptr, rfl, Nat.le_refl _, start, fun index above below => by omega,
        fun less => absurd less order⟩

/-- **The partition loop**: what is before the partition goes to the left. -/
theorem moveBefore_spec {partitionPtr ltPtr gtPtr : SlotId}
    (sortable : Sortable area page count left right) (upper : partitionPtr.toNat < right)
    (lower : left ≤ gtPtr.toNat) (behind : gtPtr.toNat ≤ ltPtr.toNat)
    (start : ltPtr.toNat ≤ partitionPtr.toNat)
    (isBefore : ∀ index, left ≤ index → index < gtPtr.toNat →
      entryBefore comp area (slotAt page index) (slotAt page partitionPtr.toNat) = true)
    (isAfter : ∀ index, gtPtr.toNat ≤ index → index < ltPtr.toNat →
      entryBefore comp area (slotAt page index) (slotAt page partitionPtr.toNat) = false) :
    ∃ gtPtr' page', moveBefore comp page partitionPtr ltPtr gtPtr = .ok (gtPtr', page') ∧
      SlotsMoved page page' left partitionPtr.toNat ∧
      left ≤ gtPtr'.toNat ∧ gtPtr'.toNat ≤ partitionPtr.toNat ∧
      (∀ index, left ≤ index → index < gtPtr'.toNat →
        entryBefore comp area (slotAt page' index) (slotAt page' partitionPtr.toNat) = true) ∧
      (∀ index, gtPtr'.toNat ≤ index → index < partitionPtr.toNat →
        entryBefore comp area (slotAt page' index) (slotAt page' partitionPtr.toNat) = false) := by
  induction page, ltPtr, gtPtr using moveBefore.induct comp partitionPtr
  case case1 page ltPtr gtPtr less failure found =>
    obtain ⟨next, run, _⟩ := skipWhile_spec comp sortable false (by omega) start upper
    rw [skipAfter, run] at found
    cases found
  case case2 page ltPtr gtPtr less next found nextLess ih =>
    have order := UInt16.lt_iff_toNat_lt.mp less
    have nextOrder := UInt16.lt_iff_toNat_lt.mp nextLess
    obtain ⟨found', run, after, _, skipped, stop⟩ :=
      skipWhile_spec comp sortable false (by omega) start upper
    rw [skipAfter, run] at found
    cases found
    have step := toNat_succ nextLess
    have gtStep : (gtPtr + 1).toNat = gtPtr.toNat + 1 :=
      toNat_succ (UInt16.lt_iff_toNat_lt.mpr (by omega : gtPtr.toNat < partitionPtr.toNat))
    have upTo := sortable.upTo
    have nextIn : left ≤ next.toNat ∧ next.toNat < partitionPtr.toNat := ⟨by omega, nextOrder⟩
    have gtIn : left ≤ gtPtr.toNat ∧ gtPtr.toNat < partitionPtr.toNat := ⟨lower, by omega⟩
    obtain ⟨swapped, swapRun, moved, entries⟩ :=
      swapSlots_spec sortable.slots (by omega) nextIn gtIn
    have pivot : slotAt swapped partitionPtr.toNat = slotAt page partitionPtr.toNat := by
      rw [entries, Equiv.swap_apply_of_ne_of_ne (by omega) (by omega)]
    have middle : ∀ index, gtPtr.toNat ≤ index → index < next.toNat →
        entryBefore comp area (slotAt page index) (slotAt page partitionPtr.toNat) = false := by
      intro index above below
      by_cases early : index < ltPtr.toNat
      · exact isAfter index above early
      · exact skipped index (by omega) below
    obtain ⟨gtPtr', page', loop, movedLater, bounds⟩ := ih swapped
      (sortable.of_moved (moved.mono (Nat.le_refl _) (by omega))) (by omega) (by omega) (by omega)
      (fun index above below => by
        rw [pivot, entries]
        by_cases last : index = gtPtr.toNat
        · -- the slot that was found before the partition
          rw [last, Equiv.swap_apply_right]
          exact stop nextOrder
        · rw [Equiv.swap_apply_of_ne_of_ne (by omega) last]
          exact isBefore index above (by omega))
      (fun index above below => by
        rw [pivot, entries]
        by_cases last : index = next.toNat
        · rw [last, Equiv.swap_apply_left]
          exact middle _ (Nat.le_refl _) (by omega)
        · rw [Equiv.swap_apply_of_ne_of_ne last (by omega)]
          exact middle index (by omega) (by omega))
    refine ⟨gtPtr', page', ?_, moved.trans movedLater, bounds⟩
    rw [moveBefore_move less run nextLess, swapRun, ok_bind, loop]
  case case3 page ltPtr gtPtr less next found notLess ih =>
    have notOrder := mt UInt16.lt_iff_toNat_lt.mpr notLess
    obtain ⟨found', run, after, _, skipped, stop⟩ :=
      skipWhile_spec comp sortable false (by omega) start upper
    rw [skipAfter, run] at found
    cases found
    refine ⟨gtPtr, page, moveBefore_none less run notLess, .refl page _ _, lower, by omega, isBefore,
      fun index above below => ?_⟩
    by_cases early : index < ltPtr.toNat
    · exact isAfter index above early
    · exact skipped index (by omega) (by omega)
  case case4 page ltPtr gtPtr done =>
    have notOrder := mt UInt16.lt_iff_toNat_lt.mpr done
    exact ⟨gtPtr, page, moveBefore_done done, .refl page _ _, lower, by omega, isBefore,
      fun index above below => isAfter index above (by omega)⟩

/-- **One partition** of a range of at least two slots. -/
theorem partitionSlots_spec (comp : RecordComparison) {leftBound rightBound : SlotId}
    (sortable : Sortable area page count leftBound.toNat rightBound.toNat)
    (some : leftBound.toNat < rightBound.toNat) :
    ∃ gtPtr page', partitionSlots comp page leftBound rightBound = .ok (gtPtr, page') ∧
      SlotsMoved page page' leftBound.toNat rightBound.toNat ∧
      leftBound.toNat ≤ gtPtr.toNat ∧ gtPtr.toNat < rightBound.toNat ∧
      Split (entryBefore comp area) (slotAt page') leftBound.toNat gtPtr.toNat rightBound.toNat := by
  have last : (rightBound - 1).toNat = rightBound.toNat - 1 :=
    UInt16.toNat_sub_of_le _ _ (UInt16.le_iff_toNat_le.mpr (by
      show 1 ≤ rightBound.toNat
      omega))
  have lastIn : (rightBound - 1).toNat < rightBound.toNat := by omega
  have leftIn : leftBound.toNat ≤ (rightBound - 1).toNat := by omega
  obtain ⟨start, skipRun, after, stop, skipped, _⟩ :=
    skipWhile_spec comp sortable true (Nat.le_refl _) leftIn lastIn
  obtain ⟨gtPtr, middle, loopRun, moved, lower, upper, isBefore, isAfter⟩ :=
    moveBefore_spec sortable lastIn after (Nat.le_refl _) stop skipped
      (fun index above below => by omega)
  have sortableMiddle := sortable.of_moved (moved.mono (Nat.le_refl _) (by omega))
  have gtIn : leftBound.toNat ≤ gtPtr.toNat ∧ gtPtr.toNat < rightBound.toNat := ⟨lower, by omega⟩
  obtain ⟨page', swapRun, movedLast, entries⟩ :=
    swapSlots_spec sortableMiddle.slots sortable.upTo gtIn ⟨leftIn, lastIn⟩
  have pivot : slotAt page' gtPtr.toNat = slotAt middle (rightBound - 1).toNat := by
    rw [entries, Equiv.swap_apply_left]
  refine ⟨gtPtr, page', ?_, (moved.mono (Nat.le_refl _) (by omega)).trans movedLast, lower, by omega,
    fun index above below => ?_, fun index above below => ?_⟩
  · rw [partitionSlots, skipBefore, skipRun, ok_bind, loopRun, ok_bind]
    simp only
    rw [swapRun, ok_bind]
    rfl
  · rw [pivot, entries, Equiv.swap_apply_of_ne_of_ne (by omega) (by omega)]
    exact isBefore index above below
  · rw [pivot, entries]
    by_cases isLast : index = (rightBound - 1).toNat
    · rw [isLast, Equiv.swap_apply_right]
      exact isAfter _ (Nat.le_refl _) (by omega)
    · rw [Equiv.swap_apply_of_ne_of_ne (by omega) isLast]
      exact isAfter index (by omega) (by omega)

/-! ### The recursion -/

theorem entryBefore_ordering (ordering : StrictWeakOrdering comp) (area : FullPage) :
    StrictWeakOrdering (entryBefore comp area) where
  irrefl _ := ordering.irrefl _
  trans _ _ _ := ordering.trans _ _ _
  incomparable _ _ _ := ordering.incomparable _ _ _

/-- **`SortPageInPlace` on a range** permutes its entries, and sorts them by an ordering. -/
theorem sortSlots_spec (comp : RecordComparison) {leftBound rightBound : SlotId}
    (sortable : Sortable area page count leftBound.toNat rightBound.toNat) :
    ∃ page', sortSlots comp page leftBound rightBound = .ok page' ∧
      SlotsMoved page page' leftBound.toNat rightBound.toNat ∧
      (StrictWeakOrdering comp →
        SortedOn (entryBefore comp area) (slotAt page') leftBound.toNat rightBound.toNat) := by
  induction page, leftBound, rightBound using sortSlots.induct comp
  case case1 page leftBound rightBound small =>
    refine ⟨page, by rw [sortSlots, if_pos small], .refl page _ _, fun _ first second lower order
      upper => ?_⟩
    omega
  case case2 page leftBound rightBound large failure failed =>
    obtain ⟨gtPtr, page', run, _⟩ := partitionSlots_spec comp sortable (by omega)
    rw [run] at failed
    cases failed
  case case3 page leftBound rightBound large gtPtr parted partitioned ihLeft ihRight =>
    obtain ⟨gtPtr', parted', run, moved, lower, upper, split⟩ :=
      partitionSlots_spec comp sortable (by omega)
    rw [run] at partitioned
    cases partitioned
    have next : (gtPtr + 1).toNat = gtPtr.toNat + 1 :=
      toNat_succ (UInt16.lt_iff_toNat_lt.mpr upper)
    have sortableParted := sortable.of_moved moved
    obtain ⟨left, leftRun, leftMoved, leftSorted⟩ :=
      ihLeft (sortableParted.mono (Nat.le_refl _) upper.le)
    have leftWide : SlotsMoved parted left leftBound.toNat rightBound.toNat :=
      leftMoved.mono (Nat.le_refl _) upper.le
    have sortableLeft := sortableParted.of_moved leftWide
    obtain ⟨page', rightRun, rightMoved, rightSorted⟩ :=
      ihRight left (sortableLeft.mono (by omega) (Nat.le_refl _))
    have rightWide : SlotsMoved left page' leftBound.toNat rightBound.toNat :=
      rightMoved.mono (by omega) (Nat.le_refl _)
    refine ⟨page', ?_, (moved.trans leftWide).trans rightWide, fun ordering => ?_⟩
    · rw [sortSlots, if_neg large]
      split
      · rename_i failed
        rw [run] at failed
        cases failed
      · rename_i other otherPage same
        rw [run] at same
        cases same
        rw [leftRun, ok_bind, rightRun]
    · rw [next] at rightMoved rightSorted
      exact split.sorted (entryBefore_ordering ordering area) leftMoved.moved (leftSorted ordering)
        rightMoved.moved (rightSorted ordering)

/-! ### Moving the live slots to the front -/

section Shift

variable {count : Nat} {page page' : FullPage}

/-- The number of live slots before a slot: where its entry goes. -/
def rank (page : FullPage) (count index : Nat) : Nat :=
  Nat.count (fun other => other ∈ (directory page).liveSlots count) index

theorem rank_count (page : FullPage) (count : Nat) :
    rank page count count = ((directory page).liveSlots count).card := by
  rw [rank, Nat.count_eq_card_filter_range]
  congr 1
  ext index
  rw [Finset.mem_filter, Finset.mem_range, Directory.mem_liveSlots]
  exact ⟨fun both => both.2, fun live => ⟨live.1, live⟩⟩

theorem rank_lt {index other : Nat} (live : index ∈ (directory page).liveSlots count)
    (less : index < other) : rank page count index < rank page count other :=
  Nat.count_strict_mono live less

theorem rank_succ {index : Nat} (live : index ∈ (directory page).liveSlots count) :
    rank page count (index + 1) = rank page count index + 1 := by
  rw [rank, Nat.count_succ, if_pos live]
  rfl

/-- Deleted slots do not count. -/
theorem rank_of_none {first last : Nat} (order : first ≤ last)
    (none : ∀ index, first ≤ index → index < last → index ∉ (directory page).liveSlots count) :
    rank page count last = rank page count first := by
  induction last, order using Nat.le_induction with
  | base => rfl
  | succ last order ih =>
      have rest := ih fun index lower upper => none index lower (by omega)
      rw [← rest, rank, Nat.count_succ, if_neg (none last order (Nat.lt_succ_self last))]
      rfl

/-- **The ranks of the live slots** are the numbers up to how many there are. -/
theorem rank_bijOn (page : FullPage) (count : Nat) :
    Set.BijOn (rank page count) ((directory page).liveSlots count : Set Nat)
      (Set.Iio ((directory page).liveSlots count).card) := by
  have maps : ∀ index ∈ (directory page).liveSlots count,
      rank page count index < ((directory page).liveSlots count).card := by
    intro index live
    rw [← rank_count]
    exact rank_lt live (Directory.mem_liveSlots.mp live).1
  have injective : Set.InjOn (rank page count) ((directory page).liveSlots count : Set Nat) :=
    fun index live other otherLive same => Nat.count_injective live otherLive same
  refine ⟨fun index live => maps index live, injective, fun position below => ?_⟩
  have all : ((directory page).liveSlots count).image (rank page count)
      = Finset.range ((directory page).liveSlots count).card := by
    refine Finset.eq_of_subset_of_card_le (fun position member => ?_) ?_
    · obtain ⟨index, live, rfl⟩ := Finset.mem_image.mp member
      exact Finset.mem_range.mpr (maps index live)
    · rw [Finset.card_range, Finset.card_image_of_injOn injective]
  have member := Finset.mem_range.mpr (Set.mem_Iio.mp below)
  rw [← all] at member
  obtain ⟨index, live, same⟩ := Finset.mem_image.mp member
  exact ⟨index, live, same⟩

theorem skipLive_spec (slots : (directory page).HasSlots count) {ptr : SlotId}
    (start : ptr.toNat ≤ count)
    (live : ∀ index, index < ptr.toNat → (slotAt page index).deleted = false) :
    ∃ next, skipLive page ptr = .ok next ∧ next.toNat ≤ count ∧
      (∀ index, index < next.toNat → (slotAt page index).deleted = false) ∧
      (next.toNat < count → (slotAt page next.toNat).deleted = true) := by
  have capacity := getPageCapacity_toNat slots
  induction ptr using skipLive.induct page with
  | case1 ptr less ih =>
      have step := toNat_succ less
      have order := UInt16.lt_iff_toNat_lt.mp less
      rw [capacity] at order
      unfold skipLive
      rw [dif_pos less, isSlotDeleted_eq slots order, ok_bind]
      by_cases deleted : (slotAt page ptr.toNat).deleted = true
      · rw [if_pos deleted]
        exact ⟨ptr, rfl, start, live, fun _ => deleted⟩
      · rw [if_neg deleted]
        refine ih (by omega) fun index below => ?_
        by_cases here : index = ptr.toNat
        · rw [here]
          exact Bool.eq_false_of_not_eq_true deleted
        · exact live index (by omega)
  | case2 ptr notLess =>
      have order := mt UInt16.lt_iff_toNat_lt.mpr notLess
      rw [capacity] at order
      unfold skipLive
      rw [dif_neg notLess]
      exact ⟨ptr, rfl, start, live, fun below => absurd below order⟩

theorem skipDeleted_next {ptr : SlotId} (deleted : isSlotDeleted page ptr = .ok true) :
    skipDeleted page ptr = skipDeleted page (ptr + 1) := by
  conv_lhs => unfold skipDeleted
  split
  · rename_i failed
    cases deleted.symm.trans failed
  · rfl
  · rename_i notDeleted
    cases deleted.symm.trans notDeleted

theorem skipDeleted_stop {ptr : SlotId} (notDeleted : isSlotDeleted page ptr = .ok false) :
    skipDeleted page ptr = .ok ptr := by
  unfold skipDeleted
  split
  · rename_i failed
    cases notDeleted.symm.trans failed
  · rename_i deleted
    cases notDeleted.symm.trans deleted
  · rfl

/-- The unbounded loop stops where there is a live slot to come. -/
theorem skipDeleted_spec (slots : (directory page).HasSlots count) {ptr : SlotId}
    (some : ∃ index, ptr.toNat ≤ index ∧ index < count ∧ (slotAt page index).deleted = false) :
    ∃ next, skipDeleted page ptr = .ok next ∧ ptr.toNat ≤ next.toNat ∧ next.toNat < count ∧
      (∀ index, ptr.toNat ≤ index → index < next.toNat → (slotAt page index).deleted = true) ∧
      (slotAt page next.toNat).deleted = false := by
  obtain ⟨found, after, below, live⟩ := some
  have tested := isSlotDeleted_eq slots (show ptr.toNat < count by omega)
  induction ptr using skipDeleted.induct page with
  | case1 ptr failure failed =>
      rw [tested] at failed
      cases failed
  | case2 ptr deleted ih =>
      have step := toNat_succ (isSlotDeleted_below deleted)
      have isDeleted : (slotAt page ptr.toNat).deleted = true :=
        Except.ok.inj (tested.symm.trans deleted)
      have later : ptr.toNat + 1 ≤ found := by
        by_contra early
        have same : found = ptr.toNat := by omega
        rw [same, isDeleted] at live
        cases live
      obtain ⟨next, run, order, inside, all, stop⟩ :=
        ih (by omega) (isSlotDeleted_eq slots (by omega))
      refine ⟨next, ?_, by omega, inside, fun index lower upper => ?_, stop⟩
      · rw [skipDeleted_next deleted]
        exact run
      · by_cases here : index = ptr.toNat
        · rw [here]
          exact isDeleted
        · exact all index (by omega) upper
  | case3 ptr notDeleted =>
      have isLive : (slotAt page ptr.toNat).deleted = false :=
        Except.ok.inj (tested.symm.trans notDeleted)
      exact ⟨ptr, skipDeleted_stop notDeleted, Nat.le_refl _, by omega,
        fun index lower upper => by omega, isLive⟩

/-- **One entry moved to the left.** -/
theorem moveEntry_spec (slots : (directory page).HasSlots count) {deletedPtr ptr : SlotId}
    (order : deletedPtr.toNat < ptr.toNat) (below : ptr.toNat < count)
    (live : (slotAt page ptr.toNat).deleted = false) :
    ∃ page', moveEntry page deletedPtr ptr = .ok page' ∧
      slotAt page' = Function.update (Function.update (slotAt page) deletedPtr.toNat
        (slotAt page ptr.toNat)) ptr.toNat ⟨true, 0, 0⟩ ∧
      Agree page page' 0 (entryAt 0) ∧ Agree page page' (entryAt count) pageSize := by
  have left : deletedPtr.toNat < count := by omega
  have differ : ptr.toNat ≠ deletedPtr.toNat := by omega
  have others : ∀ {written : FullPage} {slot : Slot},
      EntryWritten page written deletedPtr.toNat slot →
      slotAt written ptr.toNat = slotAt page ptr.toNat := by
    intro written slot entry
    rw [entry.slots, Function.update_of_ne differ]
  obtain ⟨page₁, run₁, written₁⟩ := setSlotDeleted_written slots left false
  have slots₁ := hasSlots_of_before slots written₁.before
  obtain ⟨page₂, run₂, written₂⟩ :=
    setSlotOffset_written slots₁ left (slotAt page ptr.toNat).offset
  have slots₂ := hasSlots_of_before slots₁ written₂.before
  obtain ⟨page₃, run₃, written₃⟩ :=
    setSlotSize_written slots₂ left (slotAt page ptr.toNat).size
  have slots₃ := hasSlots_of_before slots₂ written₃.before
  have filled : EntryWritten page page₃ deletedPtr.toNat (slotAt page ptr.toNat) := by
    have all := (written₁.trans written₂).trans written₃
    have entry : slotAt page ptr.toNat
        = ⟨false, (slotAt page ptr.toNat).offset, (slotAt page ptr.toNat).size⟩ :=
      Slot.ext live rfl rfl
    rw [entry]
    simpa only [written₂.slots, written₁.slots, Function.update_self] using all
  obtain ⟨page₄, run₄, written₄⟩ := setSlotDeleted_written slots₃ below true
  have slots₄ := hasSlots_of_before slots₃ written₄.before
  obtain ⟨page₅, run₅, written₅⟩ := setSlotOffset_written slots₄ below 0
  have slots₅ := hasSlots_of_before slots₄ written₅.before
  obtain ⟨page₆, run₆, written₆⟩ := setSlotSize_written slots₅ below 0
  have emptied : EntryWritten page₃ page₆ ptr.toNat ⟨true, 0, 0⟩ := by
    have all := (written₄.trans written₅).trans written₆
    simpa only [written₅.slots, written₄.slots, Function.update_self] using all
  refine ⟨page₆, ?_, ?_, ?_, ?_⟩
  · rw [moveEntry, run₁, ok_bind, getSlotOffset_eq slots₁ below, ok_bind, others written₁, run₂,
      ok_bind, getSlotSize_eq slots₂ below, ok_bind, others (written₁.trans written₂), run₃, ok_bind,
      run₄, ok_bind, run₅, ok_bind, run₆]
  · rw [emptied.slots, filled.slots]
  · exact agree_trans
      (fun position lower upper => filled.before position lower (by unfold entryAt at *; omega))
      (fun position lower upper => emptied.before position lower (by unfold entryAt at *; omega))
  · exact agree_trans
      (fun position lower upper => filled.after position (by unfold entryAt at *; omega) upper)
      (fun position lower upper => emptied.after position (by unfold entryAt at *; omega) upper)

/-- The slot is deleted, and its room is given up or as it was. -/
structure Vacated (page page' : FullPage) (index : Nat) : Prop where
  deleted : (slotAt page' index).deleted = true
  room : (slotAt page' index).size = 0 ∨ slotAt page' index = slotAt page index

/-- **The invariant of the shift.** The live entries before `ptr` are in the first `deletedPtr`
slots in their order, the slots between the two pointers are deleted, and the rest is as it was. -/
structure Shifting (page page' : FullPage) (count deletedPtr ptr : Nat) : Prop where
  upTo : ptr ≤ count
  behind : deletedPtr ≤ ptr
  counted : rank page count ptr = deletedPtr
  front : ∀ index ∈ (directory page).liveSlots count, index < ptr →
    slotAt page' (rank page count index) = slotAt page index
  hole : ∀ index, deletedPtr ≤ index → index < ptr → Vacated page page' index
  rest : ∀ index, ptr ≤ index → index < count → slotAt page' index = slotAt page index
  ahead : ∀ index ∈ (directory page).liveSlots count, ptr ≤ index → deletedPtr < index
  header : Agree page page' 0 (entryAt 0)
  records : Agree page page' (entryAt count) pageSize

/-- What the shift leaves. -/
structure Shifted (page page' : FullPage) (count : Nat) : Prop where
  front : ∀ index ∈ (directory page).liveSlots count,
    slotAt page' (rank page count index) = slotAt page index
  vacated : ∀ index, ((directory page).liveSlots count).card ≤ index → index < count →
    Vacated page page' index
  header : Agree page page' 0 (entryAt 0)
  records : Agree page page' (entryAt count) pageSize

theorem Shifting.done {deletedPtr ptr : Nat} (shifting : Shifting page page' count deletedPtr ptr)
    (all : ((directory page).liveSlots count).card ≤ deletedPtr) : Shifted page page' count := by
  -- no live slot is left from `ptr` on
  have before : ∀ index ∈ (directory page).liveSlots count, index < ptr := by
    intro index live
    by_contra after
    have less := rank_lt live (Directory.mem_liveSlots.mp live).1
    have order : rank page count ptr ≤ rank page count index :=
      Nat.count_monotone _ (Nat.not_lt.mp after)
    have counted := shifting.counted
    rw [rank_count] at less
    omega
  refine ⟨fun index live => shifting.front index live (before index live),
    fun index above below => ?_, shifting.header, shifting.records⟩
  by_cases early : index < ptr
  · have counted := shifting.counted
    have order : rank page count ptr ≤ rank page count count :=
      Nat.count_monotone _ shifting.upTo
    rw [rank_count] at order
    exact shifting.hole index (by omega) early
  · have same := shifting.rest index (Nat.not_lt.mp early) below
    refine ⟨?_, Or.inr same⟩
    rw [same]
    by_contra live
    exact early (before index (Directory.mem_liveSlots.mpr
      ⟨below, Bool.eq_false_of_not_eq_true live⟩))

/-- **The second loop of the shift.** -/
theorem shiftLoop_spec (slots : (directory page).HasSlots count)
    (tuples : (getNumTuples page).toNat = ((directory page).liveSlots count).card)
    {page' : FullPage} {deletedPtr ptr : SlotId}
    (shifting : Shifting page page' count deletedPtr.toNat ptr.toNat) :
    ∃ page'', shiftLoop page' deletedPtr ptr = .ok page'' ∧ Shifted page page'' count := by
  have numTuples : getNumTuples page' = getNumTuples page :=
    getU16_agree shifting.header (Nat.zero_le _) (by simp only [header, entryAt]; omega)
  have slots' := hasSlots_of_before slots shifting.header
  rw [shiftLoop]
  by_cases less : deletedPtr < getNumTuples page'
  · rw [dif_pos less]
    have order := UInt16.lt_iff_toNat_lt.mp less
    rw [numTuples, tuples] at order
    have more : ∃ index, ptr.toNat ≤ index ∧ index < count ∧
        (slotAt page' index).deleted = false := by
      by_contra none
      have same : rank page count count = rank page count ptr.toNat :=
        rank_of_none shifting.upTo fun index lower upper live => none ⟨index, lower, upper,
          (congrArg Slot.deleted (shifting.rest index lower upper)).trans
            (Directory.mem_liveSlots.mp live).2⟩
      rw [rank_count, shifting.counted] at same
      omega
    obtain ⟨next, skipRun, after, below, skipped, live⟩ := skipDeleted_spec slots' more
    have isLive : next.toNat ∈ (directory page).liveSlots count :=
      Directory.mem_liveSlots.mpr
        ⟨below, (congrArg Slot.deleted (shifting.rest _ after below)).symm.trans live⟩
    have ahead := shifting.ahead _ isLive after
    obtain ⟨moved, moveRun, entries, sameHeader, sameRecords⟩ :=
      moveEntry_spec slots' ahead below live
    have notLive : ∀ index, ptr.toNat ≤ index → index < next.toNat →
        index ∉ (directory page).liveSlots count := by
      intro index lower upper isLive
      have dead := skipped index lower upper
      rw [shifting.rest index lower (by omega)] at dead
      exact Bool.noConfusion ((Directory.mem_liveSlots.mp isLive).2.symm.trans dead)
    have counted : rank page count next.toNat = deletedPtr.toNat :=
      (rank_of_none after notLive).trans shifting.counted
    have deletedStep := toNat_succ less
    have step : (next + 1).toNat = next.toNat + 1 := by
      have capacity := getPageCapacity_toNat slots
      exact toNat_succ (UInt16.lt_iff_toNat_lt.mpr (by
        rw [capacity]
        exact below))
    have again : Shifting page moved count (deletedPtr + 1).toNat (next + 1).toNat := by
      rw [deletedStep, step]
      refine ⟨below, by omega, ?_, fun index indexLive early => ?_, fun index lower upper => ?_,
        fun index lower upper => ?_, fun index _ lower => by omega,
        agree_trans shifting.header sameHeader, agree_trans shifting.records sameRecords⟩
      · rw [rank_succ isLive, counted]
      · rw [entries]
        by_cases last : index = next.toNat
        · rw [last, counted, Function.update_of_ne (by omega), Function.update_self]
          exact shifting.rest _ after below
        · have before : index < ptr.toNat := by
            by_contra late
            exact notLive index (Nat.not_lt.mp late) (by omega) indexLive
          have place := rank_lt indexLive before
          rw [shifting.counted] at place
          rw [Function.update_of_ne (by omega), Function.update_of_ne (by omega)]
          exact shifting.front index indexLive before
      · by_cases last : index = next.toNat
        · have emptied : slotAt moved index = ⟨true, 0, 0⟩ := by
            rw [entries, last, Function.update_self]
          exact ⟨congrArg Slot.deleted emptied, Or.inl (congrArg Slot.size emptied)⟩
        · have same : slotAt moved index = slotAt page' index := by
            rw [entries, Function.update_of_ne last, Function.update_of_ne (by omega)]
          by_cases early : index < ptr.toNat
          · obtain ⟨deleted, room⟩ := shifting.hole index (by omega) early
            exact ⟨same ▸ deleted, same ▸ room⟩
          · exact ⟨same ▸ skipped index (Nat.not_lt.mp early) (by omega),
              Or.inr (same.trans (shifting.rest index (Nat.not_lt.mp early) (by omega)))⟩
      · rw [entries, Function.update_of_ne (by omega), Function.update_of_ne (by omega)]
        exact shifting.rest index (by omega) upper
    obtain ⟨page'', run, done⟩ := shiftLoop_spec slots tuples again
    refine ⟨page'', ?_, done⟩
    rw [skipRun, ok_bind, moveRun, ok_bind, run]
  · rw [dif_neg less]
    have order := mt UInt16.lt_iff_toNat_lt.mpr less
    rw [numTuples, tuples] at order
    exact ⟨page', rfl, shifting.done (Nat.not_lt.mp order)⟩
termination_by 2 ^ 16 - deletedPtr.toNat
decreasing_by
  have bound := deletedPtr.toNat_lt
  omega

/-- **`ShiftSlotsLeft`** puts the entries of the live slots first, in their order. -/
theorem shiftSlotsLeft_spec (slots : (directory page).HasSlots count)
    (tuples : (getNumTuples page).toNat = ((directory page).liveSlots count).card) :
    ∃ page', shiftSlotsLeft page = .ok page' ∧ Shifted page page' count := by
  have zero : (0 : SlotId).toNat = 0 := rfl
  obtain ⟨ptr, skipRun, upTo, live, stop⟩ :=
    skipLive_spec slots (zero ▸ Nat.zero_le count) fun index below => by
      rw [zero] at below
      omega
  have isLive : ∀ index, index < ptr.toNat → index ∈ (directory page).liveSlots count :=
    fun index below => Directory.mem_liveSlots.mpr ⟨by omega, live index below⟩
  -- up to the first deleted slot every slot is live and stays
  have ranks : ∀ index, index ≤ ptr.toNat → rank page count index = index := by
    intro index upper
    induction index with
    | zero => rfl
    | succ index ih => rw [rank_succ (isLive index (by omega)), ih (by omega)]
  have shifting : Shifting page page count ptr.toNat ptr.toNat := by
    refine ⟨upTo, Nat.le_refl _, ranks _ (Nat.le_refl _), fun index _ below => ?_,
      fun index lower upper => by omega, fun _ _ _ => rfl, fun index indexLive lower => ?_,
      fun _ _ _ => rfl, fun _ _ _ => rfl⟩
    · rw [ranks index below.le]
    · have bounds := Directory.mem_liveSlots.mp indexLive
      by_contra same
      have here : index = ptr.toNat := by omega
      have dead := stop (here ▸ bounds.1)
      rw [← here] at dead
      exact Bool.noConfusion (bounds.2.symm.trans dead)
  obtain ⟨page', run, done⟩ := shiftLoop_spec slots tuples shifting
  refine ⟨page', ?_, done⟩
  rw [shiftSlotsLeft, skipRun, ok_bind, run]

end Shift

/-! ### A whole page, and a range of it -/

/-- A page whose counter says how many slots are live, and whose live records lie behind the
directory. -/
structure SortablePage (page : FullPage) (count : Nat) : Prop where
  slots : (directory page).HasSlots count
  tuples : (getNumTuples page).toNat = ((directory page).liveSlots count).card
  inside : ∀ index ∈ (directory page).liveSlots count,
    ((directory page).extent index).Inside (entryAt count) pageSize

/-- **A page sorted in place**: `place` says where the entry of each live slot went. -/
structure PageSorted (comp : RecordComparison) (page page' : FullPage) (count : Nat)
    (place : Nat → Nat) : Prop where
  onto : Set.BijOn place ((directory page).liveSlots count : Set Nat)
    (Set.Iio ((directory page).liveSlots count).card)
  entries : ∀ index ∈ (directory page).liveSlots count,
    slotAt page' (place index) = slotAt page index
  records : ∀ index ∈ (directory page).liveSlots count,
    record page' (place index) = record page index
  deleted : ∀ index, ((directory page).liveSlots count).card ≤ index → index < count →
    (slotAt page' index).deleted = true
  header : Agree page page' 0 (entryAt 0)
  area : Agree page page' (entryAt count) pageSize
  sorted : StrictWeakOrdering comp → SortedOn comp (record page') 0
    ((directory page).liveSlots count).card

/-- **A range of live slots sorted in place**: its entries are permuted and no other byte
changes. -/
structure RangeSorted (comp : RecordComparison) (page page' : FullPage) (left right : Nat) :
    Prop where
  permuted : ∃ place : Equiv.Perm Nat,
    (∀ position, position < left ∨ right ≤ position → place position = position) ∧
    (∀ position, slotAt page' position = slotAt page (place position)) ∧
    ∀ position, left ≤ position → position < right →
      record page' position = record page (place position)
  before : Agree page page' 0 (entryAt left)
  after : Agree page page' (entryAt right) pageSize
  sorted : StrictWeakOrdering comp → SortedOn comp (record page') left right

section Results

variable {page page' : FullPage} {count : Nat}

/-- The order of the entries is that of the records. -/
theorem sortedOn_records {left right : Nat} {comp : RecordComparison}
    (sortable : Sortable page page' count left right)
    (sorted : SortedOn (entryBefore comp page) (slotAt page') left right) :
    SortedOn comp (record page') left right := by
  intro first second lower order upper
  rw [sortable.record (by omega) upper, sortable.record lower (by omega)]
  exact sorted first second lower order upper

/-- **A range of live slots.** -/
theorem sortSlots_sorts (comp : RecordComparison) (ready : SortablePage page count)
    {leftBound rightBound : SlotId} (upTo : rightBound.toNat ≤ count)
    (live : ∀ index, leftBound.toNat ≤ index → index < rightBound.toNat →
      (slotAt page index).deleted = false) :
    ∃ page', sortSlots comp page leftBound rightBound = .ok page' ∧
      RangeSorted comp page page' leftBound.toNat rightBound.toNat := by
  have sortable : Sortable page page count leftBound.toNat rightBound.toNat := by
    refine ⟨ready.slots, upTo, fun index lower upper => ?_, fun _ _ _ => rfl⟩
    have isLive := live index lower upper
    exact ⟨isLive, ready.inside index (Directory.mem_liveSlots.mpr ⟨by omega, isLive⟩)⟩
  obtain ⟨page', run, moved, sorted⟩ := sortSlots_spec comp sortable
  have sortableAfter := sortable.of_moved moved
  obtain ⟨place, fixed, entries⟩ := moved.moved
  refine ⟨page', run, ⟨place, fixed, entries, fun position lower upper => ?_⟩, moved.before,
    moved.after, fun ordering => sortedOn_records sortableAfter (sorted ordering)⟩
  rw [sortableAfter.record lower upper, entries]
  rfl

/-- **A whole page.** -/
theorem sortPageInPlace_sorts (comp : RecordComparison) (ready : SortablePage page count) :
    ∃ page' place, sortPageInPlace comp page = .ok page' ∧
      PageSorted comp page page' count place := by
  obtain ⟨shifted, shiftRun, shift⟩ := shiftSlotsLeft_spec ready.slots ready.tuples
  have numTuples : getNumTuples shifted = getNumTuples page :=
    getU16_agree shift.header (Nat.zero_le _) (by simp only [header, entryAt]; omega)
  have tuples : (getNumTuples shifted).toNat = ((directory page).liveSlots count).card :=
    (congrArg UInt16.toNat numTuples).trans ready.tuples
  have zero : (0 : SlotId).toNat = 0 := rfl
  have ranked := rank_bijOn page count
  have sortable : Sortable page shifted count (0 : SlotId).toNat (getNumTuples shifted).toNat := by
    refine ⟨hasSlots_of_before ready.slots shift.header, ?_, fun index _ upper => ?_,
      shift.records⟩
    · rw [tuples]
      exact Directory.liveSlots_card_le _ _
    · rw [tuples] at upper
      obtain ⟨origin, live, same⟩ := ranked.surjOn (Set.mem_Iio.mpr upper)
      rw [← same, shift.front origin live]
      exact ⟨(Directory.mem_liveSlots.mp live).2, ready.inside origin live⟩
  obtain ⟨page', run, moved, sorted⟩ := sortSlots_spec comp sortable
  have sortableAfter := sortable.of_moved moved
  rw [tuples, zero] at moved sorted sortableAfter
  obtain ⟨permutation, fixed, entries⟩ := moved.moved
  have inside : ∀ {position}, position < ((directory page).liveSlots count).card →
      permutation.symm position < ((directory page).liveSlots count).card := by
    intro position below
    by_contra outside
    have stays := fixed _ (Or.inr (Nat.not_lt.mp outside))
    rw [Equiv.apply_symm_apply] at stays
    omega
  have placed : ∀ index ∈ (directory page).liveSlots count,
      slotAt page' (permutation.symm (rank page count index)) = slotAt page index := by
    intro index live
    rw [entries, Equiv.apply_symm_apply, shift.front index live]
  refine ⟨page', fun index => permutation.symm (rank page count index), ?_, ?_, placed,
    fun index live => ?_, fun index above below => ?_, ?_, ?_, fun ordering => ?_⟩
  · rw [sortPageInPlace, shiftRun, ok_bind, run]
  · refine Set.BijOn.comp (t := Set.Iio ((directory page).liveSlots count).card)
      ⟨fun position below => inside below, permutation.symm.injective.injOn,
        fun position below => ?_⟩ ranked
    refine ⟨permutation position, ?_, Equiv.symm_apply_apply _ _⟩
    by_contra outside
    have stays := fixed _ (Or.inr (Nat.not_lt.mp outside))
    have same := permutation.injective stays
    rw [same] at outside
    exact outside below
  · have below : rank page count index < ((directory page).liveSlots count).card :=
      ranked.mapsTo live
    rw [sortableAfter.record (Nat.zero_le _) (inside below), placed index live]
    rfl
  · rw [moved.moved.outside (Or.inr above)]
    exact (shift.vacated index above below).deleted
  · exact agree_trans shift.header moved.before
  · refine agree_trans shift.records fun position lower upper => moved.after position ?_ upper
    have few := Directory.liveSlots_card_le (directory page) count
    unfold entryAt at *
    omega
  · exact sortedOn_records sortableAfter (sorted ordering)

/-- **In-page sort is correct.** For every comparison, the sort of a page and the sort of a range of
live slots return; what they do to the slot entries, and that no other byte changes; and the order
of the records when the comparison is an ordering. -/
theorem pageSort_correct (comp : RecordComparison) (ready : SortablePage page count) :
    (∃ page' place, sortPageInPlace comp page = .ok page' ∧
      PageSorted comp page page' count place) ∧
    ∀ leftBound rightBound : SlotId, rightBound.toNat ≤ count →
      (∀ index, leftBound.toNat ≤ index → index < rightBound.toNat →
        (slotAt page index).deleted = false) →
      ∃ page', sortSlots comp page leftBound rightBound = .ok page' ∧
        RangeSorted comp page page' leftBound.toNat rightBound.toNat :=
  ⟨sortPageInPlace_sorts comp ready, fun _ _ => sortSlots_sorts comp ready⟩

theorem Directory.Wf.sortablePage (wf : (directory page).Wf count pageSize) :
    SortablePage page count where
  slots := wf.hasSlots
  tuples := wf.tuples
  inside _ live := (extent_inside wf live).mono wf.order (Nat.le_refl _)

/-- The record with the smaller first byte comes first. -/
def byFirstByte : RecordComparison := fun first second =>
  decide ((first.headD 0).toNat < (second.headD 0).toNat)

theorem byFirstByte_ordering : StrictWeakOrdering byFirstByte where
  irrefl first := decide_eq_false (lt_irrefl _)
  trans first second third less less' := by
    simp only [byFirstByte, decide_eq_true_eq] at less less' ⊢
    exact less.trans less'
  incomparable first second third notLess notMore notLess' notMore' := by
    simp only [byFirstByte, decide_eq_false_iff_not, not_lt] at *
    exact ⟨notLess'.trans notLess, notMore.trans notMore'⟩

/-- Four records around a deleted slot, one of them empty and two with the same first byte: the
page, and its last three slots. -/
theorem pageSort_correct_example :
    (∃ page' place, sortPageInPlace byFirstByte mixedPage = .ok page' ∧
      PageSorted byFirstByte mixedPage page' 5 place ∧
      SortedOn byFirstByte (record page') 0 4) ∧
    ∃ page', sortSlots byFirstByte mixedPage 2 5 = .ok page' ∧
      RangeSorted byFirstByte mixedPage page' 2 5 := by
  obtain ⟨⟨page', place, run, sorted⟩, ranges⟩ :=
    pageSort_correct byFirstByte mixedPage_wf.sortablePage
  have inOrder := sorted.sorted byFirstByte_ordering
  rw [mixedPage_records.1] at inOrder
  refine ⟨⟨page', place, run, sorted, inOrder⟩,
    ranges 2 5 (by decide) fun index lower upper => ?_⟩
  have member : index ∈ (directory mixedPage).liveSlots 5 := by
    have cases_ : index = 2 ∨ index = 3 ∨ index = 4 := by
      have upper : index < 5 := upper
      have lower : 2 ≤ index := lower
      omega
    rw [mixedPage_records.1]
    rcases cases_ with rfl | rfl | rfl <;> decide
  exact (Directory.mem_liveSlots.mp member).2

end Results

end Page

end Yadb
