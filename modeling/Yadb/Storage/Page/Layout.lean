/-
**The layout of a slotted page, and what allocation does to it.**

`Directory.Wf` is the layout invariant, over the decoded directory: the entries end where the free
space starts, the extents of all slots, deleted ones included, are packed between the end of the
free space and `top`, and the tuple count is the number of live slots. `top` is the end of the page,
or lower where the end of the page is used for something else.

* `Wf.occupy`: a slot that is not live becomes live, in a new entry or in an old one, in room taken
  from the free space or in the room it had.
* `allocateSlot_spec`, `allocateSlotOrReuseSlot_spec`: each call finds no room and leaves the page
  alone, exactly when it should, or places one record (`Placed`).
* `deleteSlot_spec`, `writeSlice_spec`: deleting a live slot, and writing inside its slice.
-/

import Yadb.Foundation.Fallible
import Yadb.Storage.Page.Directory

namespace Yadb

open Foundation

namespace Page

namespace Directory

/-- The slots that hold a record. -/
def liveSlots (dir : Directory) (count : Nat) : Finset Nat :=
  (Finset.range count).filter fun index => (dir.slot index).deleted = false

def extent (dir : Directory) (index : Nat) : Extent := (dir.slot index).extent

/-- **The layout invariant.** -/
structure Wf (dir : Directory) (count top : Nat) : Prop where
  start : dir.freeStart.toNat = entryAt count
  order : entryAt count ≤ dir.freeEnd.toNat
  below : dir.freeEnd.toNat ≤ top
  inside : top ≤ pageSize
  tuples : dir.numTuples.toNat = (dir.liveSlots count).card
  packed : Packed (fun index => index < count) dir.extent dir.freeEnd.toNat top

/-- A slot becomes live. -/
def occupy (dir : Directory) (index : Nat) (slot : Slot) (freeStart freeEnd : Offset) :
    Directory where
  numTuples := dir.numTuples + 1
  freeStart := freeStart
  freeEnd := freeEnd
  slot := Function.update dir.slot index slot

/-- A live slot is deleted. -/
def delete (dir : Directory) (index : Nat) : Directory where
  numTuples := dir.numTuples - 1
  freeStart := dir.freeStart
  freeEnd := dir.freeEnd
  slot := Function.update dir.slot index { dir.slot index with deleted := true }

variable {dir : Directory} {count top index : Nat}

theorem mem_liveSlots : index ∈ dir.liveSlots count ↔
    index < count ∧ (dir.slot index).deleted = false := by
  rw [liveSlots, Finset.mem_filter, Finset.mem_range]

theorem liveSlots_card_le (dir : Directory) (count : Nat) : (dir.liveSlots count).card ≤ count := by
  refine (Finset.card_filter_le _ _).trans ?_
  rw [Finset.card_range]

/-- Only the slots inside the directory matter. -/
theorem liveSlots_congr {dir' : Directory}
    (same : ∀ index, index < count → dir'.slot index = dir.slot index) :
    dir'.liveSlots count = dir.liveSlots count := by
  ext index
  rw [mem_liveSlots, mem_liveSlots]
  constructor
  · rintro ⟨inside, live⟩
    exact ⟨inside, by rwa [same index inside] at live⟩
  · rintro ⟨inside, live⟩
    exact ⟨inside, by rwa [same index inside]⟩

theorem liveSlots_occupy {slot : Slot} {freeStart freeEnd : Offset} (live : slot.deleted = false)
    (upTo : index ≤ count) :
    (dir.occupy index slot freeStart freeEnd).liveSlots (max count (index + 1))
      = insert index (dir.liveSlots count) := by
  ext other
  rw [Finset.mem_insert, mem_liveSlots, mem_liveSlots, occupy]
  by_cases same : other = index
  · subst same
    simp only [Function.update_self, live, and_true, true_or, iff_true]
    omega
  · simp only [Function.update_of_ne same, same, false_or]
    refine and_congr_left fun _ => ?_
    omega

theorem liveSlots_delete (dir : Directory) (count index : Nat) :
    (dir.delete index).liveSlots count = (dir.liveSlots count).erase index := by
  ext other
  rw [Finset.mem_erase, mem_liveSlots, mem_liveSlots, delete]
  by_cases same : other = index
  · subst same
    simp only [Function.update_self, Bool.true_eq_false, and_false, ne_eq, not_true_eq_false,
      false_and]
  · simp only [Function.update_of_ne same, ne_eq, same, not_false_eq_true, true_and]

theorem extent_occupy (dir : Directory) (index : Nat) (slot : Slot) (freeStart freeEnd : Offset) :
    (dir.occupy index slot freeStart freeEnd).extent
      = Function.update dir.extent index slot.extent := by
  funext other
  show (Function.update dir.slot index slot other).extent = _
  by_cases same : other = index
  · rw [same, Function.update_self, Function.update_self]
  · rw [Function.update_of_ne same, Function.update_of_ne same]
    rfl

theorem extent_delete (dir : Directory) (index : Nat) :
    (dir.delete index).extent = dir.extent := by
  funext other
  show (Function.update dir.slot index _ other).extent = (dir.slot other).extent
  by_cases same : other = index
  · rw [same, Function.update_self]
    rfl
  · rw [Function.update_of_ne same]

/-- A directory without entries, all of the room free. -/
theorem wf_empty (start : dir.freeStart = 15) (ends : dir.freeEnd.toNat = top)
    (tuples : dir.numTuples = 0) (order : 15 ≤ top) (inside : top ≤ pageSize) : dir.Wf 0 top where
  start := congrArg UInt16.toNat start
  order := ends ▸ order
  below := ends.le
  inside := inside
  tuples := congrArg UInt16.toNat tuples
  packed := ⟨nofun, nofun⟩

namespace Wf

variable (wf : dir.Wf count top)
include wf

theorem hasSlots : dir.HasSlots count :=
  ⟨wf.start, (wf.order.trans wf.below).trans wf.inside⟩

theorem count_lt : count < 2 ^ 16 := by
  have inside := wf.hasSlots.inside
  unfold entryAt pageSize at inside
  omega

/-- The free space, as a number. -/
theorem freeSpace : (dir.freeEnd - dir.freeStart).toNat = dir.freeEnd.toNat - entryAt count := by
  have order := wf.order
  rw [← wf.start] at order ⊢
  exact UInt16.toNat_sub_of_le _ _ order

/-- The header is as it was, and so are the slots inside the directory. -/
theorem congr {dir' : Directory} (numTuples : dir'.numTuples = dir.numTuples)
    (freeStart : dir'.freeStart = dir.freeStart) (freeEnd : dir'.freeEnd = dir.freeEnd)
    (same : ∀ index, index < count → dir'.slot index = dir.slot index) : dir'.Wf count top where
  start := freeStart ▸ wf.start
  order := freeEnd ▸ wf.order
  below := freeEnd ▸ wf.below
  inside := wf.inside
  tuples := by
    rw [numTuples, liveSlots_congr same]
    exact wf.tuples
  packed := by
    rw [freeEnd]
    exact wf.packed.congr fun index inside => congrArg Slot.extent (same index inside)

/-- **A slot that is not live becomes live.** -/
theorem occupy (notLive : index ∉ dir.liveSlots count) (upTo : index ≤ count) {slot : Slot}
    (live : slot.deleted = false) {freeStart freeEnd : Offset}
    (start : freeStart.toNat = entryAt (max count (index + 1)))
    (order : entryAt (max count (index + 1)) ≤ freeEnd.toNat)
    (lower : freeEnd.toNat ≤ dir.freeEnd.toNat)
    (packed : Packed (fun other => other = index ∨ other < count)
      (Function.update dir.extent index slot.extent) freeEnd.toNat top) :
    (dir.occupy index slot freeStart freeEnd).Wf (max count (index + 1)) top where
  start := start
  order := order
  below := lower.trans wf.below
  inside := wf.inside
  tuples := by
    have bound := dir.liveSlots_card_le count
    have small := wf.count_lt
    have inside := wf.hasSlots.inside
    unfold entryAt pageSize at inside
    rw [liveSlots_occupy live upTo, Finset.card_insert_of_notMem notLive, ← wf.tuples]
    show (dir.numTuples + 1).toNat = _
    rw [UInt16.toNat_add, wf.tuples, show (1 : UInt16).toNat = 1 from rfl]
    omega
  packed := by
    rw [extent_occupy]
    refine packed.mono (fun other inside => ?_) (Nat.le_refl _)
    omega

/-- **A live slot is deleted.** -/
theorem delete (live : index ∈ dir.liveSlots count) : (dir.delete index).Wf count top where
  start := wf.start
  order := wf.order
  below := wf.below
  inside := wf.inside
  tuples := by
    have some := Finset.card_pos.mpr ⟨index, live⟩
    have one : (1 : UInt16) ≤ dir.numTuples := by
      rw [UInt16.le_iff_toNat_le, wf.tuples]
      exact some
    rw [liveSlots_delete, Finset.card_erase_of_mem live, ← wf.tuples]
    exact UInt16.toNat_sub_of_le _ _ one
  packed := by
    rw [extent_delete]
    exact wf.packed

end Wf

end Directory

/-! ### Placing a record -/

/-- The slot `index` became live, with a record of the given size, and no other slot changed. -/
structure Placed (page page' : FullPage) (count top index size : Nat) : Prop where
  notLive : index ∉ (directory page).liveSlots count
  upTo : index ≤ count
  wf : (directory page').Wf (max count (index + 1)) top
  live : (slotAt page' index).deleted = false
  size : (slotAt page' index).size.toNat = size
  others : ∀ other, other ≠ index → slotAt page' other = slotAt page other
  agree : Agree page page' (entryAt (max count (index + 1))) pageSize
  lower : (directory page').freeEnd.toNat ≤ (directory page).freeEnd.toNat
  /-- The record is at the end of the free space, or where the slot had room for it. -/
  room : (slotAt page' index).extent.start + (slotAt page' index).extent.size
      = (directory page).freeEnd.toNat ∨
    index < count ∧ (slotAt page' index).extent.size ≤ (slotAt page index).extent.size

variable {page page' : FullPage} {count top : Nat} {size : UInt64}

/-- The room taken from the free space. -/
theorem takeSpace_eq (page : FullPage) {size : UInt64} {freeEnd : Nat}
    (ends : (getEndFreeSpace page).toNat = freeEnd) (fits : size.toNat ≤ freeEnd) :
    (takeSpace page size).1.toNat = freeEnd - size.toNat ∧
      (takeSpace page size).2 = setEndFreeSpace page (takeSpace page size).1 := by
  refine ⟨?_, rfl⟩
  have bound : (getEndFreeSpace page).toNat < 2 ^ 16 := (getEndFreeSpace page).toNat_lt
  have order : size ≤ (getEndFreeSpace page).toUInt64 := by
    rw [UInt64.le_iff_toNat_le, UInt16.toNat_toUInt64, ends]
    exact fits
  rw [takeSpace, UInt64.toNat_toUInt16, UInt64.toNat_sub_of_le _ _ order, UInt16.toNat_toUInt64, ends]
  omega

/-- `5 + size` does not wrap. -/
theorem entrySize_add (small : 5 + size.toNat < 2 ^ 64) :
    (slotEntry.size.toUInt64 + size).toNat = 5 + size.toNat := by
  rw [UInt64.toNat_add, show slotEntry.size.toUInt64.toNat = 5 from rfl]
  omega

/-- The tuple counted, after the entry of the slot was written. -/
theorem Edits.occupied {middle : FullPage} {index : Nat} {slot : Slot} {freeStart freeEnd : Offset}
    {above : Nat} (edits : Edits page middle
      { directory page with
        freeStart, freeEnd, slot := Function.update (directory page).slot index slot } above)
    (atLeast : 15 ≤ above) :
    Edits page (setNumTuples middle (getNumTuples middle + 1))
      ((directory page).occupy index slot freeStart freeEnd) above := by
  have counted := (edits_setNumTuples middle (getNumTuples middle + 1) 0).mono atLeast
  have numTuples : getNumTuples middle = (directory page).numTuples :=
    congrArg Directory.numTuples edits.decoded
  rw [numTuples, edits.decoded] at counted
  rw [numTuples]
  exact edits.trans counted

theorem slotAt_setSlot {dir : Directory} {index : Nat} {slot : Slot} {above : Nat}
    (edits : Edits page page' (dir.setSlot index slot) above) : slotAt page' index = slot :=
  (congrFun (congrArg Directory.slot edits.decoded) index).trans (Function.update_self _ _ _)

theorem Directory.setSlot_setSlot (dir : Directory) (index : Nat) (first second : Slot) :
    (dir.setSlot index first).setSlot index second = dir.setSlot index second :=
  Directory.ext rfl rfl rfl (Function.update_idem _ _ _)

theorem Directory.HasSlots.edits {dir : Directory} {index : Nat} {slot : Slot} {above : Nat}
    (slots : dir.HasSlots count) (edits : Edits page page' (dir.setSlot index slot) above) :
    (directory page').HasSlots count := by
  rw [edits.decoded]
  exact ⟨slots.start, slots.inside⟩

/-- A slot of the directory is taken again, where its record was. -/
theorem reuseSlot_edits {slotId : SlotId} (slots : (directory page).HasSlots count)
    (below : slotId.toNat < count) (size : UInt64) :
    ∃ page', reuseSlot page slotId size = .ok (some slotId, page') ∧
      Edits page page' ((directory page).occupy slotId.toNat
        ⟨false, (slotAt page slotId.toNat).offset, size.toUInt16⟩
        (directory page).freeStart (directory page).freeEnd) (entryAt count) := by
  obtain ⟨first, firstRun, firstEdits⟩ := setSlotDeleted_edits slots below false
  obtain ⟨second, secondRun, secondEdits⟩ :=
    setSlotSize_edits (slots.edits firstEdits) below size.toUInt16
  rw [slotAt_setSlot firstEdits, firstEdits.decoded, Directory.setSlot_setSlot] at secondEdits
  refine ⟨setNumTuples second (getNumTuples second + 1), ?_, ?_⟩
  · rw [reuseSlot, firstRun, ok_bind, secondRun, ok_bind]
    rfl
  · exact (firstEdits.trans secondEdits).occupied (Nat.le_add_right 15 _)

/-- A new entry is written. -/
theorem allocateSlot_edits (slots : (directory page).HasSlots count)
    (room : entryAt (count + 1) ≤ pageSize) {size : UInt64}
    (fits : ¬ slotEntry.size.toUInt64 + size > (getFreeSpaceSize page).toUInt64) :
    ∃ slotId page', allocateSlot page size = .ok (some slotId, page') ∧ slotId.toNat = count ∧
      Edits page page' ((directory page).occupy count
        ⟨false, (takeSpace page size).1, size.toUInt16⟩
        ((directory page).freeStart + slotEntry.size) (takeSpace page size).1)
        (entryAt (count + 1)) := by
  have run : allocateSlot page size = _ := if_neg fits
  generalize took : takeSpace page size = taken at run ⊢
  obtain ⟨offset, lowered⟩ := taken
  have lowerEdits : Edits page lowered { directory page with freeEnd := offset }
      (entryAt (count + 1)) := by
    cases took
    exact edits_setEndFreeSpace page _ _
  have sameStart : getStartFreeSpace lowered = (directory page).freeStart :=
    congrArg Directory.freeStart lowerEdits.decoded
  have index : (entriesBefore (directory page).freeStart).toNat = count :=
    entriesBefore_toNat slots.start
  have growEdits := edits_setStartFreeSpace lowered
    ((directory page).freeStart + slotEntry.size) (count + 1)
  rw [lowerEdits.decoded] at growEdits
  have grownSlots : (directory (setStartFreeSpace lowered
      ((directory page).freeStart + slotEntry.size))).HasSlots (count + 1) := by
    rw [growEdits.decoded]
    refine ⟨?_, room⟩
    unfold entryAt pageSize at *
    have start := slots.start
    show ((directory page).freeStart + slotEntry.size).toNat = _
    rw [UInt16.toNat_add, show slotEntry.size.toNat = 5 from rfl]
    unfold entryAt at start
    omega
  simp only [sameStart] at run
  generalize setStartFreeSpace lowered ((directory page).freeStart + slotEntry.size) = grown at *
  generalize entriesBefore (directory page).freeStart = slotId at *
  have below : slotId.toNat < count + 1 := by omega
  obtain ⟨first, firstRun, firstEdits⟩ := setSlotDeleted_edits grownSlots below false
  have firstSlots := grownSlots.edits firstEdits
  obtain ⟨second, secondRun, secondEdits⟩ := setSlotOffset_edits firstSlots below offset
  rw [slotAt_setSlot firstEdits, firstEdits.decoded, Directory.setSlot_setSlot] at secondEdits
  have secondSlots := grownSlots.edits secondEdits
  obtain ⟨third, thirdRun, thirdEdits⟩ := setSlotSize_edits secondSlots below size.toUInt16
  rw [slotAt_setSlot secondEdits, secondEdits.decoded, Directory.setSlot_setSlot] at thirdEdits
  refine ⟨slotId, setNumTuples third (getNumTuples third + 1), ?_, index, ?_⟩
  · rw [run, firstRun, ok_bind, secondRun, ok_bind, thirdRun, ok_bind]
    rfl
  · have all := ((lowerEdits.trans growEdits).trans firstEdits).trans
      (secondEdits.trans thirdEdits)
    rw [growEdits.decoded, index] at all
    exact all.occupied (Nat.le_add_right 15 _)

/-! ### The calls -/

/-- `FREE_END - FREE_START`. -/
def freeSpace (page : FullPage) : Nat :=
  (getEndFreeSpace page).toNat - (getStartFreeSpace page).toNat

theorem mem_slotIds {capacity : UInt16} {slotId : SlotId} :
    slotId ∈ slotIds capacity ↔ slotId.toNat < capacity.toNat := by
  rw [slotIds, List.mem_map]
  constructor
  · rintro ⟨index, member, rfl⟩
    have below := List.mem_range.mp member
    rw [UInt16.toNat_ofNat']
    omega
  · intro below
    exact ⟨slotId.toNat, List.mem_range.mpr below, UInt16.ofNat_toNat⟩

section Calls

variable (wf : (directory page).Wf count top)
include wf

theorem getFreeSpaceSize_toNat : (getFreeSpaceSize page).toNat = freeSpace page := by
  refine wf.freeSpace.trans ?_
  rw [freeSpace, ← wf.start]
  rfl

theorem freeSpace_eq : freeSpace page = (getEndFreeSpace page).toNat - entryAt count := by
  rw [freeSpace, ← wf.start]
  rfl

theorem Placed.of_edits {index : Nat} (notLive : index ∉ (directory page).liveSlots count)
    (upTo : index ≤ count) {slot : Slot} (live : slot.deleted = false)
    {freeStart freeEnd : Offset} (start : freeStart.toNat = entryAt (max count (index + 1)))
    (order : entryAt (max count (index + 1)) ≤ freeEnd.toNat)
    (lower : freeEnd.toNat ≤ (directory page).freeEnd.toNat)
    (packed : Packed (fun other => other = index ∨ other < count)
      (Function.update (directory page).extent index slot.extent) freeEnd.toNat top)
    (room : slot.extent.start + slot.extent.size = (directory page).freeEnd.toNat ∨
      index < count ∧ slot.extent.size ≤ (slotAt page index).extent.size)
    (edits : Edits page page' ((directory page).occupy index slot freeStart freeEnd)
      (entryAt (max count (index + 1)))) :
    Placed page page' count top index slot.size.toNat := by
  have slots : slotAt page' = Function.update (slotAt page) index slot :=
    congrArg Directory.slot edits.decoded
  refine ⟨notLive, upTo, ?_, ?_, ?_, fun other different => ?_, edits.agree, ?_, ?_⟩
  · rw [edits.decoded]
    exact wf.occupy notLive upTo live start order lower packed
  · rw [slots, Function.update_self]
    exact live
  · rw [slots, Function.update_self]
  · rw [slots, Function.update_of_ne different]
  · rw [edits.decoded]
    exact lower
  · rwa [slots, Function.update_self]

/-- **`AllocateSlot` finds no room exactly when entry and record exceed the free space**, and
otherwise gives the record a new entry. -/
theorem allocateSlot_spec (size : UInt64) (small : 5 + size.toNat < 2 ^ 64) :
    (freeSpace page < 5 + size.toNat ∧ allocateSlot page size = .ok (none, page)) ∨
      (5 + size.toNat ≤ freeSpace page ∧ ∃ slotId page',
        allocateSlot page size = .ok (some slotId, page') ∧ slotId.toNat = count ∧
          Placed page page' count top slotId.toNat size.toNat) := by
  have free := getFreeSpaceSize_toNat wf
  have full : slotEntry.size.toUInt64 + size > (getFreeSpaceSize page).toUInt64 ↔
      freeSpace page < 5 + size.toNat := by
    rw [gt_iff_lt, UInt64.lt_iff_toNat_lt, UInt16.toNat_toUInt64, free, entrySize_add small]
  by_cases room : 5 + size.toNat ≤ freeSpace page
  · have fits : ¬ slotEntry.size.toUInt64 + size > (getFreeSpaceSize page).toUInt64 := by
      rw [full]
      omega
    have ends := freeSpace_eq wf
    have bound := wf.hasSlots.inside
    have top := wf.below.trans wf.inside
    have next : entryAt (count + 1) = entryAt count + 5 := by
      unfold entryAt
      omega
    have same : max count (count + 1) = count + 1 := Nat.max_eq_right (Nat.le_succ count)
    have ended : (getEndFreeSpace page).toNat = (directory page).freeEnd.toNat := rfl
    obtain ⟨slotId, page', run, index, edits⟩ :=
      allocateSlot_edits wf.hasSlots (by omega) fits
    have taken : (takeSpace page size).1.toNat = _ := (takeSpace_eq page ended (by omega)).1
    have cut : size.toUInt16.toNat = size.toNat := by
      rw [UInt64.toNat_toUInt16]
      unfold pageSize at *
      omega
    refine Or.inr ⟨room, slotId, page', run, index, ?_⟩
    rw [index, ← cut]
    refine Placed.of_edits wf ?_ (Nat.le_refl count) rfl ?_ ?_ ?_ ?_ (Or.inl ?_) (same ▸ edits)
    · rw [Directory.mem_liveSlots]
      exact fun live => Nat.lt_irrefl count live.1
    · rw [same, next, UInt16.toNat_add, wf.start, show slotEntry.size.toNat = 5 from rfl]
      unfold pageSize at *
      omega
    · rw [same, next, taken]
      omega
    · rw [taken]
      omega
    · rw [Slot.extent, taken, cut]
      exact wf.packed.place count (by omega) wf.below
    · rw [Slot.extent, taken, cut]
      exact Nat.sub_add_cancel (by omega)
  · refine Or.inl ⟨by omega, if_pos ?_⟩
    rw [full]
    omega

/-- A deleted slot whose room is large enough is taken again. -/
theorem reuseSlot_placed {slotId : SlotId} (below : slotId.toNat < count)
    (deleted : (slotAt page slotId.toNat).deleted = true)
    (fits : size.toNat ≤ (slotAt page slotId.toNat).size.toNat) :
    ∃ page', reuseSlot page slotId size = .ok (some slotId, page') ∧
      Placed page page' count top slotId.toNat size.toNat := by
  have bound : (slotAt page slotId.toNat).size.toNat < 2 ^ 16 := UInt16.toNat_lt _
  have cut : size.toUInt16.toNat = size.toNat := by
    rw [UInt64.toNat_toUInt16]
    omega
  have same : max count (slotId.toNat + 1) = count := Nat.max_eq_left below
  obtain ⟨page', run, edits⟩ := reuseSlot_edits wf.hasSlots below size
  refine ⟨page', run, ?_⟩
  rw [← cut]
  refine Placed.of_edits wf ?_ below.le rfl ?_ ?_ (Nat.le_refl _) ?_ (Or.inr ⟨below, ?_⟩)
    (same.symm ▸ edits)
  · rw [Directory.mem_liveSlots]
    exact fun live => Bool.noConfusion (deleted.symm.trans live.2)
  · rw [same]
    exact wf.start
  · rw [same]
    exact wf.order
  · rw [Slot.extent, cut]
    exact wf.packed.shrink below fits
  · exact cut.trans_le fits

/-- A deleted slot is taken again, in new room. -/
theorem reuseSlot_moved {slotId : SlotId} (below : slotId.toNat < count)
    (deleted : (slotAt page slotId.toNat).deleted = true) (fits : size.toNat ≤ freeSpace page) :
    ∃ middle page', setSlotOffset (takeSpace page size).2 slotId (takeSpace page size).1
        = .ok middle ∧
      reuseSlot middle slotId size = .ok (some slotId, page') ∧
      Placed page page' count top slotId.toNat size.toNat := by
  have free := freeSpace_eq wf
  have order := wf.order
  have inside := wf.below.trans wf.inside
  have ended : (getEndFreeSpace page).toNat = (directory page).freeEnd.toNat := rfl
  have taken : (takeSpace page size).1.toNat = _ := (takeSpace_eq page ended (by omega)).1
  have cut : size.toUInt16.toNat = size.toNat := by
    rw [UInt64.toNat_toUInt16]
    unfold pageSize at *
    omega
  have same : max count (slotId.toNat + 1) = count := Nat.max_eq_left below
  have lowerEdits : Edits page (takeSpace page size).2
      { directory page with freeEnd := (takeSpace page size).1 } (entryAt count) :=
    edits_setEndFreeSpace page _ count
  have lowered : (directory (takeSpace page size).2).HasSlots count := by
    rw [lowerEdits.decoded]
    exact ⟨wf.hasSlots.start, wf.hasSlots.inside⟩
  obtain ⟨middle, middleRun, middleEdits⟩ :=
    setSlotOffset_edits lowered below (takeSpace page size).1
  obtain ⟨page', run, edits⟩ := reuseSlot_edits (lowered.edits middleEdits) below size
  have all := (lowerEdits.trans middleEdits).trans edits
  refine ⟨middle, page', middleRun, run, ?_⟩
  rw [← cut]
  have decoded : (directory middle).occupy slotId.toNat
      ⟨false, (slotAt middle slotId.toNat).offset, size.toUInt16⟩
      (directory middle).freeStart (directory middle).freeEnd
      = (directory page).occupy slotId.toNat ⟨false, (takeSpace page size).1, size.toUInt16⟩
        (directory page).freeStart (takeSpace page size).1 := by
    rw [slotAt_setSlot middleEdits, middleEdits.decoded, lowerEdits.decoded]
    exact Directory.ext rfl rfl rfl (Function.update_idem _ _ _)
  rw [decoded] at all
  refine Placed.of_edits wf ?_ below.le rfl ?_ ?_ ?_ ?_ (Or.inl ?_) (same.symm ▸ all)
  · rw [Directory.mem_liveSlots]
    exact fun live => Bool.noConfusion (deleted.symm.trans live.2)
  · rw [same]
    exact wf.start
  · rw [same, taken]
    omega
  · rw [taken]
    omega
  · rw [Slot.extent, taken, cut]
    exact wf.packed.place slotId.toNat (by omega) wf.below
  · rw [Slot.extent, taken, cut]
    exact Nat.sub_add_cancel (by omega)

/-- The slot is deleted, but neither its room nor the free space can take the record. -/
def TooSmall (page : FullPage) (slotId : SlotId) (size : UInt64) : Prop :=
  (slotAt page slotId.toNat).deleted = true →
    (slotAt page slotId.toNat).size.toNat < size.toNat ∧ freeSpace page < size.toNat

instance (page : FullPage) (slotId : SlotId) (size : UInt64) :
    Decidable (TooSmall page slotId size) := inferInstanceAs (Decidable (_ → _))

/-- One turn of the loop passes over a slot that is too small, and takes any other deleted one. -/
theorem reuseLoop_cons {slotId : SlotId} (below : slotId.toNat < count) (rest : List SlotId) :
    (TooSmall page slotId size ∧
        reuseLoop page size (slotId :: rest) = reuseLoop page size rest) ∨
      (¬ TooSmall page slotId size ∧ ∃ page',
        reuseLoop page size (slotId :: rest) = .ok (some slotId, page') ∧
          Placed page page' count top slotId.toNat size.toNat) := by
  have sizes : size > (slotAt page slotId.toNat).size.toUInt64 ↔
      (slotAt page slotId.toNat).size.toNat < size.toNat := by
    rw [gt_iff_lt, UInt64.lt_iff_toNat_lt, UInt16.toNat_toUInt64]
  have frees : size > (getFreeSpaceSize page).toUInt64 ↔ freeSpace page < size.toNat := by
    rw [gt_iff_lt, UInt64.lt_iff_toNat_lt, UInt16.toNat_toUInt64, getFreeSpaceSize_toNat wf]
  rw [reuseLoop, isSlotDeleted_eq wf.hasSlots below, ok_bind, getSlotSize_eq wf.hasSlots below,
    ok_bind]
  cases deleted : (slotAt page slotId.toNat).deleted with
  | false =>
      refine Or.inl ⟨fun isDeleted => ?_, rfl⟩
      rw [deleted] at isDeleted
      cases isDeleted
  | true =>
      simp only [Bool.not_true, Bool.false_eq_true, if_false, sizes, frees]
      by_cases large : (slotAt page slotId.toNat).size.toNat < size.toNat
      · rw [if_pos large]
        by_cases full : freeSpace page < size.toNat
        · rw [if_pos full]
          exact Or.inl ⟨fun _ => ⟨large, full⟩, rfl⟩
        · rw [if_neg full]
          obtain ⟨middle, page', middleRun, run, placed⟩ :=
            reuseSlot_moved wf below deleted (Nat.not_lt.mp full)
          refine Or.inr ⟨fun tooSmall => full (tooSmall deleted).2, page', ?_, placed⟩
          rw [middleRun, ok_bind, run]
      · rw [if_neg large]
        obtain ⟨page', run, placed⟩ := reuseSlot_placed wf below deleted (Nat.not_lt.mp large)
        exact Or.inr ⟨fun tooSmall => large (tooSmall deleted).1, page', run, placed⟩

/-- The loop, over the slots still to be looked at. A new entry is made when all are too small. -/
theorem reuseLoop_spec (small : 5 + size.toNat < 2 ^ 64) (rest : List SlotId)
    (below : ∀ slotId ∈ rest, slotId.toNat < count) :
    ((freeSpace page < 5 + size.toNat ∧ ∀ slotId ∈ rest, TooSmall page slotId size) ∧
        reuseLoop page size rest = .ok (none, page)) ∨
      (¬ (freeSpace page < 5 + size.toNat ∧ ∀ slotId ∈ rest, TooSmall page slotId size) ∧
        ∃ slotId page', reuseLoop page size rest = .ok (some slotId, page') ∧
          Placed page page' count top slotId.toNat size.toNat ∧
          (slotId.toNat = count ↔ ∀ slotId ∈ rest, TooSmall page slotId size)) := by
  induction rest with
  | nil =>
      rcases allocateSlot_spec wf size small with
        ⟨full, run⟩ | ⟨room, slotId, page', run, isNext, placed⟩
      · exact Or.inl ⟨⟨full, nofun⟩, run⟩
      · exact Or.inr ⟨fun both => by omega, slotId, page', run, placed, iff_of_true isNext nofun⟩
  | cons slotId rest ih =>
      rw [List.forall_mem_cons]
      rcases reuseLoop_cons wf (below slotId List.mem_cons_self) rest with
        ⟨tooSmall, same⟩ | ⟨found, page', run, placed⟩
      · rw [same]
        simpa only [tooSmall, true_and] using
          ih fun other member => below other (List.mem_cons_of_mem slotId member)
      · refine Or.inr ⟨fun both => found both.2.1, slotId, page', run, placed, ?_⟩
        exact iff_of_false (below slotId List.mem_cons_self).ne fun all => found all.1

/-- **`AllocateSlotOrReuseSlot` finds no room exactly when a new entry does not fit and every
deleted slot is too small**, and makes a new entry exactly when every deleted slot is. -/
theorem allocateSlotOrReuseSlot_spec (size : UInt64) (small : 5 + size.toNat < 2 ^ 64) :
    ((freeSpace page < 5 + size.toNat ∧
        ∀ slotId, slotId.toNat < count → TooSmall page slotId size) ∧
        allocateSlotOrReuseSlot page size = .ok (none, page)) ∨
      (¬ (freeSpace page < 5 + size.toNat ∧
        ∀ slotId, slotId.toNat < count → TooSmall page slotId size) ∧
        ∃ slotId page', allocateSlotOrReuseSlot page size = .ok (some slotId, page') ∧
          Placed page page' count top slotId.toNat size.toNat ∧
          (slotId.toNat = count ↔ ∀ slotId, slotId.toNat < count → TooSmall page slotId size)) := by
  have capacity := getPageCapacity_toNat wf.hasSlots
  have inside : ∀ slotId, slotId ∈ slotIds (getPageCapacity page) ↔ slotId.toNat < count := by
    intro slotId
    rw [mem_slotIds, capacity]
  have spec := reuseLoop_spec wf small (slotIds (getPageCapacity page))
    fun slotId member => (inside slotId).mp member
  simp only [inside] at spec
  exact spec

/-- **Deleting a live slot.** -/
theorem deleteSlot_spec {slotId : SlotId} (live : slotId.toNat ∈ (directory page).liveSlots count) :
    ∃ page', deleteSlot page slotId = .ok page' ∧
      Edits page page' ((directory page).delete slotId.toNat) (entryAt count) := by
  have below := (Directory.mem_liveSlots.mp live).1
  have counted := edits_setNumTuples page (getNumTuples page - 1) count
  have slots : (directory (setNumTuples page (getNumTuples page - 1))).HasSlots count := by
    rw [counted.decoded]
    exact ⟨wf.hasSlots.start, wf.hasSlots.inside⟩
  obtain ⟨page', run, edits⟩ := setSlotDeleted_edits slots below true
  refine ⟨page', run, ?_⟩
  have all := counted.trans edits
  rw [counted.decoded] at all
  have same : slotAt (setNumTuples page (getNumTuples page - 1)) slotId.toNat
      = (directory page).slot slotId.toNat :=
    congrFun (congrArg Directory.slot counted.decoded) slotId.toNat
  rw [same] at all
  exact all

end Calls

/-! ### Records -/

/-- The bytes of the record of a slot. -/
def record (page : FullPage) (index : Nat) : List UInt8 := ((directory page).extent index).read page

theorem length_record (page : FullPage) (index : Nat) :
    (record page index).length = (slotAt page index).size.toNat := length_readBytes _ _ _

/-- The slice of a live slot is its extent. -/
theorem recordSlice_live (slots : (directory page).HasSlots count) {slotId : SlotId}
    (live : slotId.toNat ∈ (directory page).liveSlots count) :
    recordSlice page slotId
      = .ok ⟨(slotAt page slotId.toNat).offset, (slotAt page slotId.toNat).size⟩ := by
  obtain ⟨below, notDeleted⟩ := Directory.mem_liveSlots.mp live
  have notDeleted : (slotAt page slotId.toNat).deleted = false := notDeleted
  rw [recordSlice, checkSlot_ok slots below, ok_bind, isSlotDeleted_eq slots below, ok_bind,
    notDeleted, getSlotOffset_eq slots below, getSlotSize_eq slots below]
  rfl

theorem readRecord_live (slots : (directory page).HasSlots count) {slotId : SlotId}
    (live : slotId.toNat ∈ (directory page).liveSlots count) :
    readRecord page slotId = .ok (record page slotId.toNat) := by
  rw [readRecord, recordSlice_live slots live, ok_bind]
  rfl

theorem Placed.liveSlots {index size : Nat} (placed : Placed page page' count top index size) :
    (directory page').liveSlots (max count (index + 1))
      = insert index ((directory page).liveSlots count) := by
  ext other
  rw [Finset.mem_insert, Directory.mem_liveSlots, Directory.mem_liveSlots]
  have upTo := placed.upTo
  by_cases same : other = index
  · subst same
    refine iff_of_true ⟨by omega, placed.live⟩ (Or.inl rfl)
  · have slot : (directory page').slot other = (directory page).slot other :=
      placed.others other same
    rw [slot]
    simp only [same, false_or]
    refine and_congr_left fun _ => ?_
    omega

section Records

variable (wf : (directory page).Wf count top)
include wf

theorem extent_inside {index : Nat} (live : index ∈ (directory page).liveSlots count) :
    ((directory page).extent index).Inside (directory page).freeEnd.toNat top :=
  wf.packed.inside index (Directory.mem_liveSlots.mp live).1

/-- The record stays as long as its slot entry and the bytes of the records do. -/
theorem record_agree {index lower : Nat} (live : index ∈ (directory page).liveSlots count)
    (same : slotAt page' index = slotAt page index)
    (agree : Agree page page' lower pageSize) (above : lower ≤ (directory page).freeEnd.toNat) :
    record page' index = record page index := by
  have sameExtent : (directory page').extent index = (directory page).extent index :=
    congrArg Slot.extent same
  rw [record, sameExtent]
  exact Extent.read_agree ((extent_inside wf live).mono above wf.inside) agree

/-- **Placing a record leaves the other records alone.** -/
theorem Placed.record {index size : Nat} (placed : Placed page page' count top index size)
    {other : Nat} (live : other ∈ (directory page).liveSlots count) :
    Page.record page' other = Page.record page other := by
  refine record_agree wf live (placed.others other ?_) placed.agree
    (placed.wf.order.trans placed.lower)
  rintro rfl
  exact placed.notLive live

omit wf in
/-- A write in one range agrees on what lies below it and above it. -/
theorem slice_agree (page : FullPage) (slice : Slice) {position lower upper : Nat} {bytes : List UInt8}
    (range : bytes = [] ∨ lower ≤ slice.offset.toNat + position ∧
      slice.offset.toNat + position + bytes.length ≤ upper) :
    Agree page (slice.write page position bytes) 0 lower ∧
      Agree page (slice.write page position bytes) upper pageSize := by
  rcases range with rfl | ⟨lowest, highest⟩
  · rw [Slice.write, writeBytes_nil]
    exact ⟨fun _ _ _ => rfl, fun _ _ _ => rfl⟩
  · refine ⟨fun place _ below => ?_, fun place above _ => ?_⟩
    · exact byteAt_writeBytes_outside page (Or.inl (below.trans_le lowest))
    · exact byteAt_writeBytes_outside page (Or.inr (highest.trans above))

/-- A write inside the slice of a live slot stays above the free space and below `top`. -/
theorem slice_inside {index position : Nat} {bytes : List UInt8}
    (live : index ∈ (directory page).liveSlots count)
    (fits : position + bytes.length ≤ (slotAt page index).size.toNat) :
    bytes = [] ∨ (directory page).freeEnd.toNat ≤ (slotAt page index).offset.toNat + position ∧
      (slotAt page index).offset.toNat + position + bytes.length ≤ top := by
  by_cases none : bytes = []
  · exact Or.inl none
  · have length := List.length_pos_iff.mpr none
    rcases extent_inside wf live with empty | ⟨above, below⟩
    · have empty : (slotAt page index).size.toNat = 0 := empty
      omega
    · have above : (directory page).freeEnd.toNat ≤ (slotAt page index).offset.toNat := above
      have below : (slotAt page index).offset.toNat + (slotAt page index).size.toNat ≤ top := below
      exact Or.inr ⟨by omega, by omega⟩

/-- What a write inside the slice of a live slot does. -/
structure Wrote (page page' : FullPage) (count top index position : Nat) (bytes : List UInt8) :
    Prop where
  same : SameDirectory page page' count
  written : record page' index = overwrite (record page index) position bytes
  others : ∀ other, other ∈ (directory page).liveSlots count → other ≠ index →
    record page' other = record page other
  agree : Agree page page' top pageSize

/-- **A write inside the slice of a live slot** overwrites part of its record, and changes no other
record, no entry of the directory and no header field. -/
theorem writeSlice_spec {slotId : SlotId} {slice : Slice} {position : Nat} {bytes : List UInt8}
    (live : slotId.toNat ∈ (directory page).liveSlots count)
    (isSlice : writeRecord page slotId = .ok slice)
    (fits : position + bytes.length ≤ slice.size.toNat) :
    Wrote page (slice.write page position bytes) count top slotId.toNat position bytes := by
  have isExtent := (recordSlice_live wf.hasSlots live).symm.trans isSlice
  cases isExtent
  have range := slice_inside wf live fits
  obtain ⟨below, above⟩ := slice_agree page
    ⟨(slotAt page slotId.toNat).offset, (slotAt page slotId.toNat).size⟩ range
  have order := wf.order
  have same : SameDirectory page _ count :=
    sameDirectory_of_agree fun place lower upper => below place lower (upper.trans_le order)
  have extents : ∀ other, other ∈ (directory page).liveSlots count → (directory (Slice.write _ page
      position bytes)).extent other = (directory page).extent other :=
    fun other otherLive => congrArg Slot.extent
      (same.slot other (Directory.mem_liveSlots.mp otherLive).1)
  refine ⟨same, ?_, fun other otherLive different => ?_, above⟩
  · rw [record, extents _ live]
    rcases range with rfl | range
    · rw [Slice.write, writeBytes_nil, overwrite_nil]
      rfl
    · refine readBytes_writeBytes_within page fits ?_
      have inside := wf.inside
      have highest : ((directory page).extent slotId.toNat).start + position + bytes.length ≤ top :=
        range.2
      show ((directory page).extent slotId.toNat).start
        + ((directory page).extent slotId.toNat).size ≤ pageSize
      rcases extent_inside wf live with empty | ⟨_, below⟩
      · omega
      · omega
  · have apart := wf.packed.apart slotId.toNat other (Directory.mem_liveSlots.mp live).1
      (Directory.mem_liveSlots.mp otherLive).1 (Ne.symm different)
    rw [record, extents other otherLive]
    exact Extent.read_writeBytes_apart page apart fits

theorem Wrote.keeps_wf {index position : Nat} {bytes : List UInt8}
    (wrote : Wrote page page' count top index position bytes) : (directory page').Wf count top :=
  wf.congr wrote.same.numTuples wrote.same.freeStart wrote.same.freeEnd wrote.same.slot

end Records

end Page

end Yadb
