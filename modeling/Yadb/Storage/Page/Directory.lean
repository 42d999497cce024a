/-
**The directory that the bytes of a page spell.**

`directory` decodes the header fields and the slot entries. Each setter of the format changes one
field of it (`directory_setNumTuples` and its siblings, `setSlotDeleted_edits` and its siblings) and
no byte above the slot directory, and each getter of a slot inside the directory succeeds and reads
the field (`isSlotDeleted_eq` and its siblings).
-/

import Mathlib.Data.Finset.Card
import Yadb.Foundation.Extents
import Yadb.Storage.Page.Format

namespace Yadb

open Foundation

/-! ### Words of a page -/

theorem getU16_setU16 (page : FullPage) {position : Nat} (fits : position + 2 ≤ pageSize)
    (value : UInt16) : getU16 (setU16 page position value) position = value := by
  have bound : value.toNat < 256 ^ 2 := value.toNat_lt
  rw [getU16, setU16, leValue_writeBytes page fits bound, UInt16.ofNat_toNat]

theorem getU16_writeBytes (page : FullPage) {position start : Nat} {bytes : List UInt8}
    (apart : start + bytes.length ≤ position ∨ position + 2 ≤ start) :
    getU16 (writeBytes page start bytes) position = getU16 page position := by
  rw [getU16, readBytes_writeBytes_disjoint page apart, getU16]

theorem getU16_setU16_apart (page : FullPage) {position other : Nat}
    (apart : position + 2 ≤ other ∨ other + 2 ≤ position) (value : UInt16) :
    getU16 (setU16 page position value) other = getU16 page other :=
  getU16_writeBytes page (by rwa [length_leBytes])

theorem getU16_agree {page page' : FullPage} {lower upper position : Nat}
    (agree : Agree page page' lower upper) (above : lower ≤ position)
    (below : position + 2 ≤ upper) : getU16 page' position = getU16 page position := by
  rw [getU16, readBytes_agree agree above below, getU16]

/-- A write changes nothing outside its range. -/
theorem agree_writeBytes (page : FullPage) {start lower upper : Nat} {bytes : List UInt8}
    (apart : start + bytes.length ≤ lower ∨ upper ≤ start) :
    Agree page (writeBytes page start bytes) lower upper := by
  intro position above below
  exact byteAt_writeBytes_outside page (by omega)

namespace Page

/-- A slot entry. -/
@[ext]
structure Slot where
  deleted : Bool
  offset : Offset
  size : UInt16
  deriving DecidableEq

def Slot.extent (slot : Slot) : Extent := ⟨slot.offset.toNat, slot.size.toNat⟩

/-- The header fields and the slot entries. -/
@[ext]
structure Directory where
  numTuples : UInt16
  freeStart : Offset
  freeEnd : Offset
  slot : Nat → Slot

/-- Where the entry of a slot starts. -/
def entryAt (index : Nat) : Nat := 15 + 5 * index

def slotAt (page : FullPage) (index : Nat) : Slot where
  deleted := decide (0 < byteAt page (entryAt index))
  offset := getU16 page (entryAt index + 1)
  size := getU16 page (entryAt index + 3)

def directory (page : FullPage) : Directory where
  numTuples := getNumTuples page
  freeStart := getStartFreeSpace page
  freeEnd := getEndFreeSpace page
  slot := slotAt page

namespace Directory

def setSlot (dir : Directory) (index : Nat) (slot : Slot) : Directory :=
  { dir with slot := Function.update dir.slot index slot }

/-- The directory has this many entries, all inside the page. -/
structure HasSlots (dir : Directory) (count : Nat) : Prop where
  start : dir.freeStart.toNat = entryAt count
  inside : entryAt count ≤ pageSize

end Directory

variable {page page' : FullPage}

/-! ### Header fields -/

/-- A write outside an entry leaves it alone. -/
theorem slotAt_writeBytes (page : FullPage) {start index : Nat} {bytes : List UInt8}
    (apart : start + bytes.length ≤ entryAt index ∨ entryAt index + 5 ≤ start) :
    slotAt (writeBytes page start bytes) index = slotAt page index := by
  unfold slotAt
  rw [byteAt_writeBytes_outside page (by omega), getU16_writeBytes page (by omega),
    getU16_writeBytes page (by omega)]

theorem slotAt_header (page : FullPage) {start : Nat} {bytes : List UInt8}
    (below : start + bytes.length ≤ 15) :
    slotAt (writeBytes page start bytes) = slotAt page := by
  funext index
  apply slotAt_writeBytes
  unfold entryAt
  omega

theorem slotAt_setU16_header (page : FullPage) {position : Nat} (below : position + 2 ≤ 15)
    (value : UInt16) : slotAt (setU16 page position value) = slotAt page :=
  slotAt_header page (by rwa [length_leBytes])

theorem directory_setNumTuples (page : FullPage) (numTuples : UInt16) :
    directory (setNumTuples page numTuples) = { directory page with numTuples } := by
  apply Directory.ext
  · exact getU16_setU16 page (by decide) numTuples
  · exact getU16_setU16_apart page (by decide) numTuples
  · exact getU16_setU16_apart page (by decide) numTuples
  · exact slotAt_setU16_header page (by decide) numTuples

theorem directory_setStartFreeSpace (page : FullPage) (offset : Offset) :
    directory (setStartFreeSpace page offset) = { directory page with freeStart := offset } := by
  apply Directory.ext
  · exact getU16_setU16_apart page (by decide) offset
  · exact getU16_setU16 page (by decide) offset
  · exact getU16_setU16_apart page (by decide) offset
  · exact slotAt_setU16_header page (by decide) offset

theorem directory_setEndFreeSpace (page : FullPage) (offset : Offset) :
    directory (setEndFreeSpace page offset) = { directory page with freeEnd := offset } := by
  apply Directory.ext
  · exact getU16_setU16_apart page (by decide) offset
  · exact getU16_setU16_apart page (by decide) offset
  · exact getU16_setU16 page (by decide) offset
  · exact slotAt_setU16_header page (by decide) offset

theorem directory_setPageType (page : FullPage) (pageType : PageType) :
    directory (setPageType page pageType) = directory page := by
  have length : [pageType.code].length = 1 := rfl
  apply Directory.ext
  · exact getU16_writeBytes page (by rw [length]; decide)
  · exact getU16_writeBytes page (by rw [length]; decide)
  · exact getU16_writeBytes page (by rw [length]; decide)
  · exact slotAt_header page (by rw [length]; decide)

/-! ### Slot entries -/

section Entries

variable {count : Nat} {slotId : SlotId}

/-- The division counts the entries exactly. -/
theorem entriesBefore_toNat {start : Offset} (entries : start.toNat = entryAt count) :
    (entriesBefore start).toNat = count := by
  have bound : start.toNat < 2 ^ 16 := start.toNat_lt
  have quotient : ((start.toNat : Int) - (header.size.toNat : Int)).tdiv (slotEntry.size.toNat : Int)
      = (count : Int) := by
    rw [show (header.size.toNat : Int) = 15 from rfl, show (slotEntry.size.toNat : Int) = 5 from rfl,
      entries, entryAt, Int.tdiv_eq_ediv_of_nonneg (by omega)]
    omega
  unfold entryAt at entries
  rw [entriesBefore, quotient, UInt16.ofInt, UInt16.toNat_ofNat']
  omega

theorem getPageCapacity_toNat (slots : (directory page).HasSlots count) :
    (getPageCapacity page).toNat = count := entriesBefore_toNat slots.start

/-- Inside the page an entry's field is not cut. -/
theorem entryOffset_eq (inside : entryAt count ≤ pageSize) (below : slotId.toNat < count)
    {field : Offset} (small : field.toNat < 5) :
    entryOffset slotId field = entryAt slotId.toNat + field.toNat := by
  unfold entryAt pageSize at *
  rw [entryOffset, UInt16.toNat_add, UInt16.toNat_add, UInt16.toNat_mul,
    show header.size.toNat = 15 from rfl, show slotEntry.size.toNat = 5 from rfl]
  omega

theorem checkSlot_ok (slots : (directory page).HasSlots count) (below : slotId.toNat < count) :
    checkSlot page slotId = .ok () := by
  refine if_pos ?_
  rw [UInt16.lt_iff_toNat_lt, getPageCapacity_toNat slots]
  exact below

theorem checkSlot_outOfRange (slots : (directory page).HasSlots count)
    (above : count ≤ slotId.toNat) :
    checkSlot page slotId = .error (.slotOutOfRange slotId (getPageCapacity page)) := by
  refine if_neg ?_
  rw [UInt16.lt_iff_toNat_lt, getPageCapacity_toNat slots]
  exact Nat.not_lt.mpr above

theorem isSlotDeleted_eq (slots : (directory page).HasSlots count) (below : slotId.toNat < count) :
    isSlotDeleted page slotId = .ok (slotAt page slotId.toNat).deleted := by
  rw [isSlotDeleted, checkSlot_ok slots below, entryOffset_eq slots.inside below (by decide)]
  rfl

theorem getSlotOffset_eq (slots : (directory page).HasSlots count) (below : slotId.toNat < count) :
    getSlotOffset page slotId = .ok (slotAt page slotId.toNat).offset := by
  rw [getSlotOffset, checkSlot_ok slots below, entryOffset_eq slots.inside below (by decide)]
  rfl

theorem getSlotSize_eq (slots : (directory page).HasSlots count) (below : slotId.toNat < count) :
    getSlotSize page slotId = .ok (slotAt page slotId.toNat).size := by
  rw [getSlotSize, checkSlot_ok slots below, entryOffset_eq slots.inside below (by decide)]
  rfl

/-- The header fields and the entries inside the directory are the same. -/
structure SameDirectory (page page' : FullPage) (count : Nat) : Prop where
  numTuples : getNumTuples page' = getNumTuples page
  freeStart : getStartFreeSpace page' = getStartFreeSpace page
  freeEnd : getEndFreeSpace page' = getEndFreeSpace page
  slot : ∀ index, index < count → slotAt page' index = slotAt page index

/-- What agrees below the end of the directory has the same directory. -/
theorem sameDirectory_of_agree (agree : Agree page page' 0 (entryAt count)) :
    SameDirectory page page' count := by
  unfold entryAt at agree
  refine ⟨getU16_agree agree (Nat.zero_le _) (by simp only [header]; omega),
    getU16_agree agree (Nat.zero_le _) (by simp only [header]; omega),
    getU16_agree agree (Nat.zero_le _) (by simp only [header]; omega), fun index below => ?_⟩
  unfold slotAt entryAt
  rw [agree _ (Nat.zero_le _) (by omega), getU16_agree agree (Nat.zero_le _) (by omega),
    getU16_agree agree (Nat.zero_le _) (by omega)]

/-! ### What a call changes -/

/-- The page has this directory now, and the same bytes from `above` on. -/
structure Edits (page page' : FullPage) (dir : Directory) (above : Nat) : Prop where
  decoded : directory page' = dir
  agree : Agree page page' above pageSize

theorem Edits.trans {page'' : FullPage} {dir dir' : Directory} {above : Nat}
    (first : Edits page page' dir above) (second : Edits page' page'' dir' above) :
    Edits page page'' dir' above where
  decoded := second.decoded
  agree position bound inside :=
    (second.agree position bound inside).trans (first.agree position bound inside)

theorem Edits.mono {dir : Directory} {above above' : Nat} (edits : Edits page page' dir above)
    (order : above ≤ above') : Edits page page' dir above' where
  decoded := edits.decoded
  agree position bound inside := edits.agree position (by omega) inside

/-- A header field is written; no byte above the header changes. -/
theorem edits_setU16 {position : Nat} {value : UInt16} {dir : Directory}
    (decoded : directory (setU16 page position value) = dir) (below : position + 2 ≤ 15)
    (count : Nat) : Edits page (setU16 page position value) dir (entryAt count) where
  decoded := decoded
  agree := agree_writeBytes page (Or.inl (by rw [length_leBytes, entryAt]; omega))

theorem edits_setNumTuples (page : FullPage) (numTuples : UInt16) (count : Nat) :
    Edits page (setNumTuples page numTuples) { directory page with numTuples } (entryAt count) :=
  edits_setU16 (directory_setNumTuples page numTuples) (by decide) count

theorem edits_setStartFreeSpace (page : FullPage) (offset : Offset) (count : Nat) :
    Edits page (setStartFreeSpace page offset) { directory page with freeStart := offset }
      (entryAt count) :=
  edits_setU16 (directory_setStartFreeSpace page offset) (by decide) count

theorem edits_setEndFreeSpace (page : FullPage) (offset : Offset) (count : Nat) :
    Edits page (setEndFreeSpace page offset) { directory page with freeEnd := offset }
      (entryAt count) :=
  edits_setU16 (directory_setEndFreeSpace page offset) (by decide) count

/-- A write inside one entry changes that slot only. -/
theorem edits_entry (slots : (directory page).HasSlots count) {index : Nat} (below : index < count)
    {start : Nat} {bytes : List UInt8} {slot : Slot} (lower : entryAt index ≤ start)
    (upper : start + bytes.length ≤ entryAt index + 5)
    (decoded : slotAt (writeBytes page start bytes) index = slot) :
    Edits page (writeBytes page start bytes) ((directory page).setSlot index slot)
      (entryAt count) := by
  have inside := slots.inside
  unfold entryAt at *
  refine ⟨?_, agree_writeBytes page (Or.inl (by omega))⟩
  apply Directory.ext
  · exact getU16_writeBytes page (Or.inr (by simp only [header]; omega))
  · exact getU16_writeBytes page (Or.inr (by simp only [header]; omega))
  · exact getU16_writeBytes page (Or.inr (by simp only [header]; omega))
  · funext other
    show slotAt _ other = Function.update (slotAt page) index slot other
    by_cases same : other = index
    · rw [same, Function.update_self]
      exact decoded
    · rw [Function.update_of_ne same]
      apply slotAt_writeBytes
      unfold entryAt
      omega

theorem setSlotDeleted_edits (slots : (directory page).HasSlots count)
    (below : slotId.toNat < count) (deleted : Bool) :
    ∃ page', setSlotDeleted page slotId deleted = .ok page' ∧
      Edits page page' ((directory page).setSlot slotId.toNat
        { slotAt page slotId.toNat with deleted }) (entryAt count) := by
  have place : entryOffset slotId slotEntry.deleted = _ :=
    entryOffset_eq slots.inside below (by decide)
  refine ⟨_, by rw [setSlotDeleted, checkSlot_ok slots below]; rfl, ?_⟩
  rw [place]
  have length : [if deleted then (1 : UInt8) else 0].length = 1 := rfl
  apply edits_entry slots below (Nat.le_add_right _ _)
    (by rw [length, show slotEntry.deleted.toNat = 0 from rfl]; omega)
  have inside := slots.inside
  apply Slot.ext
  · have written : byteAt (writeBytes page (entryAt slotId.toNat) [if deleted then 1 else 0])
        (entryAt slotId.toNat) = if deleted then 1 else 0 := by
      rw [byteAt_writeBytes_inside page _ (Nat.le_refl _) (Nat.lt_succ_self _), Nat.sub_self]
      · rfl
      · rw [length]
        unfold entryAt at *
        omega
    refine (congrArg (fun byte => decide (0 < byte)) written).trans ?_
    cases deleted <;> rfl
  · exact getU16_writeBytes page (Or.inl (Nat.le_refl _))
  · exact getU16_writeBytes page (Or.inl (Nat.add_le_add_left (by rw [length]; decide) _))

theorem setSlotOffset_edits (slots : (directory page).HasSlots count)
    (below : slotId.toNat < count) (offset : Offset) :
    ∃ page', setSlotOffset page slotId offset = .ok page' ∧
      Edits page page' ((directory page).setSlot slotId.toNat
        { slotAt page slotId.toNat with offset }) (entryAt count) := by
  have place : entryOffset slotId slotEntry.offset = _ :=
    entryOffset_eq slots.inside below (by decide)
  refine ⟨_, by rw [setSlotOffset, checkSlot_ok slots below]; rfl, ?_⟩
  rw [place]
  have inside := slots.inside
  apply edits_entry slots below (Nat.le_add_right _ _)
    (by rw [length_leBytes, show slotEntry.offset.toNat = 1 from rfl]; omega)
  apply Slot.ext
  · exact congrArg (fun byte => decide (0 < byte)) (byteAt_writeBytes_outside page (Or.inl
      (Nat.lt_succ_self _)))
  · refine getU16_setU16 page ?_ offset
    unfold entryAt pageSize at *
    rw [show slotEntry.offset.toNat = 1 from rfl]
    omega
  · exact getU16_writeBytes page (Or.inl (by
      rw [length_leBytes, show slotEntry.offset.toNat = 1 from rfl]))

theorem setSlotSize_edits (slots : (directory page).HasSlots count)
    (below : slotId.toNat < count) (size : UInt16) :
    ∃ page', setSlotSize page slotId size = .ok page' ∧
      Edits page page' ((directory page).setSlot slotId.toNat
        { slotAt page slotId.toNat with size }) (entryAt count) := by
  have place : entryOffset slotId slotEntry.tupleSize = _ :=
    entryOffset_eq slots.inside below (by decide)
  refine ⟨_, by rw [setSlotSize, checkSlot_ok slots below]; rfl, ?_⟩
  rw [place]
  have inside := slots.inside
  apply edits_entry slots below (Nat.le_add_right _ _)
    (by rw [length_leBytes, show slotEntry.tupleSize.toNat = 3 from rfl])
  apply Slot.ext
  · refine congrArg (fun byte => decide (0 < byte)) (byteAt_writeBytes_outside page (Or.inl ?_))
    rw [show slotEntry.tupleSize.toNat = 3 from rfl]
    omega
  · exact getU16_writeBytes page (Or.inr (Nat.le_refl _))
  · refine getU16_setU16 page ?_ size
    unfold entryAt pageSize at *
    rw [show slotEntry.tupleSize.toNat = 3 from rfl]
    omega

end Entries

end Page

end Yadb
