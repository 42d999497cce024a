/-
**Identifiers and constants of the on-disk storage.**

The 32-bit file and page ids, the 16-bit slot ids and the 64-bit row ids of `types.h`, and the
constants of `constants.h`. A page is its `pageSize` bytes. `rowId_pageId` and `rowId_slotId`: a
row id unpacks to the pair it was packed from, so packing is injective (`makeRowId_injective`).
-/

import Mathlib.Data.Nat.Bitwise
import Mathlib.Tactic.Ring

namespace Yadb

abbrev FileId := UInt32
abbrev PageId := UInt32
abbrev SlotId := UInt16
abbrev RowId := UInt64

/-- `PAGE_SIZE`. -/
def pageSize : Nat := 4096

/-- `FullPage` / `MutFullPage`: the bytes of an entire page. -/
abbrev FullPage := Fin pageSize → UInt8

/-- `file_page_id_t`. -/
@[ext]
structure FilePageId where
  fileId : FileId
  pageId : PageId
  deriving DecidableEq, Repr

def invalidFileId : FileId := 0xFFFFFFFF

def diskTableMappingFileId : FileId := 0

def nullPageId : PageId := 0xFFFFFFFF

def rootPageId : PageId := 0

def maxFileIdRetries : Nat := 10

def isReservedFileId (fileId : FileId) : Bool := fileId == diskTableMappingFileId

/-! ### Row ids -/

/-- The page id in the upper bits, the slot id in the lowest sixteen. -/
def makeRowId (pageId : PageId) (slotId : SlotId) : RowId :=
  (pageId.toUInt64 <<< 16) ||| slotId.toUInt64

def getPageIdFromRowId (rowId : RowId) : PageId := (rowId >>> 16).toUInt32

def getSlotIdFromRowId (rowId : RowId) : SlotId := (rowId &&& 0xFFFF).toUInt16

/-- The two parts of a row id do not overlap, so packing them is a sum. -/
theorem makeRowId_toNat (pageId : PageId) (slotId : SlotId) :
    (makeRowId pageId slotId).toNat = pageId.toNat * 2 ^ 16 + slotId.toNat := by
  have pageBound : pageId.toNat < 2 ^ 32 := pageId.toNat_lt
  have slotBound : slotId.toNat < 2 ^ 16 := slotId.toNat_lt
  have shifted : (pageId.toUInt64 <<< 16).toNat = pageId.toNat <<< 16 := by
    rw [UInt64.toNat_shiftLeft]
    simp only [UInt32.toNat_toUInt64, UInt64.reduceToNat, Nat.reduceMod]
    rw [Nat.mod_eq_of_lt]
    rw [Nat.shiftLeft_eq]
    omega
  rw [makeRowId, UInt64.toNat_or, shifted, UInt16.toNat_toUInt64,
    ← Nat.shiftLeft_add_eq_or_of_lt slotBound, Nat.shiftLeft_eq]

theorem rowId_pageId (pageId : PageId) (slotId : SlotId) :
    getPageIdFromRowId (makeRowId pageId slotId) = pageId := by
  have pageBound : pageId.toNat < 2 ^ 32 := pageId.toNat_lt
  have slotBound : slotId.toNat < 2 ^ 16 := slotId.toNat_lt
  apply UInt32.toNat.inj
  rw [getPageIdFromRowId, UInt64.toNat_toUInt32, UInt64.toNat_shiftRight, makeRowId_toNat]
  simp only [UInt64.reduceToNat, Nat.reduceMod, Nat.shiftRight_eq_div_pow]
  omega

theorem rowId_slotId (pageId : PageId) (slotId : SlotId) :
    getSlotIdFromRowId (makeRowId pageId slotId) = slotId := by
  have slotBound : slotId.toNat < 2 ^ 16 := slotId.toNat_lt
  apply UInt16.toNat.inj
  rw [getSlotIdFromRowId, UInt64.toNat_toUInt16, UInt64.toNat_and, makeRowId_toNat]
  rw [show (0xFFFF : UInt64).toNat = 2 ^ 16 - 1 from rfl, Nat.and_two_pow_sub_one_eq_mod]
  omega

/-- **Packing is injective**: a row id names one slot of one page. -/
theorem makeRowId_injective {pageId pageId' : PageId} {slotId slotId' : SlotId}
    (same : makeRowId pageId slotId = makeRowId pageId' slotId') :
    pageId = pageId' ∧ slotId = slotId' := by
  have samePage := congrArg getPageIdFromRowId same
  have sameSlot := congrArg getSlotIdFromRowId same
  rw [rowId_pageId, rowId_pageId] at samePage
  rw [rowId_slotId, rowId_slotId] at sameSlot
  exact ⟨samePage, sameSlot⟩

end Yadb
