/-
**The slotted page format.**

`page_format.h` and `page_format.cpp` over the bytes of a page: the header fields, the slot
directory that grows down from them, the records that grow up from the end, and the functions that
allocate, reuse, delete and compact. Fields are stored little-endian.

* Header fields, slot ids and offsets are 16 bits wide, record sizes 64 bits, as in the source; a
  conversion is written where the source has one.
* Every access to a slot checks it first and fails with a `PageAssertion` where the source asserts.
* `readRecord` returns the bytes of the slice it gives; `writeRecord` returns the slice, through
  which a client then writes.
* `vacuumPage` takes its slots from a priority queue, which leaves the order of equal offsets open:
  `rank` is that order.

The checksum field is not modelled here: no function of this module reads or writes it.
-/

import Mathlib.Data.List.Sort
import Yadb.Foundation.Bytes
import Yadb.Storage.Types

namespace Yadb

open Foundation

/-- `offset_t`. -/
abbrev Offset := UInt16

/-- `PageType`. -/
inductive PageType
  | data
  | bpTreeInner
  | bpTreeLeaf
  deriving DecidableEq

def PageType.code : PageType → UInt8
  | .data => 0x0
  | .bpTreeInner => 0x1
  | .bpTreeLeaf => 0x2

/-- Where the header fields are, and the size of the header. -/
structure HeaderLayout where
  pageType : Nat
  numTuples : Nat
  freeStart : Nat
  freeEnd : Nat
  size : Offset

def header : HeaderLayout where
  pageType := 8
  numTuples := 9
  freeStart := 11
  freeEnd := 13
  size := 15

/-- Where the fields of a slot entry are, and the size of an entry. -/
structure SlotEntryLayout where
  deleted : Offset
  offset : Offset
  tupleSize : Offset
  size : Offset

def slotEntry : SlotEntryLayout where
  deleted := 0
  offset := 1
  tupleSize := 3
  size := 5

/-- The assertions of the page functions. -/
inductive PageAssertion
  | slotOutOfRange (slotId : SlotId) (capacity : UInt16)
  | slotDeleted (slotId : SlotId)
  deriving DecidableEq

def PageAssertion.message : PageAssertion → String
  | .slotOutOfRange slotId capacity =>
      "Slot id " ++ toString slotId ++ " is out of range [0, " ++ toString capacity ++ "]\n"
  | .slotDeleted slotId => "Slot " ++ toString slotId ++ " is deleted"

def getU16 (page : FullPage) (position : Nat) : UInt16 :=
  UInt16.ofNat (leValue (readBytes page position 2))

def setU16 (page : FullPage) (position : Nat) (value : UInt16) : FullPage :=
  writeBytes page position (leBytes 2 value.toNat)

namespace Page

/-! ### Header -/

def getNumTuples (page : FullPage) : UInt16 := getU16 page header.numTuples

def getStartFreeSpace (page : FullPage) : Offset := getU16 page header.freeStart

def getEndFreeSpace (page : FullPage) : Offset := getU16 page header.freeEnd

/-- The difference is cut to 16 bits. -/
def getFreeSpaceSize (page : FullPage) : Offset := getEndFreeSpace page - getStartFreeSpace page

def setPageType (page : FullPage) (pageType : PageType) : FullPage :=
  writeBytes page header.pageType [pageType.code]

def setNumTuples (page : FullPage) (numTuples : UInt16) : FullPage :=
  setU16 page header.numTuples numTuples

def setStartFreeSpace (page : FullPage) (offset : Offset) : FullPage :=
  setU16 page header.freeStart offset

def setEndFreeSpace (page : FullPage) (offset : Offset) : FullPage :=
  setU16 page header.freeEnd offset

def initPage (page : FullPage) (pageType : PageType) : FullPage :=
  let page := setPageType page pageType
  let page := setNumTuples page 0
  let page := setStartFreeSpace page header.size
  setEndFreeSpace page (UInt16.ofNat pageSize)

/-! ### Slot directory -/

/-- The number of entries before an offset, by signed division, cut to 16 bits. -/
def entriesBefore (start : Offset) : UInt16 :=
  UInt16.ofInt (((start.toNat : Int) - (header.size.toNat : Int)).tdiv (slotEntry.size.toNat : Int))

def getPageCapacity (page : FullPage) : UInt16 := entriesBefore (getStartFreeSpace page)

/-- Where a field of a slot entry is, cut to 16 bits. -/
def entryOffset (slotId : SlotId) (field : Offset) : Nat :=
  (header.size + slotId * slotEntry.size + field).toNat

/-- The assertion at the head of every access to a slot. -/
def checkSlot (page : FullPage) (slotId : SlotId) : Except PageAssertion Unit :=
  if slotId < getPageCapacity page then .ok ()
  else .error (.slotOutOfRange slotId (getPageCapacity page))

def isSlotDeleted (page : FullPage) (slotId : SlotId) : Except PageAssertion Bool := do
  checkSlot page slotId
  return decide (0 < byteAt page (entryOffset slotId slotEntry.deleted))

def getSlotOffset (page : FullPage) (slotId : SlotId) : Except PageAssertion Offset := do
  checkSlot page slotId
  return getU16 page (entryOffset slotId slotEntry.offset)

def getSlotSize (page : FullPage) (slotId : SlotId) : Except PageAssertion UInt16 := do
  checkSlot page slotId
  return getU16 page (entryOffset slotId slotEntry.tupleSize)

def setSlotDeleted (page : FullPage) (slotId : SlotId) (deleted : Bool) :
    Except PageAssertion FullPage := do
  checkSlot page slotId
  return writeBytes page (entryOffset slotId slotEntry.deleted) [if deleted then 1 else 0]

def setSlotOffset (page : FullPage) (slotId : SlotId) (offset : Offset) :
    Except PageAssertion FullPage := do
  checkSlot page slotId
  return setU16 page (entryOffset slotId slotEntry.offset) offset

def setSlotSize (page : FullPage) (slotId : SlotId) (size : UInt16) :
    Except PageAssertion FullPage := do
  checkSlot page slotId
  return setU16 page (entryOffset slotId slotEntry.tupleSize) size

/-! ### Records -/

/-- `MutPageSlice`: a part of the page. -/
structure Slice where
  offset : Offset
  size : UInt16
  deriving DecidableEq

/-- Bytes are written inside a slice, from a position in it. -/
def Slice.write (slice : Slice) (page : FullPage) (position : Nat) (bytes : List UInt8) : FullPage :=
  writeBytes page (slice.offset.toNat + position) bytes

/-- What `ReadRecord` and `WriteRecord` both do. -/
def recordSlice (page : FullPage) (slotId : SlotId) : Except PageAssertion Slice := do
  checkSlot page slotId
  if ← isSlotDeleted page slotId then throw (.slotDeleted slotId)
  return ⟨← getSlotOffset page slotId, ← getSlotSize page slotId⟩

def readRecord (page : FullPage) (slotId : SlotId) : Except PageAssertion (List UInt8) := do
  let slice ← recordSlice page slotId
  return readBytes page slice.offset.toNat slice.size.toNat

def writeRecord (page : FullPage) (slotId : SlotId) : Except PageAssertion Slice :=
  recordSlice page slotId

/-- Room for a record, taken from the end of the free space. -/
def takeSpace (page : FullPage) (size : UInt64) : Offset × FullPage :=
  let recordOffset := ((getEndFreeSpace page).toUInt64 - size).toUInt16
  (recordOffset, setEndFreeSpace page recordOffset)

def allocateSlot (page : FullPage) (size : UInt64) :
    Except PageAssertion (Option SlotId × FullPage) :=
  if slotEntry.size.toUInt64 + size > (getFreeSpaceSize page).toUInt64 then .ok (none, page)
  else do
    let (recordOffset, page) := takeSpace page size
    let newSlotId := entriesBefore (getStartFreeSpace page)
    let page := setStartFreeSpace page (getStartFreeSpace page + slotEntry.size)
    let page ← setSlotDeleted page newSlotId false
    let page ← setSlotOffset page newSlotId recordOffset
    let page ← setSlotSize page newSlotId size.toUInt16
    return (some newSlotId, setNumTuples page (getNumTuples page + 1))

/-- What the loop of `AllocateSlotOrReuseSlot` does with the slot it takes. -/
def reuseSlot (page : FullPage) (slotId : SlotId) (size : UInt64) :
    Except PageAssertion (Option SlotId × FullPage) := do
  let page ← setSlotDeleted page slotId false
  let page ← setSlotSize page slotId size.toUInt16
  return (some slotId, setNumTuples page (getNumTuples page + 1))

/-- The loop of `AllocateSlotOrReuseSlot`, over the slots still to be looked at. -/
def reuseLoop (page : FullPage) (size : UInt64) :
    List SlotId → Except PageAssertion (Option SlotId × FullPage)
  | [] => allocateSlot page size
  | slotId :: rest => do
      if !(← isSlotDeleted page slotId) then reuseLoop page size rest
      else if size > (← getSlotSize page slotId).toUInt64 then
        if size > (getFreeSpaceSize page).toUInt64 then reuseLoop page size rest
        else
          let (recordOffset, page) := takeSpace page size
          let page ← setSlotOffset page slotId recordOffset
          reuseSlot page slotId size
      else reuseSlot page slotId size

/-- The slot ids below a capacity. -/
def slotIds (capacity : UInt16) : List SlotId := (List.range capacity.toNat).map UInt16.ofNat

def allocateSlotOrReuseSlot (page : FullPage) (size : UInt64) :
    Except PageAssertion (Option SlotId × FullPage) :=
  reuseLoop page size (slotIds (getPageCapacity page))

def deleteSlot (page : FullPage) (slotId : SlotId) : Except PageAssertion FullPage :=
  setSlotDeleted (setNumTuples page (getNumTuples page - 1)) slotId true

/-! ### Vacuum -/

/-- The `SlotEntry` of `VacuumPage`. -/
structure VacuumEntry where
  slotId : SlotId
  offset : Offset
  size : UInt16
  deriving DecidableEq

/-- The first loop of `VacuumPage`: deleted slots get size zero, the others are queued. -/
def queueSlots (page : FullPage) :
    List SlotId → Except PageAssertion (List VacuumEntry × FullPage)
  | [] => .ok ([], page)
  | slotId :: rest => do
      let entry : VacuumEntry := ⟨slotId, ← getSlotOffset page slotId, ← getSlotSize page slotId⟩
      if ← isSlotDeleted page slotId then
        queueSlots (← setSlotSize page slotId 0) rest
      else
        let (entries, page) ← queueSlots page rest
        return (entry :: entries, page)

/-- The entry leaves the queue no later than the other. -/
def popsBefore (rank : SlotId → Nat) (entry other : VacuumEntry) : Prop :=
  other.offset < entry.offset ∨
    (other.offset = entry.offset ∧ rank entry.slotId ≤ rank other.slotId)

instance (rank : SlotId → Nat) : DecidableRel (popsBefore rank) := fun _ _ =>
  inferInstanceAs (Decidable (_ ∨ _))

/-- The second loop of `VacuumPage`: move each record up to the end of the free space. -/
def compactRecords (page : FullPage) (freespaceEnd : Offset) :
    List VacuumEntry → Except PageAssertion (Offset × FullPage)
  | [] => .ok (freespaceEnd, page)
  | entry :: rest => do
      let freespaceEnd := freespaceEnd - entry.size
      let page := moveBytes page freespaceEnd.toNat entry.offset.toNat entry.size.toNat
      let page ← setSlotOffset page entry.slotId freespaceEnd
      compactRecords page freespaceEnd rest

def vacuumPage (page : FullPage) (rank : SlotId → Nat) : Except PageAssertion FullPage := do
  let (entries, page) ← queueSlots page (slotIds (getPageCapacity page))
  let queue := entries.insertionSort (popsBefore rank)
  let (freespaceEnd, page) ← compactRecords page (UInt16.ofNat pageSize) queue
  return setEndFreeSpace page freespaceEnd

end Page

end Yadb
