/-
**How `AllocatePage` makes a file longer.**

Where no page of a file is free, its capacity is doubled, and a loop makes the new pages free behind
the one that is handed out. The loop counts page ids in 32 bits up to a capacity of 64 bits.

* `GrowthLaw`: the loop ends, and the pages it makes free are the new ones behind the first.
* `Grows.small`, `Grows.large`: below `2 ^ 31` pages it is so. From there on the doubled capacity is
  no 32-bit number, and the counter starts again from zero before it comes there.
* `diverges_iff`: the call is said to diverge exactly if its loop does not end.
* `growth_iff`: growth keeps its law exactly below `2 ^ 31` pages.
-/

import Yadb.Storage.Disk.Offsets

namespace Yadb

open Foundation

/-- The loop over the new page ids comes to its end. -/
def DiskFile.LoopEnds (file : DiskFile) : Prop :=
  ∃ last, (insertLoop file.newCapacity).Ends
    (UInt32.ofNat file.pageCapacity + 1, file.freePages) last

namespace DiskManager

/-- `AllocatePage` comes to the branch that makes the file longer, and every call to the file system
succeeds. -/
structure Grows (manager : DiskManager) (fileId : FileId) (io : DiskIO) (file : DiskFile) :
    Prop where
  present : manager.files fileId = some file
  noFree : file.freePages = []
  opens : io.opens = true
  sized : io.sizeFault = none
  resized : io.resizeFault = none

/-- **What growth should do**, from its answer and the manager after it: it returns, with an error
before the loop or with the first new page after it. No page was free before, so the free pages after
it are those it added. -/
structure GrowthLaw (fileId : FileId) (file : DiskFile) (grown : DiskAnswer × DiskManager) :
    Prop where
  terminates : (∃ failure, grown.1 = .failed failure) ∨ file.LoopEnds
  answers : (∃ failure, grown.1 = .failed failure) ∨
    ∃ pageId, grown.1 = .page pageId ∧ pageId.toNat = file.pageCapacity ∧
      ∀ other ∈ grown.2.freeOf fileId, file.pageCapacity < other.toNat ∧
        other.toNat < grown.2.capacityOf fileId ∧ other ≠ nullPageId
  complete : 2 * file.pageCapacity < 2 ^ 32 → ∀ other, other ∈ grown.2.freeOf fileId ↔
    file.pageCapacity < other.toNat ∧ other.toNat < grown.2.capacityOf fileId

variable {manager : DiskManager} {fileId : FileId} {io : DiskIO} {file : DiskFile}

theorem freeOf_setFile (file : DiskFile) :
    (manager.setFile fileId (some file)).freeOf fileId = file.freePages := by
  rw [freeOf, setFile_self]
  rfl

theorem capacityOf_setFile (file : DiskFile) :
    (manager.setFile fileId (some file)).capacityOf fileId = file.pageCapacity := by
  rw [capacityOf, setFile_self]
  rfl

namespace Grows

variable (grows : Grows manager fileId io file)
include grows

/-- The call is the loop, on the file at its new size. -/
theorem allocatePage_eq : manager.allocatePage fileId io
    = match insertIds file.newCapacity idCount (UInt32.ofNat file.pageCapacity + 1) [] with
      | none => (.diverges, manager.setFile fileId
          (some (file.opened.resize (file.newCapacity * pageSize))))
      | some freePages => (.page (UInt32.ofNat file.pageCapacity), manager.setFile fileId
          (some ((file.resize (file.newCapacity * pageSize)).setFree freePages))) := by
  have noFree : (file.handle.getD {}).freePages = [] := grows.noFree
  rw [allocatePage, getFileHandle_present grows.present grows.opens]
  simp only [noFree, growFile, grows.sized, grows.resized, DiskFile.opened_capacity,
    DiskFile.opened_newCapacity]
  rfl

/-- Below `2 ^ 31` pages the first new page is handed out, and all behind it are made free. -/
theorem returns (small : file.pageCapacity < 2 ^ 31) : file.LoopEnds ∧
    (manager.allocatePage fileId io).1 = .page (UInt32.ofNat file.pageCapacity) ∧
    (manager.allocatePage fileId io).2.capacityOf fileId = file.newCapacity ∧
    ∀ other, other ∈ (manager.allocatePage fileId io).2.freeOf fileId ↔
      file.pageCapacity < other.toNat ∧ other.toNat < file.newCapacity := by
  obtain ⟨freePages, run, _, members⟩ := DiskFile.insertIds_small small
  obtain ⟨last, ends⟩ := insertLoop_ends_iff.mpr ⟨idCount, run⟩
  rw [grows.allocatePage_eq, run]
  refine ⟨⟨(last, freePages), ?_⟩, rfl, ?_, fun other => ?_⟩
  · rw [grows.noFree]
    exact ends
  · rw [capacityOf_setFile, DiskFile.setFree_capacity, DiskFile.resize_capacity]
  · rw [freeOf_setFile, DiskFile.setFree_freePages, members]

/-- **Below `2 ^ 31` pages** growth keeps its law. -/
theorem small (small : file.pageCapacity < 2 ^ 31) :
    GrowthLaw fileId file (manager.allocatePage fileId io) := by
  obtain ⟨ends, answer, capacity, members⟩ := grows.returns small
  have below := DiskFile.newCapacity_small small
  refine ⟨Or.inr ends, Or.inr ⟨_, answer, ?_, fun other member => ?_⟩, fun _ other => ?_⟩
  · rw [UInt32.toNat_ofNat', Nat.mod_eq_of_lt (by omega)]
  · obtain ⟨above, inside⟩ := (members other).mp member
    refine ⟨above, capacity ▸ inside, ?_⟩
    rintro rfl
    have isLast : nullPageId.toNat = 2 ^ 32 - 1 := rfl
    omega
  · rw [capacity, members]

/-- From `2 ^ 31` pages on the loop does not end. -/
theorem neverReturns (large : 2 ^ 31 ≤ file.pageCapacity) :
    (manager.allocatePage fileId io).1 = .diverges ∧ ¬ file.LoopEnds := by
  have wide := DiskFile.newCapacity_wide large
  refine ⟨?_, fun ⟨last, ends⟩ => insertLoop_not_ends wide _ last ends⟩
  rw [grows.allocatePage_eq, insertIds_none wide]

/-- **From `2 ^ 31` pages on** growth breaks its law. -/
theorem large (large : 2 ^ 31 ≤ file.pageCapacity) :
    ¬ GrowthLaw fileId file (manager.allocatePage fileId io) := by
  obtain ⟨diverges, notEnds⟩ := grows.neverReturns large
  intro law
  rcases law.terminates with ⟨failure, failed⟩ | ends
  · cases diverges.symm.trans failed
  · exact notEnds ends

/-- **The answer of a call whose loop does not end.** -/
theorem diverges_iff : (manager.allocatePage fileId io).1 = .diverges ↔ ¬ file.LoopEnds := by
  by_cases small : file.pageCapacity < 2 ^ 31
  · obtain ⟨ends, answer, _⟩ := grows.returns small
    refine iff_of_false ?_ (not_not.mpr ends)
    rw [answer]
    exact nofun
  · obtain ⟨diverges, notEnds⟩ := grows.neverReturns (Nat.not_lt.mp small)
    exact iff_of_true diverges notEnds

end Grows

/-- **Growth keeps its law exactly below `2 ^ 31` pages.** -/
theorem growth_iff (grows : Grows manager fileId io file) :
    GrowthLaw fileId file (manager.allocatePage fileId io) ↔ file.pageCapacity < 2 ^ 31 := by
  constructor
  · intro law
    by_contra notSmall
    exact grows.large (Nat.not_lt.mp notSmall) law
  · exact grows.small

/-- The file of `oneFile`. -/
def zeroPages (pages : Nat) : DiskFile :=
  { size := pages * pageSize, bytes := fun _ => 0, handle := none }

theorem oneFile_grows (pages : Nat) : Grows (.oneFile pages) 5 {} (zeroPages pages) :=
  ⟨rfl, rfl, rfl, rfl, rfl⟩

theorem zeroPages_capacity (pages : Nat) : (zeroPages pages).pageCapacity = pages :=
  Nat.mul_div_cancel pages (by decide)

/-- A file of two pages grows to four. -/
theorem growth_twoPages :
    GrowthLaw 5 (zeroPages 2) ((DiskManager.oneFile 2).allocatePage 5 {}) :=
  (growth_iff (oneFile_grows 2)).mpr (by decide)

/-- A file of `2 ^ 31` pages does not grow. -/
theorem growth_neverReturns : Grows (.oneFile (2 ^ 31)) 5 {} (zeroPages (2 ^ 31)) ∧
    (zeroPages (2 ^ 31)).pageCapacity < 2 ^ 32 ∧
    ¬ GrowthLaw 5 (zeroPages (2 ^ 31)) ((DiskManager.oneFile (2 ^ 31)).allocatePage 5 {}) := by
  have grows := oneFile_grows (2 ^ 31)
  have capacity := zeroPages_capacity (2 ^ 31)
  refine ⟨grows, ?_, grows.large capacity.ge⟩
  rw [capacity]
  decide

end DiskManager

end Yadb
