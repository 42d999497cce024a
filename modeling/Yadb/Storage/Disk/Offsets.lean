/-
**Where pages lie in their file, and when the disk manager is a page store.**

`getOffset` multiplies in 32 bits, so the offsets of two pages agree as soon as their ids agree
modulo `2 ^ 20`. Free pages lie in the upper half of the file that growth added, so a page id of `2
^ 20` or above is never in use without the one below it that it collides with.

* `separate_iff`: the pages in use are disjoint and inside the file if and only if their ids all lie
  below `2 ^ 20`.
* `pageStore_iff`: over every run of allocations and transfers, pages stay disjoint, reads return
  what was last written and writes leave the other pages alone, **if and only if** no id of `2 ^ 20`
  or above comes into use.
-/

import Mathlib.Data.UInt
import Yadb.Storage.Disk.Allocation

namespace Yadb

open Foundation

/-! ### Bytes of a file -/

namespace DiskFile

variable {file : DiskFile}

theorem pageAt_writeAt (offset : Nat) (page : FullPage) :
    (file.writeAt offset page).pageAt offset = page := by
  funext index
  have inside : offset ≤ offset + index.val ∧ offset + index.val < offset + pageSize := by
    have bound := index.isLt
    omega
  refine (dif_pos inside).trans (congrArg page ?_)
  exact Fin.ext (Nat.add_sub_cancel_left offset index.val)

theorem pageAt_writeAt_disjoint {offset other : Nat}
    (disjoint : offset + pageSize ≤ other ∨ other + pageSize ≤ offset) (page : FullPage) :
    (file.writeAt offset page).pageAt other = file.pageAt other := by
  funext index
  have bound := index.isLt
  have outside : ¬ (offset ≤ other + index.val ∧ other + index.val < offset + pageSize) := by
    omega
  exact dif_neg outside

theorem pageAt_resize {offset : Nat} (inside : offset + pageSize ≤ file.size) (size : Nat) :
    (file.resize size).pageAt offset = file.pageAt offset := by
  funext index
  have bound := index.isLt
  unfold pageAt resize
  exact if_pos (by omega)

/-- The pages in use are disjoint, and inside the file. -/
def Separate (file : DiskFile) : Prop :=
  ∀ pageId, file.inIndex pageId = true → getOffset pageId + pageSize ≤ file.size ∧
    ∀ other, file.inIndex other = true → pageId ≠ other →
      getOffset pageId + pageSize ≤ getOffset other ∨
        getOffset other + pageSize ≤ getOffset pageId

/-- Every id in use lies below `2 ^ 20`. -/
def IdsBelow (file : DiskFile) : Prop :=
  ∀ pageId, file.inIndex pageId = true → pageId.toNat < 2 ^ 20

/-- Free pages differ from each other and lie in the upper half of the file. -/
structure UpperHalfFree (file : DiskFile) : Prop where
  distinct : file.freePages.Nodup
  upper : ∀ pageId ∈ file.freePages, file.pageCapacity < 2 * pageId.toNat
  inside : ∀ pageId ∈ file.freePages, pageId.toNat < file.pageCapacity

theorem UpperHalfFree.congr {file' : DiskFile} (free : file.UpperHalfFree)
    (capacity : file'.pageCapacity = file.pageCapacity)
    (freePages : file'.freePages = file.freePages) : file'.UpperHalfFree where
  distinct := freePages ▸ free.distinct
  upper := by
    rw [freePages, capacity]
    exact free.upper
  inside := by
    rw [freePages, capacity]
    exact free.inside

theorem UpperHalfFree.none (free : file.freePages = []) : file.UpperHalfFree where
  distinct := free ▸ List.nodup_nil
  upper := by rw [free]; nofun
  inside := by rw [free]; nofun

theorem getOffset_below {pageId : PageId} (below : pageId.toNat < 2 ^ 20) :
    getOffset pageId = pageId.toNat * pageSize := by
  rw [DiskManager.getOffset_eq, Nat.mod_eq_of_lt below]

theorem IdsBelow.separate (below : file.IdsBelow) : file.Separate := by
  intro pageId index
  refine ⟨DiskManager.getOffset_inside (inIndex_iff.mp index).1, fun other otherIndex different => ?_⟩
  rw [getOffset_below (below pageId index), getOffset_below (below other otherIndex)]
  have ids : pageId.toNat ≠ other.toNat := fun same => different (UInt32.toNat.inj same)
  simp only [pageSize]
  omega

/-- An id in use from `2 ^ 20` on collides with a smaller one in use. -/
theorem Separate.idsBelow (separate : file.Separate) (free : file.UpperHalfFree) :
    file.IdsBelow := by
  intro pageId index
  by_contra above
  have bound : pageId.toNat < 2 ^ 32 := pageId.toNat_lt
  have inside := (inIndex_iff.mp index).1
  have lower : (UInt32.ofNat (pageId.toNat % 2 ^ 20)).toNat = pageId.toNat % 2 ^ 20 := by
    rw [UInt32.toNat_ofNat']
    omega
  have inUse : file.inIndex (UInt32.ofNat (pageId.toNat % 2 ^ 20)) = true := by
    refine inIndex_iff.mpr ⟨by omega, fun member => ?_⟩
    have upper := free.upper _ member
    omega
  have different : pageId ≠ UInt32.ofNat (pageId.toNat % 2 ^ 20) := by
    intro same
    have := congrArg UInt32.toNat same
    omega
  have apart := (separate pageId index).2 _ inUse different
  rw [DiskManager.getOffset_eq, DiskManager.getOffset_eq, lower] at apart
  simp only [pageSize] at apart
  omega

/-- **The pages in use are disjoint if and only if their ids lie below `2 ^ 20`.** -/
theorem separate_iff (free : file.UpperHalfFree) : file.Separate ↔ file.IdsBelow :=
  ⟨fun separate => separate.idsBelow free, IdsBelow.separate⟩

end DiskFile

namespace DiskManager

/-- The page can be read and written. -/
def Allocated (manager : DiskManager) (fpId : FilePageId) : Prop :=
  ∃ file, manager.files fpId.fileId = some file ∧ file.inIndex fpId.pageId = true

theorem allocated_iff {manager : DiskManager} {fpId : FilePageId} :
    manager.Allocated fpId ↔
      (manager.files fpId.fileId).map (fun file => file.inIndex fpId.pageId) = some true := by
  rw [Option.map_eq_some_iff]
  rfl

def pageBytes (manager : DiskManager) (fpId : FilePageId) : Option FullPage :=
  (manager.files fpId.fileId).map fun file => file.pageAt (getOffset fpId.pageId)

def PagesSeparate (manager : DiskManager) : Prop :=
  ∀ fileId file, manager.files fileId = some file → file.Separate

def IdsBelow (manager : DiskManager) : Prop :=
  ∀ fileId file, manager.files fileId = some file → file.IdsBelow

end DiskManager

/-! ### Transfers that succeed -/

theorem Stream.seekg_good {stream : Stream} (good : stream.good = true) :
    stream.seekg.good = true := by
  simp only [Stream.good, Stream.seekg, Bool.and_eq_true, Bool.not_eq_true'] at good ⊢
  exact ⟨⟨trivial, good.1.2⟩, good.2⟩

namespace DiskManager

variable {manager : DiskManager} {fpId : FilePageId} {file : DiskFile} {io : DiskIO}

theorem getFileHandle_present {fileId : FileId} (present : manager.files fileId = some file)
    (opens : io.opens = true) :
    manager.getFileHandle fileId io = .ok (file.opened, file.handle.getD {}) := by
  obtain ⟨size, bytes, handle⟩ := file
  unfold getFileHandle
  cases handle with
  | some handle => simp only [present]; rfl
  | none => simp only [present, if_pos opens]; rfl

/-- A page in use is written, and nothing else of the file changes. -/
theorem writePage_inUse (present : manager.files fpId.fileId = some file)
    (index : file.inIndex fpId.pageId = true)
    (stream : (file.handle.getD {}).fileStream.good = true) (opens : io.opens = true)
    (noFault : io.writeFault = none) (page : FullPage) :
    manager.writePage fpId page io = (.done, manager.setFile fpId.fileId
      (some (file.opened.writeAt (getOffset fpId.pageId) page))) := by
  have same : file.opened.inIndex fpId.pageId = true := index
  unfold writePage withPage
  rw [getFileHandle_present present opens]
  simp only [same, if_true, stream, Bool.not_true, Bool.false_eq_true, if_false, noFault]

/-- A page in use is read, and only the stream changes. -/
theorem readPage_inUse (present : manager.files fpId.fileId = some file)
    (index : file.inIndex fpId.pageId = true)
    (stream : (file.handle.getD {}).fileStream.good = true) (opens : io.opens = true)
    (noFault : io.readFault = false) :
    manager.readPage fpId io = (.read (file.pageAt (getOffset fpId.pageId)),
      manager.setFile fpId.fileId (some { file with
        handle := some { file.handle.getD {} with
          fileStream := (file.handle.getD {}).fileStream.seekg } })) := by
  have same : file.opened.inIndex fpId.pageId = true := index
  have inside : ¬ file.opened.size < getOffset fpId.pageId + pageSize :=
    Nat.not_lt.mpr (getOffset_inside (DiskFile.inIndex_iff.mp index).1)
  unfold readPage withPage
  rw [getFileHandle_present present opens]
  simp only [same, if_true, Stream.seekg_good stream, Bool.not_true, Bool.false_eq_true, if_false,
    noFault, inside]
  rfl

end DiskManager

/-! ### Runs of transfers -/

/-- The operation creates a file, allocates a page or transfers one, and its I/O succeeds. -/
def DiskOp.Transfers : DiskOp → Prop
  | .createFile _ _ => True
  | .createRandomFile _ _ => True
  | .allocatePage _ _ => True
  | .writePage _ _ io => io.opens = true ∧ io.writeFault = none
  | .readPage _ io => io.opens = true ∧ io.readFault = false
  | _ => False

/-- The bytes last written to each page. -/
abbrev Written := FilePageId → Option FullPage

def Written.update (written : Written) : DiskOp → DiskAnswer → Written
  | .writePage fpId page _, .done => Function.update written fpId (some page)
  | _, _ => written

/-- The free pages, the stream and the written pages of one file. -/
structure FileTransfers (file : DiskFile) (written : PageId → Option FullPage) : Prop where
  free : file.UpperHalfFree
  stream : (file.handle.getD {}).fileStream.good = true
  inUse : ∀ pageId, written pageId ≠ none → file.inIndex pageId = true
  last : file.IdsBelow → ∀ pageId bytes, written pageId = some bytes →
    file.pageAt (getOffset pageId) = bytes

namespace FileTransfers

variable {file : DiskFile} {written : PageId → Option FullPage}

/-- Pages stay in use and keep their bytes; the rest may change. -/
theorem extend (ok : FileTransfers file written) {file' : DiskFile} (free : file'.UpperHalfFree)
    (stream : (file'.handle.getD {}).fileStream.good = true)
    (inUse : ∀ pageId, file.inIndex pageId = true → file'.inIndex pageId = true)
    (kept : ∀ pageId, file.inIndex pageId = true →
      file'.pageAt (getOffset pageId) = file.pageAt (getOffset pageId)) :
    FileTransfers file' written where
  free := free
  stream := stream
  inUse pageId isWritten := inUse pageId (ok.inUse pageId isWritten)
  last below pageId bytes isWritten := by
    have index := ok.inUse pageId (by rw [isWritten]; nofun)
    have before : file.IdsBelow := fun other otherIndex => below other (inUse other otherIndex)
    exact (kept pageId index).trans (ok.last before pageId bytes isWritten)

/-- What is kept of the open file changed, but for its free pages. -/
theorem setHandle (ok : FileTransfers file written) {handle : DatabaseFile}
    (freePages : handle.freePages = file.freePages) (stream : handle.fileStream.good = true) :
    FileTransfers { file with handle := some handle } written := by
  have same : ({ file with handle := some handle } : DiskFile).freePages = file.freePages := freePages
  refine ok.extend (ok.free.congr rfl same) stream (fun pageId index => ?_) fun _ _ => rfl
  rw [DiskFile.inIndex_iff, same]
  exact DiskFile.inIndex_iff.mp index

theorem opened (ok : FileTransfers file written) : FileTransfers file.opened written :=
  ok.setHandle rfl ok.stream

theorem reused (ok : FileTransfers file written) (pageId : PageId) :
    FileTransfers (file.setFree (file.freePages.erase pageId)) written := by
  refine ok.extend ⟨ok.free.distinct.erase pageId, fun other member => ?_, fun other member => ?_⟩
    ok.stream (fun other index => ?_) fun _ _ => rfl
  · exact ok.free.upper other (List.mem_of_mem_erase member)
  · exact ok.free.inside other (List.mem_of_mem_erase member)
  · have before := DiskFile.inIndex_iff.mp index
    exact DiskFile.inIndex_iff.mpr
      ⟨before.1, fun member => before.2 (List.mem_of_mem_erase member)⟩

/-- Growth adds free pages above the old capacity only. -/
theorem grown (ok : FileTransfers file written) {freePages : List PageId}
    (distinct : freePages.Nodup) (above : ∀ other ∈ freePages,
      file.pageCapacity < other.toNat ∧ other.toNat < file.newCapacity) :
    FileTransfers ((file.resize (file.newCapacity * pageSize)).setFree freePages) written := by
  have capacity := file.resize_capacity file.newCapacity
  refine ok.extend ⟨distinct, fun other member => ?_, fun other member => ?_⟩ ok.stream
    (fun other index => ?_) fun other index => ?_
  · rw [DiskFile.setFree_capacity, capacity]
    exact file.newCapacity_lt (above other member).1
  · rw [DiskFile.setFree_capacity, capacity]
    exact (above other member).2
  · have before := DiskFile.inIndex_iff.mp index
    rw [DiskFile.inIndex_iff, DiskFile.setFree_capacity, capacity]
    refine ⟨before.1.trans file.lt_newCapacity, fun member => ?_⟩
    have := (above other member).1
    omega
  · exact DiskFile.pageAt_resize
      (DiskManager.getOffset_inside (DiskFile.inIndex_iff.mp index).1) (file.newCapacity * pageSize)

/-- A page in use is written. -/
theorem wrote (ok : FileTransfers file written) {pageId : PageId} (index : file.inIndex pageId = true)
    (page : FullPage) :
    FileTransfers (file.opened.writeAt (getOffset pageId) page)
      (Function.update written pageId (some page)) := by
  have capacity : (file.opened.writeAt (getOffset pageId) page).pageCapacity = file.pageCapacity :=
    DiskManager.writeAt_capacity page (DiskFile.inIndex_iff.mp index).1
  have inUse : ∀ other, file.inIndex other = true →
      (file.opened.writeAt (getOffset pageId) page).inIndex other = true := by
    intro other otherIndex
    rw [DiskFile.inIndex_iff, capacity]
    exact DiskFile.inIndex_iff.mp otherIndex
  refine ⟨ok.free.congr capacity rfl, ok.stream, fun other isWritten => ?_,
    fun below other bytes isWritten => ?_⟩
  · by_cases same : other = pageId
    · exact inUse other (same ▸ index)
    · rw [Function.update_of_ne same] at isWritten
      exact inUse other (ok.inUse other isWritten)
  · by_cases same : other = pageId
    · rw [same, Function.update_self] at isWritten
      rw [same, DiskFile.pageAt_writeAt]
      exact Option.some.inj isWritten
    · rw [Function.update_of_ne same] at isWritten
      have otherIndex := ok.inUse other (by rw [isWritten]; nofun)
      have before : file.IdsBelow := fun one oneIndex => below one (inUse one oneIndex)
      have apart := (before.separate pageId index).2 other otherIndex (Ne.symm same)
      rw [DiskFile.pageAt_writeAt_disjoint apart]
      exact ok.last before other bytes isWritten

end FileTransfers

abbrev TransferState (manager : DiskManager) (written : Written) : Prop :=
  PerFile FileTransfers none manager written

namespace TransferState

variable {manager : DiskManager} {written : Written}

theorem created (ok : TransferState manager written) {fileId : FileId}
    (absent : manager.files fileId = none) :
    TransferState (manager.setFile fileId
      (some { size := 0, bytes := fun _ => 0, handle := none })) written := by
  have nothing : ∀ pageId, written ⟨fileId, pageId⟩ = none :=
    fun pageId => ok.absent ⟨fileId, pageId⟩ absent
  refine ok.setFile ⟨.none rfl, rfl, fun pageId isWritten => ?_, fun _ pageId bytes isWritten => ?_⟩
    fun _ _ => rfl
  · exact absurd (nothing pageId) isWritten
  · cases (nothing pageId).symm.trans isWritten

theorem createRandomFile (ok : TransferState manager written) (opens : Bool)
    (draws : List FileId) :
    TransferState (manager.createRandomFile opens draws).2 written := by
  induction draws with
  | nil => exact ok
  | cons fileId draws ih =>
      unfold DiskManager.createRandomFile
      split
      · exact ih
      · rename_i fresh
        simp only [Bool.or_eq_true, not_or, Bool.not_eq_true, Option.isSome_eq_false_iff,
          Option.isNone_iff_eq_none] at fresh
        split
        · exact ok.created fresh.2
        · exact ok

theorem allocatePage (ok : TransferState manager written) (fileId : FileId) (io : DiskIO) :
    TransferState (manager.allocatePage fileId io).2 written := by
  have step := manager.allocatePage_step fileId io
  generalize (manager.allocatePage fileId io).1 = answer at step
  generalize (manager.allocatePage fileId io).2 = manager' at step ⊢
  cases step with
  | notOpened error => exact ok
  | faulted file message present =>
      exact ok.setFile (ok.present fileId file present).opened fun _ _ => rfl
  | diverged file present noFree _ =>
      have same : file.opened.resize (file.newCapacity * pageSize)
          = (file.resize (file.newCapacity * pageSize)).setFree [] := by
        rw [← noFree]
        rfl
      rw [same]
      exact ok.setFile ((ok.present fileId file present).grown List.nodup_nil nofun) fun _ _ => rfl
  | grown file freePages present _ _ distinct members =>
      exact ok.setFile ((ok.present fileId file present).grown distinct
        fun other member => (members other).mp member) fun _ _ => rfl
  | reused file pageId present _ =>
      exact ok.setFile ((ok.present fileId file present).reused pageId) fun _ _ => rfl

theorem writePage (ok : TransferState manager written) (fpId : FilePageId) (page : FullPage)
    {io : DiskIO} (opens : io.opens = true) (noFault : io.writeFault = none) :
    TransferState (manager.writePage fpId page io).2
      (written.update (.writePage fpId page io) (manager.writePage fpId page io).1) := by
  rcases manager.withPage_cases fpId io _ with
    ⟨error, result⟩ | ⟨file, present, _, result⟩ | ⟨file, present, index, _⟩
  · unfold DiskManager.writePage
    rw [result]
    exact ok
  · unfold DiskManager.writePage
    rw [result]
    exact ok.setFile (ok.present fpId.fileId file present).opened fun _ _ => rfl
  · have fileOk := ok.present fpId.fileId file present
    rw [DiskManager.writePage_inUse present index fileOk.stream opens noFault page]
    refine ok.setFile ?_ fun _ different => update_page_of_ne written different (some page)
    simp only [Written.update, update_page]
    exact fileOk.wrote index page

theorem readPage (ok : TransferState manager written) (fpId : FilePageId) {io : DiskIO}
    (opens : io.opens = true) (noFault : io.readFault = false) :
    TransferState (manager.readPage fpId io).2 written := by
  rcases manager.withPage_cases fpId io _ with
    ⟨error, result⟩ | ⟨file, present, _, result⟩ | ⟨file, present, index, _⟩
  · unfold DiskManager.readPage
    rw [result]
    exact ok
  · unfold DiskManager.readPage
    rw [result]
    exact ok.setFile (ok.present fpId.fileId file present).opened fun _ _ => rfl
  · have fileOk := ok.present fpId.fileId file present
    rw [DiskManager.readPage_inUse present index fileOk.stream opens noFault]
    exact ok.setFile (fileOk.setHandle rfl (Stream.seekg_good fileOk.stream)) fun _ _ => rfl

end TransferState

/-- **One transfer keeps the files in order**: whatever ids are in use, the free pages stay in the
upper half; while all ids lie below `2 ^ 20`, every page keeps the bytes last written to it. -/
theorem transfer_step (manager : DiskManager) (written : Written) (op : DiskOp)
    (ok : TransferState manager written) (transfers : op.Transfers) :
    TransferState (manager.step op).2 (written.update op (manager.step op).1) := by
  cases op with
  | createFile fileId opens =>
      simp only [DiskManager.step, DiskManager.createFile]
      split
      · exact ok
      · rename_i absent
        split
        · exact ok.created (by simpa using absent)
        · exact ok
  | createRandomFile draws opens => exact ok.createRandomFile opens _
  | allocatePage fileId io => exact ok.allocatePage fileId io
  | writePage fpId page io => exact ok.writePage fpId page transfers.1 transfers.2
  | readPage fpId io => exact ok.readPage fpId transfers.1 transfers.2
  | deletePage fpId io => exact transfers.elim
  | deleteFile fileId fault => exact transfers.elim
  | reopen => exact transfers.elim

/-- A new manager has no stream in error, no free page, and has written nothing. -/
theorem transferState_reopen (directory : DiskManager) :
    TransferState directory.reopen fun _ => none := by
  refine ⟨fun fileId file present => ?_, fun _ _ => rfl⟩
  obtain ⟨before, found, rfl⟩ := Option.map_eq_some_iff.mp present
  exact ⟨.none rfl, rfl, nofun, nofun⟩

/-- What a page store promises of the pages in use: a read returns the bytes last written, a write
leaves the bytes of every other page alone. -/
def StoresPages (state : DiskManager × Written) : DiskOp → Prop
  | .readPage fpId io => state.1.Allocated fpId →
      ∃ bytes, (state.1.readPage fpId io).1 = .read bytes ∧
        ∀ last, state.2 fpId = some last → bytes = last
  | .writePage fpId page io => state.1.Allocated fpId →
      (state.1.writePage fpId page io).1 = .done ∧
        ∀ other, state.1.Allocated other → other ≠ fpId →
          (state.1.writePage fpId page io).2.pageBytes other = state.1.pageBytes other
  | _ => True

theorem TransferState.storesPages {manager : DiskManager} {written : Written}
    (ok : TransferState manager written) (below : manager.IdsBelow) {op : DiskOp}
    (transfers : op.Transfers) : StoresPages (manager, written) op := by
  cases op with
  | readPage fpId io =>
      rintro ⟨file, present, index⟩
      have fileOk := ok.present fpId.fileId file present
      refine ⟨file.pageAt (getOffset fpId.pageId), ?_, fun last isLast => ?_⟩
      · exact congrArg Prod.fst
          (DiskManager.readPage_inUse present index fileOk.stream transfers.1 transfers.2)
      · exact fileOk.last (below fpId.fileId file present) fpId.pageId last isLast
  | writePage fpId page io =>
      rintro ⟨file, present, index⟩
      have fileOk := ok.present fpId.fileId file present
      have result := DiskManager.writePage_inUse present index fileOk.stream transfers.1
        transfers.2 page
      refine ⟨congrArg Prod.fst result, fun other otherInUse different => ?_⟩
      simp only [result, DiskManager.pageBytes]
      by_cases same : other.fileId = fpId.fileId
      · obtain ⟨otherFile, otherPresent, otherIndex⟩ := otherInUse
        rw [same, present] at otherPresent
        cases otherPresent
        have pages : fpId.pageId ≠ other.pageId := by
          intro equal
          exact different (FilePageId.ext same equal.symm)
        have apart := ((below fpId.fileId file present).separate fpId.pageId index).2
          other.pageId otherIndex pages
        rw [same, manager.setFile_self, present]
        exact congrArg some (DiskFile.pageAt_writeAt_disjoint apart page)
      · rw [manager.setFile_of_ne same]
  | _ => trivial

/-- **The disk manager is a page store exactly below `2 ^ 20` pages.** From any directory, over
every run of allocations and transfers whose I/O succeeds: pages in use are disjoint and inside
their file in every state, reads return what was last written and writes leave other pages alone,
if and only if no id of `2 ^ 20` or above comes into use. -/
theorem pageStore_iff (directory : DiskManager) (ops : List DiskOp)
    (transfers : ∀ op ∈ ops, op.Transfers) :
    ((diskMachine.withReplay Written.update).Always (fun state => state.1.PagesSeparate)
        (directory.reopen, fun _ => none) ops ∧
      (diskMachine.withReplay Written.update).Along StoresPages
        (directory.reopen, fun _ => none) ops) ↔
    (diskMachine.withReplay Written.update).Always (fun state => state.1.IdsBelow)
      (directory.reopen, fun _ => none) ops := by
  have start := transferState_reopen directory
  have along : (diskMachine.withReplay Written.update).Along (fun _ op => op.Transfers)
      (directory.reopen, fun _ => none) ops :=
    Machine.along_of_mem fun op member _ => transfers op member
  have always : (diskMachine.withReplay Written.update).Always
      (fun state => TransferState state.1 state.2) (directory.reopen, fun _ => none) ops :=
    Machine.always_of_step (fun state op ok allowed => transfer_step state.1 state.2 op ok allowed)
      start along
  constructor
  · rintro ⟨separate, -⟩
    refine (always.and separate).imp ?_
    rintro state ⟨ok, separate⟩ fileId file present
    exact (separate fileId file present).idsBelow (ok.present fileId file present).free
  · intro below
    refine ⟨below.imp fun state below fileId file present => (below fileId file present).separate, ?_⟩
    refine ((always.and below).steps.and along).imp ?_
    rintro state op ⟨⟨⟨ok, below⟩, -⟩, allowed⟩
    exact ok.storesPages below allowed

/-- Two pages of one file are written, and the first is read back. -/
def writeTwice (second : PageId) : List DiskOp :=
  [.writePage ⟨5, 0⟩ (fun _ => 1) {}, .writePage ⟨5, second⟩ (fun _ => 2) {}, .readPage ⟨5, 0⟩ {}]

theorem writeTwice_transfers (second : PageId) : ∀ op ∈ writeTwice second, op.Transfers := by
  simp [writeTwice, DiskOp.Transfers]

theorem oneFile_two_iff :
    ((diskMachine.withReplay Written.update).Always (fun state => state.1.PagesSeparate)
        ((DiskManager.oneFile 2).reopen, fun _ => none) (writeTwice 1) ∧
      (diskMachine.withReplay Written.update).Along StoresPages
        ((DiskManager.oneFile 2).reopen, fun _ => none) (writeTwice 1)) ↔
    (diskMachine.withReplay Written.update).Always (fun state => state.1.IdsBelow)
      ((DiskManager.oneFile 2).reopen, fun _ => none) (writeTwice 1) :=
  pageStore_iff (.oneFile 2) (writeTwice 1) (writeTwice_transfers 1)

/-- The first byte of a page that was read. -/
def DiskAnswer.firstByte : DiskAnswer → Option UInt8
  | .read bytes => some (bytes ⟨0, by decide⟩)
  | _ => none

/-- In a file of `2 ^ 21` pages, writing page `2 ^ 20` overwrites page 0. -/
theorem wrappedOffset_breaks :
    ¬ (diskMachine.withReplay Written.update).Along StoresPages
      ((DiskManager.oneFile (2 ^ 21)).reopen, fun _ => none) (writeTwice (2 ^ 20)) := by
  rintro ⟨-, -, stores, -⟩
  obtain ⟨bytes, read, last⟩ := stores (DiskManager.allocated_iff.mpr (by decide +kernel))
  have ones : bytes = fun _ => 1 := last _ rfl
  have first := congrArg DiskAnswer.firstByte read
  rw [ones] at first
  revert first
  decide +kernel

end Yadb
