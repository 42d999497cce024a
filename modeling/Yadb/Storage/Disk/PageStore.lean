/-
**What a disk manager is for: a store of pages.**

A `PageStore` holds the files that exist and the bytes of every allocated page, and nothing else:
no offsets, no free lists, no streams. It is the disk the buffer manager is modelled on; the disk
manager's own code is related to it in `Disk.Offsets`. The null page id is never allocated, which
the structure carries as a field.

A transfer may fail: a failed write may leave any bytes in that page, a failed read any bytes in
the buffer it was given. Both are named by the operation that meets them.
-/

import Yadb.Storage.Error

namespace Yadb

structure PageStore where
  files : FileId → Bool
  pages : FilePageId → Option FullPage
  pages_null : ∀ fileId, pages ⟨fileId, nullPageId⟩ = none

namespace PageStore

theorem noPages_null (fileId : FileId) :
    (fun _ : FilePageId => (none : Option FullPage)) ⟨fileId, nullPageId⟩ = none := rfl

/-- The page is allocated. -/
def Allocated (store : PageStore) (fpId : FilePageId) : Prop :=
  store.files fpId.fileId = true ∧ store.pages fpId ≠ none

/-- `CreateFile(file_id)`. -/
def createFile (store : PageStore) (fileId : FileId) : Except DiskError Unit × PageStore :=
  if store.files fileId then (.error (.createFileError fileId "file already exists"), store)
  else (.ok (), { store with files := Function.update store.files fileId true })

/-- `AllocatePage(file_id)`, handing out `pageId` with the bytes the file has there. Only an id
that is not in use can be handed out. -/
def allocatePage (store : PageStore) (fileId : FileId) (pageId : PageId) (bytes : FullPage) :
    Except DiskError PageId × PageStore :=
  if fresh : store.files fileId = true ∧ store.pages ⟨fileId, pageId⟩ = none ∧ pageId ≠ nullPageId
  then
    (.ok pageId,
      { store with
        pages := Function.update store.pages ⟨fileId, pageId⟩ (some bytes)
        pages_null := fun other => by
          rw [Function.update_of_ne]
          · exact store.pages_null other
          · rintro same
            exact fresh.2.2 (congrArg FilePageId.pageId same).symm })
  else (.error (.openFileError fileId "failed to open file stream"), store)

/-- `DeleteFile(file_id)`; `removed` is whether the file system removes the file. -/
def deleteFile (store : PageStore) (fileId : FileId) (removed : Bool) :
    Except DiskError Unit × PageStore :=
  if removed then
    (.ok (),
      { files := Function.update store.files fileId false
        pages := fun fpId => if fpId.fileId = fileId then none else store.pages fpId
        pages_null := fun other => by
          split
          · rfl
          · exact store.pages_null other })
  else (.error (.deleteFileError fileId "remove failed"), store)

/-- `ReadPage(fp_id, page)`. -/
def readPage (store : PageStore) (fpId : FilePageId) (fault : Bool) :
    Except (Failure DiskError) FullPage :=
  if store.files fpId.fileId then
    match store.pages fpId with
    | none => .error (.assertion .outOfIndexPage)
    | some bytes =>
        if fault then .error (.error (.pageReadError fpId "stream failure")) else .ok bytes
  else .error (.error (.openFileError fpId.fileId "failed to open file stream"))

/-- Put bytes in an allocated page. -/
def put (store : PageStore) (fpId : FilePageId) (bytes : FullPage) : PageStore :=
  { store with
    pages := fun other => if other = fpId then (store.pages fpId).map fun _ => bytes
      else store.pages other
    pages_null := fun other => by
      split
      · rename_i same
        rw [← same, store.pages_null]
        rfl
      · exact store.pages_null other }

/-- `WritePage(fp_id, page)`; a failed transfer leaves the bytes `fault` in the page. -/
def writePage (store : PageStore) (fpId : FilePageId) (page : FullPage)
    (fault : Option FullPage) : Except (Failure DiskError) Unit × PageStore :=
  if store.files fpId.fileId then
    match store.pages fpId, fault with
    | none, _ => (.error (.assertion .outOfIndexPage), store)
    | some _, some torn =>
        (.error (.error (.pageWriteError fpId "stream failure")), store.put fpId torn)
    | some _, none => (.ok (), store.put fpId page)
  else (.error (.error (.openFileError fpId.fileId "failed to open file stream")), store)

/-! ### The operations on allocated pages -/

variable {store : PageStore} {fpId : FilePageId}

theorem readPage_allocated {bytes : FullPage} (file : store.files fpId.fileId = true)
    (page : store.pages fpId = some bytes) : store.readPage fpId false = .ok bytes := by
  rw [readPage, if_pos file, page]
  rfl

/-- A read that succeeds returns the bytes of an allocated page. -/
theorem pages_of_readPage {fault : Bool} {bytes : FullPage}
    (read : store.readPage fpId fault = .ok bytes) :
    store.files fpId.fileId = true ∧ store.pages fpId = some bytes := by
  unfold readPage at read
  split at read
  · rename_i file
    split at read
    · cases read
    · rename_i found page
      split at read
      · cases read
      · cases read
        exact ⟨file, page⟩
  · cases read

@[simp] theorem put_files (bytes : FullPage) : (store.put fpId bytes).files = store.files := rfl

/-- Putting bytes in an allocated page updates that page only. -/
theorem put_pages {old : FullPage} (page : store.pages fpId = some old) (bytes : FullPage) :
    (store.put fpId bytes).pages = Function.update store.pages fpId (some bytes) := by
  funext other
  show (if other = fpId then (store.pages fpId).map fun _ => bytes else store.pages other) = _
  by_cases same : other = fpId
  · rw [if_pos same, page, same, Function.update_self]
    rfl
  · rw [if_neg same, Function.update_of_ne same]

theorem put_self {old : FullPage} (page : store.pages fpId = some old) (bytes : FullPage) :
    (store.put fpId bytes).pages fpId = some bytes := by
  rw [put_pages page, Function.update_self]

/-- The other pages of the file stay. -/
theorem put_other {fileId : FileId} {pageId other : PageId} (apart : other ≠ pageId)
    (bytes : FullPage) :
    (store.put ⟨fileId, pageId⟩ bytes).pages ⟨fileId, other⟩ = store.pages ⟨fileId, other⟩ :=
  if_neg fun same => apart (congrArg FilePageId.pageId same)

theorem put_pages_isSome (bytes : FullPage) (other : FilePageId) :
    (store.put fpId bytes).pages other = none ↔ store.pages other = none := by
  show (if other = fpId then (store.pages fpId).map fun _ => bytes else store.pages other) = none ↔ _
  by_cases same : other = fpId
  · rw [if_pos same, same, Option.map_eq_none_iff]
  · rw [if_neg same]

/-- Allocating a page leaves the allocated pages alone. -/
theorem pages_allocatePage (store : PageStore) (fileId : FileId) (pageId : PageId)
    (bytes : FullPage) {fpId : FilePageId} (allocated : store.Allocated fpId) :
    (store.allocatePage fileId pageId bytes).2.pages fpId = store.pages fpId := by
  unfold allocatePage
  split
  · rename_i fresh
    refine Function.update_of_ne ?_ _ _
    rintro rfl
    exact allocated.2 fresh.2.1
  · rfl

/-- **What a write can do**: nothing but put some bytes in the page it is for, and on success those
are the bytes it was given. -/
theorem writePage_cases (store : PageStore) (fpId : FilePageId) (page : FullPage)
    (fault : Option FullPage) :
    (∃ failure, store.writePage fpId page fault = (.error failure, store)
        ∧ ¬ store.Allocated fpId)
      ∨ (∃ failure torn, fault = some torn
        ∧ store.writePage fpId page fault = (.error failure, store.put fpId torn)
        ∧ store.Allocated fpId)
      ∨ (fault = none ∧ store.writePage fpId page fault = (.ok (), store.put fpId page)
        ∧ store.Allocated fpId) := by
  unfold writePage Allocated
  by_cases file : store.files fpId.fileId = true
  · rw [if_pos file]
    cases found : store.pages fpId with
    | none => exact Or.inl ⟨_, rfl, fun both => both.2 rfl⟩
    | some old =>
        cases fault with
        | none => exact Or.inr (Or.inr ⟨rfl, rfl, file, nofun⟩)
        | some torn => exact Or.inr (Or.inl ⟨_, torn, rfl, rfl, file, nofun⟩)
  · rw [if_neg file]
    exact Or.inl ⟨_, rfl, fun both => file both.1⟩

end PageStore

end Yadb
