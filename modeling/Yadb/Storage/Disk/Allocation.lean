/-
**Page allocation never hands out a page twice.**

`AllocateStep` names the five ways in which `AllocatePage` can end, and `DeleteStep` those of
`DeletePage`. Growth that returns starts below `2 ^ 31` pages, because with more the loop over the
new ids never stops; so ids stay 32-bit numbers and the first new id is the old capacity.

* `Inserted`: the invariant of that loop (`insertIds_some`). From a capacity of
  `2 ^ 32` on the loop does not end (`insertLoop_not_ends`).
* `AllocationState`: free pages lie below the capacity, differ from each other and from every page
  handed out and not deleted since; pages handed out lie below the capacity.
* `allocation_step`: every step keeps it, one that does not return included.
* `allocation_fresh_iff`: along every run, over any number of files and reopenings, an id that
  `AllocatePage` returns lies below the capacity and is not handed out already, and a failed call
  leaves the free set as it was; it is not the null page id, **if and only if** no call meets that
  one first among the free pages. In a file of `2 ^ 32` pages it can be deleted.
-/

import Mathlib.Data.List.Nodup
import Yadb.Foundation.Loop
import Yadb.Storage.Disk.Manager

namespace Yadb

open Foundation

/-! ### The loop over the new ids -/

/-- The loop over the new ids, with its counter and the free pages. -/
def insertLoop (newCapacity : Nat) : Loop (PageId × List PageId) where
  continues state := state.1.toNat < newCapacity
  round state := (state.1 + 1, state.2.insert state.1)

instance (newCapacity : Nat) : DecidablePred (insertLoop newCapacity).continues :=
  fun state => inferInstanceAs (Decidable (state.1.toNat < newCapacity))

theorem insertIds_eq (newCapacity fuel : Nat) (id : PageId) (freePages : List PageId) :
    insertIds newCapacity fuel id freePages
      = ((insertLoop newCapacity).runFor fuel (id, freePages)).map Prod.snd := by
  induction fuel generalizing id freePages with
  | zero => rfl
  | succ fuel ih =>
      rw [insertIds, Loop.runFor]
      by_cases more : id.toNat < newCapacity
      · have continues : (insertLoop newCapacity).continues (id, freePages) := more
        rw [if_pos more, if_pos continues]
        exact ih (id + 1) (freePages.insert id)
      · have stops : ¬ (insertLoop newCapacity).continues (id, freePages) := more
        rw [if_neg more, if_neg stops]
        rfl

/-- **The invariant of the loop**: what has been inserted are the ids from the first one up to the
counter. -/
structure Inserted (newCapacity : Nat) (first : PageId) (freePages : List PageId)
    (state : PageId × List PageId) : Prop where
  counter : state.1 = first ∨ first.toNat ≤ state.1.toNat ∧ state.1.toNat ≤ newCapacity
  distinct : freePages.Nodup → state.2.Nodup
  members : ∀ other, other ∈ state.2 ↔
    other ∈ freePages ∨ (first.toNat ≤ other.toNat ∧ other.toNat < state.1.toNat)

theorem Inserted.start (newCapacity : Nat) (first : PageId) (freePages : List PageId) :
    Inserted newCapacity first freePages (first, freePages) where
  counter := Or.inl rfl
  distinct := id
  members other := by
    refine ⟨Or.inl, fun member => member.resolve_right ?_⟩
    exact fun between => absurd between.2 (Nat.not_lt.mpr between.1)

/-- Below `2 ^ 32` a round counts up by one. -/
theorem Inserted.round {newCapacity : Nat} (below : newCapacity < 2 ^ 32) {first : PageId}
    {freePages : List PageId} (state : PageId × List PageId)
    (inserted : Inserted newCapacity first freePages state)
    (more : (insertLoop newCapacity).continues state) :
    Inserted newCapacity first freePages ((insertLoop newCapacity).round state) ∧
      newCapacity - ((insertLoop newCapacity).round state).1.toNat
        < newCapacity - state.1.toNat := by
  obtain ⟨id, ids⟩ := state
  have more : id.toNat < newCapacity := more
  have next : (id + 1).toNat = id.toNat + 1 := by
    rw [UInt32.toNat_add, show (1 : UInt32).toNat = 1 from rfl, Nat.mod_eq_of_lt (by omega)]
  have atLeast : first.toNat ≤ id.toNat := by
    rcases inserted.counter with same | between
    · exact (congrArg UInt32.toNat same).ge
    · exact between.1
  refine ⟨⟨Or.inr ?_, fun nodup => (inserted.distinct nodup).insert, fun other => ?_⟩, ?_⟩
  · show first.toNat ≤ (id + 1).toNat ∧ (id + 1).toNat ≤ newCapacity
    omega
  · have members : other ∈ ids ↔
        other ∈ freePages ∨ (first.toNat ≤ other.toNat ∧ other.toNat < id.toNat) :=
      inserted.members other
    show other ∈ ids.insert id ↔
      other ∈ freePages ∨ (first.toNat ≤ other.toNat ∧ other.toNat < (id + 1).toNat)
    rw [List.mem_insert_iff, members, next]
    constructor
    · rintro (rfl | old | between)
      · exact Or.inr ⟨atLeast, Nat.lt_succ_self _⟩
      · exact Or.inl old
      · exact Or.inr ⟨between.1, Nat.lt_succ_of_lt between.2⟩
    · rintro (old | between)
      · exact Or.inr (Or.inl old)
      · by_cases same : other.toNat = id.toNat
        · exact Or.inl (UInt32.toNat.inj same)
        · exact Or.inr (Or.inr ⟨between.1, by omega⟩)
  · show newCapacity - (id + 1).toNat < newCapacity - id.toNat
    omega

/-- Below `2 ^ 32` the loop stops, and has inserted exactly the ids up to the new capacity. -/
theorem insertIds_some {newCapacity : Nat} (below : newCapacity < 2 ^ 32) (fuel : Nat)
    (id : PageId) (freePages : List PageId) (enough : newCapacity ≤ fuel + id.toNat) :
    ∃ result, insertIds newCapacity (fuel + 1) id freePages = some result ∧
      (freePages.Nodup → result.Nodup) ∧ ∀ other, other ∈ result ↔
        other ∈ freePages ∨ (id.toNat ≤ other.toNat ∧ other.toNat < newCapacity) := by
  have start := Inserted.start newCapacity id freePages
  obtain ⟨⟨last, result⟩, run, inserted, stops⟩ := Loop.runFor_some
    (fun state => newCapacity - state.1.toNat) (Inserted.round below) fuel start
    (show newCapacity - id.toNat ≤ fuel by omega)
  have stops : ¬ last.toNat < newCapacity := stops
  refine ⟨result, ?_, inserted.distinct, fun other => ?_⟩
  · rw [insertIds_eq, run]
    rfl
  · have members : other ∈ result ↔
        other ∈ freePages ∨ (id.toNat ≤ other.toNat ∧ other.toNat < last.toNat) :=
      inserted.members other
    rw [members]
    refine or_congr_right (and_congr_right fun above => ?_)
    rcases inserted.counter with same | ⟨_, inside⟩
    · have same : last.toNat = id.toNat := congrArg UInt32.toNat same
      omega
    · have inside : last.toNat ≤ newCapacity := inside
      omega

/-- From `2 ^ 32` on every 32-bit number is below the new capacity, so that the loop never ends. -/
theorem insertLoop_not_ends {newCapacity : Nat} (wide : 2 ^ 32 ≤ newCapacity)
    (state final : PageId × List PageId) : ¬ (insertLoop newCapacity).Ends state final :=
  Loop.not_ends (fun _ => True) (fun other _ => ⟨other.1.toNat_lt.trans_le wide, trivial⟩) trivial

/-- **The loop ends** exactly if it returns within some number of tests. -/
theorem insertLoop_ends_iff {newCapacity : Nat} {id : PageId} {freePages result : List PageId} :
    (∃ last, (insertLoop newCapacity).Ends (id, freePages) (last, result)) ↔
      ∃ fuel, insertIds newCapacity fuel id freePages = some result := by
  simp only [Loop.ends_iff_runFor, insertIds_eq, Option.map_eq_some_iff, Prod.exists,
    exists_eq_right]
  exact exists_comm

theorem insertIds_none {newCapacity : Nat} (wide : 2 ^ 32 ≤ newCapacity) (fuel : Nat) (id : PageId)
    (freePages : List PageId) : insertIds newCapacity fuel id freePages = none := by
  rw [insertIds_eq, Loop.runFor_none (insertLoop_not_ends wide (id, freePages))]
  rfl

/-! ### Open files -/

namespace DiskFile

/-- The file, opened if it is not. -/
def opened (file : DiskFile) : DiskFile := { file with handle := some (file.handle.getD {}) }

/-- The file, open, with these free pages. -/
def setFree (file : DiskFile) (freePages : List PageId) : DiskFile :=
  { file with handle := some { file.handle.getD {} with freePages } }

@[simp] theorem opened_freePages (file : DiskFile) : file.opened.freePages = file.freePages := rfl

@[simp] theorem opened_capacity (file : DiskFile) :
    file.opened.pageCapacity = file.pageCapacity := rfl

@[simp] theorem opened_newCapacity (file : DiskFile) :
    file.opened.newCapacity = file.newCapacity := rfl

@[simp] theorem setFree_freePages (file : DiskFile) (freePages : List PageId) :
    (file.setFree freePages).freePages = freePages := rfl

@[simp] theorem setFree_capacity (file : DiskFile) (freePages : List PageId) :
    (file.setFree freePages).pageCapacity = file.pageCapacity := rfl

@[simp] theorem resize_freePages (file : DiskFile) (size : Nat) :
    (file.resize size).freePages = file.freePages := rfl

theorem lt_newCapacity (file : DiskFile) : file.pageCapacity < file.newCapacity := by
  unfold newCapacity
  split <;> omega

/-- What lies above the old capacity lies in the upper half of the new one. -/
theorem newCapacity_lt (file : DiskFile) {id : Nat} (above : file.pageCapacity < id) :
    file.newCapacity < 2 * id := by
  unfold newCapacity
  split <;> omega

theorem resize_capacity (file : DiskFile) (pages : Nat) :
    (file.resize (pages * pageSize)).pageCapacity = pages :=
  Nat.mul_div_cancel pages (by decide)

/-- A file of fewer than `2 ^ 31` pages grows to a capacity of 32 bits. -/
theorem newCapacity_small {file : DiskFile} (small : file.pageCapacity < 2 ^ 31) :
    file.newCapacity < 2 ^ 32 := by
  unfold newCapacity
  split <;> omega

theorem newCapacity_wide {file : DiskFile} (large : 2 ^ 31 ≤ file.pageCapacity) :
    2 ^ 32 ≤ file.newCapacity := by
  unfold newCapacity
  split <;> omega

/-- **The pages that growth makes free**: all behind the first new one. -/
theorem insertIds_small {file : DiskFile} (small : file.pageCapacity < 2 ^ 31) :
    ∃ freePages, insertIds file.newCapacity idCount (UInt32.ofNat file.pageCapacity + 1) []
        = some freePages ∧ freePages.Nodup ∧ ∀ other, other ∈ freePages ↔
      file.pageCapacity < other.toNat ∧ other.toNat < file.newCapacity := by
  have below := newCapacity_small small
  have next : (UInt32.ofNat file.pageCapacity + 1).toNat = file.pageCapacity + 1 := by
    rw [UInt32.toNat_add, UInt32.toNat_ofNat', show (1 : UInt32).toNat = 1 from rfl]
    omega
  obtain ⟨freePages, run, distinct, members⟩ := insertIds_some below (2 ^ 32 - 1)
    (UInt32.ofNat file.pageCapacity + 1) [] (by omega)
  rw [idCount, show (2 ^ 32 : Nat) = 2 ^ 32 - 1 + 1 from rfl]
  refine ⟨freePages, run, distinct List.nodup_nil, fun other => ?_⟩
  rw [members, next]
  simp only [List.not_mem_nil, false_or, Nat.succ_le_iff]

theorem inIndex_iff {file : DiskFile} {pageId : PageId} :
    file.inIndex pageId = true ↔
      pageId.toNat < file.pageCapacity ∧ pageId ∉ file.freePages := by
  simp [inIndex]

end DiskFile

namespace DiskManager

variable {manager : DiskManager} {fileId : FileId} {io : DiskIO}

def capacityOf (manager : DiskManager) (fileId : FileId) : Nat :=
  ((manager.files fileId).map DiskFile.pageCapacity).getD 0

def freeOf (manager : DiskManager) (fileId : FileId) : List PageId :=
  ((manager.files fileId).map DiskFile.freePages).getD []

theorem setFile_self (manager : DiskManager) (fileId : FileId) (file : Option DiskFile) :
    (manager.setFile fileId file).files fileId = file := Function.update_self _ _ _

theorem setFile_of_ne (manager : DiskManager) {fileId other : FileId} (different : other ≠ fileId)
    (file : Option DiskFile) : (manager.setFile fileId file).files other = manager.files other :=
  Function.update_of_ne different _ _

/-- Opening a file fails, or gives the file as it is, open. -/
theorem getFileHandle_cases (manager : DiskManager) (fileId : FileId) (io : DiskIO) :
    (∃ reason, manager.getFileHandle fileId io = .error (.openFileError fileId reason)) ∨
      ∃ file, manager.files fileId = some file ∧
        manager.getFileHandle fileId io = .ok (file.opened, file.handle.getD {}) := by
  unfold getFileHandle
  cases present : manager.files fileId with
  | none => exact Or.inl ⟨_, rfl⟩
  | some file =>
      simp only
      obtain ⟨size, bytes, handle⟩ := file
      cases handle with
      | some handle => exact Or.inr ⟨_, rfl, rfl⟩
      | none =>
          by_cases opens : io.opens = true
          · simp only [if_pos opens]
            exact Or.inr ⟨_, rfl, rfl⟩
          · simp only [if_neg opens]
            exact Or.inl ⟨_, rfl⟩

/-- **The five ways in which `AllocatePage` can end.** -/
inductive AllocateStep (manager : DiskManager) (fileId : FileId) : DiskAnswer → DiskManager → Prop
  | notOpened (error : DiskError) : AllocateStep manager fileId (.failed (.error error)) manager
  | faulted (file : DiskFile) (message : String) : manager.files fileId = some file →
      AllocateStep manager fileId (.failed (.error (.allocatePageError fileId message)))
        (manager.setFile fileId (some file.opened))
  | diverged (file : DiskFile) : manager.files fileId = some file → file.freePages = [] →
      2 ^ 31 ≤ file.pageCapacity →
      AllocateStep manager fileId .diverges (manager.setFile fileId
        (some (file.opened.resize (file.newCapacity * pageSize))))
  | grown (file : DiskFile) (freePages : List PageId) : manager.files fileId = some file →
      file.freePages = [] → file.pageCapacity < 2 ^ 31 → freePages.Nodup →
      (∀ other, other ∈ freePages ↔
        file.pageCapacity < other.toNat ∧ other.toNat < file.newCapacity) →
      AllocateStep manager fileId (.page (UInt32.ofNat file.pageCapacity))
        (manager.setFile fileId
          (some ((file.resize (file.newCapacity * pageSize)).setFree freePages)))
  | reused (file : DiskFile) (pageId : PageId) : manager.files fileId = some file →
      pageId ∈ file.freePages →
      AllocateStep manager fileId (.page pageId)
        (manager.setFile fileId (some (file.setFree (file.freePages.erase pageId))))

theorem growFile_step {file : DiskFile} (present : manager.files fileId = some file)
    (noFree : file.freePages = []) (io : DiskIO) :
    AllocateStep manager fileId
      (manager.growFile fileId file.opened (file.handle.getD {}) io).1
      (manager.growFile fileId file.opened (file.handle.getD {}) io).2 := by
  unfold growFile
  cases io.sizeFault with
  | some message => exact .faulted file message present
  | none =>
      cases io.resizeFault with
      | some message => exact .faulted file message present
      | none =>
          have noFree' : (file.handle.getD {}).freePages = [] := noFree
          simp only [DiskFile.opened_capacity, DiskFile.opened_newCapacity, noFree']
          by_cases small : file.pageCapacity < 2 ^ 31
          · obtain ⟨freePages, run, distinct, members⟩ := DiskFile.insertIds_small small
            rw [run]
            exact .grown file freePages present noFree small distinct members
          · have large := Nat.not_lt.mp small
            rw [insertIds_none (DiskFile.newCapacity_wide large)]
            exact .diverged file present noFree large

/-- **Every `AllocatePage` ends in one of these ways.** -/
theorem allocatePage_step (manager : DiskManager) (fileId : FileId) (io : DiskIO) :
    AllocateStep manager fileId (manager.allocatePage fileId io).1
      (manager.allocatePage fileId io).2 := by
  unfold allocatePage
  rcases manager.getFileHandle_cases fileId io with ⟨reason, failed⟩ | ⟨file, present, opened⟩
  · rw [failed]
    exact .notOpened _
  · rw [opened]
    simp only
    cases noFree : (file.handle.getD {}).freePages with
    | nil => exact growFile_step present noFree io
    | cons first rest =>
        have inside : io.pick % (rest.length + 1) < (first :: rest).length :=
          Nat.mod_lt _ (Nat.succ_pos _)
        have freePages : file.freePages = first :: rest := noFree
        have member : (first :: rest).getD (io.pick % (rest.length + 1)) first
            ∈ file.freePages := by
          rw [freePages, List.getD_eq_getElem _ _ inside]
          exact List.getElem_mem inside
        have step := AllocateStep.reused file _ present member
        rw [freePages] at step
        exact step

/-! ### The other operations on pages -/

/-- A call about one page fails to open the file, asserts, or acts on the open file. -/
theorem withPage_cases (manager : DiskManager) (fpId : FilePageId) (io : DiskIO)
    (act : DiskFile → DatabaseFile → DiskAnswer × DiskFile) :
    (∃ reason, manager.withPage fpId io act
        = (.failed (.error (.openFileError fpId.fileId reason)), manager)) ∨
      (∃ file, manager.files fpId.fileId = some file ∧ file.inIndex fpId.pageId = false ∧
        manager.withPage fpId io act = (.failed (.assertion .outOfIndexPage),
          manager.setFile fpId.fileId (some file.opened))) ∨
      ∃ file, manager.files fpId.fileId = some file ∧ file.inIndex fpId.pageId = true ∧
        manager.withPage fpId io act = ((act file.opened (file.handle.getD {})).1,
          manager.setFile fpId.fileId (some (act file.opened (file.handle.getD {})).2)) := by
  unfold withPage
  rcases manager.getFileHandle_cases fpId.fileId io with ⟨reason, failed⟩ | ⟨file, present, opened⟩
  · rw [failed]
    exact Or.inl ⟨reason, rfl⟩
  · rw [opened]
    have same : file.opened.inIndex fpId.pageId = file.inIndex fpId.pageId := rfl
    cases index : file.inIndex fpId.pageId with
    | false =>
        simp only [same, index]
        exact Or.inr (Or.inl ⟨file, present, index, rfl⟩)
    | true =>
        simp only [same, index]
        exact Or.inr (Or.inr ⟨file, present, index, rfl⟩)

/-- The offset is the product reduced to 32 bits. -/
theorem getOffset_eq (pageId : PageId) : getOffset pageId = pageId.toNat % 2 ^ 20 * pageSize := by
  have bound : pageId.toNat < 2 ^ 32 := pageId.toNat_lt
  rw [getOffset, UInt32.toNat_mul, UInt32.toNat_ofNat']
  simp only [pageSize]
  omega

/-- Every page of the index lies inside the file. -/
theorem getOffset_inside {file : DiskFile} {pageId : PageId}
    (below : pageId.toNat < file.pageCapacity) : getOffset pageId + pageSize ≤ file.size := by
  rw [getOffset_eq]
  simp only [DiskFile.pageCapacity, pageSize] at *
  omega

/-- A write inside the file leaves its size alone. -/
theorem writeAt_capacity {file : DiskFile} {pageId : PageId} (page : FullPage)
    (below : pageId.toNat < file.pageCapacity) :
    (file.writeAt (getOffset pageId) page).pageCapacity = file.pageCapacity := by
  unfold DiskFile.pageCapacity DiskFile.writeAt
  rw [Nat.max_eq_left (getOffset_inside below)]

end DiskManager

/-! ### Invariants of single files -/

/-- A property of each file with the values of its pages; a file that is not there has no values. -/
structure PerFile {Value : Type} (P : DiskFile → (PageId → Value) → Prop) (nothing : Value)
    (manager : DiskManager) (values : FilePageId → Value) : Prop where
  present : ∀ fileId file, manager.files fileId = some file →
    P file fun pageId => values ⟨fileId, pageId⟩
  absent : ∀ fpId, manager.files fpId.fileId = none → values fpId = nothing

/-- One file changed, and of the values only those of its own pages. -/
theorem PerFile.setFile {Value : Type} {P : DiskFile → (PageId → Value) → Prop} {nothing : Value}
    {manager : DiskManager} {values values' : FilePageId → Value}
    (ok : PerFile P nothing manager values) {fileId : FileId} {file : DiskFile}
    (fileOk : P file fun pageId => values' ⟨fileId, pageId⟩)
    (others : ∀ fpId : FilePageId, fpId.fileId ≠ fileId → values' fpId = values fpId) :
    PerFile P nothing (manager.setFile fileId (some file)) values' where
  present other found present := by
    by_cases same : other = fileId
    · subst same
      rw [manager.setFile_self] at present
      cases present
      exact fileOk
    · rw [manager.setFile_of_ne same] at present
      have kept : (fun pageId => values' ⟨other, pageId⟩) = fun pageId => values ⟨other, pageId⟩ := by
        funext pageId
        exact others ⟨other, pageId⟩ same
      rw [kept]
      exact ok.present other found present
  absent fpId absent := by
    by_cases same : fpId.fileId = fileId
    · rw [same, manager.setFile_self] at absent
      cases absent
    · rw [manager.setFile_of_ne same] at absent
      rw [others fpId same]
      exact ok.absent fpId absent

/-- The values of one page changed, seen from its own file. -/
theorem update_page {Value : Type} (values : FilePageId → Value) (fileId : FileId)
    (pageId : PageId) (value : Value) :
    (fun other => Function.update values ⟨fileId, pageId⟩ value ⟨fileId, other⟩)
      = Function.update (fun other => values ⟨fileId, other⟩) pageId value := by
  funext other
  by_cases same : other = pageId
  · rw [same, Function.update_self, Function.update_self]
  · rw [Function.update_of_ne same, Function.update_of_ne]
    exact fun equal => same (congrArg FilePageId.pageId equal)

/-- The values of one page changed, seen from another file. -/
theorem update_page_of_ne {Value : Type} (values : FilePageId → Value) {fpId other : FilePageId}
    (different : other.fileId ≠ fpId.fileId) (value : Value) :
    Function.update values fpId value other = values other :=
  Function.update_of_ne (fun equal => different (congrArg FilePageId.fileId equal)) _ _

/-! ### Pages handed out -/

/-- The pages that were handed out and not deleted since. -/
abbrev HandedOut := FilePageId → Bool

def HandedOut.update (out : HandedOut) : DiskOp → DiskAnswer → HandedOut
  | .allocatePage fileId _, .page pageId => Function.update out ⟨fileId, pageId⟩ true
  | .deletePage fpId _, .done => Function.update out fpId false
  | .deleteFile fileId _, .done => fun fpId => if fpId.fileId = fileId then false else out fpId
  | _, _ => out

/-- The free pages and the pages handed out of one file. -/
structure FileAllocation (file : DiskFile) (out : PageId → Bool) : Prop where
  distinct : file.freePages.Nodup
  apart : ∀ pageId ∈ file.freePages, out pageId = false
  freeBelow : ∀ pageId ∈ file.freePages, pageId.toNat < file.pageCapacity
  outBelow : ∀ pageId, out pageId = true → pageId.toNat < file.pageCapacity

/-- The pages handed out are in order in every file, and belong to files that exist. -/
abbrev AllocationState (manager : DiskManager) (out : HandedOut) : Prop :=
  PerFile FileAllocation false manager out

namespace FileAllocation

variable {file : DiskFile} {out : PageId → Bool}

theorem congr (ok : FileAllocation file out) {file' : DiskFile}
    (capacity : file'.pageCapacity = file.pageCapacity)
    (freePages : file'.freePages = file.freePages) : FileAllocation file' out where
  distinct := freePages ▸ ok.distinct
  apart := freePages ▸ ok.apart
  freeBelow := by rw [freePages, capacity]; exact ok.freeBelow
  outBelow := capacity ▸ ok.outBelow

/-- Closing the file forgets its free pages. -/
theorem closed (ok : FileAllocation file out) :
    FileAllocation { file with handle := none } out :=
  ⟨List.nodup_nil, nofun, nofun, ok.outBelow⟩

/-- A free page is handed out. -/
theorem reused (ok : FileAllocation file out) {pageId : PageId} (free : pageId ∈ file.freePages) :
    FileAllocation (file.setFree (file.freePages.erase pageId))
      (Function.update out pageId true) where
  distinct := ok.distinct.erase pageId
  apart other member := by
    have different : other ≠ pageId := by
      rintro rfl
      exact ok.distinct.not_mem_erase member
    rw [Function.update_of_ne different]
    exact ok.apart other (List.mem_of_mem_erase member)
  freeBelow other member := ok.freeBelow other (List.mem_of_mem_erase member)
  outBelow other handed := by
    by_cases same : other = pageId
    · exact same ▸ ok.freeBelow pageId free
    · rw [Function.update_of_ne same] at handed
      exact ok.outBelow other handed

/-- The file is grown and the first new page handed out. -/
theorem grown (ok : FileAllocation file out) {freePages : List PageId}
    (small : file.pageCapacity < 2 ^ 31) (distinct : freePages.Nodup)
    (members : ∀ other, other ∈ freePages ↔
      file.pageCapacity < other.toNat ∧ other.toNat < file.newCapacity) :
    FileAllocation ((file.resize (file.newCapacity * pageSize)).setFree freePages)
      (Function.update out (UInt32.ofNat file.pageCapacity) true) := by
  have first : (UInt32.ofNat file.pageCapacity).toNat = file.pageCapacity := by
    rw [UInt32.toNat_ofNat', Nat.mod_eq_of_lt (by omega)]
  have grows := file.lt_newCapacity
  have capacity := file.resize_capacity file.newCapacity
  have notOut : ∀ other, file.pageCapacity ≤ other.toNat → out other = false := by
    intro other above
    by_contra handed
    have below := ok.outBelow other (by simpa using handed)
    omega
  refine ⟨distinct, fun other member => ?_, fun other member => ?_, fun other handed => ?_⟩
  · have above := (members other).mp member
    rw [Function.update_of_ne]
    · exact notOut other above.1.le
    · rintro rfl
      omega
  · rw [DiskFile.setFree_capacity, capacity]
    exact ((members other).mp member).2
  · rw [DiskFile.setFree_capacity, capacity]
    by_cases same : other = UInt32.ofNat file.pageCapacity
    · rw [same, first]
      exact grows
    · rw [Function.update_of_ne same] at handed
      exact (ok.outBelow other handed).trans grows

/-- The file is grown and no page handed out: the loop over the new ids does not end. -/
theorem resized (ok : FileAllocation file out) (noFree : file.freePages = []) :
    FileAllocation (file.opened.resize (file.newCapacity * pageSize)) out := by
  have isFree : (file.opened.resize (file.newCapacity * pageSize)).freePages = [] := noFree
  refine ⟨?_, ?_, ?_, fun other handed => ?_⟩
  · rw [isFree]
    exact List.nodup_nil
  · rw [isFree]
    nofun
  · rw [isFree]
    nofun
  · have grows := file.lt_newCapacity
    rw [DiskFile.resize_capacity]
    exact (ok.outBelow other handed).trans grows

/-- A page of the index becomes free. -/
theorem deleted (ok : FileAllocation file out) {pageId : PageId}
    (index : file.inIndex pageId = true) :
    FileAllocation (file.setFree (file.freePages.insert pageId))
      (Function.update out pageId false) where
  distinct := List.Nodup.insert ok.distinct
  apart other member := by
    by_cases same : other = pageId
    · rw [same, Function.update_self]
    · rw [Function.update_of_ne same]
      exact ok.apart other ((List.mem_insert_iff.mp member).resolve_left same)
  freeBelow other member := by
    rcases List.mem_insert_iff.mp member with rfl | member
    · exact (DiskFile.inIndex_iff.mp index).1
    · exact ok.freeBelow other member
  outBelow other handed := by
    by_cases same : other = pageId
    · rw [same, Function.update_self] at handed
      cases handed
    · rw [Function.update_of_ne same] at handed
      exact ok.outBelow other handed

end FileAllocation

namespace AllocationState

variable {manager : DiskManager} {out : HandedOut}

/-- One file changed in neither capacity nor free pages. -/
theorem setSame (ok : AllocationState manager out) {fileId : FileId} {file file' : DiskFile}
    (present : manager.files fileId = some file)
    (capacity : file'.pageCapacity = file.pageCapacity)
    (freePages : file'.freePages = file.freePages) :
    AllocationState (manager.setFile fileId (some file')) out :=
  ok.setFile ((ok.present fileId file present).congr capacity freePages) fun _ _ => rfl

/-- A file that is not there is created empty. -/
theorem created (ok : AllocationState manager out) {fileId : FileId}
    (absent : manager.files fileId = none) :
    AllocationState (manager.setFile fileId
      (some { size := 0, bytes := fun _ => 0, handle := none })) out := by
  refine ok.setFile ⟨List.nodup_nil, nofun, nofun, fun pageId handed => ?_⟩
    fun _ _ => rfl
  rw [ok.absent ⟨fileId, pageId⟩ absent] at handed
  cases handed

theorem createRandomFile (ok : AllocationState manager out) (opens : Bool)
    (draws : List FileId) :
    AllocationState (manager.createRandomFile opens draws).2 out := by
  induction draws with
  | nil => exact ok
  | cons fileId draws ih =>
      unfold DiskManager.createRandomFile
      split
      · exact ih
      · rename_i fresh
        simp only [Bool.or_eq_true, not_or, Bool.not_eq_true, Option.isSome_eq_false_iff,
          Option.isNone_iff_eq_none] at fresh
        split
        · exact ok.created fresh.2
        · exact ok

/-- Every file closed. -/
theorem reopen (ok : AllocationState manager out) : AllocationState manager.reopen out where
  present fileId file present := by
    obtain ⟨before, found, rfl⟩ := Option.map_eq_some_iff.mp present
    exact (ok.present fileId before found).closed
  absent fpId absent := ok.absent fpId (Option.map_eq_none_iff.mp absent)

theorem allocatePage (ok : AllocationState manager out) (fileId : FileId) (io : DiskIO) :
    AllocationState (manager.allocatePage fileId io).2
      (out.update (.allocatePage fileId io) (manager.allocatePage fileId io).1) := by
  have step := manager.allocatePage_step fileId io
  generalize (manager.allocatePage fileId io).1 = answer at step ⊢
  generalize (manager.allocatePage fileId io).2 = manager' at step ⊢
  cases step with
  | notOpened error => exact ok
  | faulted file message present => exact ok.setSame present rfl rfl
  | diverged file present noFree _ =>
      exact ok.setFile ((ok.present fileId file present).resized noFree) fun _ _ => rfl
  | grown file freePages present _ small distinct members =>
      refine ok.setFile ?_ fun _ different => update_page_of_ne out different true
      simp only [HandedOut.update, update_page]
      exact (ok.present fileId file present).grown small distinct members
  | reused file pageId present member =>
      refine ok.setFile ?_ fun _ different => update_page_of_ne out different true
      simp only [HandedOut.update, update_page]
      exact (ok.present fileId file present).reused member

/-- Reading and writing pages leave the allocation alone. -/
theorem withPage (ok : AllocationState manager out) (fpId : FilePageId) (io : DiskIO)
    {act : DiskFile → DatabaseFile → DiskAnswer × DiskFile}
    (same : ∀ file : DiskFile, file.inIndex fpId.pageId = true →
      (act file.opened (file.handle.getD {})).2.pageCapacity = file.pageCapacity ∧
        (act file.opened (file.handle.getD {})).2.freePages = file.freePages) :
    AllocationState (manager.withPage fpId io act).2 out := by
  rcases manager.withPage_cases fpId io act with
    ⟨error, result⟩ | ⟨file, present, _, result⟩ | ⟨file, present, index, result⟩
  · rw [result]
    exact ok
  · rw [result]
    exact ok.setSame present rfl rfl
  · rw [result]
    exact ok.setSame present (same file index).1 (same file index).2

theorem writePage (ok : AllocationState manager out) (fpId : FilePageId) (page : FullPage)
    (io : DiskIO) : AllocationState (manager.writePage fpId page io).2 out := by
  refine ok.withPage fpId io fun file index => ?_
  have below := (DiskFile.inIndex_iff.mp index).1
  have written : ∀ bytes, (file.opened.writeAt (getOffset fpId.pageId) bytes).pageCapacity
      = file.pageCapacity := fun bytes => DiskManager.writeAt_capacity bytes below
  split
  · exact ⟨rfl, rfl⟩
  · split
    · rename_i torn _
      exact ⟨written torn, rfl⟩
    · exact ⟨written page, rfl⟩

theorem readPage (ok : AllocationState manager out) (fpId : FilePageId) (io : DiskIO) :
    AllocationState (manager.readPage fpId io).2 out := by
  refine ok.withPage fpId io fun file _ => ?_
  simp only
  split
  · exact ⟨rfl, rfl⟩
  · split
    · exact ⟨rfl, rfl⟩
    · split
      · exact ⟨rfl, rfl⟩
      · exact ⟨rfl, rfl⟩

theorem deletePage (ok : AllocationState manager out) (fpId : FilePageId) (io : DiskIO) :
    AllocationState (manager.deletePage fpId io).2
      (out.update (.deletePage fpId io) (manager.deletePage fpId io).1) := by
  unfold DiskManager.deletePage
  rcases manager.withPage_cases fpId io _ with
    ⟨error, result⟩ | ⟨file, present, _, result⟩ | ⟨file, present, index, result⟩
  · rw [result]
    exact ok
  · rw [result]
    exact ok.setSame present rfl rfl
  · rw [result]
    refine ok.setFile ?_ fun _ different => update_page_of_ne out different false
    simp only [HandedOut.update, update_page]
    exact (ok.present fpId.fileId file present).deleted index

theorem deleteFile (ok : AllocationState manager out) (fileId : FileId) (fault : Option String) :
    AllocationState (manager.deleteFile fileId fault).2
      (out.update (.deleteFile fileId fault) (manager.deleteFile fileId fault).1) := by
  cases fault with
  | none =>
      have kept : ∀ fpId : FilePageId, fpId.fileId ≠ fileId →
          out.update (.deleteFile fileId none) .done fpId = out fpId :=
        fun _ different => if_neg different
      refine ⟨fun other file present => ?_, fun fpId absent => ?_⟩
      · have different : other ≠ fileId := by
          rintro rfl
          cases (manager.setFile_self other none).symm.trans present
        have before := (manager.setFile_of_ne different none).symm.trans present
        have same : (fun pageId => out.update (.deleteFile fileId none) .done ⟨other, pageId⟩)
            = fun pageId => out ⟨other, pageId⟩ := by
          funext pageId
          exact kept ⟨other, pageId⟩ different
        exact same ▸ ok.present other file before
      · by_cases same : fpId.fileId = fileId
        · exact if_pos same
        · refine (kept fpId same).trans (ok.absent fpId ?_)
          exact (manager.setFile_of_ne same none).symm.trans absent
  | some message =>
      show AllocationState (manager.setFile fileId _) out
      cases present : manager.files fileId with
      | none =>
          have same : manager.setFile fileId none = manager := by
            unfold DiskManager.setFile
            rw [← present, Function.update_eq_self]
          exact same.symm ▸ ok
      | some file => exact ok.setFile (ok.present fileId file present).closed fun _ _ => rfl

end AllocationState

/-- **One step keeps the allocation in order**, whether it returns or not. -/
theorem allocation_step (manager : DiskManager) (out : HandedOut) (op : DiskOp)
    (ok : AllocationState manager out) :
    AllocationState (manager.step op).2 (out.update op (manager.step op).1) := by
  cases op with
  | createFile fileId opens =>
      simp only [DiskManager.step, DiskManager.createFile]
      split
      · exact ok
      · rename_i absent
        split
        · exact ok.created (by simpa using absent)
        · exact ok
  | createRandomFile draws opens => exact ok.createRandomFile opens _
  | allocatePage fileId io => exact ok.allocatePage fileId io
  | writePage fpId page io => exact ok.writePage fpId page io
  | readPage fpId io => exact ok.readPage fpId io
  | deletePage fpId io => exact ok.deletePage fpId io
  | deleteFile fileId fault => exact ok.deleteFile fileId fault
  | reopen => exact ok.reopen

/-- A new manager has no free page, and has handed out nothing. -/
theorem allocationState_reopen (directory : DiskManager) :
    AllocationState directory.reopen fun _ => false := by
  refine ⟨fun fileId file present => ?_, fun _ _ => rfl⟩
  obtain ⟨before, found, rfl⟩ := Option.map_eq_some_iff.mp present
  exact ⟨List.nodup_nil, nofun, nofun, nofun⟩

/-! ### What an allocation promises -/

/-- What `AllocatePage` promises: an id it returns lies below the capacity, is not the null page id
and is not handed out, and when it fails the free pages are as before. -/
def AllocatesFresh (state : DiskManager × HandedOut) : DiskOp → Prop
  | .allocatePage fileId io =>
      (∀ pageId, (state.1.allocatePage fileId io).1 = .page pageId →
        pageId.toNat < (state.1.allocatePage fileId io).2.capacityOf fileId ∧
          pageId ≠ nullPageId ∧ state.2 ⟨fileId, pageId⟩ = false) ∧
      ∀ failure, (state.1.allocatePage fileId io).1 = .failed failure →
        (state.1.allocatePage fileId io).2.freeOf fileId = state.1.freeOf fileId
  | _ => True

/-- The free page of a file that the iteration of a call meets first. -/
def DiskManager.firstFree (manager : DiskManager) (fileId : FileId) (io : DiskIO) : Option PageId :=
  match manager.freeOf fileId with
  | [] => none
  | first :: rest => some ((first :: rest).getD (io.pick % (rest.length + 1)) first)

/-- A call of `AllocatePage` does not meet the null page id first among the free pages. -/
def MeetsNoNull (state : DiskManager × HandedOut) : DiskOp → Prop
  | .allocatePage fileId io => state.1.firstFree fileId io ≠ some nullPageId
  | _ => True

section Promise

variable {manager : DiskManager} {out : HandedOut} {fileId : FileId} {io : DiskIO}

/-- The first free page is handed out. -/
theorem DiskManager.allocatePage_firstFree {pageId : PageId}
    (first : manager.firstFree fileId io = some pageId) :
    (manager.allocatePage fileId io).1 = .page pageId := by
  unfold firstFree freeOf at first
  cases present : manager.files fileId with
  | none =>
      rw [present] at first
      cases first
  | some file =>
      obtain ⟨size, bytes, handle⟩ := file
      cases handle with
      | none =>
          rw [present] at first
          cases first
      | some handle =>
          obtain ⟨stream, freePages⟩ := handle
          rw [present] at first
          cases freePages with
          | nil => cases first
          | cons one rest =>
              unfold allocatePage getFileHandle
              simp only [present]
              exact congrArg DiskAnswer.page (Option.some.inj first)

/-- A page that is handed out without being free is not the null page id. -/
theorem DiskManager.firstFree_of_null
    (handed : (manager.allocatePage fileId io).1 = .page nullPageId) :
    manager.firstFree fileId io = some nullPageId := by
  cases first : manager.firstFree fileId io with
  | some pageId =>
      cases (allocatePage_firstFree first).symm.trans handed
      rfl
  | none =>
      have noFree : manager.freeOf fileId = [] := by
        unfold firstFree at first
        split at first
        · assumption
        · cases first
      have step := manager.allocatePage_step fileId io
      rw [handed] at step
      generalize (manager.allocatePage fileId io).2 = manager' at step
      generalize isNull : DiskAnswer.page nullPageId = answer at step
      cases step with
      | grown file freePages present _ small _ _ =>
          have same := congrArg UInt32.toNat (DiskAnswer.page.inj isNull)
          rw [UInt32.toNat_ofNat', Nat.mod_eq_of_lt (by omega),
            show nullPageId.toNat = 2 ^ 32 - 1 from rfl] at same
          omega
      | reused file pageId present member =>
          rw [freeOf, present] at noFree
          have empty : file.freePages = [] := noFree
          rw [empty] at member
          cases member
      | _ => cases isNull

/-- But for the null page id, the promise is kept. -/
theorem AllocationState.allocatesFresh_iff (ok : AllocationState manager out) (op : DiskOp) :
    AllocatesFresh (manager, out) op ↔ MeetsNoNull (manager, out) op := by
  cases op with
  | allocatePage fileId io =>
      constructor
      · rintro ⟨fresh, -⟩ first
        exact (fresh nullPageId (DiskManager.allocatePage_firstFree first)).2.1 rfl
      · intro meets
        have notNull : (manager.allocatePage fileId io).1 ≠ .page nullPageId :=
          fun handed => meets (DiskManager.firstFree_of_null handed)
        have step := manager.allocatePage_step fileId io
        simp only [AllocatesFresh]
        generalize (manager.allocatePage fileId io).1 = answer at step notNull ⊢
        generalize (manager.allocatePage fileId io).2 = manager' at step ⊢
        have capacity : ∀ file, (manager.setFile fileId (some file)).capacityOf fileId
            = file.pageCapacity := by
          intro file
          rw [DiskManager.capacityOf, manager.setFile_self]
          rfl
        cases step with
        | notOpened error => exact ⟨nofun, fun _ _ => rfl⟩
        | faulted file message present =>
            refine ⟨nofun, fun _ _ => ?_⟩
            rw [DiskManager.freeOf, DiskManager.freeOf, manager.setFile_self, present]
            rfl
        | diverged file _ _ _ => exact ⟨nofun, nofun⟩
        | grown file freePages present _ small _ _ =>
            refine ⟨fun pageId same => ?_, nofun⟩
            cases same
            have fileOk := ok.present fileId file present
            have first : (UInt32.ofNat file.pageCapacity).toNat = file.pageCapacity := by
              rw [UInt32.toNat_ofNat', Nat.mod_eq_of_lt (by omega)]
            refine ⟨?_, fun null => notNull (congrArg DiskAnswer.page null), ?_⟩
            · rw [capacity, DiskFile.setFree_capacity, DiskFile.resize_capacity, first]
              exact file.lt_newCapacity
            · by_contra handed
              have below := fileOk.outBelow _ (by simpa using handed)
              omega
        | reused file pageId present member =>
            refine ⟨fun pageId' same => ?_, nofun⟩
            cases same
            have fileOk := ok.present fileId file present
            refine ⟨?_, fun null => notNull (congrArg DiskAnswer.page null),
              fileOk.apart pageId member⟩
            rw [capacity, DiskFile.setFree_capacity]
            exact fileOk.freeBelow pageId member
  | _ => exact Iff.rfl

end Promise

/-- A directory whose file 5 has the given number of pages, all zero. -/
def DiskManager.oneFile (pages : Nat) : DiskManager :=
  ⟨Function.update (fun _ => none) 5
    (some { size := pages * pageSize, bytes := fun _ => 0, handle := none })⟩

end Yadb
