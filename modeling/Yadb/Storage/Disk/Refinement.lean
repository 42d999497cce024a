/-
**The disk manager refines the page store.**

While no page id of `2 ^ 20` or above is in use, each call of a run of allocations and transfers
does to the files and pages in use what a `PageStore` does, and answers the same.

* `DiskManager.store`: what a directory is as a page store.
* `store_step`: one call; `transfers_refine`: every run.
-/

import Yadb.Storage.Disk.Offsets
import Yadb.Storage.Disk.PageStore

namespace Yadb

open Foundation


/-- The files of the directory and the pages in use. -/
def DiskManager.store (manager : DiskManager) : PageStore where
  files fileId := (manager.files fileId).isSome
  pages fpId :=
    (manager.files fpId.fileId).bind fun file =>
      if fpId.pageId ≠ nullPageId ∧ file.inIndex fpId.pageId = true then
        some (file.pageAt (getOffset fpId.pageId))
      else none
  pages_null fileId := by
    cases manager.files fileId with
    | none => rfl
    | some file =>
        rw [Option.bind_some]
        exact if_neg (not_and_of_not_left _ (not_not_intro rfl))

/-- What a page store does and answers in one transfer. -/
inductive StoreStep (store : PageStore) : DiskOp → DiskAnswer → PageStore → Prop
  | created {fileId : FileId} {opens : Bool} {store' : PageStore} :
      store.createFile fileId = (.ok (), store') →
      StoreStep store (.createFile fileId opens) .done store'
  | createdRandom {fileId : FileId} {draws : Nat → FileId} {opens : Bool} {store' : PageStore} :
      store.createFile fileId = (.ok (), store') →
      StoreStep store (.createRandomFile draws opens) (.created fileId) store'
  | allocated {fileId : FileId} {pageId : PageId} {io : DiskIO} {store' : PageStore}
      (bytes : FullPage) : store.allocatePage fileId pageId bytes = (.ok pageId, store') →
      StoreStep store (.allocatePage fileId io) (.page pageId) store'
  | read {fpId : FilePageId} {io : DiskIO} {bytes : FullPage} :
      store.readPage fpId false = .ok bytes → StoreStep store (.readPage fpId io) (.read bytes) store
  | wrote {fpId : FilePageId} {page : FullPage} {io : DiskIO} {store' : PageStore} :
      store.writePage fpId page none = (.ok (), store') →
      StoreStep store (.writePage fpId page io) .done store'
  | failed {op : DiskOp} {failure : Failure DiskError} : StoreStep store op (.failed failure) store
  | diverged {op : DiskOp} : StoreStep store op .diverges store

namespace PageStore

/-- Stores are equal when their files and pages are. -/
theorem ext {store store' : PageStore} (files : store.files = store'.files)
    (pages : store.pages = store'.pages) : store = store' := by
  obtain ⟨files₁, pages₁, _⟩ := store
  obtain ⟨files₂, pages₂, _⟩ := store'
  cases files
  cases pages
  rfl

end PageStore

namespace DiskManager

variable {manager : DiskManager} {fileId : FileId} {file file' : DiskFile}

theorem store_files (present : manager.files fileId = some file) :
    manager.store.files fileId = true := by
  show (manager.files fileId).isSome = true
  rw [present]
  rfl

theorem store_pages (below : file.IdsBelow) (present : manager.files fileId = some file)
    (pageId : PageId) : manager.store.pages ⟨fileId, pageId⟩ =
      if file.inIndex pageId = true then some (file.pageAt (getOffset pageId)) else none := by
  show (manager.files fileId).bind _ = _
  rw [present, Option.bind_some]
  by_cases index : file.inIndex pageId = true
  · have notNull : pageId ≠ nullPageId := by
      rintro rfl
      exact absurd (below nullPageId index) (by decide)
    rw [if_pos ⟨notNull, index⟩, if_pos index]
  · rw [if_neg fun both : _ ∧ _ => index both.2, if_neg index]

/-- One file changed: what the store shows of it is given by `pages`. -/
theorem store_setFile (present : manager.files fileId = some file) (below : file'.IdsBelow)
    (pages : FilePageId → Option FullPage)
    (own : ∀ pageId, pages ⟨fileId, pageId⟩ =
      if file'.inIndex pageId = true then some (file'.pageAt (getOffset pageId)) else none)
    (others : ∀ fpId : FilePageId, fpId.fileId ≠ fileId → pages fpId = manager.store.pages fpId) :
    (manager.setFile fileId (some file')).store.files = manager.store.files ∧
      (manager.setFile fileId (some file')).store.pages = pages := by
  constructor
  · funext other
    show ((manager.setFile fileId (some file')).files other).isSome = (manager.files other).isSome
    by_cases same : other = fileId
    · rw [same, manager.setFile_self, present]
      rfl
    · rw [manager.setFile_of_ne same]
  · funext fpId
    by_cases same : fpId.fileId = fileId
    · obtain ⟨_, pageId⟩ := fpId
      cases same
      rw [own, store_pages below (manager.setFile_self _ _)]
    · rw [others fpId same]
      show ((manager.setFile fileId (some file')).files fpId.fileId).bind _ = _
      rw [manager.setFile_of_ne same]
      rfl

/-- What the store shows of a file is unchanged if the pages in use and their bytes are. -/
theorem store_setFile_same (present : manager.files fileId = some file) (below : file'.IdsBelow)
    (index : ∀ pageId, file'.inIndex pageId = file.inIndex pageId)
    (bytes : ∀ pageId, file.inIndex pageId = true →
      file'.pageAt (getOffset pageId) = file.pageAt (getOffset pageId)) :
    (manager.setFile fileId (some file')).store = manager.store := by
  have before : file.IdsBelow := fun pageId inUse => below pageId ((index pageId).trans inUse)
  have own : ∀ pageId, manager.store.pages ⟨fileId, pageId⟩ =
      if file'.inIndex pageId = true then some (file'.pageAt (getOffset pageId)) else none := by
    intro pageId
    rw [store_pages before present, index]
    by_cases inUse : file.inIndex pageId = true
    · rw [if_pos inUse, if_pos inUse, bytes pageId inUse]
    · rw [if_neg inUse, if_neg inUse]
  obtain ⟨files, pages⟩ := store_setFile present below _ own fun _ _ => rfl
  exact PageStore.ext files pages

/-- A page in use is written. -/
theorem store_wrote {fpId : FilePageId} (present : manager.files fpId.fileId = some file)
    (below : file.IdsBelow) (index : file.inIndex fpId.pageId = true) (page : FullPage) :
    manager.store.writePage fpId page none = (.ok (), (manager.setFile fpId.fileId
      (some (file.opened.writeAt (getOffset fpId.pageId) page))).store) := by
  have found : manager.store.pages fpId = some (file.pageAt (getOffset fpId.pageId)) :=
    (store_pages below present fpId.pageId).trans (if_pos index)
  have capacity : (file.opened.writeAt (getOffset fpId.pageId) page).pageCapacity
      = file.pageCapacity := writeAt_capacity page (DiskFile.inIndex_iff.mp index).1
  have same : ∀ other, (file.opened.writeAt (getOffset fpId.pageId) page).inIndex other
      = file.inIndex other := by
    intro other
    unfold DiskFile.inIndex
    rw [capacity]
    rfl
  have below' : (file.opened.writeAt (getOffset fpId.pageId) page).IdsBelow :=
    fun other inUse => below other ((same other).symm.trans inUse)
  have own : ∀ other, Function.update manager.store.pages fpId (some page) ⟨fpId.fileId, other⟩ =
      if (file.opened.writeAt (getOffset fpId.pageId) page).inIndex other = true then
        some ((file.opened.writeAt (getOffset fpId.pageId) page).pageAt (getOffset other))
      else none := by
    intro other
    rw [same]
    by_cases equal : other = fpId.pageId
    · rw [equal, Function.update_self, if_pos index, DiskFile.pageAt_writeAt]
    · rw [Function.update_of_ne fun both => equal (congrArg FilePageId.pageId both),
        store_pages below present]
      by_cases inUse : file.inIndex other = true
      · have apart := (below.separate fpId.pageId index).2 other inUse (Ne.symm equal)
        rw [if_pos inUse, if_pos inUse, DiskFile.pageAt_writeAt_disjoint apart]
        rfl
      · rw [if_neg inUse, if_neg inUse]
  obtain ⟨files, pages⟩ := store_setFile present below' _ own fun other different =>
    Function.update_of_ne (fun equal => different (congrArg FilePageId.fileId equal)) _ _
  unfold PageStore.writePage
  rw [if_pos (store_files present), found]
  refine congrArg (Prod.mk _) (PageStore.ext files.symm ?_)
  rw [PageStore.put_pages found, pages]

/-- A file that is not there is created empty. -/
theorem store_created (absent : manager.files fileId = none) :
    manager.store.createFile fileId = (.ok (), (manager.setFile fileId
      (some { size := 0, bytes := fun _ => 0, handle := none })).store) := by
  have notThere : ¬ (manager.files fileId).isSome = true := by
    rw [absent]
    nofun
  refine (if_neg notThere).trans (congrArg (Prod.mk _) (PageStore.ext ?_ ?_))
  · funext other
    show Function.update (fun other => (manager.files other).isSome) fileId true other
      = ((manager.setFile fileId _).files other).isSome
    by_cases same : other = fileId
    · rw [same, Function.update_self, manager.setFile_self]
      rfl
    · rw [Function.update_of_ne same, manager.setFile_of_ne same]
  · funext fpId
    show (manager.files fpId.fileId).bind _ = ((manager.setFile fileId _).files fpId.fileId).bind _
    by_cases same : fpId.fileId = fileId
    · rw [same, manager.setFile_self, absent]
      exact (if_neg (not_and_of_not_right _ fun inUse =>
        Nat.not_lt_zero _ (DiskFile.inIndex_iff.mp inUse).1)).symm
    · rw [manager.setFile_of_ne same]

/-- One page comes into use, and the others keep their bytes. -/
theorem store_allocated (present : manager.files fileId = some file) (below : file'.IdsBelow)
    (pageId : PageId) (new : file.inIndex pageId = false)
    (index : ∀ other, file'.inIndex other = true ↔ file.inIndex other = true ∨ other = pageId)
    (bytes : ∀ other, file.inIndex other = true →
      file'.pageAt (getOffset other) = file.pageAt (getOffset other)) :
    manager.store.allocatePage fileId pageId (file'.pageAt (getOffset pageId))
      = (.ok pageId, (manager.setFile fileId (some file')).store) := by
  have before : file.IdsBelow := fun other inUse => below other ((index other).mpr (Or.inl inUse))
  have notNull : pageId ≠ nullPageId := by
    rintro rfl
    exact absurd (below nullPageId ((index nullPageId).mpr (Or.inr rfl))) (by decide)
  have fresh : manager.store.files fileId = true ∧ manager.store.pages ⟨fileId, pageId⟩ = none ∧
      pageId ≠ nullPageId := by
    refine ⟨store_files present, ?_, notNull⟩
    rw [store_pages before present, new]
    rfl
  have own : ∀ other, Function.update manager.store.pages ⟨fileId, pageId⟩
      (some (file'.pageAt (getOffset pageId))) ⟨fileId, other⟩ =
      if file'.inIndex other = true then some (file'.pageAt (getOffset other)) else none := by
    intro other
    by_cases same : other = pageId
    · rw [same, Function.update_self, if_pos ((index pageId).mpr (Or.inr rfl))]
    · rw [Function.update_of_ne fun equal => same (congrArg FilePageId.pageId equal),
        store_pages before present]
      by_cases inUse : file.inIndex other = true
      · rw [if_pos inUse, if_pos ((index other).mpr (Or.inl inUse)), bytes other inUse]
      · rw [if_neg inUse, if_neg fun after => ((index other).mp after).elim inUse same]
  obtain ⟨files, pages⟩ := store_setFile present below _ own fun fpId different =>
    Function.update_of_ne (fun equal => different (congrArg FilePageId.fileId equal)) _ _
  unfold PageStore.allocatePage
  rw [dif_pos fresh]
  exact congrArg (Prod.mk _) (PageStore.ext files.symm pages.symm)

end DiskManager

section Step

variable {manager : DiskManager} {written : Written}

theorem createRandomFile_store (draws : Nat → FileId) (opens : Bool) (rest : List FileId) :
    StoreStep manager.store (.createRandomFile draws opens)
      (manager.createRandomFile opens rest).1 (manager.createRandomFile opens rest).2.store := by
  induction rest with
  | nil => exact .failed
  | cons fileId rest ih =>
      unfold DiskManager.createRandomFile
      split
      · exact ih
      · rename_i fresh
        simp only [Bool.or_eq_true, not_or, Bool.not_eq_true, Option.isSome_eq_false_iff,
          Option.isNone_iff_eq_none] at fresh
        split
        · exact .createdRandom (DiskManager.store_created fresh.2)
        · exact .failed

theorem allocatePage_store (ok : TransferState manager written) (below : manager.IdsBelow)
    (fileId : FileId) (io : DiskIO) (next : (manager.allocatePage fileId io).2.IdsBelow) :
    StoreStep manager.store (.allocatePage fileId io) (manager.allocatePage fileId io).1
      (manager.allocatePage fileId io).2.store := by
  have step := manager.allocatePage_step fileId io
  generalize (manager.allocatePage fileId io).1 = answer at step
  generalize (manager.allocatePage fileId io).2 = manager' at step next ⊢
  cases step with
  | notOpened error => exact .failed
  | faulted file message present =>
      have opened : file.opened.IdsBelow := below fileId file present
      rw [DiskManager.store_setFile_same present opened (fun _ => rfl) fun _ _ => rfl]
      exact .failed
  | diverged file present noFree wide =>
      -- a file this long has the page `2 ^ 20` in use
      have inUse : file.inIndex 0x100000 = true := by
        refine DiskFile.inIndex_iff.mpr ⟨?_, by rw [noFree]; exact List.not_mem_nil⟩
        rw [show (0x100000 : PageId).toNat = 2 ^ 20 from rfl]
        omega
      exact absurd (below fileId file present _ inUse) (by decide)
  | grown file freePages present noFree small distinct members =>
      have first : (UInt32.ofNat file.pageCapacity).toNat = file.pageCapacity := by
        rw [UInt32.toNat_ofNat', Nat.mod_eq_of_lt (by omega)]
      have capacity := file.resize_capacity file.newCapacity
      have grows := file.lt_newCapacity
      refine .allocated _ (DiskManager.store_allocated present
        (next fileId _ (manager.setFile_self _ _)) (UInt32.ofNat file.pageCapacity) ?_
        (fun other => ?_) fun other inUse => ?_)
      · by_contra inUse
        have below := (DiskFile.inIndex_iff.mp (by simpa using inUse)).1
        omega
      · rw [DiskFile.inIndex_iff, DiskFile.inIndex_iff, DiskFile.setFree_capacity, capacity,
          DiskFile.setFree_freePages, members, noFree, ← UInt32.toNat_inj, first]
        simp only [List.not_mem_nil, not_false_eq_true, and_true]
        omega
      · exact DiskFile.pageAt_resize
          (DiskManager.getOffset_inside (DiskFile.inIndex_iff.mp inUse).1) (file.newCapacity * pageSize)
  | reused file pageId present member =>
      have free := (ok.present fileId file present).free
      refine .allocated _ (DiskManager.store_allocated present
        (next fileId _ (manager.setFile_self _ _)) pageId ?_ (fun other => ?_) fun _ _ => rfl)
      · by_contra inUse
        exact (DiskFile.inIndex_iff.mp (by simpa using inUse)).2 member
      · rw [DiskFile.inIndex_iff, DiskFile.inIndex_iff, DiskFile.setFree_capacity,
          DiskFile.setFree_freePages, free.distinct.mem_erase_iff]
        by_cases same : other = pageId
        · subst same
          exact iff_of_true ⟨free.inside other member, fun both => both.1 rfl⟩ (Or.inr rfl)
        · simp only [ne_eq, same, not_false_eq_true, true_and, or_false]

theorem writePage_store (ok : TransferState manager written) (below : manager.IdsBelow)
    (fpId : FilePageId) (page : FullPage) {io : DiskIO} (opens : io.opens = true)
    (noFault : io.writeFault = none) :
    StoreStep manager.store (.writePage fpId page io) (manager.writePage fpId page io).1
      (manager.writePage fpId page io).2.store := by
  rcases manager.withPage_cases fpId io _ with
    ⟨error, result⟩ | ⟨file, present, _, result⟩ | ⟨file, present, index, _⟩
  · unfold DiskManager.writePage
    rw [result]
    exact .failed
  · have opened : file.opened.IdsBelow := below fpId.fileId file present
    unfold DiskManager.writePage
    rw [result, DiskManager.store_setFile_same present opened (fun _ => rfl) fun _ _ => rfl]
    exact .failed
  · have fileOk := ok.present fpId.fileId file present
    have fileBelow := below fpId.fileId file present
    rw [DiskManager.writePage_inUse present index fileOk.stream opens noFault page]
    exact .wrote (DiskManager.store_wrote present fileBelow index page)

theorem readPage_store (ok : TransferState manager written) (below : manager.IdsBelow)
    (fpId : FilePageId) {io : DiskIO} (opens : io.opens = true) (noFault : io.readFault = false) :
    StoreStep manager.store (.readPage fpId io) (manager.readPage fpId io).1
      (manager.readPage fpId io).2.store := by
  rcases manager.withPage_cases fpId io _ with
    ⟨error, result⟩ | ⟨file, present, _, result⟩ | ⟨file, present, index, _⟩
  · unfold DiskManager.readPage
    rw [result]
    exact .failed
  · have opened : file.opened.IdsBelow := below fpId.fileId file present
    unfold DiskManager.readPage
    rw [result, DiskManager.store_setFile_same present opened (fun _ => rfl) fun _ _ => rfl]
    exact .failed
  · have fileOk := ok.present fpId.fileId file present
    have fileBelow := below fpId.fileId file present
    have read : manager.store.readPage fpId false
        = .ok (file.pageAt (getOffset fpId.pageId)) :=
      PageStore.readPage_allocated (DiskManager.store_files present)
        ((DiskManager.store_pages fileBelow present fpId.pageId).trans (if_pos index))
    rw [DiskManager.readPage_inUse present index fileOk.stream opens noFault]
    rw [DiskManager.store_setFile_same present]
    · exact .read read
    · exact fileBelow
    · exact fun _ => rfl
    · exact fun _ _ => rfl

/-- **One call does to the pages in use what a page store does**, and answers the same. -/
theorem store_step (manager : DiskManager) (written : Written) (op : DiskOp)
    (ok : TransferState manager written) (transfers : op.Transfers) (below : manager.IdsBelow)
    (next : (manager.step op).2.IdsBelow) :
    StoreStep manager.store op (manager.step op).1 (manager.step op).2.store := by
  cases op with
  | createFile fileId opens =>
      simp only [DiskManager.step, DiskManager.createFile]
      split
      · exact .failed
      · rename_i absent
        split
        · exact .created (DiskManager.store_created (by simpa using absent))
        · exact .failed
  | createRandomFile draws opens => exact createRandomFile_store draws opens _
  | allocatePage fileId io => exact allocatePage_store ok below fileId io next
  | writePage fpId page io => exact writePage_store ok below fpId page transfers.1 transfers.2
  | readPage fpId io => exact readPage_store ok below fpId transfers.1 transfers.2
  | deletePage fpId io => exact transfers.elim
  | deleteFile fileId fault => exact transfers.elim
  | reopen => exact transfers.elim

end Step

/-- The store that a directory is, at some point of a run of transfers. -/
def IsStore (manager : DiskManager) (store : PageStore) : Prop :=
  store = manager.store ∧ ∃ written, TransferState manager written

/-- **The disk manager refines the page store.** Every run of allocations and transfers whose I/O
succeeds, and in which no id of `2 ^ 20` or above comes into use, is a run of the page store that
the directory was, with the same answers. -/
theorem transfers_refine (directory : DiskManager) (ops : List DiskOp)
    (transfers : ∀ op ∈ ops, op.Transfers)
    (below : diskMachine.Always DiskManager.IdsBelow directory.reopen ops) :
    Machine.SpecRun StoreStep directory.reopen.store (diskMachine.trace directory.reopen ops)
      (diskMachine.exec directory.reopen ops).store := by
  have step : ∀ (manager : DiskManager) (store : PageStore) (op : DiskOp),
      IsStore manager store → op.Transfers ∧ manager.IdsBelow ∧ (manager.step op).2.IdsBelow →
      ∃ store', StoreStep store op (manager.step op).1 store' ∧ IsStore (manager.step op).2 store' := by
    rintro manager _ op ⟨rfl, written, ok⟩ ⟨meets, below, next⟩
    exact ⟨_, store_step manager written op ok meets below next, rfl, _,
      transfer_step manager written op ok meets⟩
  have start : IsStore directory.reopen directory.reopen.store :=
    ⟨rfl, _, transferState_reopen directory⟩
  have meets := (Machine.along_of_mem fun op member _ => transfers op member).and below.steps
  obtain ⟨_, run, rfl, _⟩ := Machine.simulation step start meets
  exact run

end Yadb
