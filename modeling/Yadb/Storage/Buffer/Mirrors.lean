/-
**A buffer pool that stands for a store of pages.**

* `Mirrors`: clients and the destructor see the pages of the store, and every frame without pins is
  counted as evictable.
* `getPage` hands out a page object that shows the page of the store, if no other is for that page;
  with fewer page objects than frames and without a failing transfer it does so for every page.
* `write` and the other calls change the store as they change the pool.

A second page object for a page makes the evictable count wrong (`Buffer.EvictableCount`).
-/

import Yadb.Storage.Buffer.EvictableCount
import Yadb.Storage.Buffer.Failure

namespace Yadb

open Foundation

/-! ### Writing through a view -/

/-- Stores through a mutable view, one after the other. -/
def System.writeBytes {n : Nat} (system : System n) (id : Nat)
    (stores : List (Fin pageSize × UInt8)) : System n :=
  stores.foldl (fun system store => (system.writeByte id store.1 store.2).2) system

/-- `GetMutView`, and the stores through the view. -/
def System.write {n : Nat} (system : System n) (id : Nat)
    (stores : List (Fin pageSize × UInt8)) : System n :=
  (system.getMutView id).2.writeBytes id stores

/-! ### A call for a page that succeeds -/

namespace PageBufferManager

variable {n : Nat} {pool : PageBufferManager n} {fpId : FilePageId} {io : Transfers}

/-- A call that hands out a frame met none of its faults. -/
theorem AcquireStep.faultless {frame : Fin n} {pool' : PageBufferManager n}
    (step : AcquireStep pool fpId io (some (.ok frame)) pool') :
    AcquireStep pool fpId {} (some (.ok frame)) pool' := by
  cases step with
  | hit _ mapped => exact .hit frame mapped
  | loaded _ middle absent counted load mapped =>
      refine .loaded frame middle absent counted ?_ mapped
      cases load with
      | loaded victim disk bytes chosen flushed file page =>
          exact .loaded victim disk bytes chosen flushed file page

/-- It is for an allocated page. -/
theorem AcquireStep.allocated (wf : pool.WellFormed) {frame : Fin n} {pool' : PageBufferManager n}
    (step : AcquireStep pool fpId io (some (.ok frame)) pool') : pool.disk.Allocated fpId := by
  cases step with
  | hit _ mapped => exact wf.allocated fpId frame mapped
  | loaded _ middle _ _ load _ =>
      cases load with
      | loaded victim disk bytes _ flushed file page =>
          refine (flushed.allocated fpId).mp ⟨file, ?_⟩
          rw [page]
          exact Option.some_ne_none _

theorem Flushed.files {victim : Fin n} {disk : PageStore} (flushed : Flushed pool victim disk) :
    disk.files = pool.disk.files := by
  cases flushed <;> rfl

/-- A call for a page neither creates nor deletes a file. -/
theorem AcquireStep.files {frame : Fin n} {pool' : PageBufferManager n}
    (step : AcquireStep pool fpId io (some (.ok frame)) pool') :
    pool'.disk.files = pool.disk.files := by
  cases step with
  | hit _ _ => rfl
  | loaded _ middle _ _ load _ =>
      cases load with
      | loaded victim disk bytes _ flushed _ _ => exact flushed.files

/-- As long as the count is right, a frame without pins is counted. -/
theorem CountsUnpinned.unpinned_of_zero (counted : pool.CountsUnpinned)
    (zero : pool.replacer.evictableCount = 0) (frame : Fin n) :
    (pool.frames frame).pinCount ≠ 0 := by
  intro unpinned
  have empty := Finset.card_eq_zero.mp (counted.symm.trans zero)
  have member := mem_unpinnedFrames.mpr unpinned
  rw [empty] at member
  exact absurd member (Finset.notMem_empty frame)

end PageBufferManager

/-! ### A pool that stands for a store -/

namespace System

variable {n : Nat} {system system' : System n} {store : PageStore}

/-- Clients and the destructor see the pages of the store; every frame without pins is counted. -/
structure Mirrors (system : System n) (store : PageStore) : Prop where
  refines : system.Refines ⟨store.pages, system.pageOf⟩
  tidy : system.Tidy
  counted : system.pool.CountsUnpinned
  files : system.pool.disk.files = store.files

theorem new_mirrors (small : n < sizeLimit) (order : IterationOrder n) (buffer : Fin n → FullPage)
    (disk : PageStore) : (System.new order buffer disk).Mirrors disk where
  refines := new_refines order buffer disk
  tidy := new_tidy order buffer disk
  counted := new_counted small order buffer disk
  files := rfl

/-- Nothing but the files and the pages of the store matters. -/
theorem Mirrors.congr (mirrors : system.Mirrors store) {store' : PageStore}
    (files : store'.files = store.files) (pages : store'.pages = store.pages) :
    system.Mirrors store' :=
  ⟨pages ▸ mirrors.refines, mirrors.tidy, mirrors.counted, mirrors.files.trans files.symm⟩

theorem Mirrors.pages_none (mirrors : system.Mirrors store) {fpId : FilePageId} :
    system.pool.disk.pages fpId = none ↔ store.pages fpId = none := by
  have wf := mirrors.refines.consistent.wellFormed
  have view : system.pool.cache.view fpId = store.pages fpId := congrFun mirrors.refines.view fpId
  cases mapped : system.pool.pageMap.lookup fpId with
  | none =>
      rw [← view, WriteBack.view_unmapped _ mapped]
      rfl
  | some frame =>
      refine iff_of_false (wf.allocated fpId frame mapped).2 ?_
      rw [← view, WriteBack.view_mapped _ mapped]
      exact Option.some_ne_none _

theorem Mirrors.allocated_iff (mirrors : system.Mirrors store) {fpId : FilePageId} :
    system.pool.disk.Allocated fpId ↔ store.Allocated fpId := by
  unfold PageStore.Allocated
  rw [mirrors.files]
  exact and_congr_right fun _ => not_congr mirrors.pages_none

/-- **What a step leaves in the pages.** -/
theorem Mirrors.step (mirrors : system.Mirrors store) (small : n < sizeLimit) (op : PoolOp)
    {answer : PoolAnswer} (ran : system.step op = (answer, system')) (legal : system.Legal op)
    (once : system.CountsOnce op) :
    system'.Refines (PoolSpec.update ⟨store.pages, system.pageOf⟩ op answer) ∧ system'.Tidy ∧
      system'.pool.CountsUnpinned := by
  have ok := mirrors.refines.consistent
  have wf := ok.wellFormed
  have synced : system.EvictsSynced op := by
    cases op with
    | getPage fpId io =>
        exact fun _ => ⟨mirrors.tidy.pool.victimSafe wf, mirrors.tidy.pool.victimSynced wf⟩
    | getPageIfFrameAvailable fpId io =>
        exact fun _ => ⟨mirrors.tidy.pool.victimSafe wf, mirrors.tidy.pool.victimSynced wf⟩
    | _ => trivial
  have removes : op.Removes := by
    cases op with
    | deleteFile fileId removed => exact legal.elim
    | _ => trivial
  have refines := refines_step system _ op mirrors.refines removes synced
  have tidy := tidy_step system op ok mirrors.tidy legal
  have counted := (count_step_iff small system op wf mirrors.counted).mpr once
  rw [ran] at refines tidy counted
  exact ⟨refines, tidy, counted⟩

/-- A step that a specification describes, whose pages are those of a store. -/
theorem Mirrors.of_step {spec : PoolSpec} (refines : system.Refines spec) (tidy : system.Tidy)
    (counted : system.pool.CountsUnpinned) (files : system.pool.disk.files = store.files)
    (pages : spec.contents = store.pages) : system.Mirrors store := by
  refine ⟨?_, tidy, counted, files⟩
  rw [refines.handles, ← pages]
  exact refines

/-- A name that was not given yet is free. -/
theorem pageOf_fresh (ok : system.Consistent) : system.pageOf system.nextHandle = none := by
  have absent : system.findHandle system.nextHandle = none := by
    refine List.find?_eq_none.mpr fun handle live named => ?_
    have below := ok.fresh handle live
    have same : handle.id = system.nextHandle := by simpa using named
    omega
  rw [pageOf, absent]
  rfl

/-- The frame of a page that no handle is for has no pins. -/
theorem Mirrors.unpinned (mirrors : system.Mirrors store) {fpId : FilePageId}
    (unheld : ∀ id, system.pageOf id ≠ some fpId) {frame : Fin n}
    (mapped : system.pool.pageMap.lookup fpId = some frame) :
    (system.pool.frames frame).pinCount = 0 := by
  have ok := mirrors.refines.consistent
  rw [ok.pins frame, List.countP_eq_zero]
  intro handle live here
  have here : handle.frame = frame := by simpa using here
  -- the handle is for the page of its frame
  have found : system.findHandle handle.id = some handle := by
    cases found : system.findHandle handle.id with
    | none => simpa using List.find?_eq_none.mp found handle live
    | some other =>
        obtain ⟨otherLive, named⟩ := findHandle_some found
        rw [ok.unique found live rfl]
  refine unheld handle.id ?_
  rw [pageOf, found, Option.map_some, here, ok.wellFormed.keyed fpId frame mapped]

/-- With fewer handles than frames, some frame has no pins. -/
theorem Mirrors.exists_unpinned (mirrors : system.Mirrors store)
    (few : system.handles.length < n) : ∃ frame, (system.pool.frames frame).pinCount = 0 := by
  by_contra all
  have held : ∀ frame ∈ List.finRange n, frame ∈ system.handles.map Handle.frame := by
    intro frame _
    have pinned : (system.pool.frames frame).pinCount ≠ 0 := fun zero => all ⟨frame, zero⟩
    rw [mirrors.refines.consistent.pins frame] at pinned
    obtain ⟨handle, live, here⟩ := List.countP_pos_iff.mp (Nat.pos_of_ne_zero pinned)
    exact List.mem_map.mpr ⟨handle, live, by simpa using here⟩
  have enough := ((List.nodup_finRange n).subperm held).length_le
  rw [List.length_finRange, List.length_map] at enough
  omega

/-- The pool hands out a frame. -/
def handOut (system : System n) (frame : Fin n) (pool : PageBufferManager n) : System n :=
  ⟨pool, ⟨system.nextHandle, frame, false⟩ :: system.handles, system.nextHandle + 1⟩

/-! ### The answers -/

section GetPage

variable {fpId : FilePageId} {io : Transfers} {id : Nat}

theorem getPage_page (answered : system.getPage fpId io = (.page id, system')) :
    ∃ frame pool, system.pool.acquire fpId io = (some (.ok frame), pool) ∧
      id = system.nextHandle ∧ system' = system.handOut frame pool := by
  unfold getPage receive at answered
  generalize system.pool.acquire fpId io = acquired at answered ⊢
  obtain ⟨outcome | failure | frame, pool⟩ := acquired
  · cases answered
  · cases answered
  · cases answered
    exact ⟨frame, pool, rfl, rfl, rfl⟩

/-- **A page object that is handed out shows the page of the store**, and is the only one for it. -/
theorem Mirrors.getPage (mirrors : system.Mirrors store) (small : n < sizeLimit)
    (unheld : ∀ id, system.pageOf id ≠ some fpId)
    (answered : system.getPage fpId io = (.page id, system')) :
    (∃ bytes, store.readPage fpId false = .ok bytes ∧
        system'.getView id = (.view bytes, system')) ∧
      system'.Mirrors store ∧ system.pageOf id = none ∧
      system'.pageOf = Function.update system.pageOf id (some fpId) ∧
      system'.handles.length = system.handles.length + 1 := by
  have ok := mirrors.refines.consistent
  obtain ⟨frame, pool, acquired, rfl, rfl⟩ := getPage_page answered
  have step := PageBufferManager.acquire_step system.pool fpId io
  rw [acquired] at step
  have safe : system.pool.MustLoad fpId → system.pool.VictimSafe ∧ system.pool.VictimSynced :=
    fun _ => ⟨mirrors.tidy.pool.victimSafe ok.wellFormed,
      mirrors.tidy.pool.victimSynced ok.wellFormed⟩
  have allocated := step.allocated ok.wellFormed
  have refines : (system.handOut frame pool).Refines
      ⟨store.pages, Function.update system.pageOf system.nextHandle (some fpId)⟩ :=
    mirrors.refines.receive
      (rfl : PoolSpec.receive ⟨store.pages, system.pageOf⟩ fpId .waits = _) step safe
  have tidy : (system.handOut frame pool).Tidy := by
    refine ⟨mirrors.tidy.pool.acquireStep ok.wellFormed ⟨rfl, rfl⟩ allocated step.faultless, ?_⟩
    intro handle live taken
    rcases List.mem_cons.mp live with rfl | live
    · cases taken
    · exact (PageBufferManager.isDirty_acquireStep ok.wellFormed step (ok.pinned live)).trans
        (mirrors.tidy.marked handle live taken)
  have counted : pool.CountsUnpinned := by
    have counts := acquire_count_iff small ok.wellFormed mirrors.counted fpId io
    rw [acquired] at counts
    exact counts.mpr fun frame mapped => mirrors.unpinned unheld mapped
  have found : (system.handOut frame pool).findHandle system.nextHandle
      = some ⟨system.nextHandle, frame, false⟩ := by
    simp [findHandle, handOut]
  -- the frame is that of the page, so its bytes are those of the store
  have isPage : some fpId = some (pool.frames frame).fpId :=
    (Function.update_self system.nextHandle _ system.pageOf).symm.trans (refines.pageOf_some found)
  have bytes : store.pages (pool.frames frame).fpId = some (pool.frames frame).data :=
    refines.contents (findHandle_some found).1
  rw [← Option.some.inj isPage] at bytes
  refine ⟨⟨(pool.frames frame).data, ?_, ?_⟩, ?_, pageOf_fresh ok, refines.handles, rfl⟩
  · exact PageStore.readPage_allocated (mirrors.files ▸ allocated.1) bytes
  · rw [getView, found]
    rfl
  · exact .of_step refines tidy counted (step.files.trans mirrors.files) rfl

/-- A client that holds fewer pages than there are frames does not wait. -/
theorem Mirrors.getPage_complete (mirrors : system.Mirrors store)
    (few : system.handles.length < n) (noFault : io.writeFault = none ∧ io.readFault = none)
    (allocated : store.Allocated fpId) :
    ∃ id system', system.getPage fpId io = (.page id, system') := by
  have ok := mirrors.refines.consistent
  have wf := ok.wellFormed
  obtain ⟨frame, unpinned⟩ := mirrors.exists_unpinned few
  have due : system.pool.Due fpId io := ⟨noFault, mirrors.allocated_iff.mpr allocated,
    .inr ⟨frame, (wf.flags frame).mpr unpinned⟩⟩
  obtain ⟨handed, pool, acquired⟩ := (PageBufferManager.acquire_ok_iff wf due).mpr fun _ =>
    ⟨fun zero => mirrors.counted.unpinned_of_zero zero frame unpinned,
      mirrors.tidy.pool.victimFlushable⟩
  refine ⟨system.nextHandle, system.handOut handed pool, ?_⟩
  rw [System.getPage, acquired]
  rfl

end GetPage

/-- The end of a page object. -/
theorem Mirrors.release (mirrors : system.Mirrors store) (small : n < sizeLimit) {id : Nat}
    {fpId : FilePageId} (named : system.pageOf id = some fpId) :
    ∃ system', system.release id = (.done, system') ∧ system'.Mirrors store ∧
      system'.pageOf = Function.update system.pageOf id none ∧
      system'.handles.length + 1 = system.handles.length := by
  have ok := mirrors.refines.consistent
  obtain ⟨handle, found, _⟩ := Option.map_eq_some_iff.mp named
  have live := (findHandle_some found).1
  have ran : system.release id = (.done, ⟨system.pool.unpin handle.frame,
      system.handles.erase handle, system.nextHandle⟩) := by
    unfold System.release
    simp only [found, ok.removeAccessor live]
  obtain ⟨refines, tidy, counted⟩ := mirrors.step small (.release id) ran trivial trivial
  exact ⟨_, ran, .of_step refines tidy counted mirrors.files rfl, refines.handles,
    List.length_erase_add_one live⟩

/-- The store and the disk of the pool allocate the same pages. -/
theorem Mirrors.allocatePage (mirrors : system.Mirrors store) (small : n < sizeLimit)
    (fileId : FileId) (pageId : PageId) (bytes : FullPage) :
    (∃ system' store', system.allocatePage fileId pageId bytes = (.done, system') ∧
        store.allocatePage fileId pageId bytes = (.ok pageId, store') ∧ system'.Mirrors store' ∧
        system'.pageOf = system.pageOf ∧ system'.handles = system.handles) ∨
      ((∃ failure system', system.allocatePage fileId pageId bytes = (.failed failure, system')) ∧
        ∃ error, (store.allocatePage fileId pageId bytes).1 = .error error) := by
  by_cases fresh : store.files fileId = true ∧ store.pages ⟨fileId, pageId⟩ = none ∧
      pageId ≠ nullPageId
  · have onDisk := fresh
    rw [← mirrors.files, ← mirrors.pages_none] at onDisk
    obtain ⟨disk, allocated, files⟩ : ∃ disk, system.pool.disk.allocatePage fileId pageId bytes
        = (.ok pageId, disk) ∧ disk.files = system.pool.disk.files := ⟨_, dif_pos onDisk, rfl⟩
    have ran : system.allocatePage fileId pageId bytes
        = (.done, { system with pool := { system.pool with disk } }) := by
      simp only [System.allocatePage, allocated]
    obtain ⟨refines, tidy, counted⟩ :=
      mirrors.step small (.allocatePage fileId pageId bytes) ran trivial trivial
    exact .inl ⟨_, _, ran, dif_pos fresh,
      .of_step refines tidy counted (files.trans mirrors.files) rfl, refines.handles, rfl⟩
  · have onDisk := fresh
    rw [← mirrors.files, ← mirrors.pages_none] at onDisk
    right
    simp only [System.allocatePage, PageStore.allocatePage, dif_neg onDisk, dif_neg fresh]
    exact ⟨⟨_, _, rfl⟩, _, rfl⟩

/-- So is a file created. -/
theorem Mirrors.createFile (mirrors : system.Mirrors store) (small : n < sizeLimit)
    (fileId : FileId) :
    (∃ system' store', system.createFile fileId = (.done, system') ∧
        store.createFile fileId = (.ok (), store') ∧ system'.Mirrors store' ∧
        system'.pageOf = system.pageOf ∧ system'.handles = system.handles) ∨
      ((∃ failure system', system.createFile fileId = (.failed failure, system')) ∧
        ∃ error, (store.createFile fileId).1 = .error error) := by
  by_cases present : store.files fileId = true
  · have onDisk := present
    rw [← mirrors.files] at onDisk
    right
    simp only [System.createFile, PageStore.createFile, onDisk, present, if_true]
    exact ⟨⟨_, _, rfl⟩, _, rfl⟩
  · have onDisk := present
    rw [← mirrors.files] at onDisk
    obtain ⟨disk, created, files⟩ : ∃ disk, system.pool.disk.createFile fileId = (.ok (), disk) ∧
        disk.files = Function.update store.files fileId true :=
      ⟨_, if_neg onDisk, by rw [← mirrors.files]⟩
    have ran : system.createFile fileId
        = (.done, { system with pool := { system.pool with disk } }) := by
      simp only [System.createFile, created]
    obtain ⟨refines, tidy, counted⟩ :=
      mirrors.step small (.createFile fileId) ran trivial trivial
    exact .inl ⟨_, _, ran, if_neg present, .of_step refines tidy counted files rfl,
      refines.handles, rfl⟩

/-! ### Writing a page -/

/-- The handle is live, and a mutable view was taken through it. -/
def Views (system : System n) (id : Nat) : Prop :=
  ∃ handle, system.findHandle id = some handle ∧ handle.mutView = true

/-- One store through a mutable view. -/
theorem Mirrors.writeByte (mirrors : system.Mirrors store) (small : n < sizeLimit) {id : Nat}
    (views : system.Views id) {fpId : FilePageId} (named : system.pageOf id = some fpId)
    {before : FullPage} (page : store.pages fpId = some before) (index : Fin pageSize)
    (byte : UInt8) :
    ∃ system', system.writeByte id index byte = (.done, system') ∧
      system'.Mirrors (store.put fpId (Function.update before index byte)) ∧
      system'.pageOf = system.pageOf ∧ system'.handles = system.handles := by
  obtain ⟨handle, found, taken⟩ := views
  have ran : system.writeByte id index byte = (.done, { system with
      pool := system.pool.setFrame handle.frame { system.pool.frames handle.frame with
        data := Function.update (system.pool.frames handle.frame).data index byte } }) := by
    simp only [System.writeByte, found, taken, if_true]
  obtain ⟨refines, tidy, counted⟩ :=
    mirrors.step small (.writeByte id index byte) ran trivial trivial
  simp only [PoolSpec.update, PoolSpec.writeByte, named] at refines
  refine ⟨_, ran, .of_step refines tidy counted mirrors.files ?_, refines.handles, rfl⟩
  rw [PageStore.put_pages page, page]
  rfl

/-- **The stores of a client leave the page they end in.** -/
theorem Mirrors.writeBytes (small : n < sizeLimit) {id : Nat} {fpId : FilePageId}
    {before : FullPage} (stores : List (Fin pageSize × UInt8)) (mirrors : system.Mirrors store)
    (views : system.Views id) (named : system.pageOf id = some fpId)
    (page : store.pages fpId = some before) :
    (system.writeBytes id stores).Mirrors (store.put fpId (stores.foldl
        (fun page store => Function.update page store.1 store.2) before)) ∧
      (system.writeBytes id stores).pageOf = system.pageOf ∧
      (system.writeBytes id stores).handles = system.handles := by
  induction stores generalizing system store before with
  | nil =>
      refine ⟨mirrors.congr rfl ?_, rfl, rfl⟩
      rw [List.foldl_nil, PageStore.put_pages page, ← page, Function.update_eq_self]
  | cons first rest ih =>
      obtain ⟨next, ran, wrote, pageOf, handles⟩ :=
        mirrors.writeByte small views named page first.1 first.2
      have stillViews : next.Views id := by
        obtain ⟨handle, found, taken⟩ := views
        refine ⟨handle, ?_, taken⟩
        rw [findHandle, handles]
        exact found
      obtain ⟨ended, pageOf', handles'⟩ :=
        ih wrote stillViews (pageOf ▸ named) (PageStore.put_self page _)
      have unfolded : system.writeBytes id (first :: rest) = next.writeBytes id rest := by
        rw [System.writeBytes, List.foldl_cons, ran]
        rfl
      rw [unfolded]
      refine ⟨ended.congr rfl ?_, pageOf'.trans pageOf, handles'.trans handles⟩
      rw [List.foldl_cons, PageStore.put_pages page,
        PageStore.put_pages (PageStore.put_self page _), PageStore.put_pages page,
        Function.update_idem]

theorem findHandle_map {change : Handle n → Handle n}
    (id : ∀ handle, (change handle).id = handle.id) (name : Nat) :
    findHandle { system with handles := system.handles.map change } name
      = (system.findHandle name).map change := by
  unfold findHandle
  rw [List.find?_map]
  congr 2
  funext handle
  simp only [Function.comp_apply, id]

/-- **A client writes a page** of the store, and its page objects stay. -/
theorem Mirrors.write (mirrors : system.Mirrors store) (small : n < sizeLimit) {id : Nat}
    {fpId : FilePageId} (named : system.pageOf id = some fpId) {before : FullPage}
    (page : store.pages fpId = some before) (stores : List (Fin pageSize × UInt8)) :
    (system.write id stores).Mirrors (store.put fpId (stores.foldl
        (fun page store => Function.update page store.1 store.2) before)) ∧
      (system.write id stores).pageOf = system.pageOf ∧
      (system.write id stores).handles.length = system.handles.length := by
  obtain ⟨handle, found, _⟩ := Option.map_eq_some_iff.mp named
  let change (other : Handle n) : Handle n :=
    if other.id = id then { other with mutView := true } else other
  have ran : system.getMutView id = (.done, { system with
      pool := system.pool.setFrame handle.frame
        { system.pool.frames handle.frame with isDirty := true }
      handles := system.handles.map change }) := by
    simp only [System.getMutView, found]
    rfl
  obtain ⟨refines, tidy, counted⟩ := mirrors.step small (.getMutView id) ran trivial trivial
  have views : (system.getMutView id).2.Views id := by
    rw [ran]
    refine ⟨change handle, ?_, ?_⟩
    · exact (findHandle_map (fun other => by unfold change; split <;> rfl) id).trans
        (congrArg (Option.map change) found)
    · simp only [change, (findHandle_some found).2, if_true]
  rw [ran] at views
  obtain ⟨ended, pageOf, sameHandles⟩ :=
    Mirrors.writeBytes small stores (.of_step refines tidy counted mirrors.files rfl) views
      (refines.handles ▸ named) page
  unfold System.write
  rw [ran]
  refine ⟨ended, pageOf.trans refines.handles, ?_⟩
  rw [sameHandles, List.length_map]

/-- A page object shows the page of the store. -/
theorem Mirrors.getView (mirrors : system.Mirrors store) {id : Nat} {fpId : FilePageId}
    (named : system.pageOf id = some fpId) :
    ∃ bytes, store.pages fpId = some bytes ∧ system.getView id = (.view bytes, system) := by
  obtain ⟨handle, found, rfl⟩ := Option.map_eq_some_iff.mp named
  refine ⟨_, mirrors.refines.contents (findHandle_some found).1, ?_⟩
  rw [System.getView, found]

end System

end Yadb
