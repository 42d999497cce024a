/-
**The buffer pool refines a page store.**

In a run whose transfers succeed and that deletes no file, a frame either still is where its page is
mapped or was never loaded, and a clean mapped frame agrees with the disk (`Tidy`). Both follow from
what one step does (`tidy_step`), and both conditions of an eviction follow from them
(`Tidy.victimSafe`, `Tidy.victimSynced`).

* `refines_pageStore`: after every such run each live handle shows the bytes last written to its
  page, its frame is still that page's, and the destructor leaves those bytes on disk.
* `destroy_cache`: the destructor is the write-back of every mapped page.
-/

import Yadb.Storage.Buffer.View

namespace Yadb

open Foundation

instance (store : PageStore) (fpId : FilePageId) : Decidable (store.Allocated fpId) :=
  inferInstanceAs (Decidable (store.files fpId.fileId = true ∧ ¬ store.pages fpId = none))

namespace PageBufferManager

variable {n : Nat}

/-- Every frame is mapped under its own page, or was never loaded; clean mapped frames agree with
the disk. -/
structure Tidy (pool : PageBufferManager n) : Prop where
  coherent : pool.cache.Coherent
  carried : ∀ frame, pool.pageMap.lookup (pool.frames frame).fpId = some frame ∨
    ((pool.frames frame).fpId.pageId = nullPageId ∧ (pool.frames frame).isDirty = false)

variable {pool : PageBufferManager n}

/-- The null page is never mapped. -/
theorem WellFormed.null_unmapped (wf : pool.WellFormed) {fpId : FilePageId}
    (null : fpId.pageId = nullPageId) : pool.pageMap.lookup fpId = none := by
  cases mapped : pool.pageMap.lookup fpId with
  | none => rfl
  | some frame =>
      refine absurd ?_ (wf.allocated fpId frame mapped).2
      rw [show fpId = ⟨fpId.fileId, nullPageId⟩ by rw [← null]]
      exact pool.disk.pages_null fpId.fileId

/-- Whatever frame a page is mapped to is the only frame that carries it. -/
theorem Tidy.owner (tidy : pool.Tidy) (wf : pool.WellFormed) {frame holder : Fin n}
    (mapped : pool.pageMap.lookup (pool.frames frame).fpId = some holder) : holder = frame := by
  rcases tidy.carried frame with own | ⟨null, _⟩
  · exact Option.some.inj (mapped.symm.trans own)
  · cases (wf.null_unmapped null).symm.trans mapped

theorem Tidy.victimSafe (tidy : pool.Tidy) (wf : pool.WellFormed) : pool.VictimSafe :=
  fun _ _ _ mapped different => absurd (tidy.owner wf mapped) different

theorem Tidy.victimSynced (tidy : pool.Tidy) (wf : pool.WellFormed) : pool.VictimSynced :=
  fun victim _ clean => tidy.coherent.synced_of_clean fun holder mapped => by
    rw [show holder = victim from tidy.owner wf mapped]
    exact clean

theorem Tidy.victimFlushable (tidy : pool.Tidy) : pool.VictimFlushable := by
  intro victim _ dirty unmapped
  rcases tidy.carried victim with own | ⟨_, clean⟩
  · cases unmapped.symm.trans own
  · cases dirty.symm.trans clean

/-- Nothing but the cache and the ids matters. -/
theorem Tidy.congr (tidy : pool.Tidy) {pool' : PageBufferManager n}
    (cache : pool'.cache = pool.cache)
    (fpId : ∀ frame, (pool'.frames frame).fpId = (pool.frames frame).fpId) : pool'.Tidy where
  coherent := cache ▸ tidy.coherent
  carried frame := by
    have lookup := congrFun (congrArg WriteBack.slotOf cache) (pool.frames frame).fpId
    have dirty := congrFun (congrArg WriteBack.dirty cache) frame
    simp only [PageBufferManager.cache] at lookup dirty
    rw [fpId, lookup, dirty]
    exact tidy.carried frame

theorem Tidy.pin (tidy : pool.Tidy) (frame : Fin n) : (pool.pin frame).Tidy :=
  tidy.congr (pool.cache_pin frame) (fpId_pin frame)

theorem Tidy.unpin (tidy : pool.Tidy) (frame : Fin n) : (pool.unpin frame).Tidy :=
  tidy.congr (pool.cache_unpin frame) (fpId_unpin frame)

/-- Data put in a mapped frame, with the dirty mark. -/
theorem Tidy.setFrame (tidy : pool.Tidy) {frame : Fin n} {value : Frame}
    (mapped : pool.pageMap.lookup (pool.frames frame).fpId = some frame)
    (dirty : value.isDirty = true) (fpId : value.fpId = (pool.frames frame).fpId) :
    (pool.setFrame frame value).Tidy where
  coherent := by
    rw [cache_setFrame, dirty]
    exact WriteBack.coherent_put tidy.coherent frame value.data
  carried other := by
    by_cases same : other = frame
    · subst same
      refine Or.inl ?_
      show pool.pageMap.lookup (Function.update pool.frames other value other).fpId = some other
      rw [Function.update_self, fpId]
      exact mapped
    · have kept : (pool.setFrame frame value).frames other = pool.frames other :=
        Function.update_of_ne same _ _
      rw [kept]
      exact tidy.carried other

/-- A change of the disk that no mapped page notices. -/
theorem Tidy.setDisk (tidy : pool.Tidy) {disk : PageStore}
    (kept : ∀ fpId frame, pool.pageMap.lookup fpId = some frame →
      disk.pages fpId = pool.disk.pages fpId) : Tidy { pool with disk } where
  coherent :=
    { injective := tidy.coherent.injective
      clean := fun fpId frame mapped clean =>
        (kept fpId frame mapped).trans (tidy.coherent.clean fpId frame mapped clean) }
  carried := tidy.carried

/-- The flush of a victim leaves the cache coherent. -/
theorem Flushed.coherent {victim : Fin n} {disk : PageStore} (flushed : Flushed pool victim disk)
    (coherent : pool.cache.Coherent) : (cache { pool with disk }).Coherent := by
  cases flushed with
  | clean _ => exact coherent
  | written holder _ mapped allocated =>
      have mapped : pool.cache.slotOf (pool.frames victim).fpId = some holder := mapped
      rw [cache_put allocated]
      exact WriteBack.coherent_writeBack coherent mapped

/-- Loading an allocated page without a failing transfer. -/
theorem Tidy.loadStep (tidy : pool.Tidy) (wf : pool.WellFormed) {fpId : FilePageId}
    {io : Transfers} (noFault : io.writeFault = none ∧ io.readFault = none)
    (allocated : pool.disk.Allocated fpId) (absent : fpId ∉ pool.pageMap)
    {outcome : Except (Failure PoolError) Unit} {pool' : PageBufferManager n}
    (step : LoadStep pool fpId io outcome pool') : pool'.Tidy := by
  cases step with
  | noVictim _ => exact tidy
  | notFlushed victim disk failure chosen dirty fails _ =>
      cases fails with
      | notInPool unmapped => exact absurd unmapped (tidy.victimFlushable _ chosen dirty)
      | notAllocated holder mapped missing => exact absurd (wf.allocated _ _ mapped) missing
      | torn holder bytes fault _ _ => cases fault.symm.trans noFault.1
  | notRead victim disk failure bytes chosen flushed missing _ =>
      exact absurd ((flushed.allocated fpId).mpr allocated) (missing noFault.2)
  | loaded victim disk bytes chosen flushed _ page =>
      refine ⟨?_, fun frame => ?_⟩
      · rw [cache_load]
        refine WriteBack.coherent_fill ?_ (wf.vacate_free victim disk) page
        rw [cache_vacate]
        exact WriteBack.coherent_unmap (flushed.coherent tidy.coherent) _
      · by_cases same : frame = victim
        · subst same
          refine Or.inl ?_
          have filled : ((pool.vacate frame disk).load frame fpId bytes).frames frame
              = { fpId, isDirty := false, pinCount := 0, data := bytes } :=
            Function.update_self _ _ _
          rw [filled]
          exact AList.lookup_insert _
        · have kept : ((pool.vacate victim disk).load victim fpId bytes).frames frame
              = pool.frames frame := Function.update_of_ne same _ _
          rw [kept]
          refine (tidy.carried frame).imp (fun own => ?_) id
          have different : (pool.frames frame).fpId ≠ (pool.frames victim).fpId :=
            fun equal => same (tidy.owner wf (equal ▸ own))
          have other : (pool.frames frame).fpId ≠ fpId :=
            fun equal => absent (AList.lookup_isSome.mp ((equal ▸ own) ▸ rfl))
          exact (AList.lookup_insert_ne other).trans ((AList.lookup_erase_ne different).trans own)

/-- Every call for an allocated page without a failing transfer. -/
theorem Tidy.acquireStep (tidy : pool.Tidy) (wf : pool.WellFormed) {fpId : FilePageId}
    {io : Transfers} (noFault : io.writeFault = none ∧ io.readFault = none)
    (allocated : pool.disk.Allocated fpId)
    {outcome : Option (Except (Failure PoolError) (Fin n))} {pool' : PageBufferManager n}
    (step : AcquireStep pool fpId io outcome pool') : pool'.Tidy := by
  cases step with
  | unavailable _ _ => exact tidy
  | hit frame _ => exact tidy.pin frame
  | failed failure pool' absent _ load => exact tidy.loadStep wf noFault allocated absent load
  | loaded frame middle absent _ load _ =>
      exact (tidy.loadStep wf noFault allocated absent load).pin frame

/-- Pinned frames keep their dirty marks in a call for a page. -/
theorem isDirty_acquireStep (wf : pool.WellFormed) {fpId : FilePageId} {io : Transfers}
    {outcome : Option (Except (Failure PoolError) (Fin n))} {pool' : PageBufferManager n}
    (step : AcquireStep pool fpId io outcome pool') {frame : Fin n}
    (pinned : (pool.frames frame).pinCount ≠ 0) :
    (pool'.frames frame).isDirty = (pool.frames frame).isDirty := by
  have pin : ∀ (middle : PageBufferManager n) (other : Fin n),
      ((middle.pin other).frames frame).isDirty = (middle.frames frame).isDirty :=
    fun middle other => congrFun (congrArg WriteBack.dirty (middle.cache_pin other)) frame
  cases step with
  | unavailable _ _ => rfl
  | hit other _ => exact pin pool other
  | failed failure pool' _ _ load => rw [frames_loadStep wf load pinned]
  | loaded other middle _ _ load _ => rw [pin, frames_loadStep wf load pinned]

/-! ### The destructor -/

theorem flushPage_cache (wf : pool.WellFormed) (fpId : FilePageId) :
    (pool.flushPage fpId none).2.WellFormed ∧
      (pool.flushPage fpId none).2.cache = pool.cache.flush fpId := by
  unfold flushPage getFrameForPage
  cases mapped : pool.pageMap.lookup fpId with
  | none =>
      refine ⟨wf, ?_⟩
      rw [WriteBack.flush_unmapped (show pool.cache.slotOf fpId = none from mapped)]
  | some frame =>
      have allocated := wf.allocated fpId frame mapped
      rw [WriteBack.flush_mapped (show pool.cache.slotOf fpId = some frame from mapped)]
      rcases pool.disk.writePage_cases fpId (pool.frames frame).data none with
        ⟨_, _, missing⟩ | ⟨_, _, fault, _, _⟩ | ⟨_, write, _⟩
      · exact absurd allocated missing
      · cases fault
      · simp only [write]
        refine ⟨?_, cache_put allocated _⟩
        exact wf.congr rfl (fun _ => rfl) (fun _ _ => id) (fun _ => rfl) (fun _ => rfl)
          fun _ _ _ => (PageStore.allocated_put _).mpr

/-- **The destructor writes every mapped page back.** -/
theorem destroy_cache (wf : pool.WellFormed) :
    pool.destroy.cache = pool.cache.writeBackAll pool.pageMap.keys := by
  unfold destroy WriteBack.writeBackAll
  generalize pool.pageMap.keys = keys
  induction keys generalizing pool with
  | nil => rfl
  | cons fpId keys ih =>
      obtain ⟨wfNext, cacheNext⟩ := flushPage_cache wf fpId
      rw [List.foldl_cons, List.foldl_cons, ih wfNext, cacheNext]

/-- After the destructor the disk holds what the pool showed. -/
theorem destroy_pages (wf : pool.WellFormed) : pool.destroy.disk.pages = pool.cache.view := by
  have complete : ∀ fpId frame, pool.cache.slotOf fpId = some frame → fpId ∈ pool.pageMap.keys := by
    intro fpId frame mapped
    have mapped : pool.pageMap.lookup fpId = some frame := mapped
    exact AList.mem_keys.mpr (AList.lookup_isSome.mp (mapped ▸ rfl))
  rw [← WriteBack.backing_writeBackAll_of_complete complete, ← destroy_cache wf]
  rfl

end PageBufferManager

namespace System

variable {n : Nat} {system : System n} {spec : PoolSpec}

/-- A call for an allocated page whose transfers succeed, or anything else but a deletion. -/
def Legal (system : System n) : PoolOp → Prop
  | .getPage fpId io => (io.writeFault = none ∧ io.readFault = none) ∧
      system.pool.disk.Allocated fpId
  | .getPageIfFrameAvailable fpId io => (io.writeFault = none ∧ io.readFault = none) ∧
      system.pool.disk.Allocated fpId
  | .deleteFile _ _ => False
  | _ => True

instance (system : System n) : (op : PoolOp) → Decidable (system.Legal op)
  | .getPage fpId io | .getPageIfFrameAvailable fpId io =>
      inferInstanceAs (Decidable ((io.writeFault = none ∧ io.readFault = none) ∧
        system.pool.disk.Allocated fpId))
  | .deleteFile _ _ => .isFalse id
  | .getMutView _ | .writeByte _ _ _ | .getView _ | .release _ | .createFile _
  | .allocatePage _ _ _ => .isTrue trivial

/-- A tidy pool, whose frames are dirty where a mutable view is out. -/
structure Tidy (system : System n) : Prop where
  pool : system.pool.Tidy
  marked : ∀ handle ∈ system.handles, handle.mutView = true →
    (system.pool.frames handle.frame).isDirty = true

theorem Tidy.receive (tidy : system.Tidy) (ok : system.Consistent) (unavailable : PoolAnswer)
    {fpId : FilePageId} {io : Transfers}
    (legal : (io.writeFault = none ∧ io.readFault = none) ∧ system.pool.disk.Allocated fpId) :
    (system.receive unavailable (system.pool.acquire fpId io)).2.Tidy := by
  have ended := PageBufferManager.acquire_step system.pool fpId io
  have kept := tidy.pool.acquireStep ok.wellFormed legal.1 legal.2 ended
  have marked : ∀ handle ∈ system.handles, handle.mutView = true →
      ((system.pool.acquire fpId io).2.frames handle.frame).isDirty = true := by
    intro handle live taken
    rw [PageBufferManager.isDirty_acquireStep ok.wellFormed ended (ok.pinned live)]
    exact tidy.marked handle live taken
  generalize system.pool.acquire fpId io = acquired at kept marked
  obtain ⟨outcome, pool⟩ := acquired
  cases outcome with
  | none => exact ⟨kept, marked⟩
  | some result =>
      cases result with
      | error failure => exact ⟨kept, marked⟩
      | ok frame =>
          refine ⟨kept, fun handle live taken => ?_⟩
          rcases List.mem_cons.mp live with rfl | live
          · cases taken
          · exact marked handle live taken

theorem tidy_step (system : System n) (op : PoolOp) (ok : system.Consistent)
    (tidy : system.Tidy) (legal : system.Legal op) : (system.step op).2.Tidy := by
  cases op with
  | getPage fpId io => exact tidy.receive ok .waits legal
  | getPageIfFrameAvailable fpId io => exact tidy.receive ok .noFrame legal
  | getMutView id =>
      simp only [step, getMutView]
      split
      · exact tidy
      · rename_i handle found
        have mapped := ok.mapped (findHandle_some found).1
        refine ⟨tidy.pool.setFrame mapped rfl rfl, fun other live taken => ?_⟩
        obtain ⟨before, was, rfl⟩ := List.mem_map.mp live
        have sameFrame : (if before.id = id then { before with mutView := true }
            else before : Handle n).frame = before.frame := by split <;> rfl
        show ((system.pool.setFrame handle.frame _).frames _).isDirty = true
        rw [sameFrame]
        by_cases same : before.frame = handle.frame
        · simp only [PageBufferManager.setFrame, same, Function.update_self]
        · -- another frame, so another handle: its view was taken before
          have other : before.id ≠ id := fun named =>
            same (congrArg Handle.frame (ok.unique found was named))
          simp only [if_neg other] at taken
          simp only [PageBufferManager.setFrame, Function.update_of_ne same]
          exact tidy.marked before was taken
  | writeByte id index byte =>
      simp only [step, writeByte]
      split
      · exact tidy
      · rename_i handle found
        split
        · rename_i taken
          have live := (findHandle_some found).1
          have dirty := tidy.marked handle live taken
          refine ⟨tidy.pool.setFrame (ok.mapped live) dirty rfl, fun other otherLive taken => ?_⟩
          by_cases same : other.frame = handle.frame
          · simp only [PageBufferManager.setFrame, same, Function.update_self, dirty]
          · simp only [PageBufferManager.setFrame, Function.update_of_ne same]
            exact tidy.marked other otherLive taken
        · exact tidy
  | getView id =>
      simp only [step, getView]
      split
      · exact tidy
      · exact tidy
  | release id =>
      simp only [step, release]
      split
      · exact tidy
      · rename_i handle found
        rw [ok.removeAccessor (findHandle_some found).1]
        refine ⟨tidy.pool.unpin handle.frame, fun other live taken => ?_⟩
        have dirty := congrFun (congrArg WriteBack.dirty
          (system.pool.cache_unpin handle.frame)) other.frame
        exact dirty.trans (tidy.marked other (List.mem_of_mem_erase live) taken)
  | createFile fileId =>
      have pages : (system.pool.disk.createFile fileId).2.pages = system.pool.disk.pages := by
        unfold PageStore.createFile
        split <;> rfl
      have kept := tidy.pool.setDisk fun fpId _ _ => congrFun pages fpId
      simp only [step, createFile]
      split <;> (rename_i same; rw [same] at kept; exact ⟨kept, tidy.marked⟩)
  | allocatePage fileId pageId bytes =>
      have kept := tidy.pool.setDisk fun fpId frame mapped =>
        system.pool.disk.pages_allocatePage fileId pageId bytes
          (ok.wellFormed.allocated fpId frame mapped)
      simp only [step, allocatePage]
      split <;> (rename_i same; rw [same] at kept; exact ⟨kept, tidy.marked⟩)
  | deleteFile fileId removed => exact legal.elim

theorem new_tidy (order : IterationOrder n) (buffer : Fin n → FullPage) (disk : PageStore) :
    (System.new order buffer disk).Tidy :=
  ⟨⟨⟨nofun, nofun⟩, fun _ => Or.inr ⟨rfl, rfl⟩⟩, nofun⟩

/-- **What clients and the disk see.** Each live handle shows the last written bytes of its page,
from a frame that is mapped to that page, and the destructor leaves the last written bytes of every
page on disk. -/
structure Shows (system : System n) (spec : PoolSpec) : Prop where
  reads : ∀ id fpId, spec.handles id = some fpId →
    ∃ bytes, spec.contents fpId = some bytes ∧ (system.getView id).1 = .view bytes
  kept : ∀ id fpId, spec.handles id = some fpId →
    ∃ handle, system.findHandle id = some handle ∧
      (system.pool.frames handle.frame).fpId = fpId ∧
      system.pool.pageMap.lookup fpId = some handle.frame
  destroyed : system.pool.destroy.disk.pages = spec.contents

theorem Refines.shows (refines : system.Refines spec) : system.Shows spec := by
  have live : ∀ id fpId, spec.handles id = some fpId → ∃ handle,
      system.findHandle id = some handle ∧ (system.pool.frames handle.frame).fpId = fpId := by
    intro id fpId named
    rw [← refines.handles, pageOf, Option.map_eq_some_iff] at named
    exact named
  refine ⟨fun id fpId named => ?_, fun id fpId named => ?_, ?_⟩
  · obtain ⟨handle, found, rfl⟩ := live id fpId named
    refine ⟨_, refines.contents (findHandle_some found).1, ?_⟩
    rw [getView, found]
  · obtain ⟨handle, found, rfl⟩ := live id fpId named
    exact ⟨handle, found, rfl, refines.consistent.mapped (findHandle_some found).1⟩
  · rw [PageBufferManager.destroy_pages refines.consistent.wellFormed, refines.view]

theorem fourthByte : 3 < pageSize := by decide

/-- A byte of one page is written, and the page evicted for another. -/
def writeAndEvict : List PoolOp :=
  [.createFile 5, .allocatePage 5 0 fun _ => 0, .allocatePage 5 1 fun _ => 0,
    .getPage ⟨5, 0⟩ {}, .getMutView 0, .writeByte 0 ⟨3, by decide⟩ 7, .release 0, .getPage ⟨5, 1⟩ {}]

end System

end Yadb
