/-
**The pool as a write-back cache of the page store.**

`PageBufferManager.cache` reads the page map, the frames and the disk as a write-back cache, and
each move of the pool is a move of that cache. Its view is what clients see: a resident page shows
its frame, any other page its bytes on disk.

* `VictimSynced`: what an eviction has to meet for the view to survive it. The page of a clean
  victim, if it is mapped at all, is on disk.
* `PoolSpec`: what the pool is for. Pages hold their last written bytes; a handle names its page.
* `refines_step`: a step whose evictions are safe and synced keeps `Refines`, whatever transfers
  fail.
-/

import Yadb.Foundation.WriteBack
import Yadb.Storage.Buffer.PageMap

namespace Yadb

open Foundation

/-- The operation is not a deletion that the file system refuses. -/
def PoolOp.Removes : PoolOp → Prop
  | .deleteFile _ removed => removed = true
  | _ => True

namespace PageBufferManager

variable {n : Nat}

def cache (pool : PageBufferManager n) : WriteBack FilePageId (Fin n) FullPage where
  slotOf fpId := pool.pageMap.lookup fpId
  data frame := (pool.frames frame).data
  dirty frame := (pool.frames frame).isDirty
  backing := pool.disk.pages

/-- The next victim, if it is clean, can be evicted without losing what its page shows. -/
def VictimSynced (pool : PageBufferManager n) : Prop :=
  ∀ victim, pool.victim = some victim → (pool.frames victim).isDirty = false →
    pool.cache.Synced (pool.frames victim).fpId

/-- The next victim, if it is dirty, is in the pool under its page and can be flushed. -/
def VictimFlushable (pool : PageBufferManager n) : Prop :=
  ∀ victim, pool.victim = some victim → (pool.frames victim).isDirty = true →
    pool.pageMap.lookup (pool.frames victim).fpId ≠ none

variable {pool : PageBufferManager n}

/-! ### The moves of the pool are moves of the cache -/

theorem cache_put {fpId : FilePageId} (allocated : pool.disk.Allocated fpId) (bytes : FullPage) :
    cache { pool with disk := pool.disk.put fpId bytes } = pool.cache.writeBack fpId bytes := by
  obtain ⟨old, page⟩ := Option.ne_none_iff_exists'.mp allocated.2
  simp only [cache, WriteBack.writeBack, PageStore.put_pages page]

theorem cache_vacate (victim : Fin n) (disk : PageStore) :
    (pool.vacate victim disk).cache
      = (cache { pool with disk }).unmap (pool.frames victim).fpId := by
  have erased : (fun fpId => (pool.pageMap.erase (pool.frames victim).fpId).lookup fpId)
      = Function.update (fun fpId => pool.pageMap.lookup fpId) (pool.frames victim).fpId none := by
    funext fpId
    by_cases same : fpId = (pool.frames victim).fpId
    · rw [same, Function.update_self, AList.lookup_erase]
    · rw [Function.update_of_ne same, AList.lookup_erase_ne same]
  simp only [cache, vacate, WriteBack.unmap, erased]

theorem cache_setFrame (pool : PageBufferManager n) (frame : Fin n) (value : Frame) :
    (pool.setFrame frame value).cache = pool.cache.put frame value.data value.isDirty := by
  have data : (fun other => ((pool.setFrame frame value).frames other).data)
      = Function.update (fun other => (pool.frames other).data) frame value.data := by
    funext other
    by_cases same : other = frame
    · simp only [setFrame, same, Function.update_self]
    · simp only [setFrame, Function.update_of_ne same]
  have dirty : (fun other => ((pool.setFrame frame value).frames other).isDirty)
      = Function.update (fun other => (pool.frames other).isDirty) frame value.isDirty := by
    funext other
    by_cases same : other = frame
    · simp only [setFrame, same, Function.update_self]
    · simp only [setFrame, Function.update_of_ne same]
  simp only [cache, WriteBack.put, data, dirty]
  rfl

theorem cache_load (frame : Fin n) (fpId : FilePageId) (bytes : FullPage) :
    (pool.load frame fpId bytes).cache = pool.cache.fill fpId frame bytes := by
  have mapped : (fun key => (pool.pageMap.insert fpId frame).lookup key)
      = Function.update (fun key => pool.pageMap.lookup key) fpId (some frame) := by
    funext key
    by_cases same : key = fpId
    · rw [same, Function.update_self, AList.lookup_insert]
    · rw [Function.update_of_ne same, AList.lookup_insert_ne same]
  have framed := congrArg WriteBack.data (pool.cache_setFrame frame
    { fpId, isDirty := false, pinCount := 0, data := bytes })
  have marked := congrArg WriteBack.dirty (pool.cache_setFrame frame
    { fpId, isDirty := false, pinCount := 0, data := bytes })
  simp only [cache, WriteBack.put] at framed marked
  simp only [cache, WriteBack.fill, load, framed, marked, mapped]
  rfl

/-- Only the page map, the bytes, the dirty marks and the pages on disk are seen. -/
theorem cache_congr {pool' : PageBufferManager n} (pageMap : pool'.pageMap = pool.pageMap)
    (data : ∀ frame, (pool'.frames frame).data = (pool.frames frame).data)
    (isDirty : ∀ frame, (pool'.frames frame).isDirty = (pool.frames frame).isDirty)
    (pages : pool'.disk.pages = pool.disk.pages) : pool'.cache = pool.cache := by
  simp only [cache, pageMap, data, isDirty, pages]

theorem cache_pin (pool : PageBufferManager n) (frame : Fin n) :
    (pool.pin frame).cache = pool.cache := by
  refine cache_congr rfl (fun other => ?_) (fun other => ?_) rfl
  · by_cases same : other = frame
    · simp only [pin, setFrame, same, Function.update_self]
    · simp only [pin, setFrame, Function.update_of_ne same]
  · by_cases same : other = frame
    · simp only [pin, setFrame, same, Function.update_self]
    · simp only [pin, setFrame, Function.update_of_ne same]

theorem cache_unpin (pool : PageBufferManager n) (frame : Fin n) :
    (pool.unpin frame).cache = pool.cache := by
  refine cache_congr rfl (fun other => ?_) (fun other => ?_) rfl
  · by_cases same : other = frame
    · simp only [unpin, setFrame, same, Function.update_self]
    · simp only [unpin, setFrame, Function.update_of_ne same]
  · by_cases same : other = frame
    · simp only [unpin, setFrame, same, Function.update_self]
    · simp only [unpin, setFrame, Function.update_of_ne same]

/-! ### Loading a page -/

/-- The flush of a victim leaves the view alone, and its page synced. -/
theorem Flushed.view {victim : Fin n} {disk : PageStore} (flushed : Flushed pool victim disk)
    (chosen : pool.victim = some victim) (safe : pool.VictimSynced) :
    (cache { pool with disk }).view = pool.cache.view ∧
      (cache { pool with disk }).Synced (pool.frames victim).fpId := by
  cases flushed with
  | clean clean => exact ⟨rfl, safe victim chosen clean⟩
  | written holder dirty mapped allocated =>
      have mapped : pool.cache.slotOf (pool.frames victim).fpId = some holder := mapped
      rw [cache_put allocated]
      exact ⟨WriteBack.view_writeBack_mapped mapped _, WriteBack.synced_writeBack mapped⟩

theorem Flushed.view_vacate {victim : Fin n} {disk : PageStore}
    (flushed : Flushed pool victim disk) (chosen : pool.victim = some victim)
    (safe : pool.VictimSynced) : (pool.vacate victim disk).cache.view = pool.cache.view := by
  obtain ⟨view, synced⟩ := flushed.view chosen safe
  rw [cache_vacate, WriteBack.view_unmap synced, view]

/-- **However loading a page ends, the view is the same.** -/
theorem view_loadStep (wf : pool.WellFormed) (safe : pool.VictimSynced) {fpId : FilePageId}
    {io : Transfers} (absent : fpId ∉ pool.pageMap) {outcome : Except (Failure PoolError) Unit}
    {pool' : PageBufferManager n} (step : LoadStep pool fpId io outcome pool') :
    pool'.cache.view = pool.cache.view := by
  cases step with
  | noVictim _ => rfl
  | notFlushed victim disk failure chosen dirty fails _ =>
      show (cache { pool with disk }).view = _
      cases fails with
      | notInPool _ => rfl
      | notAllocated holder _ _ => rfl
      | torn holder bytes _ mapped allocated =>
          have mapped : pool.cache.slotOf (pool.frames victim).fpId = some holder := mapped
          rw [cache_put allocated, WriteBack.view_writeBack_mapped mapped]
  | notRead victim disk failure bytes chosen flushed _ _ =>
      rw [overwrite, cache_setFrame, WriteBack.view_put_free (wf.vacate_free victim disk),
        flushed.view_vacate chosen safe]
  | loaded victim disk bytes chosen flushed _ page =>
      have free := wf.vacate_free victim disk
      have unmapped : (pool.vacate victim disk).cache.slotOf fpId = none := by
        cases mapped : (pool.vacate victim disk).cache.slotOf fpId with
        | none => rfl
        | some found =>
            exact absurd (AList.lookup_isSome.mp ((lookup_vacate mapped).2 ▸ rfl)) absent
      rw [cache_load, WriteBack.view_fill unmapped free page, flushed.view_vacate chosen safe]

/-- **A load that keeps the view evicts a synced victim.** -/
theorem victimSynced_of_loadStep {fpId : FilePageId} {io : Transfers} (absent : fpId ∉ pool.pageMap)
    {outcome : Except (Failure PoolError) Unit} {pool' : PageBufferManager n}
    (step : LoadStep pool fpId io outcome pool') (kept : pool'.cache.view = pool.cache.view) :
    pool.VictimSynced := by
  intro victim chosen clean holder mapped
  have seen := congrFun kept (pool.frames victim).fpId
  rw [WriteBack.view_mapped pool.cache mapped] at seen
  have erased : (pool.pageMap.erase (pool.frames victim).fpId).lookup (pool.frames victim).fpId
      = none := AList.lookup_erase _ _
  cases step with
  | noVictim nothing => cases nothing.symm.trans chosen
  | notFlushed found _ _ foundChosen dirty _ _ =>
      cases chosen.symm.trans foundChosen
      cases clean.symm.trans dirty
  | notRead found disk _ bytes foundChosen flushed _ _ =>
      cases chosen.symm.trans foundChosen
      cases flushed with
      | written _ dirty _ _ => cases clean.symm.trans dirty
      | clean _ => rwa [WriteBack.view_unmapped _ erased] at seen
  | loaded found disk bytes foundChosen flushed _ _ =>
      cases chosen.symm.trans foundChosen
      cases flushed with
      | written _ dirty _ _ => cases clean.symm.trans dirty
      | clean _ =>
          have different : (pool.frames victim).fpId ≠ fpId := by
            intro same
            have mapped : pool.pageMap.lookup (pool.frames victim).fpId = some holder := mapped
            rw [same, AList.lookup_eq_none.mpr absent] at mapped
            cases mapped
          have unmapped : ((pool.vacate victim pool.disk).load victim fpId bytes).cache.slotOf
              (pool.frames victim).fpId = none :=
            (AList.lookup_insert_ne different).trans erased
          rwa [WriteBack.view_unmapped _ unmapped] at seen

/-- A pinned frame is left alone when another page is loaded. -/
theorem frames_loadStep (wf : pool.WellFormed) {fpId : FilePageId} {io : Transfers}
    {outcome : Except (Failure PoolError) Unit} {pool' : PageBufferManager n}
    (step : LoadStep pool fpId io outcome pool') {frame : Fin n}
    (pinned : (pool.frames frame).pinCount ≠ 0) : pool'.frames frame = pool.frames frame := by
  cases step with
  | noVictim _ => rfl
  | notFlushed _ _ _ _ _ _ _ => rfl
  | notRead victim disk failure bytes chosen _ _ _ =>
      have other : frame ≠ victim := fun same => pinned (same ▸ wf.victim_unpinned chosen)
      exact Function.update_of_ne other _ _
  | loaded victim disk bytes chosen _ _ _ =>
      have other : frame ≠ victim := fun same => pinned (same ▸ wf.victim_unpinned chosen)
      exact Function.update_of_ne other _ _

/-! ### Deleting a file -/

/-- Deleting a file takes its pages out of the view, and no other. -/
theorem view_deleteFile (wf : pool.WellFormed) {fileId : FileId}
    (goes : pool.fileHasPinnedPages fileId = false) :
    (pool.deleteFile fileId true).2.cache.view
      = fun fpId => if fpId.fileId = fileId then none else pool.cache.view fpId := by
  rcases pool.deleteFile_cases fileId true with ⟨pinned, _⟩ | ⟨_, same⟩
  · cases goes.symm.trans pinned
  · have drop := wf.dropped fileId
    rw [same]
    funext fpId
    by_cases inFile : fpId.fileId = fileId
    · have unmapped : ((pool.toEvict fileId).foldl dropPage pool).pageMap.lookup fpId = none := by
        rw [drop.lookup]
        by_cases resident : fpId ∈ pool.pageMap
        · rw [if_pos (mem_toEvict.mpr ⟨resident, inFile⟩)]
        · rw [AList.lookup_eq_none.mpr resident, ite_self]
      rw [if_pos inFile, WriteBack.view_unmapped _ unmapped]
      exact if_pos inFile
    · have kept : ((pool.toEvict fileId).foldl dropPage pool).pageMap.lookup fpId
          = pool.pageMap.lookup fpId := by
        rw [drop.lookup, if_neg fun member => inFile (mem_toEvict.mp member).2]
      rw [if_neg inFile]
      cases mapped : pool.pageMap.lookup fpId with
      | none =>
          rw [WriteBack.view_unmapped _ (kept.trans mapped), WriteBack.view_unmapped _ mapped]
          refine (if_neg inFile).trans ?_
          rw [drop.disk]
          rfl
      | some frame =>
          rw [WriteBack.view_mapped _ (kept.trans mapped), WriteBack.view_mapped _ mapped]
          exact congrArg some (drop.data frame)

end PageBufferManager

/-! ### What the pool is for -/

/-- Pages with their last written bytes, and the page each live handle is for. -/
structure PoolSpec where
  contents : FilePageId → Option FullPage
  handles : Nat → Option FilePageId

namespace PoolSpec

def new (disk : PageStore) : PoolSpec := ⟨disk.pages, fun _ => none⟩

/-- A client stores a byte of the page its handle is for. -/
def writeByte (spec : PoolSpec) (handle : Nat) (index : Fin pageSize) (byte : UInt8) : PoolSpec :=
  match spec.handles handle with
  | none => spec
  | some fpId =>
      { spec with
        contents := Function.update spec.contents fpId
          ((spec.contents fpId).map fun bytes => Function.update bytes index byte) }

/-- A client gets a page object, or does not. -/
def receive (spec : PoolSpec) (fpId : FilePageId) : PoolAnswer → PoolSpec
  | .page handle => { spec with handles := Function.update spec.handles handle (some fpId) }
  | _ => spec

/-- What an operation with its answer means: only writes, allocations and deletions change
contents, and only page objects received and destroyed change handles. -/
def update (spec : PoolSpec) : PoolOp → PoolAnswer → PoolSpec
  | .getPage fpId _, answer => spec.receive fpId answer
  | .getPageIfFrameAvailable fpId _, answer => spec.receive fpId answer
  | .writeByte handle index byte, .done => spec.writeByte handle index byte
  | .release handle, .done => { spec with handles := Function.update spec.handles handle none }
  | .allocatePage fileId pageId bytes, .done =>
      { spec with contents := Function.update spec.contents ⟨fileId, pageId⟩ (some bytes) }
  | .deleteFile fileId _, .done =>
      { spec with
        contents := fun fpId => if fpId.fileId = fileId then none else spec.contents fpId }
  | _, _ => spec

end PoolSpec

namespace System

variable {n : Nat} {system : System n} {spec : PoolSpec}

/-- The page the handle of that name is for. -/
def pageOf (system : System n) (id : Nat) : Option FilePageId :=
  (system.findHandle id).map fun handle => (system.pool.frames handle.frame).fpId

/-- **The pool shows what the specification holds.** -/
structure Refines (system : System n) (spec : PoolSpec) : Prop where
  consistent : system.Consistent
  view : system.pool.cache.view = spec.contents
  handles : system.pageOf = spec.handles

/-- If the operation loads a page, the next victim is safe to evict and synced. -/
def EvictsSynced (system : System n) : PoolOp → Prop
  | .getPage fpId _ => system.pool.MustLoad fpId →
      system.pool.VictimSafe ∧ system.pool.VictimSynced
  | .getPageIfFrameAvailable fpId _ => system.pool.MustLoad fpId →
      system.pool.VictimSafe ∧ system.pool.VictimSynced
  | _ => True

/-- Handles on pinned frames that keep their page keep it too. -/
theorem pageOf_congr (ok : system.Consistent) {system' : System n}
    (handles : system'.handles = system.handles)
    (fpId : ∀ frame, (system.pool.frames frame).pinCount ≠ 0 →
      (system'.pool.frames frame).fpId = (system.pool.frames frame).fpId) :
    system'.pageOf = system.pageOf := by
  funext id
  unfold pageOf findHandle
  rw [handles]
  refine Option.map_congr fun handle found => ?_
  exact fpId _ (ok.pinned (List.mem_of_find?_eq_some found))

theorem pageOf_cons {pool : PageBufferManager n} {handle : Handle n} {handles : List (Handle n)}
    {nextHandle : Nat} :
    pageOf { pool, handles := handle :: handles, nextHandle }
      = Function.update (pageOf { pool, handles, nextHandle }) handle.id
          (some (pool.frames handle.frame).fpId) := by
  funext id
  unfold pageOf findHandle
  by_cases same : id = handle.id
  · rw [same, Function.update_self, List.find?_cons_of_pos (by simp)]
    rfl
  · rw [Function.update_of_ne same, List.find?_cons_of_neg (by simpa using Ne.symm same)]

/-- Destroying a handle forgets its name and no other. -/
theorem pageOf_erase {pool : PageBufferManager n} {handles : List (Handle n)} {nextHandle : Nat}
    {handle : Handle n} (distinct : (handles.map Handle.id).Nodup) (live : handle ∈ handles) :
    pageOf { pool, handles := handles.erase handle, nextHandle }
      = Function.update (pageOf { pool, handles, nextHandle }) handle.id none := by
  have found : (handles.erase handle).find? (fun other => other.id == handle.id) = none := by
    refine List.find?_eq_none.mpr fun other remains same => ?_
    have nodup : handles.Nodup := distinct.of_map
    have different : other ≠ handle := fun equal =>
      (List.Nodup.not_mem_erase nodup) (equal ▸ remains)
    exact different (List.inj_on_of_nodup_map distinct (List.mem_of_mem_erase remains) live
      (by simpa using same))
  have others : ∀ id ≠ handle.id, (handles.erase handle).find? (fun other => other.id == id)
      = handles.find? fun other => other.id == id := by
    intro id different
    obtain ⟨before, after, _, split, erased⟩ := List.exists_erase_eq live
    rw [erased, split, List.find?_append, List.find?_append, List.find?_cons_of_neg]
    simpa using Ne.symm different
  funext id
  unfold pageOf findHandle
  by_cases same : id = handle.id
  · rw [same, Function.update_self]
    show Option.map _ ((handles.erase handle).find? _) = none
    rw [found]
    rfl
  · rw [Function.update_of_ne same]
    show Option.map _ ((handles.erase handle).find? _) = _
    rw [others id same]

/-! ### Steps -/

/-- The pool answered a call for a page. -/
theorem Refines.receive (refines : system.Refines spec) {unavailable : PoolAnswer}
    {fpId : FilePageId} {io : Transfers} (nothing : spec.receive fpId unavailable = spec)
    {outcome : Option (Except (Failure PoolError) (Fin n))} {pool : PageBufferManager n}
    (step : PageBufferManager.AcquireStep system.pool fpId io outcome pool)
    (safe : system.pool.MustLoad fpId → system.pool.VictimSafe ∧ system.pool.VictimSynced) :
    Refines (system.receive unavailable (outcome, pool)).2
      (spec.receive fpId (system.receive unavailable (outcome, pool)).1) := by
  have consistent := refines.consistent.receive unavailable step fun load => (safe load).1
  have wf := refines.consistent.wellFormed
  -- the two ways of being handed a frame: the view and the pinned frames' pages survived so far
  have handed : ∀ (middle : PageBufferManager n) (frame : Fin n),
      middle.cache.view = system.pool.cache.view →
      (∀ other, (system.pool.frames other).pinCount ≠ 0 →
        (middle.frames other).fpId = (system.pool.frames other).fpId) →
      (middle.frames frame).fpId = fpId →
      (system.receive unavailable (some (.ok frame), middle.pin frame)).2.Consistent →
      Refines (system.receive unavailable (some (.ok frame), middle.pin frame)).2
        { spec with handles := Function.update spec.handles system.nextHandle (some fpId) } := by
    intro middle frame view fpIds key consistent
    refine ⟨consistent, ?_, ?_⟩
    · show (middle.pin frame).cache.view = spec.contents
      rw [PageBufferManager.cache_pin, view, refines.view]
    · show pageOf { pool := middle.pin frame, handles := _ :: system.handles, nextHandle := _ } = _
      rw [pageOf_cons, PageBufferManager.fpId_pin, key, ← refines.handles]
      refine congrArg (Function.update · _ _) (pageOf_congr refines.consistent rfl ?_)
      intro other pinned
      exact (PageBufferManager.fpId_pin frame other).trans (fpIds other pinned)
  cases step with
  | unavailable _ _ =>
      show Refines system (spec.receive fpId unavailable)
      rw [nothing]
      exact refines
  | hit frame mapped =>
      exact handed system.pool frame rfl (fun _ _ => rfl)
        (wf.keyed fpId frame mapped) consistent
  | failed failure pool absent exhausted load =>
      refine ⟨consistent, ?_, ?_⟩
      · exact (PageBufferManager.view_loadStep wf (safe ⟨absent, exhausted⟩).2 absent load).trans
          refines.view
      · show _ = spec.handles
        rw [← refines.handles]
        exact pageOf_congr refines.consistent rfl
          fun _ pinned => congrArg Frame.fpId (PageBufferManager.frames_loadStep wf load pinned)
  | loaded frame middle absent exhausted load mapped =>
      exact handed middle frame
        (PageBufferManager.view_loadStep wf (safe ⟨absent, exhausted⟩).2 absent load)
        (fun _ pinned => congrArg Frame.fpId (PageBufferManager.frames_loadStep wf load pinned))
        ((wf.loadStep load).keyed fpId frame mapped) consistent

/-- A frame under a live handle is written. -/
theorem Refines.write (refines : system.Refines spec) {handle : Handle n}
    (live : handle ∈ system.handles) (value : Frame)
    (fpId : value.fpId = (system.pool.frames handle.frame).fpId)
    (pinCount : value.pinCount = (system.pool.frames handle.frame).pinCount) :
    Refines { system with pool := system.pool.setFrame handle.frame value }
      { spec with
        contents := Function.update spec.contents (system.pool.frames handle.frame).fpId
          (some value.data) } := by
  have mapped := refines.consistent.mapped live
  have wf := refines.consistent.wellFormed
  refine ⟨refines.consistent.setFrame handle.frame fpId pinCount, ?_, ?_⟩
  · show (system.pool.setFrame handle.frame value).cache.view = _
    rw [PageBufferManager.cache_setFrame, ← refines.view]
    exact WriteBack.view_put_mapped mapped
      (fun other otherMapped => wf.injective otherMapped mapped) _ _
  · show _ = spec.handles
    rw [← refines.handles]
    refine pageOf_congr refines.consistent rfl fun other _ => ?_
    by_cases same : other = handle.frame
    · simp only [PageBufferManager.setFrame, same, Function.update_self, fpId]
    · simp only [PageBufferManager.setFrame, Function.update_of_ne same]

/-- The page under a live handle shows the handle's frame. -/
theorem Refines.contents (refines : system.Refines spec) {handle : Handle n}
    (live : handle ∈ system.handles) :
    spec.contents (system.pool.frames handle.frame).fpId
      = some (system.pool.frames handle.frame).data := by
  rw [← refines.view]
  exact WriteBack.view_mapped _ (refines.consistent.mapped live)

theorem Refines.pageOf_some (refines : system.Refines spec) {id : Nat} {handle : Handle n}
    (found : system.findHandle id = some handle) :
    spec.handles id = some (system.pool.frames handle.frame).fpId := by
  rw [← refines.handles, pageOf, found]
  rfl

theorem Refines.mapHandles (refines : system.Refines spec) {change : Handle n → Handle n}
    (id : ∀ handle, (change handle).id = handle.id)
    (frame : ∀ handle, (change handle).frame = handle.frame) :
    Refines { system with handles := system.handles.map change } spec := by
  refine ⟨refines.consistent.mapHandles id frame, refines.view, ?_⟩
  rw [← refines.handles]
  funext name
  have sameTest : (fun handle : Handle n => handle.id == name) ∘ change
      = fun handle => handle.id == name := by
    funext handle
    simp only [Function.comp_apply, id]
  unfold pageOf findHandle
  rw [List.find?_map, sameTest, Option.map_map]
  refine Option.map_congr fun handle _ => ?_
  simp only [Function.comp_apply, frame]

theorem Refines.getMutView (refines : system.Refines spec) (id : Nat) :
    Refines (system.getMutView id).2 spec := by
  unfold System.getMutView
  cases found : system.findHandle id with
  | none => exact refines
  | some handle =>
      obtain ⟨live, _⟩ := findHandle_some found
      have written := refines.write live
        { system.pool.frames handle.frame with isDirty := true } rfl rfl
      have same : Function.update spec.contents (system.pool.frames handle.frame).fpId
          (some (system.pool.frames handle.frame).data) = spec.contents := by
        rw [← refines.contents live, Function.update_eq_self]
      rw [same] at written
      refine written.mapHandles (fun other => ?_) fun other => ?_
      · split <;> rfl
      · split <;> rfl

theorem Refines.writeByte (refines : system.Refines spec) (id : Nat) (index : Fin pageSize)
    (byte : UInt8) : Refines (system.writeByte id index byte).2
      (spec.update (.writeByte id index byte) (system.writeByte id index byte).1) := by
  unfold System.writeByte
  cases found : system.findHandle id with
  | none => exact refines
  | some handle =>
      obtain ⟨live, _⟩ := findHandle_some found
      by_cases taken : handle.mutView = true
      · have written := refines.write live { system.pool.frames handle.frame with
          data := Function.update (system.pool.frames handle.frame).data index byte } rfl rfl
        simp only [if_pos taken, PoolSpec.update, PoolSpec.writeByte, refines.pageOf_some found,
          refines.contents live, Option.map_some]
        exact written
      · simp only [if_neg taken]
        exact refines

theorem Refines.release (refines : system.Refines spec) (id : Nat) :
    Refines (system.release id).2 (spec.update (.release id) (system.release id).1) := by
  unfold System.release
  cases found : system.findHandle id with
  | none => exact refines
  | some handle =>
      obtain ⟨live, named⟩ := findHandle_some found
      simp only [refines.consistent.removeAccessor live]
      refine ⟨refines.consistent.unpin live, ?_, ?_⟩
      · show (system.pool.unpin handle.frame).cache.view = spec.contents
        rw [PageBufferManager.cache_unpin, refines.view]
      · show _ = Function.update spec.handles id none
        have kept : pageOf { system with pool := system.pool.unpin handle.frame } = system.pageOf :=
          pageOf_congr refines.consistent rfl
            fun other _ => PageBufferManager.fpId_unpin handle.frame other
        rw [pageOf_erase refines.consistent.distinct live, named, kept, refines.handles]

/-- A change of the disk alone. -/
theorem Refines.setDisk (refines : system.Refines spec) {disk : PageStore}
    {contents : FilePageId → Option FullPage}
    (wf : ({ system.pool with disk } : PageBufferManager n).WellFormed)
    (view : (PageBufferManager.cache { system.pool with disk }).view = contents) :
    Refines { system with pool := { system.pool with disk } } { spec with contents } :=
  ⟨refines.consistent.setPool wf refines.consistent.pinnedMapped fun _ => rfl, view,
    refines.handles⟩

theorem Refines.createFile (refines : system.Refines spec) (fileId : FileId) :
    Refines (system.createFile fileId).2 spec := by
  have wf := wellFormed_step system (.createFile fileId) refines.consistent.wellFormed
  have pages : (system.pool.disk.createFile fileId).2.pages = system.pool.disk.pages := by
    unfold PageStore.createFile
    split <;> rfl
  simp only [step, System.createFile] at wf ⊢
  split <;> (
    rename_i same
    rw [same] at wf pages
    refine refines.setDisk wf ?_
    rw [← refines.view]
    exact congrArg WriteBack.view (PageBufferManager.cache_congr rfl (fun _ => rfl) (fun _ => rfl)
      pages))

theorem Refines.allocatePage (refines : system.Refines spec) (fileId : FileId) (pageId : PageId)
    (bytes : FullPage) : Refines (system.allocatePage fileId pageId bytes).2
      (spec.update (.allocatePage fileId pageId bytes)
        (system.allocatePage fileId pageId bytes).1) := by
  have wf := wellFormed_step system (.allocatePage fileId pageId bytes)
    refines.consistent.wellFormed
  simp only [step, System.allocatePage] at wf ⊢
  unfold PageStore.allocatePage at wf ⊢
  by_cases fresh : system.pool.disk.files fileId = true
      ∧ system.pool.disk.pages ⟨fileId, pageId⟩ = none ∧ pageId ≠ nullPageId
  · simp only [dif_pos fresh] at wf ⊢
    refine refines.setDisk wf ?_
    -- a page that is not allocated is not resident, so its new bytes are seen
    have absent : system.pool.pageMap.lookup ⟨fileId, pageId⟩ = none := by
      cases mapped : system.pool.pageMap.lookup ⟨fileId, pageId⟩ with
      | none => rfl
      | some frame =>
          exact absurd fresh.2.1 (refines.consistent.wellFormed.allocated _ frame mapped).2
    rw [← refines.view]
    funext fpId
    by_cases same : fpId = ⟨fileId, pageId⟩
    · rw [same, Function.update_self, WriteBack.view_unmapped _ absent]
      exact Function.update_self _ _ _
    · rw [Function.update_of_ne same]
      cases mapped : system.pool.pageMap.lookup fpId with
      | none =>
          rw [WriteBack.view_unmapped _ mapped, WriteBack.view_unmapped _ mapped]
          exact Function.update_of_ne same _ _
      | some frame => rw [WriteBack.view_mapped _ mapped, WriteBack.view_mapped _ mapped]; rfl
  · simp only [dif_neg fresh]
    exact refines

/-- A file that the file system removes, unless pages of it are pinned. -/
theorem Refines.deleteFile (refines : system.Refines spec) (fileId : FileId) :
    Refines (system.deleteFile fileId true).2
      (spec.update (.deleteFile fileId true) (system.deleteFile fileId true).1) := by
  have consistent := consistent_step system (.deleteFile fileId true) refines.consistent trivial
  simp only [step, System.deleteFile] at consistent ⊢
  cases pinned : system.pool.fileHasPinnedPages fileId with
  | true =>
      have timeout : system.pool.deleteFile fileId true
          = (.error (.error (.deleteFileTimeoutError fileId)), system.pool) := by
        unfold PageBufferManager.deleteFile
        rw [if_pos pinned]
      rw [timeout]
      exact refines
  | false =>
      have view := PageBufferManager.view_deleteFile refines.consistent.wellFormed pinned
      rcases system.pool.deleteFile_cases fileId true with ⟨wasPinned, _⟩ | ⟨_, same⟩
      · cases pinned.symm.trans wasPinned
      · rw [same] at view consistent ⊢
        refine ⟨consistent, ?_, ?_⟩
        · refine view.trans ?_
          rw [refines.view]
          rfl
        · refine Eq.trans ?_ refines.handles
          refine pageOf_congr refines.consistent rfl fun frame _ => ?_
          exact (refines.consistent.wellFormed.dropped fileId).fpId frame

/-- **A step whose eviction is safe and synced refines the specification**, whatever transfers of
it fail. -/
theorem refines_step (system : System n) (spec : PoolSpec) (op : PoolOp)
    (refines : system.Refines spec) (removes : op.Removes) (safe : system.EvictsSynced op) :
    Refines (system.step op).2 (spec.update op (system.step op).1) := by
  cases op with
  | getPage fpId io =>
      exact refines.receive rfl (PageBufferManager.acquire_step _ fpId io) safe
  | getPageIfFrameAvailable fpId io =>
      exact refines.receive rfl (PageBufferManager.acquire_step _ fpId io) safe
  | getMutView id => exact refines.getMutView id
  | writeByte id index byte => exact refines.writeByte id index byte
  | getView id =>
      have same : (system.getView id).2 = system := by
        unfold System.getView
        split <;> rfl
      show Refines (system.getView id).2 spec
      rw [same]
      exact refines
  | release id => exact refines.release id
  | createFile fileId => exact refines.createFile fileId
  | allocatePage fileId pageId bytes => exact refines.allocatePage fileId pageId bytes
  | deleteFile fileId removed =>
      cases removes
      exact refines.deleteFile fileId

theorem new_refines (order : IterationOrder n) (buffer : Fin n → FullPage) (disk : PageStore) :
    Refines (.new order buffer disk) (.new disk) :=
  ⟨new_consistent order buffer disk, rfl, rfl⟩

end System

end Yadb
