/-
**What holds of the pool in every reachable state, whatever fails.**

`WellFormed`: every frame is registered with the replacer and flagged evictable exactly when it is
unpinned; the page map points at frames that carry its keys, and at pages that are allocated. It
needs no assumption on the run: failed transfers, deleted files and re-created files keep it
(`wellFormed_always`). What it does not say, that pinned frames stay mapped, is what can break.
-/

import Yadb.Storage.Buffer.Steps

namespace Yadb

open Foundation

namespace PageStore

variable {store : PageStore}

theorem allocated_put {fpId other : FilePageId} (bytes : FullPage) :
    (store.put fpId bytes).Allocated other ↔ store.Allocated other := by
  unfold Allocated
  rw [put_files, ne_eq, put_pages_isSome]

theorem allocated_createFile {fileId : FileId} {other : FilePageId}
    (allocated : store.Allocated other) : (store.createFile fileId).2.Allocated other := by
  unfold createFile
  split
  · exact allocated
  · refine ⟨?_, allocated.2⟩
    show Function.update store.files fileId true other.fileId = true
    by_cases same : other.fileId = fileId
    · rw [same, Function.update_self]
    · rw [Function.update_of_ne same]
      exact allocated.1

theorem allocated_allocatePage {fileId : FileId} {pageId : PageId} {bytes : FullPage}
    {other : FilePageId} (allocated : store.Allocated other) :
    (store.allocatePage fileId pageId bytes).2.Allocated other := by
  have pages := store.pages_allocatePage fileId pageId bytes allocated
  refine ⟨?_, pages ▸ allocated.2⟩
  unfold allocatePage
  split
  · exact allocated.1
  · exact allocated.1

/-- Deleting a file keeps the pages of the other files. -/
theorem allocated_deleteFile {fileId : FileId} {removed : Bool} {other : FilePageId}
    (different : other.fileId ≠ fileId) (allocated : store.Allocated other) :
    (store.deleteFile fileId removed).2.Allocated other := by
  unfold deleteFile
  split
  · refine ⟨?_, ?_⟩
    · show Function.update store.files fileId false other.fileId = true
      rw [Function.update_of_ne different]
      exact allocated.1
    · show (if other.fileId = fileId then none else store.pages other) ≠ none
      rw [if_neg different]
      exact allocated.2
  · exact allocated

end PageStore

namespace PageBufferManager

variable {n : Nat}

structure WellFormed (pool : PageBufferManager n) : Prop where
  registered : ∀ frame, frame ∈ pool.replacer.frames
  distinct : pool.replacer.frames.Nodup
  flags : ∀ frame, (pool.replacer.entry frame).isEvictable = true ↔
    (pool.frames frame).pinCount = 0
  keyed : ∀ fpId frame, pool.pageMap.lookup fpId = some frame → (pool.frames frame).fpId = fpId
  allocated : ∀ fpId frame, pool.pageMap.lookup fpId = some frame → pool.disk.Allocated fpId

variable {pool : PageBufferManager n}

/-- The victim is unpinned, and there is one as soon as some frame is unpinned. -/
theorem WellFormed.victim_unpinned (wf : pool.WellFormed) {frame : Fin n}
    (chosen : pool.victim = some frame) : (pool.frames frame).pinCount = 0 := by
  rcases pool.victim_cases with ⟨_, noVictim, _⟩ | ⟨found, _, evictable, foundChosen, _⟩
  · cases noVictim.symm.trans chosen
  · cases foundChosen.symm.trans chosen
    exact (wf.flags frame).mp evictable

theorem WellFormed.victim_none (wf : pool.WellFormed) (noVictim : pool.victim = none)
    (frame : Fin n) : (pool.frames frame).pinCount ≠ 0 := by
  rcases pool.victim_cases with ⟨_, _, blocked⟩ | ⟨found, _, _, foundChosen, _⟩
  · intro unpinned
    have evictable := (wf.flags frame).mpr unpinned
    rw [blocked frame (wf.registered frame)] at evictable
    cases evictable
  · cases foundChosen.symm.trans noVictim

/-- No two pages are mapped to one frame. -/
theorem WellFormed.injective (wf : pool.WellFormed) {fpId fpId' : FilePageId} {frame : Fin n}
    (mapped : pool.pageMap.lookup fpId = some frame)
    (mapped' : pool.pageMap.lookup fpId' = some frame) : fpId = fpId' :=
  (wf.keyed fpId frame mapped).symm.trans (wf.keyed fpId' frame mapped')

/-- Whatever changes neither registration, flags, ids nor pins, and maps and deallocates nothing
new, keeps well-formedness. -/
theorem WellFormed.congr (wf : pool.WellFormed) {pool' : PageBufferManager n}
    (registered : pool'.replacer.frames = pool.replacer.frames)
    (flags : ∀ frame, (pool'.replacer.entry frame).isEvictable
      = (pool.replacer.entry frame).isEvictable)
    (lookup : ∀ fpId frame, pool'.pageMap.lookup fpId = some frame →
      pool.pageMap.lookup fpId = some frame)
    (fpId : ∀ frame, (pool'.frames frame).fpId = (pool.frames frame).fpId)
    (pinCount : ∀ frame, (pool'.frames frame).pinCount = (pool.frames frame).pinCount)
    (disk : ∀ fpId frame, pool'.pageMap.lookup fpId = some frame → pool.disk.Allocated fpId →
      pool'.disk.Allocated fpId) :
    pool'.WellFormed where
  registered frame := by rw [registered]; exact wf.registered frame
  distinct := by rw [registered]; exact wf.distinct
  flags frame := by rw [flags, pinCount]; exact wf.flags frame
  keyed page frame mapped := (fpId frame).trans (wf.keyed page frame (lookup page frame mapped))
  allocated page frame mapped :=
    disk page frame mapped (wf.allocated page frame (lookup page frame mapped))

/-! ### The moves -/

theorem Flushed.allocated {frame : Fin n} {disk : PageStore} (flushed : Flushed pool frame disk)
    (fpId : FilePageId) : disk.Allocated fpId ↔ pool.disk.Allocated fpId := by
  cases flushed with
  | clean _ => exact Iff.rfl
  | written holder _ _ _ => exact PageStore.allocated_put _

theorem FlushFails.allocated {frame : Fin n} {io : Transfers} {disk : PageStore}
    (fails : FlushFails pool frame io disk) (fpId : FilePageId) :
    disk.Allocated fpId ↔ pool.disk.Allocated fpId := by
  cases fails with
  | notInPool _ => exact Iff.rfl
  | notAllocated holder _ _ => exact Iff.rfl
  | torn holder bytes _ _ _ => exact PageStore.allocated_put _

theorem lookup_vacate {victim frame : Fin n} {disk : PageStore} {fpId : FilePageId}
    (mapped : (pool.vacate victim disk).pageMap.lookup fpId = some frame) :
    fpId ≠ (pool.frames victim).fpId ∧ pool.pageMap.lookup fpId = some frame := by
  replace mapped : (pool.pageMap.erase (pool.frames victim).fpId).lookup fpId = some frame := mapped
  by_cases same : fpId = (pool.frames victim).fpId
  · rw [same, AList.lookup_erase] at mapped
    cases mapped
  · rw [AList.lookup_erase_ne same] at mapped
    exact ⟨same, mapped⟩

/-- After the victim's own page is unmapped, nothing is mapped to it. -/
theorem WellFormed.vacate_free (wf : pool.WellFormed) (victim : Fin n) (disk : PageStore)
    (fpId : FilePageId) : (pool.vacate victim disk).pageMap.lookup fpId ≠ some victim := by
  intro mapped
  obtain ⟨different, mapped⟩ := lookup_vacate mapped
  exact different (wf.keyed fpId victim mapped).symm

theorem WellFormed.vacate (wf : pool.WellFormed) {frame : Fin n} {disk : PageStore}
    (flushed : Flushed pool frame disk) : (pool.vacate frame disk).WellFormed :=
  wf.congr rfl (LRUKReplacer.clearHistory_isEvictable frame)
    (fun _ _ mapped => (lookup_vacate mapped).2) (fun _ => rfl) (fun _ => rfl)
    (fun fpId _ _ => (flushed.allocated fpId).mpr)

theorem WellFormed.flushFailed (wf : pool.WellFormed) {frame : Fin n} {io : Transfers}
    {disk : PageStore} (fails : FlushFails pool frame io disk) :
    (pool.flushFailed frame disk).WellFormed :=
  wf.congr rfl (LRUKReplacer.clearHistory_isEvictable frame) (fun _ _ mapped => mapped)
    (fun _ => rfl) (fun _ => rfl) (fun fpId _ _ => (fails.allocated fpId).mpr)

/-- A frame changed in its bytes or its dirty mark only. -/
theorem WellFormed.setFrame (wf : pool.WellFormed) (frame : Fin n) {value : Frame}
    (fpId : value.fpId = (pool.frames frame).fpId)
    (pinCount : value.pinCount = (pool.frames frame).pinCount) :
    (pool.setFrame frame value).WellFormed := by
  refine wf.congr rfl (fun _ => rfl) (fun _ _ mapped => mapped) (fun other => ?_) (fun other => ?_)
    (fun _ _ _ => id)
  · by_cases same : other = frame
    · simp only [PageBufferManager.setFrame, same, Function.update_self, fpId]
    · simp only [PageBufferManager.setFrame, Function.update_of_ne same]
  · by_cases same : other = frame
    · simp only [PageBufferManager.setFrame, same, Function.update_self, pinCount]
    · simp only [PageBufferManager.setFrame, Function.update_of_ne same]

theorem WellFormed.load (wf : pool.WellFormed) {frame : Fin n} {fpId : FilePageId}
    (unpinned : (pool.frames frame).pinCount = 0)
    (free : ∀ other, pool.pageMap.lookup other ≠ some frame)
    (allocated : pool.disk.Allocated fpId) (bytes : FullPage) :
    (pool.load frame fpId bytes).WellFormed := by
  have lookup : ∀ {other found},
      (pool.load frame fpId bytes).pageMap.lookup other = some found →
        (other = fpId ∧ found = frame) ∨ (found ≠ frame ∧ pool.pageMap.lookup other = some found) := by
    intro other found mapped
    by_cases same : other = fpId
    · rw [same] at mapped ⊢
      exact Or.inl ⟨rfl, (Option.some.inj ((AList.lookup_insert _).symm.trans mapped)).symm⟩
    · have mapped := (AList.lookup_insert_ne same).symm.trans mapped
      exact Or.inr ⟨fun equal => free other (equal ▸ mapped), mapped⟩
  refine ⟨wf.registered, wf.distinct, ?_, ?_, ?_⟩
  · intro other
    by_cases same : other = frame
    · subst same
      simp only [PageBufferManager.load, PageBufferManager.setFrame, Function.update_self, iff_true]
      exact (wf.flags other).mpr unpinned
    · simp only [PageBufferManager.load, PageBufferManager.setFrame, Function.update_of_ne same]
      exact wf.flags other
  · intro other found mapped
    rcases lookup mapped with ⟨rfl, rfl⟩ | ⟨different, mapped⟩
    · simp only [PageBufferManager.load, PageBufferManager.setFrame, Function.update_self]
    · simp only [PageBufferManager.load, PageBufferManager.setFrame,
        Function.update_of_ne different]
      exact wf.keyed other found mapped
  · intro other found mapped
    rcases lookup mapped with ⟨rfl, rfl⟩ | ⟨_, mapped⟩
    · exact allocated
    · exact wf.allocated other found mapped

theorem WellFormed.pin (wf : pool.WellFormed) (frame : Fin n) : (pool.pin frame).WellFormed where
  registered other := by
    show other ∈ ((pool.replacer.recordAccess frame).setEvictable frame false).frames
    rw [LRUKReplacer.setEvictable_frames, LRUKReplacer.recordAccess_frames]
    exact wf.registered other
  distinct := by
    show ((pool.replacer.recordAccess frame).setEvictable frame false).frames.Nodup
    rw [LRUKReplacer.setEvictable_frames, LRUKReplacer.recordAccess_frames]
    exact wf.distinct
  flags other := by
    have registered : frame ∈ (pool.replacer.recordAccess frame).frames := by
      rw [LRUKReplacer.recordAccess_frames]
      exact wf.registered frame
    show (((pool.replacer.recordAccess frame).setEvictable frame false).entry other).isEvictable
      = true ↔ _
    rw [LRUKReplacer.setEvictable_isEvictable registered]
    by_cases same : other = frame
    · subst same
      simp [PageBufferManager.pin, PageBufferManager.setFrame]
    · rw [if_neg same, LRUKReplacer.recordAccess_isEvictable]
      simp only [PageBufferManager.pin, PageBufferManager.setFrame, Function.update_of_ne same]
      exact wf.flags other
  keyed fpId found mapped := by
    rw [← wf.keyed fpId found mapped]
    by_cases same : found = frame
    · simp only [PageBufferManager.pin, PageBufferManager.setFrame, same, Function.update_self]
    · simp only [PageBufferManager.pin, PageBufferManager.setFrame, Function.update_of_ne same]
  allocated := wf.allocated

theorem unpin_registered (frame : Fin n) :
    (pool.unpin frame).replacer.frames = pool.replacer.frames := by
  simp only [PageBufferManager.unpin, PageBufferManager.setFrame]
  split
  · exact LRUKReplacer.setEvictable_frames frame true
  · rfl

theorem WellFormed.unpin (wf : pool.WellFormed) {frame : Fin n}
    (pinned : (pool.frames frame).pinCount ≠ 0) : (pool.unpin frame).WellFormed where
  registered other := by rw [unpin_registered]; exact wf.registered other
  distinct := by rw [unpin_registered]; exact wf.distinct
  flags other := by
    by_cases last : (pool.frames frame).pinCount = 1
    · simp only [PageBufferManager.unpin, if_pos last]
      rw [LRUKReplacer.setEvictable_isEvictable (wf.registered frame)]
      by_cases same : other = frame
      · simp [PageBufferManager.setFrame, same, last]
      · simp only [PageBufferManager.setFrame, if_neg same, Function.update_of_ne same]
        exact wf.flags other
    · simp only [PageBufferManager.unpin, if_neg last]
      by_cases same : other = frame
      · subst same
        simp only [PageBufferManager.setFrame, Function.update_self, wf.flags other]
        omega
      · simp only [PageBufferManager.setFrame, Function.update_of_ne same]
        exact wf.flags other
  keyed fpId found mapped := by
    rw [← wf.keyed fpId found mapped]
    by_cases same : found = frame
    · simp only [PageBufferManager.unpin, PageBufferManager.setFrame, same, Function.update_self]
    · simp only [PageBufferManager.unpin, PageBufferManager.setFrame, Function.update_of_ne same]
  allocated := wf.allocated

theorem WellFormed.loadStep (wf : pool.WellFormed) {fpId : FilePageId} {io : Transfers}
    {outcome : Except (Failure PoolError) Unit} {pool' : PageBufferManager n}
    (step : LoadStep pool fpId io outcome pool') : pool'.WellFormed := by
  cases step with
  | noVictim _ => exact wf
  | notFlushed frame disk failure _ _ fails _ => exact wf.flushFailed fails
  | notRead frame disk failure bytes _ flushed _ _ => exact (wf.vacate flushed).setFrame frame rfl rfl
  | loaded frame disk bytes chosen flushed file page =>
      refine (wf.vacate flushed).load (wf.victim_unpinned chosen) (wf.vacate_free frame disk)
        ⟨file, ?_⟩ bytes
      rw [ne_eq, show (pool.vacate frame disk).disk = disk from rfl, page]
      nofun

theorem WellFormed.acquireStep (wf : pool.WellFormed) {fpId : FilePageId} {io : Transfers}
    {outcome : Option (Except (Failure PoolError) (Fin n))} {pool' : PageBufferManager n}
    (step : AcquireStep pool fpId io outcome pool') : pool'.WellFormed := by
  cases step with
  | unavailable _ _ => exact wf
  | hit frame _ => exact wf.pin frame
  | failed failure pool' _ _ load => exact wf.loadStep load
  | loaded frame middle _ _ load _ => exact (wf.loadStep load).pin frame

/-- The pages `DeleteFile` evicts are mapped, and unpinned when it goes through. -/
theorem WellFormed.dropped (wf : pool.WellFormed) (fileId : FileId) :
    Dropped pool (pool.toEvict fileId) ((pool.toEvict fileId).foldl dropPage pool) :=
  PageBufferManager.dropped wf.registered _ (toEvict_nodup fileId)
    fun _ member => (mem_toEvict.mp member).1

theorem Dropped.lookup_some {keys : List FilePageId} {pool' : PageBufferManager n}
    (drop : Dropped pool keys pool') {fpId : FilePageId} {frame : Fin n}
    (mapped : pool'.pageMap.lookup fpId = some frame) :
    fpId ∉ keys ∧ pool.pageMap.lookup fpId = some frame := by
  rw [drop.lookup] at mapped
  split at mapped
  · cases mapped
  · rename_i kept
    exact ⟨kept, mapped⟩

theorem WellFormed.ofDropped (wf : pool.WellFormed) {keys : List FilePageId}
    {pool' : PageBufferManager n} (drop : Dropped pool keys pool')
    (unpinned : ∀ fpId ∈ keys, ∀ frame, pool.pageMap.lookup fpId = some frame →
      (pool.frames frame).pinCount = 0) : pool'.WellFormed where
  registered frame := by rw [drop.registered]; exact wf.registered frame
  distinct := by rw [drop.registered]; exact wf.distinct
  flags frame := by
    rw [drop.pinCount]
    by_cases mapped : ∃ fpId ∈ keys, pool.pageMap.lookup fpId = some frame
    · obtain ⟨fpId, member, frameMapped⟩ := mapped
      exact iff_of_true (drop.flagSet frame ⟨fpId, member, frameMapped⟩)
        (unpinned fpId member frame frameMapped)
    · rw [drop.flagKept frame fun fpId member same => mapped ⟨fpId, member, same⟩]
      exact wf.flags frame
  keyed fpId frame mapped := by
    rw [drop.fpId]
    exact wf.keyed fpId frame (drop.lookup_some mapped).2
  allocated fpId frame mapped := by
    rw [drop.disk]
    exact wf.allocated fpId frame (drop.lookup_some mapped).2

/-- `DeleteFile` times out, or drops the pages of the file, none of them pinned. -/
theorem deleteFile_cases (pool : PageBufferManager n) (fileId : FileId) (removed : Bool) :
    (pool.fileHasPinnedPages fileId = true ∧ pool.deleteFile fileId removed
        = (.error (.error (.deleteFileTimeoutError fileId)), pool)) ∨
      ((∀ fpId ∈ pool.toEvict fileId, ∀ frame, pool.pageMap.lookup fpId = some frame →
          (pool.frames frame).pinCount = 0) ∧
        pool.deleteFile fileId removed
          = ((if removed then .ok () else .error (.error (.disk (.deleteFileError fileId
                "remove failed")))),
              { (pool.toEvict fileId).foldl dropPage pool with
                disk := (((pool.toEvict fileId).foldl dropPage pool).disk.deleteFile
                  fileId removed).2 })) := by
  unfold deleteFile
  by_cases pinned : pool.fileHasPinnedPages fileId = true
  · rw [if_pos pinned]
    exact Or.inl ⟨pinned, rfl⟩
  · rw [if_neg pinned]
    refine Or.inr ⟨fun fpId member frame mapped => ?_, ?_⟩
    · by_contra pinnedFrame
      exact pinned (fileHasPinnedPages_iff.mpr ⟨fpId, frame, mapped, (mem_toEvict.mp member).2,
        Nat.pos_of_ne_zero pinnedFrame⟩)
    · unfold PageStore.deleteFile
      cases removed <;> rfl

theorem WellFormed.deleteFile (wf : pool.WellFormed) (fileId : FileId) (removed : Bool) :
    (pool.deleteFile fileId removed).2.WellFormed := by
  rcases pool.deleteFile_cases fileId removed with ⟨_, same⟩ | ⟨unpinned, same⟩
  · rw [same]
    exact wf
  · rw [same]
    have drop := wf.dropped fileId
    refine (wf.ofDropped drop unpinned).congr rfl (fun _ => rfl) (fun _ _ mapped => mapped)
      (fun _ => rfl) (fun _ => rfl) fun fpId frame mapped => PageStore.allocated_deleteFile ?_
    intro sameFile
    obtain ⟨kept, mapped⟩ := drop.lookup_some mapped
    exact kept (mem_toEvict.mpr ⟨AList.lookup_isSome.mp (mapped ▸ rfl), sameFile⟩)

theorem new_wellFormed (order : IterationOrder n) (buffer : Fin n → FullPage) (disk : PageStore) :
    (new order buffer disk).WellFormed := by
  have registered := LRUKReplacer.registerAll order.frames order.nodup
  unfold new
  rw [registered]
  exact ⟨order.complete, order.nodup, fun _ => iff_of_true rfl rfl, nofun, nofun⟩

end PageBufferManager

/-! ### The system -/

namespace System

variable {n : Nat}

theorem receive_pool (system : System n) (unavailable : PoolAnswer)
    (acquired : Option (Except (Failure PoolError) (Fin n)) × PageBufferManager n) :
    (system.receive unavailable acquired).2.pool = acquired.2 := by
  obtain ⟨outcome, pool⟩ := acquired
  cases outcome with
  | none => rfl
  | some result => cases result <;> rfl

/-- **One step keeps well-formedness.** -/
theorem wellFormed_step (system : System n) (op : PoolOp) (wf : system.pool.WellFormed) :
    (system.step op).2.pool.WellFormed := by
  cases op with
  | getPage fpId io =>
      rw [step, getPage, receive_pool]
      exact wf.acquireStep (PageBufferManager.acquire_step _ fpId io)
  | getPageIfFrameAvailable fpId io =>
      rw [step, getPageIfFrameAvailable, receive_pool]
      exact wf.acquireStep (PageBufferManager.acquire_step _ fpId io)
  | getMutView id =>
      simp only [step, getMutView]
      split
      · exact wf
      · exact wf.setFrame _ rfl rfl
  | writeByte id index byte =>
      simp only [step, writeByte]
      split
      · exact wf
      · split
        · exact wf.setFrame _ rfl rfl
        · exact wf
  | getView id =>
      simp only [step, getView]
      split
      · exact wf
      · exact wf
  | release id =>
      simp only [step, release]
      split
      · exact wf
      · rename_i handle _
        rcases system.pool.removeAccessor_cases (system.pool.frames handle.frame).fpId with
          ⟨_, same⟩ | ⟨_, _, _, same⟩ | ⟨frame, _, pinned, same⟩
        · rw [same]
          exact wf
        · rw [same]
          exact wf
        · rw [same]
          exact wf.unpin pinned
  | createFile fileId =>
      have kept : ({ system.pool with
          disk := (system.pool.disk.createFile fileId).2 } : PageBufferManager n).WellFormed :=
        wf.congr rfl (fun _ => rfl) (fun _ _ => id) (fun _ => rfl) (fun _ => rfl)
          fun _ _ _ => PageStore.allocated_createFile
      simp only [step, createFile]
      split <;> (rename_i same; rw [same] at kept; exact kept)
  | allocatePage fileId pageId bytes =>
      have kept : ({ system.pool with
          disk := (system.pool.disk.allocatePage fileId pageId bytes).2 } :
          PageBufferManager n).WellFormed :=
        wf.congr rfl (fun _ => rfl) (fun _ _ => id) (fun _ => rfl) (fun _ => rfl)
          fun _ _ _ => PageStore.allocated_allocatePage
      simp only [step, allocatePage]
      split <;> (rename_i same; rw [same] at kept; exact kept)
  | deleteFile fileId removed =>
      have kept := wf.deleteFile fileId removed
      simp only [step, deleteFile]
      split <;> (rename_i same; rw [same] at kept; exact kept)

/-- **Well-formedness of every reachable state**, with no assumption on the run. -/
theorem wellFormed_always (order : IterationOrder n) (buffer : Fin n → FullPage) (disk : PageStore)
    (ops : List PoolOp) :
    (poolMachine n).Always (fun system => system.pool.WellFormed) (.new order buffer disk) ops := by
  have step : ∀ (system : System n) (op : PoolOp), system.pool.WellFormed → True →
      ((poolMachine n).next system op).pool.WellFormed :=
    fun system op wf _ => wellFormed_step system op wf
  exact Machine.always_of_step step (PageBufferManager.new_wellFormed order buffer disk)
    (Machine.along_of_mem fun _ _ _ => trivial)

end System

end Yadb
