/-
**Pinned frames stay mapped, as long as no eviction takes their mapping away.**

`LoadPage` erases the page id its victim carries from the page map, without asking whether that page
is mapped to the victim. `DeleteFile` leaves the ids of the deleted pages in their frames, so once
such a page exists again and lives in another frame, evicting the stale frame unmaps it.

* `VictimSafe`: the page the next victim carries is not mapped to another frame that is pinned.
* `Consistent`: pinned frames are mapped under their own page, and the pins of a frame are the live
  handles on it. `consistent_step`: a step keeps it when every eviction in it is safe.
* `pageMapInvariant_iff`: the page-map invariant holds in every state of a run **if and only if**
  every eviction of the run is safe, whatever transfers fail.
* `staleEviction`: a run without a failed disk operation in which an eviction is not.
-/

import Yadb.Storage.Buffer.Invariant

namespace Yadb

open Foundation

/-- No transfer of the operation fails, and the file system does what it is asked to. -/
def PoolOp.Succeeds : PoolOp → Prop
  | .getPage _ io => io.writeFault = none ∧ io.readFault = none
  | .getPageIfFrameAvailable _ io => io.writeFault = none ∧ io.readFault = none
  | .deleteFile _ removed => removed = true
  | _ => True

namespace PageBufferManager

variable {n : Nat}

/-- The page the next victim carries is not mapped to another frame that is pinned. -/
def VictimSafe (pool : PageBufferManager n) : Prop :=
  ∀ victim holder, pool.victim = some victim →
    pool.pageMap.lookup (pool.frames victim).fpId = some holder → holder ≠ victim →
      (pool.frames holder).pinCount = 0

/-- A call for this page goes on to load it. -/
def MustLoad (pool : PageBufferManager n) (fpId : FilePageId) : Prop :=
  fpId ∉ pool.pageMap ∧ pool.replacer.evictableCount ≠ 0

/-- Every pinned frame is mapped under its own page. -/
def PinnedMapped (pool : PageBufferManager n) : Prop :=
  ∀ frame, (pool.frames frame).pinCount ≠ 0 →
    pool.pageMap.lookup (pool.frames frame).fpId = some frame

instance (pool : PageBufferManager n) : Decidable pool.VictimSafe :=
  inferInstanceAs (Decidable (∀ victim holder, pool.victim = some victim →
    pool.pageMap.lookup (pool.frames victim).fpId = some holder → holder ≠ victim →
      (pool.frames holder).pinCount = 0))

instance (pool : PageBufferManager n) (fpId : FilePageId) : Decidable (pool.MustLoad fpId) :=
  inferInstanceAs (Decidable (¬ fpId ∈ pool.pageMap ∧ pool.replacer.evictableCount ≠ 0))

variable {pool : PageBufferManager n}

/-! ### Pin counts -/

theorem pinCount_pin (frame other : Fin n) : ((pool.pin frame).frames other).pinCount
    = (pool.frames other).pinCount + if frame = other then 1 else 0 := by
  by_cases same : frame = other
  · subst same
    simp only [PageBufferManager.pin, setFrame, Function.update_self, if_true]
  · simp only [PageBufferManager.pin, setFrame, Function.update_of_ne (Ne.symm same), if_neg same,
      Nat.add_zero]

theorem fpId_pin (frame other : Fin n) :
    ((pool.pin frame).frames other).fpId = (pool.frames other).fpId := by
  by_cases same : other = frame
  · simp only [PageBufferManager.pin, setFrame, same, Function.update_self]
  · simp only [PageBufferManager.pin, setFrame, Function.update_of_ne same]

theorem pinCount_unpin {frame : Fin n} (pinned : (pool.frames frame).pinCount ≠ 0)
    (other : Fin n) : (pool.frames other).pinCount
      = ((pool.unpin frame).frames other).pinCount + if frame = other then 1 else 0 := by
  by_cases same : frame = other
  · subst same
    simp only [PageBufferManager.unpin, setFrame, Function.update_self, if_true]
    omega
  · simp only [PageBufferManager.unpin, setFrame, Function.update_of_ne (Ne.symm same),
      if_neg same, Nat.add_zero]

theorem fpId_unpin (frame other : Fin n) :
    ((pool.unpin frame).frames other).fpId = (pool.frames other).fpId := by
  by_cases same : other = frame
  · simp only [PageBufferManager.unpin, setFrame, same, Function.update_self]
  · simp only [PageBufferManager.unpin, setFrame, Function.update_of_ne same]

theorem pinCount_load (pool : PageBufferManager n) {frame : Fin n}
    (unpinned : (pool.frames frame).pinCount = 0)
    (fpId : FilePageId) (bytes : FullPage) (other : Fin n) :
    ((pool.load frame fpId bytes).frames other).pinCount = (pool.frames other).pinCount := by
  by_cases same : other = frame
  · simp only [load, setFrame, same, Function.update_self, unpinned]
  · simp only [load, setFrame, Function.update_of_ne same]

/-- Loading a page, however it ends, pins nothing and unpins nothing. -/
theorem pinCount_loadStep (wf : pool.WellFormed) {fpId : FilePageId} {io : Transfers}
    {outcome : Except (Failure PoolError) Unit} {pool' : PageBufferManager n}
    (step : LoadStep pool fpId io outcome pool') (frame : Fin n) :
    (pool'.frames frame).pinCount = (pool.frames frame).pinCount := by
  cases step with
  | noVictim _ => rfl
  | notFlushed _ _ _ _ _ _ _ => rfl
  | notRead victim disk failure bytes _ _ _ _ =>
      by_cases same : frame = victim
      · simp only [overwrite, setFrame, same, Function.update_self]
        rfl
      · simp only [overwrite, setFrame, Function.update_of_ne same]
        rfl
  | loaded victim disk bytes chosen _ _ _ =>
      exact pinCount_load (pool.vacate victim disk) (wf.victim_unpinned chosen) fpId bytes
        frame

/-! ### Pinned frames stay mapped -/

/-- Only ids, pins and the page map matter, and only at pinned frames. -/
theorem PinnedMapped.congr (pinned : pool.PinnedMapped) {pool' : PageBufferManager n}
    (fpId : ∀ frame, (pool'.frames frame).pinCount ≠ 0 →
      (pool'.frames frame).fpId = (pool.frames frame).fpId)
    (pinCount : ∀ frame, (pool'.frames frame).pinCount ≠ 0 → (pool.frames frame).pinCount ≠ 0)
    (lookup : ∀ frame, (pool'.frames frame).pinCount ≠ 0 →
      pool.pageMap.lookup (pool.frames frame).fpId = some frame →
        pool'.pageMap.lookup (pool.frames frame).fpId = some frame) : pool'.PinnedMapped := by
  intro frame isPinned
  rw [fpId frame isPinned]
  exact lookup frame isPinned (pinned frame (pinCount frame isPinned))

theorem PinnedMapped.pin (pinned : pool.PinnedMapped) (wf : pool.WellFormed) {fpId : FilePageId}
    {frame : Fin n} (mapped : pool.pageMap.lookup fpId = some frame) :
    (pool.pin frame).PinnedMapped := by
  intro other isPinned
  rw [fpId_pin]
  show pool.pageMap.lookup (pool.frames other).fpId = some other
  by_cases same : frame = other
  · rw [← same, wf.keyed fpId frame mapped]
    exact mapped
  · rw [pinCount_pin, if_neg same, Nat.add_zero] at isPinned
    exact pinned other isPinned

theorem PinnedMapped.unpin (pinned : pool.PinnedMapped) {frame : Fin n}
    (wasPinned : (pool.frames frame).pinCount ≠ 0) : (pool.unpin frame).PinnedMapped :=
  pinned.congr (fun other _ => fpId_unpin frame other)
    (fun other isPinned => by rw [pinCount_unpin wasPinned other]; omega)
    (fun _ _ mapped => mapped)

/-- Unmapping the victim's page costs no pinned frame its mapping, exactly because the eviction is
safe. -/
theorem PinnedMapped.vacate (pinned : pool.PinnedMapped) (wf : pool.WellFormed) {victim : Fin n}
    (chosen : pool.victim = some victim) (safe : pool.VictimSafe) (disk : PageStore) :
    (pool.vacate victim disk).PinnedMapped := by
  refine pinned.congr (fun _ _ => rfl) (fun _ => id) fun frame isPinned mapped => ?_
  replace isPinned : (pool.frames frame).pinCount ≠ 0 := isPinned
  have different : (pool.frames frame).fpId ≠ (pool.frames victim).fpId := by
    intro same
    rw [same] at mapped
    by_cases own : frame = victim
    · exact isPinned (own ▸ wf.victim_unpinned chosen)
    · exact isPinned (safe victim frame chosen mapped own)
  exact (AList.lookup_erase_ne different).trans mapped

theorem PinnedMapped.loadStep (pinned : pool.PinnedMapped) (wf : pool.WellFormed)
    {fpId : FilePageId} {io : Transfers} (absent : fpId ∉ pool.pageMap) (safe : pool.VictimSafe)
    {outcome : Except (Failure PoolError) Unit} {pool' : PageBufferManager n}
    (step : LoadStep pool fpId io outcome pool') : pool'.PinnedMapped := by
  have counts := pinCount_loadStep wf step
  cases step with
  | noVictim _ => exact pinned
  | notFlushed _ _ _ _ _ _ _ => exact pinned
  | notRead victim disk failure bytes chosen _ _ _ =>
      refine (pinned.vacate wf chosen safe disk).congr (fun frame _ => ?_)
        (fun frame isPinned => (counts frame) ▸ isPinned) (fun _ _ mapped => mapped)
      by_cases same : frame = victim
      · simp only [overwrite, setFrame, same, Function.update_self]
      · simp only [overwrite, setFrame, Function.update_of_ne same]
  | loaded victim disk bytes chosen _ _ _ =>
      have other : ∀ frame, (((pool.vacate victim disk).load victim fpId bytes).frames
          frame).pinCount ≠ 0 → frame ≠ victim := by
        rintro frame isPinned rfl
        rw [counts frame] at isPinned
        exact isPinned (wf.victim_unpinned chosen)
      refine (pinned.vacate wf chosen safe disk).congr (fun frame isPinned => ?_)
        (fun frame isPinned => (counts frame) ▸ isPinned) (fun frame isPinned mapped => ?_)
      · simp only [load, setFrame, Function.update_of_ne (other frame isPinned)]
      · have different : (pool.frames frame).fpId ≠ fpId := by
          rintro same
          rw [show ((pool.vacate victim disk).frames frame).fpId = fpId from same] at mapped
          exact absent (AList.lookup_isSome.mp ((lookup_vacate mapped).2 ▸ rfl))
        exact (AList.lookup_insert_ne different).trans mapped

theorem PinnedMapped.acquireStep (pinned : pool.PinnedMapped) (wf : pool.WellFormed)
    {fpId : FilePageId} {io : Transfers} (safe : pool.MustLoad fpId → pool.VictimSafe)
    {outcome : Option (Except (Failure PoolError) (Fin n))} {pool' : PageBufferManager n}
    (step : AcquireStep pool fpId io outcome pool') : pool'.PinnedMapped := by
  cases step with
  | unavailable _ _ => exact pinned
  | hit frame mapped => exact pinned.pin wf mapped
  | failed failure pool' absent exhausted load =>
      exact pinned.loadStep wf absent (safe ⟨absent, exhausted⟩) load
  | loaded frame middle absent exhausted load mapped =>
      exact (pinned.loadStep wf absent (safe ⟨absent, exhausted⟩) load).pin (wf.loadStep load)
        mapped

/-- An eviction that is not safe unmaps a frame and leaves it as it is. -/
theorem LoadStep.unmaps (wf : pool.WellFormed) {fpId : FilePageId} {io : Transfers}
    (noFault : io.writeFault = none) (absent : fpId ∉ pool.pageMap) {victim holder : Fin n}
    (chosen : pool.victim = some victim)
    (mapped : pool.pageMap.lookup (pool.frames victim).fpId = some holder)
    (different : holder ≠ victim) {outcome : Except (Failure PoolError) Unit}
    {pool' : PageBufferManager n} (step : LoadStep pool fpId io outcome pool') :
    pool'.frames holder = pool.frames holder ∧
      pool'.pageMap.lookup (pool.frames holder).fpId = none := by
  have sameId : (pool.frames holder).fpId = (pool.frames victim).fpId :=
    wf.keyed _ holder mapped
  have erased : ∀ disk, (pool.vacate victim disk).pageMap.lookup (pool.frames holder).fpId
      = none := by
    intro disk
    rw [sameId]
    exact AList.lookup_erase _ _
  cases step with
  | noVictim nothing => cases nothing.symm.trans chosen
  | notFlushed found disk failure foundChosen _ fails _ =>
      cases foundChosen.symm.trans chosen
      cases fails with
      | notInPool unmapped => cases unmapped.symm.trans mapped
      | notAllocated holder _ missing => exact absurd (wf.allocated _ _ mapped) missing
      | torn holder bytes fault _ _ => cases fault.symm.trans noFault
  | notRead found disk failure bytes foundChosen _ _ _ =>
      cases foundChosen.symm.trans chosen
      refine ⟨?_, erased disk⟩
      simp only [overwrite, setFrame, Function.update_of_ne different]
      rfl
  | loaded found disk bytes foundChosen _ _ _ =>
      cases foundChosen.symm.trans chosen
      refine ⟨?_, ?_⟩
      · simp only [load, setFrame, Function.update_of_ne different]
        rfl
      · have other : (pool.frames holder).fpId ≠ fpId := by
          rintro same
          rw [sameId] at same
          rw [same] at mapped
          exact absent (AList.lookup_isSome.mp (mapped ▸ rfl))
        exact (AList.lookup_insert_ne other).trans (erased disk)

/-- `DeleteFile` unmaps pages of unpinned frames only. -/
theorem PinnedMapped.deleteFile (pinned : pool.PinnedMapped) (wf : pool.WellFormed)
    (fileId : FileId) (removed : Bool) : (pool.deleteFile fileId removed).2.PinnedMapped := by
  rcases pool.deleteFile_cases fileId removed with ⟨_, same⟩ | ⟨unpinned, same⟩
  · rw [same]
    exact pinned
  · rw [same]
    have drop := wf.dropped fileId
    refine pinned.congr (fun frame _ => drop.fpId frame)
      (fun frame isPinned => drop.pinCount frame ▸ isPinned) fun frame isPinned mapped => ?_
    show ((pool.toEvict fileId).foldl dropPage pool).pageMap.lookup _ = _
    rw [drop.lookup, if_neg]
    · exact mapped
    · intro member
      exact isPinned ((drop.pinCount frame).trans (unpinned _ member frame mapped))

end PageBufferManager

/-! ### Handles and pins -/

namespace System

variable {n : Nat}

/-- **Pinned frames are mapped under their own page, and are pinned once per live handle.** -/
structure Consistent (system : System n) : Prop where
  wellFormed : system.pool.WellFormed
  pinnedMapped : system.pool.PinnedMapped
  pins : ∀ frame, (system.pool.frames frame).pinCount
    = system.handles.countP fun handle => handle.frame = frame
  distinct : (system.handles.map Handle.id).Nodup
  fresh : ∀ handle ∈ system.handles, handle.id < system.nextHandle

variable {system : System n}

theorem findHandle_some {id : Nat} {handle : Handle n}
    (found : system.findHandle id = some handle) : handle ∈ system.handles ∧ handle.id = id :=
  ⟨List.mem_of_find?_eq_some found, by simpa using List.find?_some found⟩

theorem Consistent.pinned (ok : system.Consistent) {handle : Handle n}
    (live : handle ∈ system.handles) : (system.pool.frames handle.frame).pinCount ≠ 0 := by
  rw [ok.pins]
  exact (List.countP_pos_iff.mpr ⟨handle, live, by simp⟩).ne'

/-- Live handles have different names. -/
theorem Consistent.unique (ok : system.Consistent) {id : Nat} {handle other : Handle n}
    (found : system.findHandle id = some handle) (live : other ∈ system.handles)
    (named : other.id = id) : other = handle :=
  List.inj_on_of_nodup_map ok.distinct live (findHandle_some found).1
    (named.trans (findHandle_some found).2.symm)

/-- The page under a live handle is mapped to the handle's frame. -/
theorem Consistent.mapped (ok : system.Consistent) {handle : Handle n}
    (live : handle ∈ system.handles) :
    system.pool.pageMap.lookup (system.pool.frames handle.frame).fpId = some handle.frame :=
  ok.pinnedMapped _ (ok.pinned live)

/-- **`RemoveAccessor` finds the frame of every live handle.** -/
theorem Consistent.removeAccessor (ok : system.Consistent) {handle : Handle n}
    (live : handle ∈ system.handles) :
    system.pool.removeAccessor (system.pool.frames handle.frame).fpId
      = (.ok (), system.pool.unpin handle.frame) := by
  have mapped := ok.mapped live
  rcases system.pool.removeAccessor_cases (system.pool.frames handle.frame).fpId with
    ⟨absent, _⟩ | ⟨frame, found, unpinned, _⟩ | ⟨frame, found, _, same⟩
  · cases absent.symm.trans mapped
  · cases found.symm.trans mapped
    exact absurd unpinned (ok.pinned live)
  · cases found.symm.trans mapped
    exact same

/-- A change of the pool alone. -/
theorem Consistent.setPool (ok : system.Consistent) {pool : PageBufferManager n}
    (wf : pool.WellFormed) (pinned : pool.PinnedMapped)
    (counts : ∀ frame, (pool.frames frame).pinCount = (system.pool.frames frame).pinCount) :
    Consistent { system with pool } :=
  ⟨wf, pinned, fun frame => (counts frame).trans (ok.pins frame), ok.distinct, ok.fresh⟩

/-- The pool answered a call for a page. -/
theorem Consistent.receive (ok : system.Consistent) (unavailable : PoolAnswer) {fpId : FilePageId}
    {io : Transfers} {outcome : Option (Except (Failure PoolError) (Fin n))}
    {pool : PageBufferManager n}
    (step : PageBufferManager.AcquireStep system.pool fpId io outcome pool)
    (safe : system.pool.MustLoad fpId → system.pool.VictimSafe) :
    (system.receive unavailable (outcome, pool)).2.Consistent := by
  have wf := ok.wellFormed.acquireStep step
  have pinned := ok.pinnedMapped.acquireStep ok.wellFormed safe step
  have handed : ∀ (middle : PageBufferManager n) (frame : Fin n),
      (∀ other, (middle.frames other).pinCount = (system.pool.frames other).pinCount) →
      (middle.pin frame).WellFormed → (middle.pin frame).PinnedMapped →
      (system.receive unavailable (some (.ok frame), middle.pin frame)).2.Consistent := by
    intro middle frame counts wf pinned
    refine ⟨wf, pinned, fun other => ?_, ?_, ?_⟩
    · show ((middle.pin frame).frames other).pinCount = _
      rw [PageBufferManager.pinCount_pin, counts, ok.pins]
      simp only [System.receive, List.countP_cons, decide_eq_true_eq]
    · refine List.nodup_cons.mpr ⟨fun member => ?_, ok.distinct⟩
      obtain ⟨handle, live, same⟩ := List.mem_map.mp member
      exact absurd same (ok.fresh handle live).ne
    · intro handle live
      rcases List.mem_cons.mp live with rfl | live
      · exact Nat.lt_succ_self _
      · exact (ok.fresh handle live).trans (Nat.lt_succ_self _)
  cases step with
  | unavailable _ _ => exact ok.setPool wf pinned fun _ => rfl
  | hit frame _ => exact handed system.pool frame (fun _ => rfl) wf pinned
  | failed failure pool _ _ load =>
      exact ok.setPool wf pinned (PageBufferManager.pinCount_loadStep ok.wellFormed load)
  | loaded frame middle _ _ load _ =>
      exact handed middle frame (PageBufferManager.pinCount_loadStep ok.wellFormed load) wf pinned

/-- A frame changed in its bytes or its dirty mark only. -/
theorem Consistent.setFrame (ok : system.Consistent) (frame : Fin n) {value : Frame}
    (fpId : value.fpId = (system.pool.frames frame).fpId)
    (pinCount : value.pinCount = (system.pool.frames frame).pinCount) :
    Consistent { system with pool := system.pool.setFrame frame value } := by
  have ids : ∀ other, ((system.pool.setFrame frame value).frames other).fpId
      = (system.pool.frames other).fpId := by
    intro other
    by_cases same : other = frame
    · simp only [PageBufferManager.setFrame, same, Function.update_self, fpId]
    · simp only [PageBufferManager.setFrame, Function.update_of_ne same]
  have counts : ∀ other, ((system.pool.setFrame frame value).frames other).pinCount
      = (system.pool.frames other).pinCount := by
    intro other
    by_cases same : other = frame
    · simp only [PageBufferManager.setFrame, same, Function.update_self, pinCount]
    · simp only [PageBufferManager.setFrame, Function.update_of_ne same]
  exact ok.setPool (ok.wellFormed.setFrame frame fpId pinCount)
    (ok.pinnedMapped.congr (fun other _ => ids other) (fun other => (counts other) ▸ id)
      (fun _ _ mapped => mapped)) counts

/-- Handles that keep their ids and frames keep the pins. -/
theorem Consistent.mapHandles (ok : system.Consistent) {change : Handle n → Handle n}
    (id : ∀ handle, (change handle).id = handle.id)
    (frame : ∀ handle, (change handle).frame = handle.frame) :
    Consistent { system with handles := system.handles.map change } where
  wellFormed := ok.wellFormed
  pinnedMapped := ok.pinnedMapped
  pins other := by
    rw [ok.pins, List.countP_map]
    refine List.countP_congr fun handle _ => ?_
    simp only [Function.comp_apply, frame]
  distinct := by
    rw [List.map_map, show Handle.id ∘ change = Handle.id from funext id]
    exact ok.distinct
  fresh handle live := by
    obtain ⟨before, was, rfl⟩ := List.mem_map.mp live
    rw [id]
    exact ok.fresh before was

/-- A live handle is destroyed. -/
theorem Consistent.unpin (ok : system.Consistent) {handle : Handle n}
    (live : handle ∈ system.handles) :
    Consistent { system with
      pool := system.pool.unpin handle.frame
      handles := system.handles.erase handle } where
  wellFormed := ok.wellFormed.unpin (ok.pinned live)
  pinnedMapped := ok.pinnedMapped.unpin (ok.pinned live)
  pins frame := by
    have before := PageBufferManager.pinCount_unpin (ok.pinned live) frame
    have erased := (List.perm_cons_erase live).countP_eq fun other => decide (other.frame = frame)
    rw [ok.pins, erased, List.countP_cons] at before
    simp only [decide_eq_true_eq] at before
    exact Nat.add_right_cancel before.symm
  distinct := ok.distinct.sublist ((List.erase_sublist).map _)
  fresh other remains := ok.fresh other (List.mem_of_mem_erase remains)

/-! ### Steps and runs -/

/-- If the operation loads a page, its eviction is safe. -/
def EvictsSafely (system : System n) : PoolOp → Prop
  | .getPage fpId _ => system.pool.MustLoad fpId → system.pool.VictimSafe
  | .getPageIfFrameAvailable fpId _ => system.pool.MustLoad fpId → system.pool.VictimSafe
  | _ => True

instance (system : System n) : (op : PoolOp) → Decidable (system.EvictsSafely op)
  | .getPage fpId _ | .getPageIfFrameAvailable fpId _ =>
      inferInstanceAs (Decidable (system.pool.MustLoad fpId → system.pool.VictimSafe))
  | .getMutView _ | .writeByte _ _ _ | .getView _ | .release _ | .createFile _
  | .allocatePage _ _ _ | .deleteFile _ _ => .isTrue trivial

/-- **One step keeps consistency when its eviction is safe.** -/
theorem consistent_step (system : System n) (op : PoolOp) (ok : system.Consistent)
    (safe : system.EvictsSafely op) : (system.step op).2.Consistent := by
  have wf := wellFormed_step system op ok.wellFormed
  cases op with
  | getPage fpId io =>
      exact ok.receive .waits (PageBufferManager.acquire_step _ fpId io) safe
  | getPageIfFrameAvailable fpId io =>
      exact ok.receive .noFrame (PageBufferManager.acquire_step _ fpId io) safe
  | getMutView id =>
      simp only [step, getMutView]
      split
      · exact ok
      · rename_i handle _
        refine (ok.setFrame handle.frame ?_ ?_).mapHandles ?_ ?_
        · rfl
        · rfl
        · intro other
          split <;> rfl
        · intro other
          split <;> rfl
  | writeByte id index byte =>
      simp only [step, writeByte]
      split
      · exact ok
      · split
        · exact ok.setFrame _ rfl rfl
        · exact ok
  | getView id =>
      simp only [step, getView]
      split
      · exact ok
      · exact ok
  | release id =>
      simp only [step, release]
      split
      · exact ok
      · rename_i handle found
        rw [ok.removeAccessor (findHandle_some found).1]
        exact ok.unpin (findHandle_some found).1
  | createFile fileId =>
      simp only [step, createFile] at wf ⊢
      split <;> (rename_i same; rw [same] at wf; exact ok.setPool wf ok.pinnedMapped fun _ => rfl)
  | allocatePage fileId pageId bytes =>
      simp only [step, allocatePage] at wf ⊢
      split <;> (rename_i same; rw [same] at wf; exact ok.setPool wf ok.pinnedMapped fun _ => rfl)
  | deleteFile fileId removed =>
      have pinned := ok.pinnedMapped.deleteFile ok.wellFormed fileId removed
      have counts : ∀ frame, ((system.pool.deleteFile fileId removed).2.frames frame).pinCount
          = (system.pool.frames frame).pinCount := by
        intro frame
        rcases system.pool.deleteFile_cases fileId removed with ⟨_, same⟩ | ⟨_, same⟩
        · rw [same]
        · rw [same]
          exact (ok.wellFormed.dropped fileId).pinCount frame
      simp only [step, deleteFile] at wf ⊢
      split <;> (rename_i same; rw [same] at wf pinned counts; exact ok.setPool wf pinned counts)

theorem new_consistent (order : IterationOrder n) (buffer : Fin n → FullPage) (disk : PageStore) :
    (System.new order buffer disk).Consistent :=
  ⟨PageBufferManager.new_wellFormed order buffer disk, fun _ pinned => absurd rfl pinned,
    fun _ => rfl, List.nodup_nil, nofun⟩

/-- **What the page map promises.** Each resident page has one frame and each frame at most one
page, a mapped frame carries its page, a pinned frame is mapped under the page it carries, and the
destruction of a live handle finds its frame. -/
structure PageMapInvariant (system : System n) : Prop where
  injective : ∀ fpId fpId' frame, system.pool.pageMap.lookup fpId = some frame →
    system.pool.pageMap.lookup fpId' = some frame → fpId = fpId'
  keyed : ∀ fpId frame, system.pool.pageMap.lookup fpId = some frame →
    (system.pool.frames frame).fpId = fpId
  pinnedMapped : ∀ frame, (system.pool.frames frame).pinCount ≠ 0 →
    system.pool.pageMap.lookup (system.pool.frames frame).fpId = some frame
  released : ∀ handle ∈ system.handles,
    (system.pool.removeAccessor (system.pool.frames handle.frame).fpId).1 = .ok ()
  oneFrame : ∀ frame frame', (system.pool.frames frame).pinCount ≠ 0 →
    (system.pool.frames frame').fpId = (system.pool.frames frame).fpId →
    (frame' ≠ frame → (system.pool.frames frame').pinCount = 0 ∧
      ∀ fpId, system.pool.pageMap.lookup fpId ≠ some frame')

theorem Consistent.pageMapInvariant (ok : system.Consistent) : system.PageMapInvariant where
  injective _ _ _ mapped mapped' := ok.wellFormed.injective mapped mapped'
  keyed := ok.wellFormed.keyed
  pinnedMapped := ok.pinnedMapped
  released handle live := by rw [ok.removeAccessor live]
  oneFrame frame frame' pinned sameId different := by
    have mapped := ok.pinnedMapped frame pinned
    refine ⟨by_contra fun pinned' => ?_, fun fpId mapped' => ?_⟩
    · have mapped' := ok.pinnedMapped frame' pinned'
      rw [sameId, mapped] at mapped'
      exact different (Option.some.inj mapped').symm
    · have key := ok.wellFormed.keyed fpId frame' mapped'
      rw [← key, sameId, mapped] at mapped'
      exact different (Option.some.inj mapped').symm

/-- **An eviction that is not safe takes the mapping of a pinned frame away**, unless its write
fails. -/
theorem evictsSafely_of_pinnedMapped (system : System n) (op : PoolOp) (ok : system.Consistent)
    (succeeds : op.Succeeds) (holds : (system.step op).2.pool.PinnedMapped) :
    system.EvictsSafely op := by
  have loading : ∀ {fpId : FilePageId} {io : Transfers}, io.writeFault = none →
      (system.pool.acquire fpId io).2.PinnedMapped →
      system.pool.MustLoad fpId → system.pool.VictimSafe := by
    rintro fpId io noFault holds ⟨absent, exhausted⟩ victim holder chosen mapped different
    by_contra pinned
    have ended := PageBufferManager.acquire_step system.pool fpId io
    generalize (system.pool.acquire fpId io).1 = outcome at ended
    generalize (system.pool.acquire fpId io).2 = pool' at ended holds
    cases ended with
    | unavailable _ none => exact exhausted none
    | hit frame resident => exact absent (AList.lookup_isSome.mp (resident ▸ rfl))
    | failed failure pool' _ _ load =>
        obtain ⟨kept, unmapped⟩ := PageBufferManager.LoadStep.unmaps ok.wellFormed noFault absent
          chosen mapped different load
        have still := holds holder (kept ▸ pinned)
        rw [kept, unmapped] at still
        cases still
    | loaded frame middle _ _ load _ =>
        obtain ⟨kept, unmapped⟩ := PageBufferManager.LoadStep.unmaps ok.wellFormed noFault absent
          chosen mapped different load
        have still := holds holder (by rw [PageBufferManager.pinCount_pin, kept]; omega)
        rw [PageBufferManager.fpId_pin, kept] at still
        cases unmapped.symm.trans still
  cases op with
  | getPage fpId io =>
      refine loading succeeds.1 ?_
      rw [← receive_pool system .waits]
      exact holds
  | getPageIfFrameAvailable fpId io =>
      refine loading succeeds.1 ?_
      rw [← receive_pool system .noFrame]
      exact holds
  | _ => trivial

/-- **The page-map invariant, exactly.** In a run whose disk operations succeed, it holds in every
state if and only if every eviction is safe. -/
theorem pageMapInvariant_iff (order : IterationOrder n) (buffer : Fin n → FullPage)
    (disk : PageStore) (ops : List PoolOp) (succeed : ∀ op ∈ ops, op.Succeeds) :
    (poolMachine n).Always PageMapInvariant (.new order buffer disk) ops ↔
      (poolMachine n).Along EvictsSafely (.new order buffer disk) ops := by
  have keep : ∀ (system : System n) (op : PoolOp), system.Consistent → op.Succeeds →
      system.EvictsSafely op → ((poolMachine n).next system op).Consistent :=
    fun system op ok _ safe => consistent_step system op ok safe
  have back : ∀ (system : System n) (op : PoolOp), system.Consistent → op.Succeeds →
      ((poolMachine n).next system op).PageMapInvariant → system.EvictsSafely op :=
    fun system op ok succeeds holds =>
      evictsSafely_of_pinnedMapped system op ok succeeds holds.pinnedMapped
  exact Machine.always_iff_along keep (fun _ ok => ok.pageMapInvariant) back
    (new_consistent order buffer disk) (Machine.along_of_mem fun op member _ => succeed op member)

/-! ### A deleted page that comes back -/

/-- Page `(5, 0)` is loaded into the first frame and its file deleted; the file is created again and
its page loaded into the second frame and held; then page `(6, 0)` is loaded again. -/
def staleEviction : List PoolOp :=
  [.createFile 5, .createFile 6, .allocatePage 5 0 fun _ => 0, .allocatePage 6 0 fun _ => 0,
    .getPage ⟨6, 0⟩ {}, .getPage ⟨5, 0⟩ {}, .release 1, .release 0, .deleteFile 5 true,
    .createFile 5, .allocatePage 5 0 fun _ => 0, .getPage ⟨5, 0⟩ {}, .getPage ⟨6, 0⟩ {}]

/-- The last call evicts the first frame, which still carries `(5, 0)`, and so unmaps the second. -/
theorem staleEviction_breaks : (∀ op ∈ staleEviction, op.Succeeds) ∧
    ¬ (poolMachine 2).Always PageMapInvariant (.new secondFirst (fun _ _ => 0) emptyStore)
      staleEviction := by
  refine ⟨?_, fun always => ?_⟩
  · simp [staleEviction, PoolOp.Succeeds]
  · have pinned : (((poolMachine 2).exec (.new secondFirst (fun _ _ => 0) emptyStore)
        staleEviction).pool.frames 1).pinCount = 1 := by decide +kernel
    have unmapped : ((poolMachine 2).exec (.new secondFirst (fun _ _ => 0) emptyStore)
        staleEviction).pool.pageMap.lookup (((poolMachine 2).exec
          (.new secondFirst (fun _ _ => 0) emptyStore) staleEviction).pool.frames 1).fpId
        = none := by decide +kernel
    have mapped := always.last.pinnedMapped 1 (by rw [pinned]; decide)
    rw [unmapped] at mapped
    cases mapped

/-- Every eviction before that one is safe. -/
theorem staleEviction_until :
    (poolMachine 2).Always PageMapInvariant (.new secondFirst (fun _ _ => 0) emptyStore)
      (staleEviction.take 12) := by
  refine (pageMapInvariant_iff secondFirst (fun _ _ => 0) emptyStore _ ?_).mpr ?_
  · simp [staleEviction, PoolOp.Succeeds]
  · decide +kernel

end System

end Yadb
