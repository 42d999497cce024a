/-
**The evictable counter and the frames it counts.**

The flags agree with the pins in every reachable state, so the frames whose flag is set are the
unpinned ones (`evictableFrames_length`). The counter is kept apart from them: `SetEvictable` moves
it by one whatever the flag was before. It is moved without the flag when a frame that is pinned
already is pinned again, and when `DeleteFile` marks the frames of resident pages.

* `pin_count_iff`, `deleteFile_count_iff`: what each of the two does to an exact counter.
* `evictableCount_iff`: the counter is exact in every state of a run **if and only if** no step of
  it pins a pinned frame or deletes a file with resident pages.
* `sharedPage`: two handles to one page, after which the counter has wrapped.
-/

import Mathlib.Data.Fintype.Card
import Yadb.Storage.Buffer.PageMap

namespace Yadb

open Foundation

/-! ### Counting below the bound -/

theorem pred_mod {count limit : Nat} (positive : 0 < count) (small : count < limit) :
    (count + limit - 1) % limit = count - 1 := by
  rw [show count + limit - 1 = count - 1 + limit by omega, Nat.add_mod_right,
    Nat.mod_eq_of_lt (by omega)]

/-- Going down by one never lands on the same value. -/
theorem pred_mod_ne {count limit : Nat} (wide : 1 < limit) (small : count < limit) :
    (count + limit - 1) % limit ≠ count := by
  rcases Nat.eq_zero_or_pos count with rfl | positive
  · rw [Nat.zero_add, Nat.mod_eq_of_lt (by omega)]
    omega
  · rw [pred_mod positive small]
    omega

/-- Going up by less than the bound lands on the same value only without moving. -/
theorem add_mod_eq_iff {count more limit : Nat} (small : count < limit) (less : more < limit) :
    (count + more) % limit = count ↔ more = 0 := by
  constructor
  · intro same
    by_cases wraps : count + more < limit
    · rw [Nat.mod_eq_of_lt wraps] at same
      omega
    · rw [Nat.mod_eq_sub_mod (by omega), Nat.mod_eq_of_lt (by omega)] at same
      omega
  · rintro rfl
    exact Nat.mod_eq_of_lt small

namespace PageBufferManager

variable {n : Nat}

def unpinnedFrames (pool : PageBufferManager n) : Finset (Fin n) :=
  Finset.univ.filter fun frame => (pool.frames frame).pinCount = 0

/-- The counter is the number of unpinned frames. -/
def CountsUnpinned (pool : PageBufferManager n) : Prop :=
  pool.replacer.getEvictableCount = pool.unpinnedFrames.card

variable {pool : PageBufferManager n}

theorem mem_unpinnedFrames {frame : Fin n} :
    frame ∈ pool.unpinnedFrames ↔ (pool.frames frame).pinCount = 0 := by
  simp [unpinnedFrames]

theorem unpinnedFrames_card_le : pool.unpinnedFrames.card ≤ n :=
  (Finset.card_le_univ _).trans (Fintype.card_fin n).le

theorem unpinnedFrames_congr {pool' : PageBufferManager n}
    (pinCount : ∀ frame, (pool'.frames frame).pinCount = 0 ↔ (pool.frames frame).pinCount = 0) :
    pool'.unpinnedFrames = pool.unpinnedFrames := by
  ext frame
  rw [mem_unpinnedFrames, mem_unpinnedFrames, pinCount]

/-- **The frames whose flag is set are the unpinned frames.** -/
theorem WellFormed.evictableFrames_length (wf : pool.WellFormed) :
    pool.replacer.evictableFrames.length = pool.unpinnedFrames.card := by
  have same : pool.replacer.evictableFrames.toFinset = pool.unpinnedFrames := by
    ext frame
    rw [List.mem_toFinset, LRUKReplacer.evictableFrames, List.mem_filter, mem_unpinnedFrames,
      wf.flags]
    exact and_iff_right (wf.registered frame)
  have distinct : pool.replacer.evictableFrames.Nodup := wf.distinct.filter _
  rw [← same, List.toFinset_card_of_nodup distinct]

/-! ### The moves -/

theorem unpinnedFrames_pin (frame : Fin n) :
    (pool.pin frame).unpinnedFrames = pool.unpinnedFrames.erase frame := by
  ext other
  rw [Finset.mem_erase, mem_unpinnedFrames, mem_unpinnedFrames]
  by_cases same : other = frame
  · simp [pin, setFrame, same]
  · simp only [pin, setFrame, Function.update_of_ne same, ne_eq, same, not_false_eq_true, true_and]

theorem count_pin (wf : pool.WellFormed) (frame : Fin n) :
    (pool.pin frame).replacer.getEvictableCount
      = (pool.replacer.getEvictableCount + sizeLimit - 1) % sizeLimit := by
  have registered : frame ∈ (pool.replacer.recordAccess frame).frames := by
    rw [LRUKReplacer.recordAccess_frames]
    exact wf.registered frame
  simp only [pin, LRUKReplacer.getEvictableCount,
    LRUKReplacer.setEvictable_false_count registered, LRUKReplacer.recordAccess_count]

/-- **Pinning keeps the counter exact if and only if the frame was unpinned.** -/
theorem pin_count_iff (small : n < sizeLimit) (wf : pool.WellFormed) (counted : pool.CountsUnpinned)
    (frame : Fin n) : (pool.pin frame).CountsUnpinned ↔ (pool.frames frame).pinCount = 0 := by
  have below : pool.unpinnedFrames.card < sizeLimit := unpinnedFrames_card_le.trans_lt small
  unfold CountsUnpinned at counted ⊢
  rw [count_pin wf, unpinnedFrames_pin, counted]
  by_cases unpinned : (pool.frames frame).pinCount = 0
  · have member : frame ∈ pool.unpinnedFrames := mem_unpinnedFrames.mpr unpinned
    rw [pred_mod (Finset.card_pos.mpr ⟨frame, member⟩) below, Finset.card_erase_of_mem member]
    exact iff_of_true rfl unpinned
  · have absent : frame ∉ pool.unpinnedFrames := fun member =>
      unpinned (mem_unpinnedFrames.mp member)
    rw [Finset.erase_eq_of_notMem absent]
    refine iff_of_false (pred_mod_ne ?_ below) unpinned
    rw [sizeLimit]
    decide

/-- Releasing a frame keeps the counter exact: it moves when the last pin goes. -/
theorem CountsUnpinned.unpin (counted : pool.CountsUnpinned) (small : n < sizeLimit)
    (wf : pool.WellFormed) {frame : Fin n} (pinned : (pool.frames frame).pinCount ≠ 0) :
    (pool.unpin frame).CountsUnpinned := by
  have absent : frame ∉ pool.unpinnedFrames := fun member =>
    pinned (mem_unpinnedFrames.mp member)
  unfold CountsUnpinned at counted ⊢
  by_cases last : (pool.frames frame).pinCount = 1
  · have added : (pool.unpin frame).unpinnedFrames = insert frame pool.unpinnedFrames := by
      ext other
      rw [Finset.mem_insert, mem_unpinnedFrames, mem_unpinnedFrames]
      by_cases same : other = frame
      · simp [PageBufferManager.unpin, setFrame, same, last]
      · simp only [PageBufferManager.unpin, setFrame, Function.update_of_ne same, same, false_or]
    have below : pool.unpinnedFrames.card + 1 < sizeLimit + 1 :=
      Nat.succ_lt_succ (unpinnedFrames_card_le.trans_lt small)
    have fits : (pool.unpin frame).unpinnedFrames.card ≤ n := unpinnedFrames_card_le
    rw [added, Finset.card_insert_of_notMem absent] at fits ⊢
    simp only [PageBufferManager.unpin, LRUKReplacer.getEvictableCount, if_pos last,
      LRUKReplacer.setEvictable_true_count (wf.registered frame)]
    rw [show pool.replacer.evictableCount = pool.unpinnedFrames.card from counted]
    exact Nat.mod_eq_of_lt (fits.trans_lt small)
  · have kept : (pool.unpin frame).unpinnedFrames = pool.unpinnedFrames := by
      refine unpinnedFrames_congr fun other => ?_
      by_cases same : other = frame
      · simp only [PageBufferManager.unpin, setFrame, same, Function.update_self]
        omega
      · simp only [PageBufferManager.unpin, setFrame, Function.update_of_ne same]
    rw [kept, ← counted]
    simp only [PageBufferManager.unpin, LRUKReplacer.getEvictableCount, if_neg last]

/-- A frame changed in its bytes or its dirty mark only. -/
theorem CountsUnpinned.setFrame (counted : pool.CountsUnpinned) (frame : Fin n) {value : Frame}
    (pinCount : value.pinCount = (pool.frames frame).pinCount) :
    (pool.setFrame frame value).CountsUnpinned := by
  have kept : (pool.setFrame frame value).unpinnedFrames = pool.unpinnedFrames := by
    refine unpinnedFrames_congr fun other => ?_
    by_cases same : other = frame
    · simp only [PageBufferManager.setFrame, same, Function.update_self, pinCount]
    · simp only [PageBufferManager.setFrame, Function.update_of_ne same]
  unfold CountsUnpinned
  rw [kept]
  exact counted

theorem loadStep_count {fpId : FilePageId} {io : Transfers}
    {outcome : Except (Failure PoolError) Unit} {pool' : PageBufferManager n}
    (step : LoadStep pool fpId io outcome pool') :
    pool'.replacer.getEvictableCount = pool.replacer.getEvictableCount := by
  cases step with
  | noVictim _ => rfl
  | notFlushed _ _ _ _ _ _ _ => rfl
  | notRead _ _ _ _ _ _ _ _ => rfl
  | loaded _ _ _ _ _ _ _ => rfl

/-- The pages of a file that are resident, each in a frame of its own. -/
theorem WellFormed.toEvict_length_le (wf : pool.WellFormed) (fileId : FileId) :
    (pool.toEvict fileId).length ≤ n := by
  let frameOf : FilePageId → Option (Fin n) := fun fpId => pool.pageMap.lookup fpId
  have injective : ∀ first ∈ pool.toEvict fileId, ∀ second ∈ pool.toEvict fileId,
      frameOf first = frameOf second → first = second := by
    intro first member second _ same
    obtain ⟨frame, mapped⟩ := Option.isSome_iff_exists.mp
      (AList.lookup_isSome.mpr (mem_toEvict.mp member).1)
    exact wf.injective mapped (same.symm.trans mapped)
  have resident : ∀ fpId ∈ pool.toEvict fileId, frameOf fpId ∈
      (Finset.univ : Finset (Fin n)).image some := by
    intro fpId member
    obtain ⟨frame, mapped⟩ := Option.isSome_iff_exists.mp
      (AList.lookup_isSome.mpr (mem_toEvict.mp member).1)
    exact Finset.mem_image.mpr ⟨frame, Finset.mem_univ frame, mapped.symm⟩
  calc (pool.toEvict fileId).length = (pool.toEvict fileId).toFinset.card :=
        (List.toFinset_card_of_nodup (toEvict_nodup fileId)).symm
    _ ≤ ((Finset.univ : Finset (Fin n)).image some).card :=
        Finset.card_le_card_of_injOn frameOf
          (fun fpId member => resident fpId (List.mem_toFinset.mp member))
          (fun first member second member' same => injective first (List.mem_toFinset.mp member)
            second (List.mem_toFinset.mp member') same)
    _ ≤ (Finset.univ : Finset (Fin n)).card := Finset.card_image_le
    _ = n := (Finset.card_univ).trans (Fintype.card_fin n)

/-- `DeleteFile` has nothing to evict, or gives up before it would. -/
def DeletesNothingResident (pool : PageBufferManager n) (fileId : FileId) : Prop :=
  pool.fileHasPinnedPages fileId = true ∨ pool.toEvict fileId = []

/-- **`DeleteFile` keeps the counter exact if and only if it evicts no page.** -/
theorem deleteFile_count_iff (small : n < sizeLimit) (wf : pool.WellFormed)
    (counted : pool.CountsUnpinned) (fileId : FileId) (removed : Bool) :
    (pool.deleteFile fileId removed).2.CountsUnpinned ↔ pool.DeletesNothingResident fileId := by
  rcases pool.deleteFile_cases fileId removed with ⟨pinned, same⟩ | ⟨unpinned, same⟩
  · rw [same]
    exact iff_of_true counted (Or.inl pinned)
  · have notPinned : pool.fileHasPinnedPages fileId ≠ true := by
      intro pinned
      obtain ⟨fpId, frame, mapped, sameFile, positive⟩ := fileHasPinnedPages_iff.mp pinned
      exact positive.ne' (unpinned fpId
        (mem_toEvict.mpr ⟨AList.lookup_isSome.mp (mapped ▸ rfl), sameFile⟩) frame mapped)
    have drop := wf.dropped fileId
    have frames : (pool.deleteFile fileId removed).2.unpinnedFrames = pool.unpinnedFrames := by
      rw [same]
      exact unpinnedFrames_congr fun frame => by rw [← drop.pinCount frame]
    have below : pool.unpinnedFrames.card < sizeLimit := unpinnedFrames_card_le.trans_lt small
    have fewer : (pool.toEvict fileId).length < sizeLimit :=
      (wf.toEvict_length_le fileId).trans_lt small
    have count : (pool.deleteFile fileId removed).2.replacer.getEvictableCount
        = (pool.unpinnedFrames.card + (pool.toEvict fileId).length) % sizeLimit := by
      have unwrapped : pool.replacer.evictableCount < sizeLimit := by
        rw [show pool.replacer.evictableCount = pool.unpinnedFrames.card from counted]
        exact below
      rw [same, ← counted]
      exact drop.count unwrapped
    unfold CountsUnpinned DeletesNothingResident
    rw [frames, count, add_mod_eq_iff below fewer, List.length_eq_zero_iff]
    exact (or_iff_right notPinned).symm

end PageBufferManager

/-! ### Steps and runs -/

namespace System

variable {n : Nat}

/-- **What the counter promises.** It is the number of flags that are set and of frames without
pins; no call for a page reports that no frame is evictable, and none waits while one is
unpinned. -/
structure CountExact (system : System n) : Prop where
  flags : system.pool.replacer.getEvictableCount = system.pool.replacer.evictableFrames.length
  unpinned : system.pool.replacer.evictableFrames.length = system.pool.unpinnedFrames.card
  noSpuriousError : ∀ fpId io, (system.pool.acquire fpId io).1
    ≠ some (.error (PageBufferManager.noEvictableFrame fpId))
  noSpuriousWait : ∀ fpId io frame, (system.pool.frames frame).pinCount = 0 →
    (system.pool.acquire fpId io).1 ≠ none

theorem CountExact.of_counted {system : System n} (wf : system.pool.WellFormed)
    (counted : system.pool.CountsUnpinned) : system.CountExact where
  flags := counted.trans wf.evictableFrames_length.symm
  unpinned := wf.evictableFrames_length
  noSpuriousError fpId io reported := by
    have ended := PageBufferManager.acquire_step system.pool fpId io
    rw [reported] at ended
    generalize (system.pool.acquire fpId io).2 = pool' at ended
    cases ended with
    | failed failure pool' _ exhausted load =>
        -- a count that is not zero promises an unpinned frame, so there is a victim
        cases load with
        | noVictim nothing =>
            refine exhausted (counted.trans (Finset.card_eq_zero.mpr ?_))
            refine Finset.eq_empty_of_forall_notMem fun frame member => ?_
            exact wf.victim_none nothing frame (PageBufferManager.mem_unpinnedFrames.mp member)
        | notFlushed _ _ _ _ _ _ other => exact other rfl
        | notRead _ _ _ _ _ _ _ other => exact other rfl
  noSpuriousWait fpId io frame unpinned waits := by
    have ended := PageBufferManager.acquire_step system.pool fpId io
    rw [waits] at ended
    generalize (system.pool.acquire fpId io).2 = pool' at ended
    cases ended with
    | unavailable _ exhausted =>
        have empty := Finset.card_eq_zero.mp (counted.symm.trans exhausted)
        have member := PageBufferManager.mem_unpinnedFrames.mpr unpinned
        rw [empty] at member
        cases member

/-- The step pins no pinned frame, and deletes no file with resident pages. -/
def CountsOnce (system : System n) : PoolOp → Prop
  | .getPage fpId _ => ∀ frame, system.pool.pageMap.lookup fpId = some frame →
      (system.pool.frames frame).pinCount = 0
  | .getPageIfFrameAvailable fpId _ => ∀ frame, system.pool.pageMap.lookup fpId = some frame →
      (system.pool.frames frame).pinCount = 0
  | .deleteFile fileId _ => system.pool.DeletesNothingResident fileId
  | _ => True

instance (system : System n) : (op : PoolOp) → Decidable (system.CountsOnce op)
  | .getPage fpId _ | .getPageIfFrameAvailable fpId _ =>
      inferInstanceAs (Decidable (∀ frame, system.pool.pageMap.lookup fpId = some frame →
        (system.pool.frames frame).pinCount = 0))
  | .deleteFile fileId _ =>
      inferInstanceAs (Decidable (system.pool.fileHasPinnedPages fileId = true ∨
        system.pool.toEvict fileId = []))
  | .getMutView _ | .writeByte _ _ _ | .getView _ | .release _ | .createFile _
  | .allocatePage _ _ _ => .isTrue trivial

/-- A call for a page keeps the counter exact if and only if the page is not held. -/
theorem acquire_count_iff (small : n < sizeLimit) {pool : PageBufferManager n}
    (wf : pool.WellFormed) (counted : pool.CountsUnpinned) (fpId : FilePageId) (io : Transfers) :
    (pool.acquire fpId io).2.CountsUnpinned ↔ ∀ frame, pool.pageMap.lookup fpId = some frame →
      (pool.frames frame).pinCount = 0 := by
  have ended := PageBufferManager.acquire_step pool fpId io
  generalize (pool.acquire fpId io).1 = outcome at ended
  generalize (pool.acquire fpId io).2 = pool' at ended ⊢
  have absentMeets : fpId ∉ pool.pageMap → ∀ frame, pool.pageMap.lookup fpId = some frame →
      (pool.frames frame).pinCount = 0 := fun absent frame mapped =>
    absurd (AList.lookup_isSome.mp (mapped ▸ rfl)) absent
  have loading : ∀ {outcome : Except (Failure PoolError) Unit} {middle : PageBufferManager n},
      PageBufferManager.LoadStep pool fpId io outcome middle → middle.CountsUnpinned := by
    intro outcome middle load
    unfold PageBufferManager.CountsUnpinned at counted ⊢
    rw [PageBufferManager.loadStep_count load, counted, PageBufferManager.unpinnedFrames_congr]
    intro frame
    rw [PageBufferManager.pinCount_loadStep wf load]
  cases ended with
  | unavailable absent _ => exact iff_of_true counted (absentMeets absent)
  | hit frame mapped =>
      rw [PageBufferManager.pin_count_iff small wf counted]
      constructor
      · intro unpinned found foundMapped
        cases foundMapped.symm.trans mapped
        exact unpinned
      · exact fun unpinned => unpinned frame mapped
  | failed failure pool' absent _ load => exact iff_of_true (loading load) (absentMeets absent)
  | loaded frame middle absent _ load mapped =>
      refine iff_of_true ?_ (absentMeets absent)
      refine (PageBufferManager.pin_count_iff small (wf.loadStep load) (loading load) frame).mpr ?_
      cases load with
      | loaded victim disk bytes _ _ _ _ =>
          cases (AList.lookup_insert (a := fpId) (pool.vacate victim disk).pageMap).symm.trans mapped
          simp only [PageBufferManager.load, PageBufferManager.setFrame, Function.update_self]

/-- **A step keeps the counter exact if and only if it meets `CountsOnce`.** -/
theorem count_step_iff (small : n < sizeLimit) (system : System n) (op : PoolOp)
    (wf : system.pool.WellFormed) (counted : system.pool.CountsUnpinned) :
    (system.step op).2.pool.CountsUnpinned ↔ system.CountsOnce op := by
  cases op with
  | getPage fpId io =>
      rw [step, getPage, receive_pool]
      exact acquire_count_iff small wf counted fpId io
  | getPageIfFrameAvailable fpId io =>
      rw [step, getPageIfFrameAvailable, receive_pool]
      exact acquire_count_iff small wf counted fpId io
  | getMutView id =>
      refine iff_of_true ?_ trivial
      simp only [step, getMutView]
      split
      · exact counted
      · exact counted.setFrame _ rfl
  | writeByte id index byte =>
      refine iff_of_true ?_ trivial
      simp only [step, writeByte]
      split
      · exact counted
      · split
        · exact counted.setFrame _ rfl
        · exact counted
  | getView id =>
      refine iff_of_true ?_ trivial
      simp only [step, getView]
      split
      · exact counted
      · exact counted
  | release id =>
      refine iff_of_true ?_ trivial
      simp only [step, release]
      split
      · exact counted
      · rename_i handle _
        rcases system.pool.removeAccessor_cases (system.pool.frames handle.frame).fpId with
          ⟨_, same⟩ | ⟨_, _, _, same⟩ | ⟨frame, _, pinned, same⟩
        · rw [same]
          exact counted
        · rw [same]
          exact counted
        · rw [same]
          exact counted.unpin small wf pinned
  | createFile fileId =>
      refine iff_of_true ?_ trivial
      simp only [step, createFile]
      split
      · exact counted
      · exact counted
  | allocatePage fileId pageId bytes =>
      refine iff_of_true ?_ trivial
      simp only [step, allocatePage]
      split
      · exact counted
      · exact counted
  | deleteFile fileId removed =>
      have exactly := PageBufferManager.deleteFile_count_iff small wf counted fileId removed
      simp only [step, deleteFile]
      split <;> (rename_i same; rw [same] at exactly; exact exactly)

theorem new_counted (small : n < sizeLimit) (order : IterationOrder n) (buffer : Fin n → FullPage)
    (disk : PageStore) : (PageBufferManager.new order buffer disk).CountsUnpinned := by
  have wf := PageBufferManager.new_wellFormed order buffer disk
  have registered := LRUKReplacer.registerAll order.frames order.nodup
  have unpinned : (PageBufferManager.new order buffer disk).unpinnedFrames = Finset.univ :=
    Finset.filter_true_of_mem fun _ _ => rfl
  unfold PageBufferManager.CountsUnpinned
  rw [unpinned, Finset.card_univ, Fintype.card_fin, PageBufferManager.new, registered]
  show order.frames.length % sizeLimit = n
  rw [order.length_frames, Nat.mod_eq_of_lt small]

/-- **The evictable count, exactly.** It is right in every state of a run if and only if every
step of the run meets `CountsOnce`. -/
theorem evictableCount_iff (small : n < sizeLimit) (order : IterationOrder n)
    (buffer : Fin n → FullPage) (disk : PageStore) (ops : List PoolOp) :
    (poolMachine n).Always CountExact (.new order buffer disk) ops ↔
      (poolMachine n).Along CountsOnce (.new order buffer disk) ops := by
  have keep : ∀ (system : System n) (op : PoolOp),
      system.pool.WellFormed ∧ system.pool.CountsUnpinned → True → system.CountsOnce op →
      ((poolMachine n).next system op).pool.WellFormed ∧
        ((poolMachine n).next system op).pool.CountsUnpinned :=
    fun system op both _ once => ⟨wellFormed_step system op both.1,
      (count_step_iff small system op both.1 both.2).mpr once⟩
  have back : ∀ (system : System n) (op : PoolOp),
      system.pool.WellFormed ∧ system.pool.CountsUnpinned → True →
      ((poolMachine n).next system op).CountExact → system.CountsOnce op :=
    fun system op both _ right => (count_step_iff small system op both.1 both.2).mp
      (right.flags.trans right.unpinned)
  exact Machine.always_iff_along keep (fun _ both => .of_counted both.1 both.2) back
    ⟨PageBufferManager.new_wellFormed order buffer disk, new_counted small order buffer disk⟩
    (Machine.along_of_mem fun _ _ _ => trivial)

/-! ### Two handles to one page -/

/-- One page is held twice. -/
def sharedPage : List PoolOp :=
  [.createFile 5, .allocatePage 5 0 fun _ => 0, .getPage ⟨5, 0⟩ {}, .getPage ⟨5, 0⟩ {}]

/-- After the second pin the counter has wrapped to its largest value. -/
theorem sharedPage_wraps : ¬ (poolMachine 1).Always CountExact
    (.new onlyFrame (fun _ _ => 0) emptyStore) sharedPage := by
  intro always
  have wrapped : ((poolMachine 1).exec (.new onlyFrame (fun _ _ => 0) emptyStore)
      sharedPage).pool.replacer.getEvictableCount = 2 ^ 64 - 1 := by decide +kernel
  have flags : ((poolMachine 1).exec (.new onlyFrame (fun _ _ => 0) emptyStore)
      sharedPage).pool.replacer.evictableFrames.length = 0 := by decide +kernel
  have right := always.last.flags
  rw [wrapped, flags] at right
  cases right

/-- Held once, the page is counted right. -/
theorem heldPage_counted : (poolMachine 1).Always CountExact
    (.new onlyFrame (fun _ _ => 0) emptyStore) (sharedPage.take 3) := by
  refine (evictableCount_iff (by decide) onlyFrame (fun _ _ => 0) emptyStore _).mpr ?_
  decide +kernel

end System

end Yadb
