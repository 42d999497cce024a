/-
**The pool as its constructor leaves it, under one client.**

`replacer_m()` zeroes `k_m`, and nothing assigns it, so every history is popped as soon as it is
pushed. `EvictFrame` then returns the first evictable frame of the iteration, which between the
visits of a single client is the first frame of all: every page goes through one frame.

* `Idle`: what the replacer and the frames are between two visits.
* `visit_hit`, `visit_miss`: what a visit to the page that the first frame carries, and to any
  other, does.
* `usesPool_iff`: no visit of a run evicts a page while a frame was never used, or the most recently
  accessed page, exactly when all visits of the run are to one page.
-/

import Yadb.Storage.Buffer.Steps
import Mathlib.Data.Fintype.Card

namespace Yadb

open Foundation

/-! ### Visits -/

/-- The system with a record of the frames that have held a page and of the last access. -/
structure VisitedPool (n : Nat) where
  system : System n
  held : Fin n → Bool
  last : Option FilePageId

namespace VisitedPool

variable {n : Nat}

/-- `GetPage`, and the destruction of the page object it returns. -/
def visit (visited : VisitedPool n) (fpId : FilePageId) : VisitedPool n :=
  match visited.system.getPage fpId {} with
  | (.page handle, system) =>
      { system := (system.release handle).2
        held := fun frame =>
          visited.held frame || decide (system.pool.getFrameForPage fpId = some frame)
        last := some fpId }
  | (_, system) => { visited with system }

def new (order : IterationOrder n) (buffer : Fin n → FullPage) (disk : PageStore) :
    VisitedPool n where
  system := .new order buffer disk
  held := fun _ => false
  last := none

/-- The visit evicts no page while some frame has never held one; and if it evicts a page while at
least two frames are evictable, this is not the page that was accessed last. -/
def UsesPool (visited : VisitedPool n) (fpId : FilePageId) : Prop :=
  ∀ page, page ∈ visited.system.pool.pageMap →
    page ∉ (visited.system.getPage fpId {}).2.pool.pageMap →
    (∀ frame, visited.held frame = true) ∧
      (2 ≤ visited.system.pool.replacer.evictableFrames.length → visited.last ≠ some page)

end VisitedPool

def visitMachine (n : Nat) : Machine (VisitedPool n) FilePageId Unit :=
  ⟨fun visited fpId => ((), visited.visit fpId)⟩

namespace PageBufferManager

variable {n : Nat} {pool : PageBufferManager n}

/-- **Between two visits**: no page is pinned or dirty, and no access is remembered. -/
structure Idle (order : IterationOrder n) (disk : PageStore) (pool : PageBufferManager n) :
    Prop where
  frames : pool.replacer.frames = order.frames
  k : pool.replacer.k = 0
  fresh : ∀ frame, pool.replacer.entry frame = {}
  count : pool.replacer.evictableCount = n
  disk : pool.disk = disk
  clean : ∀ frame, (pool.frames frame).isDirty = false
  unpinned : ∀ frame, (pool.frames frame).pinCount = 0

variable {order : IterationOrder n} {disk : PageStore}

theorem idle_new (small : n < sizeLimit) (order : IterationOrder n) (buffer : Fin n → FullPage)
    (disk : PageStore) : Idle order disk (PageBufferManager.new order buffer disk) := by
  have registered := LRUKReplacer.registerAll order.frames order.nodup
  have replacer : (PageBufferManager.new order buffer disk).replacer
      = { frames := order.frames, evictableCount := n } := by
    unfold PageBufferManager.new
    rw [registered, order.length_frames, Nat.mod_eq_of_lt small]
  refine ⟨?_, ?_, fun frame => ?_, ?_, rfl, fun _ => rfl, fun _ => rfl⟩
  · rw [replacer]
  · rw [replacer]
  · rw [replacer]
  · rw [replacer]

/-- With no remembered access the first frame of the iteration is the victim. -/
theorem Idle.victim {first : Fin n} {others : List (Fin n)} (idle : Idle order disk pool)
    (isFirst : order.frames = first :: others) : pool.victim = some first := by
  unfold PageBufferManager.victim LRUKReplacer.evictFrame
  rw [idle.frames, isFirst, LRUKReplacer.evictLoop]
  simp only [idle.fresh, Bool.not_true, Bool.false_eq_true, if_false, List.isEmpty_nil, if_true]

/-- Clearing a history that is empty. -/
theorem Idle.clearHistory_entry (idle : Idle order disk pool) (frame other : Fin n) :
    (pool.replacer.clearHistory frame).entry other = {} := by
  by_cases same : other = frame
  · subst same
    simp only [LRUKReplacer.clearHistory, Function.update_self, idle.fresh]
  · simp only [LRUKReplacer.clearHistory, Function.update_of_ne same, idle.fresh]

/-- Loading a page into a frame leaves the pool idle. -/
theorem Idle.load (idle : Idle order disk pool) (frame : Fin n) (fpId : FilePageId)
    (bytes : FullPage) : Idle order disk ((pool.vacate frame disk).load frame fpId bytes) where
  frames := idle.frames
  k := idle.k
  fresh := idle.clearHistory_entry frame
  count := idle.count
  disk := rfl
  clean other := by
    by_cases same : other = frame
    · subst same
      simp only [PageBufferManager.load, setFrame, Function.update_self]
    · simp only [PageBufferManager.load, setFrame, vacate, Function.update_of_ne same, idle.clean]
  unpinned other := by
    by_cases same : other = frame
    · subst same
      simp only [PageBufferManager.load, setFrame, Function.update_self]
    · simp only [PageBufferManager.load, setFrame, vacate, Function.update_of_ne same,
        idle.unpinned]

/-- `k_m` is zero: an access is popped as soon as it is pushed. -/
theorem recordAccess_entry {replacer : LRUKReplacer (Fin n)} (zero : replacer.k = 0)
    (fresh : ∀ frame, replacer.entry frame = {}) (frame other : Fin n) :
    (replacer.recordAccess frame).entry other = {} := by
  unfold LRUKReplacer.recordAccess
  split
  · by_cases same : other = frame
    · subst same
      simp only [Function.update_self, fresh, zero, List.nil_append, List.length_singleton,
        Nat.zero_lt_one, gt_iff_lt, if_true, List.tail_cons]
    · simp only [Function.update_of_ne same, fresh]
  · exact fresh other

/-- A pin and the unpin after it leave the pool idle. -/
theorem Idle.pin_unpin (small : n < sizeLimit) (idle : Idle order disk pool) (frame : Fin n) :
    Idle order disk ((pool.pin frame).unpin frame) := by
  have positive : 0 < n := Nat.lt_of_le_of_lt (Nat.zero_le _) frame.isLt
  have registered : frame ∈ pool.replacer.frames := idle.frames ▸ order.complete frame
  have pinned : ((pool.pin frame).frames frame).pinCount = 1 := by
    simp only [pin, setFrame, Function.update_self, idle.unpinned]
  have known : frame ∈ (pool.replacer.recordAccess frame).frames := by
    rw [LRUKReplacer.recordAccess_frames]
    exact registered
  have again : frame ∈ ((pool.replacer.recordAccess frame).setEvictable frame false).frames := by
    rw [LRUKReplacer.setEvictable_frames]
    exact known
  have replacer : ((pool.pin frame).unpin frame).replacer
      = ((pool.replacer.recordAccess frame).setEvictable frame false).setEvictable frame true := by
    simp only [unpin, pinned, if_true]
    rfl
  have entries : ∀ other, (((pool.replacer.recordAccess frame).setEvictable frame false).setEvictable
      frame true).entry other = {} := by
    intro other
    have cleared := recordAccess_entry idle.k idle.fresh frame
    rw [LRUKReplacer.setEvictable, if_pos again, LRUKReplacer.setEvictable, if_pos known]
    by_cases same : other = frame
    · subst same
      simp only [Function.update_self, cleared]
    · simp only [Function.update_of_ne same, cleared]
  refine ⟨?_, ?_, fun other => ?_, ?_, idle.disk, fun other => ?_, fun other => ?_⟩
  · rw [replacer, LRUKReplacer.setEvictable_frames, LRUKReplacer.setEvictable_frames,
      LRUKReplacer.recordAccess_frames, idle.frames]
  · rw [replacer, LRUKReplacer.setEvictable, if_pos again, LRUKReplacer.setEvictable, if_pos known,
      LRUKReplacer.recordAccess, if_pos registered]
    exact idle.k
  · rw [replacer, entries other]
  · rw [replacer, LRUKReplacer.setEvictable_true_count again,
      LRUKReplacer.setEvictable_false_count known, LRUKReplacer.recordAccess_count, idle.count]
    unfold sizeLimit at small ⊢
    omega
  · by_cases same : other = frame
    · subst same
      simp only [unpin, pin, setFrame, Function.update_self, idle.clean]
    · simp only [unpin, pin, setFrame, Function.update_of_ne same, idle.clean]
  · by_cases same : other = frame
    · subst same
      simp only [unpin, pin, setFrame, Function.update_self, idle.unpinned]
    · simp only [unpin, pin, setFrame, Function.update_of_ne same, idle.unpinned]

/-- **`GetPage` from an idle pool**: a hit pins the frame of the page, and a miss loads the page
into the first frame. -/
theorem Idle.acquire {first : Fin n} {others : List (Fin n)} (idle : Idle order disk pool)
    (isFirst : order.frames = first :: others) {fpId : FilePageId}
    (allocated : disk.Allocated fpId) :
    (∃ frame, pool.pageMap.lookup fpId = some frame ∧
      pool.acquire fpId {} = (some (.ok frame), pool.pin frame)) ∨
    (fpId ∉ pool.pageMap ∧ ∃ bytes, pool.acquire fpId {}
      = (some (.ok first), ((pool.vacate first disk).load first fpId bytes).pin first)) := by
  have isVictim := idle.victim isFirst
  have same : ∀ {frame}, pool.victim = some frame → frame = first := by
    intro frame chosen
    exact Option.some.inj (chosen.symm.trans isVictim)
  have untouched : ∀ {frame disk'}, Flushed pool frame disk' → disk' = disk := by
    intro frame disk' flushed
    cases flushed with
    | clean _ => exact idle.disk
    | written holder dirty _ _ =>
        rw [idle.clean frame] at dirty
        cases dirty
  have step := pool.acquire_step fpId {}
  rcases call : pool.acquire fpId {} with ⟨answer, pool'⟩
  rw [call] at step
  cases step with
  | unavailable _ exhausted =>
      rw [idle.count] at exhausted
      exact absurd first.isLt (by omega)
  | hit frame mapped => exact .inl ⟨frame, mapped, rfl⟩
  | failed failure _ absent _ load =>
      cases load with
      | noVictim none =>
          rw [isVictim] at none
          cases none
      | notFlushed frame _ _ _ dirty _ _ =>
          rw [idle.clean frame] at dirty
          cases dirty
      | notRead frame disk' _ _ _ flushed notAllocated _ =>
          rw [untouched flushed] at notAllocated
          exact absurd allocated (notAllocated rfl)
  | loaded frame _ absent _ load mapped =>
      cases load with
      | loaded victim disk' bytes chosen flushed _ _ =>
          have isDisk := untouched flushed
          have isFirst := same chosen
          subst isDisk
          subst isFirst
          have frameSame : frame = victim := by
            rw [PageBufferManager.load, AList.lookup_insert] at mapped
            exact (Option.some.inj mapped).symm
          subst frameSame
          exact .inr ⟨absent, bytes, rfl⟩

end PageBufferManager

namespace VisitedPool

variable {n : Nat} {order : IterationOrder n} {disk : PageStore} {visited : VisitedPool n}

/-- Only `fpId` is resident, in the first frame, and it was the page accessed last. -/
structure Parked (order : IterationOrder n) (disk : PageStore) (first : Fin n) (fpId : FilePageId)
    (visited : VisitedPool n) : Prop where
  idle : PageBufferManager.Idle order disk visited.system.pool
  handles : visited.system.handles = []
  mapped : visited.system.pool.pageMap.lookup fpId = some first
  only : ∀ page ∈ visited.system.pool.pageMap, page = fpId
  carries : (visited.system.pool.frames first).fpId = fpId
  held : ∀ frame, visited.held frame = true → frame = first
  last : visited.last = some fpId

/-- The visit that pins `frame` of the pool `loaded`: what is left after the release. -/
theorem visit_of_acquire {fpId : FilePageId} {frame : Fin n} {loaded : PageBufferManager n}
    (noHandles : visited.system.handles = [])
    (call : visited.system.pool.acquire fpId {} = (some (.ok frame), loaded.pin frame))
    (mapped : loaded.pageMap.lookup fpId = some frame) (carries : (loaded.frames frame).fpId = fpId) :
    visited.visit fpId = { system := { pool := (loaded.pin frame).unpin frame, handles := [],
                                       nextHandle := visited.system.nextHandle + 1 }
                           held := fun other => visited.held other || decide (frame = other)
                           last := some fpId } := by
  have got : visited.system.getPage fpId {} = (.page visited.system.nextHandle,
      { pool := loaded.pin frame
        handles := [{ id := visited.system.nextHandle, frame, mutView := false }]
        nextHandle := visited.system.nextHandle + 1 }) := by
    unfold System.getPage System.receive
    rw [call, noHandles]
  have stillMapped : (loaded.pin frame).pageMap.lookup fpId = some frame := mapped
  have stillCarries : ((loaded.pin frame).frames frame).fpId = fpId := by
    simp only [PageBufferManager.pin, PageBufferManager.setFrame, Function.update_self]
    exact carries
  have pinned : ((loaded.pin frame).frames frame).pinCount ≠ 0 := by
    simp only [PageBufferManager.pin, PageBufferManager.setFrame, Function.update_self]
    exact Nat.succ_ne_zero _
  have removed : (loaded.pin frame).removeAccessor fpId
      = (.ok (), (loaded.pin frame).unpin frame) := by
    rcases (loaded.pin frame).removeAccessor_cases fpId with
      ⟨unmapped, _⟩ | ⟨other, isMapped, zero, _⟩ | ⟨other, isMapped, _, removed⟩
    · rw [stillMapped] at unmapped
      cases unmapped
    · rw [stillMapped] at isMapped
      cases isMapped
      exact absurd zero pinned
    · rw [stillMapped] at isMapped
      cases isMapped
      exact removed
  unfold visit
  rw [got]
  simp only [System.release, System.findHandle, List.find?_cons, beq_self_eq_true, stillCarries,
    removed, List.erase_cons_head, PageBufferManager.getFrameForPage, stillMapped,
    Option.some.injEq]

theorem unpin_fields (pool : PageBufferManager n) (frame : Fin n) :
    ((pool.pin frame).unpin frame).pageMap = pool.pageMap ∧
      ∀ other, (((pool.pin frame).unpin frame).frames other).fpId = (pool.frames other).fpId := by
  refine ⟨rfl, fun other => ?_⟩
  by_cases same : other = frame
  · subst same
    simp only [PageBufferManager.unpin, PageBufferManager.pin, PageBufferManager.setFrame,
      Function.update_self]
  · simp only [PageBufferManager.unpin, PageBufferManager.pin, PageBufferManager.setFrame,
      Function.update_of_ne same]

/-- After a visit that pinned the first frame, its page is parked there. -/
theorem parked_visit (small : n < sizeLimit) {first : Fin n} {fpId : FilePageId}
    {loaded : PageBufferManager n} (noHandles : visited.system.handles = [])
    (call : visited.system.pool.acquire fpId {} = (some (.ok first), loaded.pin first))
    (idle : PageBufferManager.Idle order disk loaded)
    (mapped : loaded.pageMap.lookup fpId = some first)
    (only : ∀ page ∈ loaded.pageMap, page = fpId) (carries : (loaded.frames first).fpId = fpId)
    (held : ∀ frame, visited.held frame = true → frame = first) :
    Parked order disk first fpId (visited.visit fpId) := by
  rw [visit_of_acquire noHandles call mapped carries]
  obtain ⟨pageMap, carried⟩ := unpin_fields loaded first
  refine ⟨idle.pin_unpin small first, rfl, ?_, ?_, ?_, fun frame marked => ?_, rfl⟩
  · show ((loaded.pin first).unpin first).pageMap.lookup fpId = some first
    rw [pageMap]
    exact mapped
  · show ∀ page ∈ ((loaded.pin first).unpin first).pageMap, page = fpId
    rw [pageMap]
    exact only
  · exact (carried first).trans carries
  · simp only [Bool.or_eq_true, decide_eq_true_eq] at marked
    rcases marked with before | now
    · exact held frame before
    · exact now.symm

/-- **The first visit** evicts nothing and parks its page in the first frame. -/
theorem visit_first (small : n < sizeLimit) {first : Fin n} {others : List (Fin n)}
    (isFirst : order.frames = first :: others) (buffer : Fin n → FullPage) {fpId : FilePageId}
    (allocated : disk.Allocated fpId) :
    UsesPool (new order buffer disk) fpId ∧
      Parked order disk first fpId ((new order buffer disk).visit fpId) := by
  have idle := PageBufferManager.idle_new small order buffer disk
  refine ⟨fun page resident => absurd resident (AList.notMem_empty page), ?_⟩
  rcases idle.acquire isFirst allocated with ⟨frame, mapped, _⟩ | ⟨_, bytes, call⟩
  · cases mapped
  · refine parked_visit small rfl call (idle.load first fpId bytes) (AList.lookup_insert _) ?_ ?_
      nofun
    · intro page resident
      rcases (AList.mem_insert _).mp resident with same | earlier
      · exact same
      · exact absurd (AList.mem_erase.mp earlier).2 (AList.notMem_empty page)
    · simp only [PageBufferManager.load, PageBufferManager.setFrame, Function.update_self]

/-- **A visit to the parked page** evicts nothing. -/
theorem visit_hit (small : n < sizeLimit) {first : Fin n} {others : List (Fin n)}
    (isFirst : order.frames = first :: others) {fpId : FilePageId}
    (allocated : disk.Allocated fpId) (parked : Parked order disk first fpId visited) :
    UsesPool visited fpId ∧ Parked order disk first fpId (visited.visit fpId) := by
  rcases parked.idle.acquire isFirst allocated with ⟨frame, mapped, call⟩ | ⟨absent, _⟩
  · rw [parked.mapped] at mapped
    cases mapped
    refine ⟨fun page resident evicted => ?_, parked_visit small parked.handles call parked.idle
      parked.mapped parked.only parked.carries parked.held⟩
    rw [System.getPage, call] at evicted
    exact absurd resident evicted
  · rw [← AList.lookup_isSome, parked.mapped] at absent
    exact absurd rfl absent

/-- **A visit to another page** evicts the parked one, the page accessed last, although a second
frame was never used. -/
theorem visit_miss (two : 2 ≤ n) {first : Fin n} {others : List (Fin n)}
    (isFirst : order.frames = first :: others) {parkedId fpId : FilePageId}
    (allocated : disk.Allocated fpId) (parked : Parked order disk first parkedId visited)
    (differ : fpId ≠ parkedId) : ¬ UsesPool visited fpId := by
  intro uses
  rcases parked.idle.acquire isFirst allocated with ⟨frame, mapped, _⟩ | ⟨_, bytes, call⟩
  · refine absurd (parked.only fpId ?_) differ
    rw [← AList.lookup_isSome, mapped]
    rfl
  · have resident : parkedId ∈ visited.system.pool.pageMap := by
      rw [← AList.lookup_isSome, parked.mapped]
      rfl
    have evicted : parkedId ∉ (visited.system.getPage fpId {}).2.pool.pageMap := by
      rw [System.getPage, call]
      intro still
      rcases (AList.mem_insert _).mp still with same | kept
      · exact differ same.symm
      · have erased : parkedId ∈ visited.system.pool.pageMap.erase
            (visited.system.pool.frames first).fpId := kept
        exact (AList.mem_erase.mp erased).1 parked.carries.symm
    have all := (uses parkedId resident evicted).1
    obtain ⟨other, unused⟩ : ∃ other : Fin n, other ≠ first := by
      have : Nontrivial (Fin n) := Fin.nontrivial_iff_two_le.mpr two
      exact exists_ne first
    exact unused (parked.held other (all other))

/-- From a parked page on, the visits are as wanted exactly when they are to this page. -/
theorem along_parked_iff (two : 2 ≤ n) (small : n < sizeLimit) {first : Fin n}
    {others : List (Fin n)} (isFirst : order.frames = first :: others) {fpId : FilePageId}
    (parked : Parked order disk first fpId visited) {pages : List FilePageId}
    (allocated : ∀ page ∈ pages, disk.Allocated page) :
    (visitMachine n).Along UsesPool visited pages ↔ ∀ page ∈ pages, page = fpId := by
  induction pages generalizing visited with
  | nil => exact iff_of_true trivial nofun
  | cons page pages ih =>
      have head := allocated page List.mem_cons_self
      rw [List.forall_mem_cons]
      by_cases same : page = fpId
      · subst same
        obtain ⟨uses, next⟩ := visit_hit small isFirst head parked
        have later := ih next fun other member => allocated other (List.mem_cons_of_mem _ member)
        exact ⟨fun along => ⟨rfl, later.mp along.2⟩, fun all => ⟨uses, later.mpr all.2⟩⟩
      · exact iff_of_false (fun along => visit_miss two isFirst head parked same along.1)
          fun all => same all.1

/-- **When the pool as constructed uses its frames.** For every iteration order and every run of
visits to allocated pages, no visit of the run evicts a page while a frame was never used, or the
page accessed last, exactly when the run visits one page only. -/
theorem usesPool_iff (two : 2 ≤ n) (small : n < sizeLimit) (order : IterationOrder n)
    (buffer : Fin n → FullPage) (disk : PageStore) (pages : List FilePageId)
    (allocated : ∀ page ∈ pages, disk.Allocated page) :
    (visitMachine n).Along UsesPool (new order buffer disk) pages
      ↔ ∀ page ∈ pages, ∀ other ∈ pages, page = other := by
  obtain ⟨first, others, isFirst⟩ : ∃ first others, order.frames = first :: others := by
    cases frames : order.frames with
    | nil =>
        have member := order.complete ⟨0, by omega⟩
        rw [frames] at member
        cases member
    | cons first others => exact ⟨first, others, rfl⟩
  cases pages with
  | nil => exact iff_of_true trivial nofun
  | cons page pages =>
      obtain ⟨uses, parked⟩ := visit_first small isFirst buffer
        (allocated page List.mem_cons_self)
      have later := along_parked_iff two small isFirst parked
        fun other member => allocated other (List.mem_cons_of_mem _ member)
      constructor
      · rintro ⟨_, along⟩
        have all : ∀ other ∈ page :: pages, other = page :=
          List.forall_mem_cons.mpr ⟨rfl, later.mp along⟩
        exact fun one first other second => (all one first).trans (all other second).symm
      · intro same
        exact ⟨uses, later.mpr fun other member =>
          same other (List.mem_cons_of_mem _ member) page List.mem_cons_self⟩

/-- A store in which every page is allocated. -/
def fullStore : PageStore where
  files _ := true
  pages fpId := if fpId.pageId = nullPageId then none else some fun _ => 0
  pages_null _ := if_pos rfl

def somePage (pageId : PageId) : FilePageId := ⟨0, pageId⟩

theorem allocated_somePage {pageId : PageId} (valid : pageId ≠ nullPageId) :
    fullStore.Allocated (somePage pageId) := by
  refine ⟨rfl, ?_⟩
  show (if pageId = nullPageId then none else some fun _ => 0) ≠ none
  rw [if_neg valid]
  nofun

/-- Two pages through a pool of two frames: the second visit evicts the page of the first. -/
theorem usesPool_two_pages :
    ¬ (visitMachine 2).Along UsesPool (new System.secondFirst (fun _ _ => 0) fullStore)
      [somePage 1, somePage 2] := by
  rw [usesPool_iff (by decide) (by decide) _ _ _ _ (List.forall_mem_cons.mpr
    ⟨allocated_somePage (by decide), List.forall_mem_singleton.mpr
      (allocated_somePage (by decide))⟩)]
  decide

/-- One page, visited twice. -/
theorem usesPool_one_page :
    (visitMachine 2).Along UsesPool (new System.secondFirst (fun _ _ => 0) fullStore)
      [somePage 1, somePage 1] :=
  (usesPool_iff (by decide) (by decide) _ _ _ _ (List.forall_mem_cons.mpr
    ⟨allocated_somePage (by decide), List.forall_mem_singleton.mpr
      (allocated_somePage (by decide))⟩)).mpr (by decide)

end VisitedPool

end Yadb
