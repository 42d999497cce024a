/-
**What one call to the buffer manager can do.**

A call for a page ends in one of six ways, and `loadPage_step` and `acquire_step` name them all: the
caller waits, a hit is pinned, no frame is evictable, the victim cannot be flushed, the page cannot
be read, or it is loaded and pinned. Each way is described by the moves `pin`, `vacate` and `load`,
so an invariant needs one lemma about each move and no proof unfolds `loadPage` again.
`removeAccessor_cases` and `dropped` do the same for a handle's destruction and for `DeleteFile`.

`WellFormed` holds in every reachable state whatever fails: every frame is registered and its flag
is set exactly when it is unpinned, the page map points at frames that carry its keys, and mapped
pages are allocated.
-/

import Yadb.Storage.Buffer.Pool

namespace Yadb

namespace PageBufferManager

variable {n : Nat}

/-! ### Moves -/

def pin (pool : PageBufferManager n) (frame : Fin n) : PageBufferManager n :=
  { pool.setFrame frame { pool.frames frame with pinCount := (pool.frames frame).pinCount + 1 } with
    replacer := (pool.replacer.recordAccess frame).setEvictable frame false }

/-- The victim has been flushed where needed, leaving `disk`, and its page unmapped. -/
def vacate (pool : PageBufferManager n) (victim : Fin n) (disk : PageStore) :
    PageBufferManager n :=
  { pool with
    replacer := pool.replacer.clearHistory victim
    disk
    pageMap := pool.pageMap.erase (pool.frames victim).fpId }

def load (pool : PageBufferManager n) (frame : Fin n) (fpId : FilePageId) (bytes : FullPage) :
    PageBufferManager n :=
  { pool.setFrame frame { fpId, isDirty := false, pinCount := 0, data := bytes } with
    pageMap := pool.pageMap.insert fpId frame }

def overwrite (pool : PageBufferManager n) (frame : Fin n) (bytes : FullPage) :
    PageBufferManager n :=
  pool.setFrame frame { pool.frames frame with data := bytes }

/-- A flush that failed: the victim's history is gone, and the disk may have torn bytes. -/
def flushFailed (pool : PageBufferManager n) (victim : Fin n) (disk : PageStore) :
    PageBufferManager n :=
  { pool with replacer := pool.replacer.clearHistory victim, disk }

/-- The disk after the victim was flushed, if it had to be. -/
inductive Flushed (pool : PageBufferManager n) (victim : Fin n) : PageStore → Prop
  | clean : (pool.frames victim).isDirty = false → Flushed pool victim pool.disk
  | written (holder : Fin n) : (pool.frames victim).isDirty = true →
      pool.pageMap.lookup (pool.frames victim).fpId = some holder →
      pool.disk.Allocated (pool.frames victim).fpId →
      Flushed pool victim (pool.disk.put (pool.frames victim).fpId (pool.frames holder).data)

/-- Why a dirty victim was not flushed, and the disk it leaves. -/
inductive FlushFails (pool : PageBufferManager n) (victim : Fin n) (io : Transfers) :
    PageStore → Prop
  | notInPool : pool.pageMap.lookup (pool.frames victim).fpId = none →
      FlushFails pool victim io pool.disk
  | notAllocated (holder : Fin n) :
      pool.pageMap.lookup (pool.frames victim).fpId = some holder →
      ¬ pool.disk.Allocated (pool.frames victim).fpId → FlushFails pool victim io pool.disk
  | torn (holder : Fin n) (bytes : FullPage) : io.writeFault = some bytes →
      pool.pageMap.lookup (pool.frames victim).fpId = some holder →
      pool.disk.Allocated (pool.frames victim).fpId →
      FlushFails pool victim io (pool.disk.put (pool.frames victim).fpId bytes)

/-- The frame the replacer would evict now. -/
def victim (pool : PageBufferManager n) : Option (Fin n) := pool.replacer.evictFrame.1

/-- The error of `LoadPage` when the replacer has nothing to evict. -/
def noEvictableFrame (fpId : FilePageId) : Failure PoolError :=
  .error (.getPageError fpId .noEvictableFrame)

/-- **The four ways in which loading a page that is not resident can end.** -/
inductive LoadStep (pool : PageBufferManager n) (fpId : FilePageId) (io : Transfers) :
    Except (Failure PoolError) Unit → PageBufferManager n → Prop
  | noVictim : pool.victim = none → LoadStep pool fpId io (.error (noEvictableFrame fpId)) pool
  | notFlushed (frame : Fin n) (disk : PageStore) (failure : Failure PoolError) :
      pool.victim = some frame → (pool.frames frame).isDirty = true →
      FlushFails pool frame io disk → failure ≠ noEvictableFrame fpId →
      LoadStep pool fpId io (.error failure) (pool.flushFailed frame disk)
  | notRead (frame : Fin n) (disk : PageStore) (failure : Failure PoolError) (bytes : FullPage) :
      pool.victim = some frame → Flushed pool frame disk →
      (io.readFault = none → ¬ disk.Allocated fpId) → failure ≠ noEvictableFrame fpId →
      LoadStep pool fpId io (.error failure) ((pool.vacate frame disk).overwrite frame bytes)
  | loaded (frame : Fin n) (disk : PageStore) (bytes : FullPage) :
      pool.victim = some frame → Flushed pool frame disk →
      disk.files fpId.fileId = true → disk.pages fpId = some bytes →
      LoadStep pool fpId io (.ok ()) ((pool.vacate frame disk).load frame fpId bytes)

/-- **The ways in which a call for a page can end.** -/
inductive AcquireStep (pool : PageBufferManager n) (fpId : FilePageId) (io : Transfers) :
    Option (Except (Failure PoolError) (Fin n)) → PageBufferManager n → Prop
  | unavailable : fpId ∉ pool.pageMap → pool.replacer.evictableCount = 0 →
      AcquireStep pool fpId io none pool
  | hit (frame : Fin n) : pool.pageMap.lookup fpId = some frame →
      AcquireStep pool fpId io (some (.ok frame)) (pool.pin frame)
  | failed (failure : Failure PoolError) (pool' : PageBufferManager n) :
      fpId ∉ pool.pageMap → pool.replacer.evictableCount ≠ 0 →
      LoadStep pool fpId io (.error failure) pool' →
      AcquireStep pool fpId io (some (.error failure)) pool'
  | loaded (frame : Fin n) (pool' : PageBufferManager n) :
      fpId ∉ pool.pageMap → pool.replacer.evictableCount ≠ 0 →
      LoadStep pool fpId io (.ok ()) pool' → pool'.pageMap.lookup fpId = some frame →
      AcquireStep pool fpId io (some (.ok frame)) (pool'.pin frame)

variable {pool : PageBufferManager n}

/-- The victim is a registered evictable frame, and there is none only if no frame is. -/
theorem victim_cases (pool : PageBufferManager n) :
    (pool.replacer.evictFrame = (none, pool.replacer) ∧ pool.victim = none ∧
        ∀ frame ∈ pool.replacer.frames, (pool.replacer.entry frame).isEvictable = false) ∨
      ∃ frame ∈ pool.replacer.frames, (pool.replacer.entry frame).isEvictable = true ∧
        pool.victim = some frame ∧
        pool.replacer.evictFrame = (some frame, pool.replacer.clearHistory frame) := by
  rcases pool.replacer.evictFrame_cases with ⟨nothing, blocked⟩ | ⟨frame, member, evictable, found⟩
  · exact Or.inl ⟨nothing, congrArg Prod.fst nothing, blocked⟩
  · exact Or.inr ⟨frame, member, evictable, congrArg Prod.fst found, found⟩

/-- A wrapped disk failure is never the error about evictable frames. -/
theorem map_ne_noEvictableFrame {wrap : DiskError → PoolError}
    (other : ∀ error fpId, wrap error ≠ .getPageError fpId .noEvictableFrame)
    (failure : Failure DiskError) (fpId : FilePageId) :
    failure.map wrap ≠ noEvictableFrame fpId := by
  intro same
  cases failure with
  | error cause => exact other cause fpId (Failure.error.inj same)
  | assertion fired => cases same

/-- Flushing the page a frame carries succeeds, or fails in one of the ways of `FlushFails`. -/
theorem flushPage_cases (pool : PageBufferManager n) (frame : Fin n) (io : Transfers) :
    (∃ failure disk, FlushFails pool frame io disk ∧ (∀ fpId, failure ≠ noEvictableFrame fpId) ∧
        pool.flushPage (pool.frames frame).fpId io.writeFault
          = (.error failure, { pool with disk })) ∨
      ∃ holder, pool.pageMap.lookup (pool.frames frame).fpId = some holder ∧
        pool.disk.Allocated (pool.frames frame).fpId ∧
        pool.flushPage (pool.frames frame).fpId io.writeFault
          = (.ok (), { pool with
              disk := pool.disk.put (pool.frames frame).fpId (pool.frames holder).data }) := by
  have wrapped : ∀ (failure : Failure DiskError) (fpId : FilePageId), failure.map
      (fun error => PoolError.flushPageError (pool.frames frame).fpId (.disk error))
        ≠ noEvictableFrame fpId := map_ne_noEvictableFrame fun _ _ same => by cases same
  unfold flushPage getFrameForPage
  cases mapped : pool.pageMap.lookup (pool.frames frame).fpId with
  | none =>
      refine Or.inl ⟨_, _, .notInPool mapped, ?_, rfl⟩
      intro fpId same
      cases same
  | some holder =>
      rcases pool.disk.writePage_cases (pool.frames frame).fpId
          (pool.frames holder).data io.writeFault with
        ⟨failure, write, absent⟩ | ⟨failure, torn, fault, write, allocated⟩ | ⟨_, write, allocated⟩
      · simp only [write]
        exact Or.inl ⟨_, _, .notAllocated holder mapped absent, wrapped failure, rfl⟩
      · simp only [write]
        exact Or.inl ⟨_, _, .torn holder torn fault mapped allocated, wrapped failure, rfl⟩
      · simp only [write]
        exact Or.inr ⟨holder, rfl, allocated, rfl⟩

/-- Flushing the victim if it is dirty. -/
theorem flushVictim (pool : PageBufferManager n) (frame : Fin n) (io : Transfers) :
    (∃ failure disk, (pool.frames frame).isDirty = true ∧ FlushFails pool frame io disk ∧
        (∀ fpId, failure ≠ noEvictableFrame fpId) ∧
        (if (pool.frames frame).isDirty then pool.flushPage (pool.frames frame).fpId io.writeFault
          else (.ok (), pool)) = (.error failure, { pool with disk })) ∨
      ∃ disk, Flushed pool frame disk ∧
        (if (pool.frames frame).isDirty then pool.flushPage (pool.frames frame).fpId io.writeFault
          else (.ok (), pool)) = (.ok (), { pool with disk }) := by
  by_cases dirty : (pool.frames frame).isDirty = true
  · simp only [if_pos dirty]
    rcases pool.flushPage_cases frame io with
      ⟨failure, disk, fails, named, flush⟩ | ⟨holder, mapped, allocated, flush⟩
    · exact Or.inl ⟨failure, disk, dirty, fails, named, flush⟩
    · exact Or.inr ⟨_, .written holder dirty mapped allocated, flush⟩
  · refine Or.inr ⟨pool.disk, .clean (by simpa using dirty), ?_⟩
    rw [if_neg dirty]

/-- **Loading a page that is not resident.** -/
theorem loadPage_step (fpId : FilePageId) (io : Transfers) (absent : fpId ∉ pool.pageMap) :
    LoadStep pool fpId io (pool.loadPage fpId io).1 (pool.loadPage fpId io).2 := by
  unfold loadPage
  rw [if_neg absent]
  rcases pool.victim_cases with ⟨nothing, noVictim, _⟩ | ⟨frame, _, _, chosen, found⟩
  · simp only [nothing]
    exact .noVictim noVictim
  · simp only [found, reuseFrame]
    rcases flushVictim { pool with replacer := pool.replacer.clearHistory frame } frame io with
      ⟨failure, disk, dirty, fails, named, flush⟩ | ⟨disk, flushed, flush⟩
    · simp only [flush]
      refine .notFlushed frame disk failure chosen dirty ?_ (named fpId)
      cases fails with
      | notInPool absent => exact .notInPool absent
      | notAllocated holder mapped absent => exact .notAllocated holder mapped absent
      | torn holder bytes fault mapped allocated => exact .torn holder bytes fault mapped allocated
    · replace flushed : Flushed pool frame disk := by
        cases flushed with
        | clean clean => exact .clean clean
        | written holder dirty mapped allocated => exact .written holder dirty mapped allocated
      simp only [flush, readInto]
      cases read : disk.readPage fpId io.readFault.isSome with
      | error failure =>
          refine .notRead frame disk _ _ chosen flushed ?_
            (map_ne_noEvictableFrame (fun _ _ same => by cases same) failure fpId)
          rintro noFault ⟨file, page⟩
          obtain ⟨bytes, page⟩ := Option.ne_none_iff_exists'.mp page
          rw [noFault, Option.isSome_none, PageStore.readPage_allocated file page] at read
          cases read
      | ok bytes =>
          obtain ⟨file, page⟩ := PageStore.pages_of_readPage read
          exact .loaded frame disk bytes chosen flushed file page

theorem pinAndReturnPage_mapped {fpId : FilePageId} {frame : Fin n}
    (mapped : pool.pageMap.lookup fpId = some frame) :
    pool.pinAndReturnPage fpId = (.ok frame, pool.pin frame) := by
  unfold pinAndReturnPage getFrameForPage
  rw [mapped]
  rfl

/-- **Every call for a page ends in one of the ways of `AcquireStep`.** -/
theorem acquire_step (pool : PageBufferManager n) (fpId : FilePageId) (io : Transfers) :
    AcquireStep pool fpId io (pool.acquire fpId io).1 (pool.acquire fpId io).2 := by
  unfold acquire LRUKReplacer.getEvictableCount
  by_cases resident : fpId ∈ pool.pageMap
  · obtain ⟨frame, mapped⟩ := Option.isSome_iff_exists.mp (AList.lookup_isSome.mpr resident)
    rw [if_neg (fun both => both.1 resident)]
    simp only [if_pos resident, pinAndReturnPage_mapped mapped]
    exact .hit frame mapped
  · by_cases exhausted : pool.replacer.evictableCount = 0
    · rw [if_pos ⟨resident, exhausted⟩]
      exact .unavailable resident exhausted
    · rw [if_neg (fun both => exhausted both.2)]
      simp only [if_neg resident]
      have step := loadPage_step fpId io resident
      cases result : pool.loadPage fpId io with
      | mk outcome pool' =>
          rw [result] at step
          cases outcome with
          | error failure => exact .failed failure pool' resident exhausted step
          | ok _ =>
              have mapped : ∃ frame, pool'.pageMap.lookup fpId = some frame := by
                cases step with
                | loaded frame disk bytes _ _ _ _ => exact ⟨frame, AList.lookup_insert _⟩
              obtain ⟨frame, mapped⟩ := mapped
              simp only [pinAndReturnPage_mapped mapped]
              exact .loaded frame pool' resident exhausted step mapped

/-! ### Destroying a handle -/

def unpin (pool : PageBufferManager n) (frame : Fin n) : PageBufferManager n :=
  { pool.setFrame frame { pool.frames frame with pinCount := (pool.frames frame).pinCount - 1 } with
    replacer := if (pool.frames frame).pinCount = 1 then pool.replacer.setEvictable frame true
      else pool.replacer }

/-- `RemoveAccessor` asserts, or unpins the frame the page is mapped to. -/
theorem removeAccessor_cases (pool : PageBufferManager n) (fpId : FilePageId) :
    (pool.pageMap.lookup fpId = none ∧
        pool.removeAccessor fpId = (.error (.assertion .removeAccessorNotInPool), pool)) ∨
      (∃ frame, pool.pageMap.lookup fpId = some frame ∧ (pool.frames frame).pinCount = 0 ∧
        pool.removeAccessor fpId = (.error (.assertion .removeAccessorPinCountZero), pool)) ∨
      ∃ frame, pool.pageMap.lookup fpId = some frame ∧ (pool.frames frame).pinCount ≠ 0 ∧
        pool.removeAccessor fpId = (.ok (), pool.unpin frame) := by
  unfold removeAccessor getFrameForPage
  cases mapped : pool.pageMap.lookup fpId with
  | none => exact Or.inl ⟨rfl, rfl⟩
  | some frame =>
      by_cases unpinned : (pool.frames frame).pinCount = 0
      · refine Or.inr (Or.inl ⟨frame, rfl, unpinned, ?_⟩)
        simp only [if_pos unpinned]
      · refine Or.inr (Or.inr ⟨frame, rfl, unpinned, ?_⟩)
        simp only [if_neg unpinned, unpin]
        by_cases last : (pool.frames frame).pinCount = 1
        · simp only [if_pos last]
          rfl
        · simp only [if_neg last]
          rfl

/-! ### Deleting a file -/

/-- What evicting the pages `keys` does: they are unmapped, the frames they were mapped to are clean
and flagged evictable, and the counter has gone up once for each. -/
structure Dropped (pool : PageBufferManager n) (keys : List FilePageId)
    (pool' : PageBufferManager n) : Prop where
  disk : pool'.disk = pool.disk
  lookup : ∀ fpId, pool'.pageMap.lookup fpId
    = if fpId ∈ keys then none else pool.pageMap.lookup fpId
  fpId : ∀ frame, (pool'.frames frame).fpId = (pool.frames frame).fpId
  pinCount : ∀ frame, (pool'.frames frame).pinCount = (pool.frames frame).pinCount
  data : ∀ frame, (pool'.frames frame).data = (pool.frames frame).data
  isDirty : ∀ frame, (∀ fpId ∈ keys, pool.pageMap.lookup fpId ≠ some frame) →
    (pool'.frames frame).isDirty = (pool.frames frame).isDirty
  registered : pool'.replacer.frames = pool.replacer.frames
  flagKept : ∀ frame, (∀ fpId ∈ keys, pool.pageMap.lookup fpId ≠ some frame) →
    (pool'.replacer.entry frame).isEvictable = (pool.replacer.entry frame).isEvictable
  flagSet : ∀ frame, (∃ fpId ∈ keys, pool.pageMap.lookup fpId = some frame) →
    (pool'.replacer.entry frame).isEvictable = true
  count : pool.replacer.evictableCount < sizeLimit → pool'.replacer.evictableCount
    = (pool.replacer.evictableCount + keys.length) % sizeLimit

theorem dropPage_mapped {fpId : FilePageId} {frame : Fin n}
    (mapped : pool.pageMap.lookup fpId = some frame) :
    pool.dropPage fpId =
      { pool.setFrame frame { pool.frames frame with isDirty := false } with
        pageMap := pool.pageMap.erase fpId
        replacer := pool.replacer.setEvictable frame true } := by
  unfold dropPage getFrameForPage
  rw [mapped]

/-- One round of the eviction loop. -/
theorem dropped_one {fpId : FilePageId} {frame : Fin n}
    (registered : frame ∈ pool.replacer.frames)
    (mapped : pool.pageMap.lookup fpId = some frame) :
    Dropped pool [fpId] (pool.dropPage fpId) := by
  rw [dropPage_mapped mapped]
  have flags := pool.replacer.setEvictable_isEvictable registered true
  have other : ∀ found, (∀ key ∈ [fpId], pool.pageMap.lookup key ≠ some found) → found ≠ frame := by
    rintro found unmapped rfl
    exact unmapped fpId List.mem_cons_self mapped
  refine ⟨rfl, ?_, ?_, ?_, ?_, ?_, ?_, ?_, ?_, ?_⟩
  · intro key
    simp only [List.mem_singleton]
    by_cases same : key = fpId
    · rw [if_pos same, same]
      exact AList.lookup_erase _ _
    · rw [if_neg same]
      exact AList.lookup_erase_ne same
  · intro found
    by_cases same : found = frame
    · simp only [setFrame, same, Function.update_self]
    · simp only [setFrame, Function.update_of_ne same]
  · intro found
    by_cases same : found = frame
    · simp only [setFrame, same, Function.update_self]
    · simp only [setFrame, Function.update_of_ne same]
  · intro found
    by_cases same : found = frame
    · simp only [setFrame, same, Function.update_self]
    · simp only [setFrame, Function.update_of_ne same]
  · intro found unmapped
    simp only [setFrame, Function.update_of_ne (other found unmapped)]
  · exact LRUKReplacer.setEvictable_frames _ _
  · intro found unmapped
    exact (flags found).trans (if_neg (other found unmapped))
  · rintro found ⟨key, member, keyMapped⟩
    rw [List.mem_singleton.mp member, mapped] at keyMapped
    exact (flags found).trans (if_pos (Option.some.inj keyMapped).symm)
  · exact fun _ => LRUKReplacer.setEvictable_true_count registered

/-- **The eviction loop of `DeleteFile`**, over distinct mapped pages. -/
theorem dropped (registered : ∀ frame, frame ∈ pool.replacer.frames) (keys : List FilePageId)
    (distinct : keys.Nodup) (mapped : ∀ fpId ∈ keys, fpId ∈ pool.pageMap) :
    Dropped pool keys (keys.foldl dropPage pool) := by
  induction keys generalizing pool with
  | nil =>
      exact ⟨rfl, fun _ => rfl, fun _ => rfl, fun _ => rfl, fun _ => rfl, fun _ _ => rfl, rfl,
        fun _ _ => rfl, nofun, fun small => (Nat.mod_eq_of_lt small).symm⟩
  | cons key keys ih =>
      obtain ⟨fresh, distinct⟩ := List.nodup_cons.mp distinct
      obtain ⟨frame, keyMapped⟩ := Option.isSome_iff_exists.mp
        (AList.lookup_isSome.mpr (mapped key List.mem_cons_self))
      have one := dropped_one (registered frame) keyMapped
      have kept : ∀ fpId ∈ keys,
          (pool.dropPage key).pageMap.lookup fpId = pool.pageMap.lookup fpId := by
        intro fpId member
        rw [one.lookup, if_neg]
        rintro same
        exact fresh (List.mem_singleton.mp same ▸ member)
      have rest : Dropped (pool.dropPage key) keys (keys.foldl dropPage (pool.dropPage key)) :=
        ih (fun frame => one.registered ▸ registered frame) distinct (fun fpId member => by
          rw [← AList.lookup_isSome, kept fpId member, AList.lookup_isSome]
          exact mapped fpId (List.mem_cons_of_mem _ member))
      have head : ∀ found, (∀ fpId ∈ key :: keys, pool.pageMap.lookup fpId ≠ some found) →
          ∀ fpId ∈ [key], pool.pageMap.lookup fpId ≠ some found := by
        intro found unmapped fpId member
        rw [List.mem_singleton.mp member]
        exact unmapped key List.mem_cons_self
      refine ⟨rest.disk.trans one.disk, ?_, ?_, ?_, ?_, ?_, rest.registered.trans one.registered,
        ?_, ?_, ?_⟩
      · intro fpId
        rw [List.foldl_cons, rest.lookup, one.lookup]
        simp only [List.mem_cons, List.not_mem_nil, or_false]
        by_cases inRest : fpId ∈ keys
        · rw [if_pos inRest, if_pos (Or.inr inRest)]
        · by_cases isKey : fpId = key
          · rw [if_neg inRest, if_pos isKey, if_pos (Or.inl isKey)]
          · rw [if_neg inRest, if_neg isKey, if_neg (not_or.mpr ⟨isKey, inRest⟩)]
      · exact fun found => (rest.fpId found).trans (one.fpId found)
      · exact fun found => (rest.pinCount found).trans (one.pinCount found)
      · exact fun found => (rest.data found).trans (one.data found)
      · intro found unmapped
        refine (rest.isDirty found fun fpId member => ?_).trans
          (one.isDirty found (head found unmapped))
        rw [kept fpId member]
        exact unmapped fpId (List.mem_cons_of_mem _ member)
      · intro found unmapped
        refine (rest.flagKept found fun fpId member => ?_).trans
          (one.flagKept found (head found unmapped))
        rw [kept fpId member]
        exact unmapped fpId (List.mem_cons_of_mem _ member)
      · rintro found ⟨fpId, member, foundMapped⟩
        by_cases later : ∃ fpId ∈ keys, (pool.dropPage key).pageMap.lookup fpId = some found
        · exact rest.flagSet found later
        · have notLater : ∀ fpId ∈ keys, (pool.dropPage key).pageMap.lookup fpId ≠ some found :=
            fun fpId member same => later ⟨fpId, member, same⟩
          refine (rest.flagKept found notLater).trans (one.flagSet found ?_)
          rcases List.mem_cons.mp member with isKey | inRest
          · exact ⟨fpId, List.mem_singleton.mpr isKey, foundMapped⟩
          · exact absurd ((kept fpId inRest).trans foundMapped) (notLater fpId inRest)
      · intro small
        have positive : 0 < sizeLimit := (Nat.zero_le _).trans_lt small
        rw [List.foldl_cons, rest.count (one.count small ▸ Nat.mod_lt _ positive), one.count small,
          Nat.mod_add_mod, List.length_singleton, List.length_cons, Nat.add_assoc, Nat.add_comm 1]

theorem fileHasPinnedPages_iff {fileId : FileId} :
    pool.fileHasPinnedPages fileId = true ↔
      ∃ fpId frame, pool.pageMap.lookup fpId = some frame ∧ fpId.fileId = fileId ∧
        0 < (pool.frames frame).pinCount := by
  unfold fileHasPinnedPages
  simp only [List.any_eq_true, Bool.and_eq_true, beq_iff_eq, decide_eq_true_eq]
  constructor
  · rintro ⟨⟨fpId, frame⟩, member, sameFile, pinned⟩
    exact ⟨fpId, frame, AList.mem_lookup_iff.mpr member, sameFile, pinned⟩
  · rintro ⟨fpId, frame, mapped, sameFile, pinned⟩
    exact ⟨⟨fpId, frame⟩, AList.mem_lookup_iff.mp mapped, sameFile, pinned⟩

theorem mem_toEvict {fileId : FileId} {fpId : FilePageId} :
    fpId ∈ pool.toEvict fileId ↔ fpId ∈ pool.pageMap ∧ fpId.fileId = fileId := by
  unfold toEvict
  rw [List.mem_filter, AList.mem_keys, beq_iff_eq]

theorem toEvict_nodup (fileId : FileId) : (pool.toEvict fileId).Nodup :=
  (AList.keys_nodup _).filter _

end PageBufferManager

end Yadb
