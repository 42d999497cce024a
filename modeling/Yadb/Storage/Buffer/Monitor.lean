/-
**The condition variable of the buffer manager.**

`PageBufferManager` as a monitor: the callers of `GetPage` and `DeleteFile` whose predicate is false
are parked on `available_frame_m`, a notified caller is woken and checks its predicate again when it
resumes, and each critical section is one step. `RemoveAccessor` notifies one caller of either kind,
`LoadPage` and `DeleteFile` notify all of them, and a parked `DeleteFile` can time out.

The evictable counter is taken to be exact: `recount` sets it to the number of frames whose flag is
set after every step. A step that leaves the counter exact is not changed by it (`step_of_exact`).

* `Served`: the invariant. No page that a parked caller waits for is resident, and while no woken
  caller is left, no frame is evictable beside one that waits for a page.
* `noLostWakeup_iff`: no wake-up is lost exactly in the runs in which the last woken caller never
  gives it away.
* `lostWakeup_breaks`: a `DeleteFile` caller whose file is still pinned does.
-/

import Yadb.Storage.Buffer.EvictableCount

namespace Yadb

open Foundation

/-- A call that waits on `available_frame_m`. -/
inductive Caller
  | getPage (fpId : FilePageId)
  | deleteFile (fileId : FileId)
  deriving DecidableEq

structure Monitor (n : Nat) where
  system : System n
  parked : List Caller
  woken : List Caller

inductive MonitorOp
  /-- A client makes a call. `chosen` picks the parked caller that `notify_one` wakes. -/
  | call (op : PoolOp) (chosen : Nat)
  /-- A woken caller gets the mutex and checks its predicate. -/
  | resume (turn : Nat) (io : Transfers) (removed : Bool)
  /-- The five seconds of a parked `DeleteFile` are over. -/
  | timeout (turn : Nat) (removed : Bool)

namespace PageBufferManager

variable {n : Nat}

/-- The pool with an exact evictable counter. -/
def recount (pool : PageBufferManager n) : PageBufferManager n :=
  { pool with
    replacer := { pool.replacer with evictableCount := pool.replacer.evictableFrames.length } }

/-- The predicate that `GetPage` waits for. -/
def FrameAvailable (pool : PageBufferManager n) (fpId : FilePageId) : Prop :=
  fpId ∈ pool.pageMap ∨ 0 < pool.replacer.getEvictableCount

instance (pool : PageBufferManager n) (fpId : FilePageId) : Decidable (pool.FrameAvailable fpId) :=
  inferInstanceAs (Decidable (_ ∨ _))

/-- `LoadPage` is called and reads the page, after which it notifies all. -/
def loads (pool : PageBufferManager n) (fpId : FilePageId) (io : Transfers) : Bool :=
  decide (fpId ∉ pool.pageMap) && (pool.loadPage fpId io).1.isOk

end PageBufferManager

namespace Monitor

variable {n : Nat}

def park (monitor : Monitor n) (caller : Caller) : Monitor n :=
  { monitor with parked := monitor.parked ++ [caller] }

def notifyAll (monitor : Monitor n) : Monitor n :=
  { monitor with parked := [], woken := monitor.woken ++ monitor.parked }

def notifyOne (monitor : Monitor n) (chosen : Nat) : Monitor n :=
  let turn := chosen % monitor.parked.length
  match monitor.parked[turn]? with
  | none => monitor
  | some caller =>
      { monitor with parked := monitor.parked.eraseIdx turn, woken := monitor.woken ++ [caller] }

/-- `GetPage` and `DeleteFile` from their predicate on. -/
def attempt (monitor : Monitor n) (io : Transfers) (removed : Bool) :
    Caller → PoolAnswer × Monitor n
  | .getPage fpId =>
      if monitor.system.pool.FrameAvailable fpId then
        let (answer, system) := monitor.system.getPage fpId io
        if monitor.system.pool.loads fpId io then (answer, { monitor with system }.notifyAll)
        else (answer, { monitor with system })
      else (.waits, monitor.park (.getPage fpId))
  | .deleteFile fileId =>
      if monitor.system.pool.fileHasPinnedPages fileId then
        (.waits, monitor.park (.deleteFile fileId))
      else
        let (answer, system) := monitor.system.deleteFile fileId removed
        (answer, { monitor with system }.notifyAll)

/-- `RemoveAccessor` takes the last pin of a frame. -/
def lastPin (system : System n) (id : Nat) : Bool :=
  match system.findHandle id with
  | none => false
  | some handle =>
      match system.pool.getFrameForPage (system.pool.frames handle.frame).fpId with
      | none => false
      | some frame => (system.pool.frames frame).pinCount == 1

def call (monitor : Monitor n) (chosen : Nat) : PoolOp → PoolAnswer × Monitor n
  | .getPage fpId io => monitor.attempt io true (.getPage fpId)
  | .deleteFile fileId removed => monitor.attempt {} removed (.deleteFile fileId)
  | .getPageIfFrameAvailable fpId io =>
      let (answer, system) := monitor.system.getPageIfFrameAvailable fpId io
      if monitor.system.pool.FrameAvailable fpId ∧ monitor.system.pool.loads fpId io then
        (answer, { monitor with system }.notifyAll)
      else (answer, { monitor with system })
  | .release id =>
      let (answer, system) := monitor.system.release id
      if lastPin monitor.system id then (answer, { monitor with system }.notifyOne chosen)
      else (answer, { monitor with system })
  | op =>
      let (answer, system) := monitor.system.step op
      (answer, { monitor with system })

def recount (monitor : Monitor n) : Monitor n :=
  { monitor with system := { monitor.system with pool := monitor.system.pool.recount } }

/-- One critical section. A turn that no caller has changes nothing. -/
def criticalSection (monitor : Monitor n) : MonitorOp → PoolAnswer × Monitor n
  | .call op chosen => monitor.call chosen op
  | .resume turn io removed =>
      match monitor.woken[turn]? with
      | none => (.waits, monitor)
      | some caller =>
          { monitor with woken := monitor.woken.eraseIdx turn }.attempt io removed caller
  | .timeout turn removed =>
      match monitor.parked[turn]? with
      | some (.deleteFile fileId) =>
          let monitor := { monitor with parked := monitor.parked.eraseIdx turn }
          if monitor.system.pool.fileHasPinnedPages fileId then
            (.failed (.error (.deleteFileTimeoutError fileId)), monitor)
          else monitor.attempt {} removed (.deleteFile fileId)
      | _ => (.waits, monitor)

def step (monitor : Monitor n) (op : MonitorOp) : PoolAnswer × Monitor n :=
  let (answer, monitor) := monitor.criticalSection op
  (answer, monitor.recount)

def new (order : IterationOrder n) (buffer : Fin n → FullPage) (disk : PageStore) : Monitor n :=
  recount ⟨.new order buffer disk, [], []⟩

end Monitor

def monitorMachine (n : Nat) : Machine (Monitor n) MonitorOp PoolAnswer := ⟨Monitor.step⟩

/-! ### What a step does to the pool -/

namespace PageBufferManager

variable {n : Nat} {pool pool' : PageBufferManager n}

theorem recount_of_exact
    (exactly : pool.replacer.getEvictableCount = pool.replacer.evictableFrames.length) :
    pool.recount = pool := by
  rw [recount, ← exactly]
  rfl

theorem WellFormed.recount (wf : pool.WellFormed) : pool.recount.WellFormed :=
  wf.congr rfl (fun _ => rfl) (fun _ _ mapped => mapped) (fun _ => rfl) (fun _ => rfl)
    fun _ _ _ allocated => allocated

theorem recount_counted (wf : pool.WellFormed) : pool.recount.CountsUnpinned :=
  wf.evictableFrames_length

/-- No page became resident, and no frame lost its last pin. -/
structure Quieter (pool pool' : PageBufferManager n) : Prop where
  resident : ∀ fpId, fpId ∈ pool'.pageMap → fpId ∈ pool.pageMap
  unpinned : pool'.unpinnedFrames ⊆ pool.unpinnedFrames

theorem quieter_of_same (pageMap : pool'.pageMap = pool.pageMap)
    (pinCount : ∀ frame, (pool'.frames frame).pinCount = (pool.frames frame).pinCount) :
    Quieter pool pool' := by
  refine ⟨fun fpId member => pageMap ▸ member, ?_⟩
  exact (unpinnedFrames_congr fun frame => by rw [pinCount frame]).subset

theorem quieter_setFrame (frame : Fin n) {value : Frame}
    (pinCount : value.pinCount = (pool.frames frame).pinCount) :
    Quieter pool (pool.setFrame frame value) := by
  refine quieter_of_same rfl fun other => ?_
  by_cases same : other = frame
  · simp only [setFrame, same, Function.update_self, pinCount]
  · simp only [setFrame, Function.update_of_ne same]

theorem quieter_pin (frame : Fin n) : Quieter pool (pool.pin frame) := by
  refine ⟨fun _ member => member, ?_⟩
  rw [unpinnedFrames_pin]
  exact Finset.erase_subset _ _

/-- A load that fails maps nothing, and pins nothing. -/
theorem failed_of_loadStep {fpId : FilePageId} {io : Transfers} {failure : Failure PoolError}
    (step : LoadStep pool fpId io (.error failure) pool') :
    Quieter pool pool' ∧ pool'.unpinnedFrames = pool.unpinnedFrames := by
  cases step with
  | noVictim _ => exact ⟨quieter_of_same rfl fun _ => rfl, rfl⟩
  | notFlushed _ _ _ _ _ _ _ => exact ⟨quieter_of_same rfl fun _ => rfl, rfl⟩
  | notRead frame disk _ bytes _ _ _ _ =>
      have pins : ∀ other, (((pool.vacate frame disk).overwrite frame bytes).frames other).pinCount
          = (pool.frames other).pinCount := by
        intro other
        by_cases same : other = frame
        · simp only [overwrite, setFrame, vacate, same, Function.update_self]
        · simp only [overwrite, setFrame, vacate, Function.update_of_ne same]
      have unpinned : ((pool.vacate frame disk).overwrite frame bytes).unpinnedFrames
          = pool.unpinnedFrames := unpinnedFrames_congr fun other => by rw [pins other]
      exact ⟨⟨fun fpId member => (AList.mem_erase.mp member).2, unpinned.subset⟩, unpinned⟩

/-- The frames that are evictable beside the one that holds the page. -/
def othersUnpinned (pool : PageBufferManager n) (fpId : FilePageId) : Finset (Fin n) :=
  pool.unpinnedFrames.filter fun frame => pool.pageMap.lookup fpId ≠ some frame

theorem othersUnpinned_absent {fpId : FilePageId} (absent : fpId ∉ pool.pageMap) :
    pool.othersUnpinned fpId = pool.unpinnedFrames := by
  refine Finset.filter_true_of_mem fun frame _ => ?_
  rw [AList.lookup_eq_none.mpr absent]
  exact Option.some_ne_none frame |>.symm

/-- A caller whose predicate holds loads its page, or pins it where it is, or fails. -/
theorem acquire_available {fpId : FilePageId} (available : pool.FrameAvailable fpId)
    (io : Transfers) :
    pool.loads fpId io = true ∨
      pool.loads fpId io = false ∧ Quieter pool (pool.acquire fpId io).2 ∧
        (pool.acquire fpId io).2.unpinnedFrames = pool.othersUnpinned fpId := by
  by_cases resident : fpId ∈ pool.pageMap
  · obtain ⟨frame, mapped⟩ := Option.isSome_iff_exists.mp (AList.lookup_isSome.mpr resident)
    have acquired : (pool.acquire fpId io).2 = pool.pin frame := by
      rw [acquire, if_neg (fun both => both.1 resident)]
      simp only [if_pos resident, pinAndReturnPage_mapped mapped]
    refine Or.inr ⟨?_, ?_, ?_⟩
    · rw [loads, decide_eq_false (not_not.mpr resident), Bool.false_and]
    · rw [acquired]
      exact quieter_pin frame
    · rw [acquired, unpinnedFrames_pin, othersUnpinned, mapped, ← Finset.filter_ne']
      exact Finset.filter_congr fun other _ => by rw [ne_eq, ne_eq, Option.some_inj, eq_comm]
  · have exhausted : ¬ (fpId ∉ pool.pageMap ∧ pool.replacer.getEvictableCount = 0) := fun both =>
      available.elim resident fun positive => Nat.ne_of_gt positive both.2
    have step := loadPage_step fpId io resident
    rw [loads, decide_eq_true resident, Bool.true_and, othersUnpinned_absent resident]
    cases result : pool.loadPage fpId io with
    | mk outcome pool' =>
        rw [result] at step
        cases outcome with
        | ok _ => exact Or.inl rfl
        | error failure =>
            have acquired : (pool.acquire fpId io).2 = pool' := by
              rw [acquire, if_neg exhausted]
              simp only [if_neg resident, result]
            rw [acquired]
            exact Or.inr ⟨rfl, failed_of_loadStep step⟩

theorem quieter_unpin {frame : Fin n} (pinned : (pool.frames frame).pinCount ≠ 0)
    (notLast : (pool.frames frame).pinCount ≠ 1) : Quieter pool (pool.unpin frame) := by
  refine ⟨fun _ member => member, fun other member => ?_⟩
  rw [mem_unpinnedFrames] at member ⊢
  by_cases same : other = frame
  · simp only [unpin, setFrame, same, Function.update_self] at member
    omega
  · simpa only [unpin, setFrame, Function.update_of_ne same] using member

end PageBufferManager

namespace Monitor

open PageBufferManager

variable {n : Nat}

theorem quieter_receive {pool : PageBufferManager n} (system : System n) (unavailable : PoolAnswer)
    {acquired : Option (Except (Failure PoolError) (Fin n)) × PageBufferManager n}
    (quieter : Quieter pool acquired.2) : Quieter pool (system.receive unavailable acquired).2.pool := by
  rw [System.receive_pool]
  exact quieter

/-- A release takes the last pin of a frame, or leaves the pool quieter. -/
theorem release_cases (system : System n) (id : Nat) :
    (lastPin system id = false ∧ Quieter system.pool (system.release id).2.pool) ∨
      (lastPin system id = true ∧
        (system.release id).2.pool.pageMap = system.pool.pageMap) := by
  have still : Quieter system.pool system.pool := quieter_of_same rfl fun _ => rfl
  unfold lastPin System.release
  cases found : system.findHandle id with
  | none => exact Or.inl ⟨rfl, still⟩
  | some handle =>
      rcases system.pool.removeAccessor_cases (system.pool.frames handle.frame).fpId with
        ⟨absent, same⟩ | ⟨frame, mapped, unpinned, same⟩ | ⟨frame, mapped, pinned, same⟩
      · simp only [getFrameForPage, absent, same]
        exact Or.inl ⟨trivial, still⟩
      · simp only [getFrameForPage, mapped, same, unpinned]
        exact Or.inl ⟨by decide, still⟩
      · simp only [getFrameForPage, mapped, same]
        by_cases last : (system.pool.frames frame).pinCount = 1
        · exact Or.inr ⟨by rw [last]; rfl, rfl⟩
        · exact Or.inl ⟨by simpa using last, quieter_unpin pinned last⟩

/-- Calls that neither load, release nor delete leave the pool quieter. -/
theorem quieter_view (system : System n) (id : Nat) :
    Quieter system.pool (system.getMutView id).2.pool := by
  unfold System.getMutView
  split
  · exact quieter_of_same rfl fun _ => rfl
  · exact quieter_setFrame _ rfl

theorem quieter_writeByte (system : System n) (id : Nat) (index : Fin pageSize) (byte : UInt8) :
    Quieter system.pool (system.writeByte id index byte).2.pool := by
  unfold System.writeByte
  split
  · exact quieter_of_same rfl fun _ => rfl
  · split
    · exact quieter_setFrame _ rfl
    · exact quieter_of_same rfl fun _ => rfl

theorem quieter_getView (system : System n) (id : Nat) :
    Quieter system.pool (system.getView id).2.pool := by
  unfold System.getView
  split <;> exact quieter_of_same rfl fun _ => rfl

theorem quieter_createFile (system : System n) (fileId : FileId) :
    Quieter system.pool (system.createFile fileId).2.pool := by
  unfold System.createFile
  split <;> exact quieter_of_same rfl fun _ => rfl

theorem quieter_allocatePage (system : System n) (fileId : FileId) (pageId : PageId)
    (bytes : FullPage) : Quieter system.pool (system.allocatePage fileId pageId bytes).2.pool := by
  unfold System.allocatePage
  split <;> exact quieter_of_same rfl fun _ => rfl

/-! ### The invariant -/

/-- No page that a parked caller waits for is resident, and while no woken caller is left, no frame
is evictable beside one that waits for a page. -/
structure Served (pool : PageBufferManager n) (parked woken : List Caller) : Prop where
  absent : ∀ fpId, Caller.getPage fpId ∈ parked → fpId ∉ pool.pageMap
  idle : woken = [] → ∀ fpId, Caller.getPage fpId ∈ parked → pool.unpinnedFrames = ∅

variable {pool pool' : PageBufferManager n} {parked woken : List Caller}

theorem served_nil : Served pool [] woken :=
  ⟨fun _ member => absurd member List.not_mem_nil, fun _ _ member => absurd member List.not_mem_nil⟩

theorem Served.quieter (served : Served pool parked woken) (quieter : Quieter pool pool') :
    Served pool' parked woken := by
  refine ⟨fun fpId member resident => served.absent fpId member (quieter.resident fpId resident),
    fun none_ fpId member => ?_⟩
  exact Finset.subset_empty.mp (quieter.unpinned.trans (served.idle none_ fpId member).subset)

/-- A `GetPage` caller parks when its page is not resident and no frame is evictable. -/
theorem Served.parkGetPage (served : Served pool parked woken) {fpId : FilePageId}
    (absent : fpId ∉ pool.pageMap) (none_ : pool.unpinnedFrames = ∅) :
    Served pool (parked ++ [.getPage fpId]) woken := by
  refine ⟨fun other member => ?_, fun _ _ _ => none_⟩
  rcases List.mem_append.mp member with before | new
  · exact served.absent other before
  · cases List.mem_singleton.mp new
    exact absent

theorem Served.parkDeleteFile (served : Served pool parked woken) (fileId : FileId) :
    Served pool (parked ++ [.deleteFile fileId]) woken := by
  have before : ∀ fpId, Caller.getPage fpId ∈ parked ++ [.deleteFile fileId] →
      Caller.getPage fpId ∈ parked := by
    intro fpId member
    rcases List.mem_append.mp member with before | new
    · exact before
    · cases List.mem_singleton.mp new
  exact ⟨fun fpId member => served.absent fpId (before fpId member),
    fun none_ fpId member => served.idle none_ fpId (before fpId member)⟩

theorem Served.unpark (served : Served pool parked woken) (turn : Nat) :
    Served pool (parked.eraseIdx turn) woken :=
  ⟨fun fpId member => served.absent fpId (List.mem_of_mem_eraseIdx member),
    fun none_ fpId member => served.idle none_ fpId (List.mem_of_mem_eraseIdx member)⟩

/-- A parked caller was woken. -/
theorem Served.wake (served : Served pool parked woken) (pageMap : pool'.pageMap = pool.pageMap)
    (turn : Nat) (caller : Caller) : Served pool' (parked.eraseIdx turn) (woken ++ [caller]) := by
  refine ⟨fun fpId member => ?_, fun none_ => absurd none_ (List.append_ne_nil_of_right_ne_nil _
    (List.cons_ne_nil _ _))⟩
  rw [pageMap]
  exact served.absent fpId (List.mem_of_mem_eraseIdx member)

/-! ### The run -/

/-- A step is its critical section when that leaves the counter exact. -/
theorem step_of_exact (monitor : Monitor n) (op : MonitorOp)
    (exactly : (monitor.criticalSection op).2.system.pool.replacer.getEvictableCount =
      (monitor.criticalSection op).2.system.pool.replacer.evictableFrames.length) :
    monitor.step op = monitor.criticalSection op := by
  simp only [step, Monitor.recount, recount_of_exact exactly]

/-- No parked caller waits for a page. -/
def NoPageWaits (parked : List Caller) : Prop :=
  ∀ caller ∈ parked, ∃ fileId, caller = .deleteFile fileId

instance : DecidablePred NoPageWaits := fun parked =>
  decidable_of_iff (∀ caller ∈ parked, (match caller with
      | .getPage _ => false
      | .deleteFile _ => true) = true) (by
    refine forall₂_congr fun caller _ => ?_
    cases caller with
    | getPage fpId => exact iff_of_false Bool.false_ne_true fun ⟨_, same⟩ => by cases same
    | deleteFile fileId => exact iff_of_true rfl ⟨fileId, rfl⟩)

theorem NoPageWaits.served (none_ : NoPageWaits parked) : Served pool parked woken := by
  have absurd_ : ∀ fpId, Caller.getPage fpId ∉ parked := fun fpId member => by
    obtain ⟨_, same⟩ := none_ _ member
    cases same
  exact ⟨fun fpId member => absurd member (absurd_ fpId),
    fun _ fpId member => absurd member (absurd_ fpId)⟩

/-- The caller leaves no frame evictable, or notifies all: a `GetPage` caller loads its page, or the
only frame that is evictable is the one it pins, and a `DeleteFile` caller finds no pinned page of
its file, or no frame is evictable. -/
def UsesWakeup (pool : PageBufferManager n) (io : Transfers) : Option Caller → Prop
  | none => True
  | some (.getPage fpId) => pool.loads fpId io = true ∨
      ∀ frame, (pool.replacer.entry frame).isEvictable = true →
        pool.pageMap.lookup fpId = some frame
  | some (.deleteFile fileId) => pool.fileHasPinnedPages fileId = false ∨
      ∀ frame, (pool.replacer.entry frame).isEvictable = false

instance (pool : PageBufferManager n) (io : Transfers) : DecidablePred (UsesWakeup pool io)
  | none => .isTrue trivial
  | some (.getPage _) => inferInstanceAs (Decidable (_ = true ∨ ∀ _, _ = true → _ = some _))
  | some (.deleteFile _) => inferInstanceAs (Decidable (_ = false ∨ ∀ _, _ = false))

/-- The last woken caller, when it resumes while a page is waited for, makes use of its wake-up. -/
def PassesOn (monitor : Monitor n) : MonitorOp → Prop
  | .resume turn io _ => monitor.woken.length ≠ 1 ∨ NoPageWaits monitor.parked ∨
      UsesWakeup monitor.system.pool io monitor.woken[turn]?
  | .call _ _ => True
  | .timeout _ _ => True

instance (monitor : Monitor n) : DecidablePred (PassesOn monitor)
  | .resume _ _ _ => inferInstanceAs (Decidable (_ ≠ 1 ∨ _ ∨ UsesWakeup _ _ _))
  | .call _ _ => .isTrue trivial
  | .timeout _ _ => .isTrue trivial

/-- While no woken caller is pending, no parked caller waits for a page that is resident, or beside
an evictable frame. -/
def NoLostWakeup (monitor : Monitor n) : Prop :=
  monitor.woken = [] → ∀ fpId, .getPage fpId ∈ monitor.parked →
    fpId ∉ monitor.system.pool.pageMap ∧
      ∀ frame, (monitor.system.pool.replacer.entry frame).isEvictable = false

structure Sound (monitor : Monitor n) : Prop where
  wf : monitor.system.pool.WellFormed
  counted : monitor.system.pool.CountsUnpinned
  served : Served monitor.system.pool monitor.parked monitor.woken

/-- What a critical section keeps; the counter is set right after it. -/
structure Kept (monitor : Monitor n) : Prop where
  wf : monitor.system.pool.WellFormed
  served : Served monitor.system.pool monitor.parked monitor.woken

variable {monitor : Monitor n}

theorem Kept.recount (kept : Kept monitor) : Sound monitor.recount :=
  ⟨kept.wf.recount, recount_counted kept.wf, ⟨kept.served.absent, kept.served.idle⟩⟩

/-- The evictable frames are the unpinned ones. -/
theorem unpinned_empty_iff (wf : pool.WellFormed) :
    pool.unpinnedFrames = ∅ ↔ ∀ frame, (pool.replacer.entry frame).isEvictable = false := by
  rw [Finset.eq_empty_iff_forall_notMem]
  refine forall_congr' fun frame => ?_
  rw [mem_unpinnedFrames, ← wf.flags frame, Bool.not_eq_true]

theorem othersUnpinned_empty_iff (wf : pool.WellFormed) (fpId : FilePageId) :
    pool.othersUnpinned fpId = ∅ ↔
      ∀ frame, (pool.replacer.entry frame).isEvictable = true →
        pool.pageMap.lookup fpId = some frame := by
  rw [othersUnpinned, Finset.filter_eq_empty_iff]
  refine forall_congr' fun frame => ?_
  rw [mem_unpinnedFrames, ← wf.flags frame, not_not]

theorem Sound.lossless (sound : Sound monitor) : NoLostWakeup monitor := by
  intro idle fpId member
  exact ⟨sound.served.absent fpId member,
    (unpinned_empty_iff sound.wf).mp (sound.served.idle idle fpId member)⟩

/-- Where no frame is available, no frame is unpinned. -/
theorem unpinned_of_unavailable (counted : pool.CountsUnpinned) {fpId : FilePageId}
    (unavailable : ¬ pool.FrameAvailable fpId) :
    fpId ∉ pool.pageMap ∧ pool.unpinnedFrames = ∅ := by
  refine ⟨fun resident => unavailable (Or.inl resident), ?_⟩
  have exhausted : ¬ 0 < pool.replacer.getEvictableCount := fun some_ => unavailable (Or.inr some_)
  rw [counted] at exhausted
  exact Finset.card_eq_zero.mp (by omega)

/-- **`GetPage` from its predicate on.** A caller that loads its page wakes everyone. -/
theorem attempt_getPage (monitor : Monitor n) (wf : monitor.system.pool.WellFormed)
    (counted : monitor.system.pool.CountsUnpinned) (fpId : FilePageId) (io : Transfers)
    (removed : Bool)
    (absent : ∀ other, .getPage other ∈ monitor.parked → other ∉ monitor.system.pool.pageMap)
    (idle : monitor.woken = [] → ∀ other, .getPage other ∈ monitor.parked →
      monitor.system.pool.loads fpId io = true ∨ monitor.system.pool.othersUnpinned fpId = ∅) :
    Kept (monitor.attempt io removed (.getPage fpId)).2 := by
  have wf' := System.wellFormed_step monitor.system (.getPage fpId io) wf
  unfold attempt
  by_cases available : monitor.system.pool.FrameAvailable fpId
  · simp only [if_pos available]
    rcases acquire_available available io with loaded | ⟨notLoaded, quieter, unpinned⟩
    · rw [if_pos loaded]
      exact ⟨wf', served_nil⟩
    · rw [if_neg (by rw [notLoaded]; decide)]
      refine ⟨wf', fun other member resident => ?_, fun none_ other member => ?_⟩
      · exact absent other member
          ((quieter_receive monitor.system .waits quieter).resident other resident)
      · rw [System.getPage, System.receive_pool, unpinned]
        exact (idle none_ other member).resolve_left (Bool.eq_false_iff.mp notLoaded)
  · simp only [if_neg available]
    obtain ⟨notResident, none_⟩ := unpinned_of_unavailable counted available
    have served : Served monitor.system.pool monitor.parked monitor.woken :=
      ⟨absent, fun _ _ _ => none_⟩
    exact ⟨wf, served.parkGetPage notResident none_⟩

/-- **`DeleteFile` from its predicate on.** A caller that goes through wakes everyone. -/
theorem attempt_deleteFile (monitor : Monitor n) (wf : monitor.system.pool.WellFormed)
    (fileId : FileId) (io : Transfers)
    (removed : Bool)
    (served : monitor.system.pool.fileHasPinnedPages fileId = true →
      Served monitor.system.pool monitor.parked monitor.woken) :
    Kept (monitor.attempt io removed (.deleteFile fileId)).2 := by
  have wf' := System.wellFormed_step monitor.system (.deleteFile fileId removed) wf
  unfold attempt
  by_cases pinned : monitor.system.pool.fileHasPinnedPages fileId = true
  · simp only [if_pos pinned]
    exact ⟨wf, (served pinned).parkDeleteFile fileId⟩
  · simp only [if_neg pinned]
    exact ⟨wf', served_nil⟩

/-- **The release of a handle** wakes a caller for the frame. -/
theorem call_release (sound : Sound monitor) (chosen id : Nat) :
    Kept (monitor.call chosen (.release id)).2 := by
  have wf' := System.wellFormed_step monitor.system (.release id) sound.wf
  unfold call
  rcases release_cases monitor.system id with ⟨notLast, quieter⟩ | ⟨last, pageMap⟩
  · simp only [notLast, Bool.false_eq_true, if_false]
    exact ⟨wf', sound.served.quieter quieter⟩
  · simp only [last, if_true, notifyOne]
    cases found : monitor.parked[chosen % monitor.parked.length]? with
    | some caller => exact ⟨wf', sound.served.wake pageMap _ caller⟩
    | none =>
        have empty : monitor.parked = [] := by
          by_contra some_
          have inside := Nat.mod_lt chosen (List.length_pos_iff.mpr some_)
          rw [List.getElem?_eq_getElem inside] at found
          cases found
        refine ⟨wf', ?_⟩
        show Served _ monitor.parked _
        rw [empty]
        exact served_nil

theorem call_kept (sound : Sound monitor) (chosen : Nat) (op : PoolOp) :
    Kept (monitor.call chosen op).2 := by
  have wf' := System.wellFormed_step monitor.system op sound.wf
  cases op with
  | getPage fpId io =>
      refine attempt_getPage monitor sound.wf sound.counted fpId io true sound.served.absent
        fun none_ other member => Or.inr ?_
      have nothing := sound.served.idle none_ other member
      exact Finset.subset_empty.mp ((Finset.filter_subset _ _).trans nothing.subset)
  | deleteFile fileId removed =>
      exact attempt_deleteFile monitor sound.wf fileId {} removed fun _ => sound.served
  | release id => exact call_release sound chosen id
  | getPageIfFrameAvailable fpId io =>
      unfold call
      by_cases available : monitor.system.pool.FrameAvailable fpId
      · rcases acquire_available available io with loaded | ⟨notLoaded, quieter, _⟩
        · simp only [if_pos (And.intro available loaded)]
          exact ⟨wf', served_nil⟩
        · simp only [notLoaded, Bool.false_eq_true, and_false, if_false]
          exact ⟨wf', sound.served.quieter (quieter_receive _ .noFrame quieter)⟩
      · have same : (monitor.system.pool.acquire fpId io).2 = monitor.system.pool := by
          rw [acquire, if_pos]
          exact ⟨fun resident => available (Or.inl resident),
            Nat.eq_zero_of_not_pos fun some_ => available (Or.inr some_)⟩
        simp only [available, false_and, if_false]
        refine ⟨wf', sound.served.quieter (quieter_receive _ .noFrame ?_)⟩
        rw [same]
        exact quieter_of_same rfl fun _ => rfl
  | getMutView id => exact ⟨wf', sound.served.quieter (quieter_view _ id)⟩
  | writeByte id index byte => exact ⟨wf', sound.served.quieter (quieter_writeByte _ id index byte)⟩
  | getView id => exact ⟨wf', sound.served.quieter (quieter_getView _ id)⟩
  | createFile fileId => exact ⟨wf', sound.served.quieter (quieter_createFile _ fileId)⟩
  | allocatePage fileId pageId bytes =>
      exact ⟨wf', sound.served.quieter (quieter_allocatePage _ fileId pageId bytes)⟩

/-- No woken caller is left when the only one resumes. -/
theorem last_of_erased {turn : Nat} {caller : Caller} (resumes : woken[turn]? = some caller) :
    woken.eraseIdx turn = [] ↔ woken.length = 1 := by
  have inside : turn < woken.length := (List.getElem?_eq_some_iff.mp resumes).1
  rw [← List.length_eq_zero_iff, List.length_eraseIdx_of_lt inside]
  omega

/-- **A woken caller that makes use of its wake-up** keeps the invariant. -/
theorem resume_kept (sound : Sound monitor) {turn : Nat} {io : Transfers} {removed : Bool}
    (passes : PassesOn monitor (.resume turn io removed)) :
    Kept (monitor.criticalSection (.resume turn io removed)).2 := by
  have passes : monitor.woken.length ≠ 1 ∨ NoPageWaits monitor.parked ∨
      UsesWakeup monitor.system.pool io monitor.woken[turn]? := passes
  unfold criticalSection
  cases resumes : monitor.woken[turn]? with
  | none =>
      simp only [resumes]
      exact ⟨sound.wf, sound.served⟩
  | some caller =>
      simp only [resumes]
      rw [resumes] at passes
      have uses : monitor.woken.eraseIdx turn = [] → ∀ other, .getPage other ∈ monitor.parked →
          UsesWakeup monitor.system.pool io (some caller) := by
        intro none_ other member
        rcases passes with several | noPage | uses
        · exact absurd ((last_of_erased resumes).mp none_) several
        · obtain ⟨_, same⟩ := noPage _ member
          cases same
        · exact uses
      let waked : Monitor n := { monitor with woken := monitor.woken.eraseIdx turn }
      cases caller with
      | getPage fpId =>
          refine attempt_getPage waked sound.wf sound.counted fpId io removed sound.served.absent
            fun none_ other member => ?_
          exact (uses none_ other member).imp_right (othersUnpinned_empty_iff sound.wf fpId).mpr
      | deleteFile fileId =>
          refine attempt_deleteFile waked sound.wf fileId io removed fun pinned =>
            ⟨sound.served.absent, fun none_ other member => ?_⟩
          rcases uses none_ other member with unpinned | nothing
          · rw [unpinned] at pinned
            cases pinned
          · exact (unpinned_empty_iff sound.wf).mpr nothing

/-- The last woken caller, if no wake-up is lost when it resumes, made use of it. -/
theorem passesOn_of_lossless (sound : Sound monitor) (turn : Nat) (io : Transfers) (removed : Bool)
    (lossless : NoLostWakeup ((monitorMachine n).next monitor (.resume turn io removed))) :
    PassesOn monitor (.resume turn io removed) := by
  by_cases last : monitor.woken.length = 1
  swap
  · exact Or.inl last
  by_cases noPage : NoPageWaits monitor.parked
  · exact Or.inr (Or.inl noPage)
  refine Or.inr (Or.inr ?_)
  obtain ⟨other, member⟩ : ∃ other, Caller.getPage other ∈ monitor.parked := by
    by_contra none_
    refine noPage fun caller member => ?_
    cases caller with
    | getPage fpId => exact absurd ⟨fpId, member⟩ none_
    | deleteFile fileId => exact ⟨fileId, rfl⟩
  cases resumes : monitor.woken[turn]? with
  | none => trivial
  | some caller =>
      have erased := (last_of_erased resumes).mpr last
      have resumed : (monitor.criticalSection (.resume turn io removed)).2 =
          ({ monitor with woken := [] }.attempt io removed caller).2 := by
        simp only [criticalSection, resumes, erased]
      have next : (monitorMachine n).next monitor (.resume turn io removed) =
          ({ monitor with woken := [] }.attempt io removed caller).2.recount :=
        congrArg recount resumed
      rw [next] at lossless
      cases caller with
      | getPage fpId =>
          have wf' := System.wellFormed_step monitor.system (.getPage fpId io) sound.wf
          refine or_iff_not_imp_left.mpr fun notLoaded => ?_
          rw [← othersUnpinned_empty_iff sound.wf fpId]
          by_cases available : monitor.system.pool.FrameAvailable fpId
          · rcases acquire_available available io with loaded | ⟨_, _, unpinned⟩
            · exact absurd loaded notLoaded
            · simp only [attempt, if_pos available, if_neg notLoaded] at lossless
              have nothing := (unpinned_empty_iff wf').mpr (lossless rfl other member).2
              rw [System.step, System.getPage, System.receive_pool, unpinned] at nothing
              exact nothing
          · obtain ⟨_, none_⟩ := unpinned_of_unavailable sound.counted available
            exact Finset.subset_empty.mp ((Finset.filter_subset _ _).trans none_.subset)
      | deleteFile fileId =>
          refine (Bool.eq_false_or_eq_true _).symm.imp_right fun pinned => ?_
          simp only [attempt, if_pos pinned] at lossless
          exact (lossless rfl other (List.mem_append_left _ member)).2

theorem timeout_kept (sound : Sound monitor) (turn : Nat) (removed : Bool) :
    Kept (monitor.criticalSection (.timeout turn removed)).2 := by
  unfold criticalSection
  cases parked : monitor.parked[turn]? with
  | none =>
      simp only [parked]
      exact ⟨sound.wf, sound.served⟩
  | some caller =>
      cases caller with
      | getPage fpId =>
          simp only [parked]
          exact ⟨sound.wf, sound.served⟩
      | deleteFile fileId =>
          simp only [parked]
          have served := sound.served.unpark turn
          split
          · exact ⟨sound.wf, served⟩
          · let unparked : Monitor n := { monitor with parked := monitor.parked.eraseIdx turn }
            exact attempt_deleteFile unparked sound.wf fileId {} removed fun _ => served

/-- **One step keeps the invariant** when no wake-up is given away. -/
theorem sound_step (sound : Sound monitor) {op : MonitorOp} (passes : PassesOn monitor op) :
    Sound ((monitorMachine n).next monitor op) := by
  have kept : Kept (monitor.criticalSection op).2 := by
    cases op with
    | call op chosen => exact call_kept sound chosen op
    | resume turn io removed => exact resume_kept sound passes
    | timeout turn removed => exact timeout_kept sound turn removed
  exact kept.recount

/-- **No wake-up is lost exactly in the runs** in which the last woken caller, when it resumes while
a page is waited for, makes use of its wake-up. -/
theorem noLostWakeup_iff (order : IterationOrder n) (buffer : Fin n → FullPage) (disk : PageStore)
    (ops : List MonitorOp) :
    (monitorMachine n).Always NoLostWakeup (.new order buffer disk) ops ↔
      (monitorMachine n).Along PassesOn (.new order buffer disk) ops := by
  have start : Sound (new order buffer disk) :=
    Kept.recount ⟨new_wellFormed order buffer disk, served_nil⟩
  refine Machine.always_iff_along (J := Sound) (D := fun _ _ => True)
    (fun _ _ sound _ passes => sound_step sound passes) (fun _ => Sound.lossless)
    (fun monitor op sound _ lossless => ?_) start (Machine.along_of_mem fun _ _ _ => trivial)
  cases op with
  | call op chosen => trivial
  | resume turn io removed => exact passesOn_of_lossless sound turn io removed lossless
  | timeout turn removed => trivial

/-! ### A wake-up that is lost -/

/-- Both frames hold a page of files 5 and 6; one client deletes file 6, another wants a second page
of file 5, and then the page of file 5 is released. -/
def waitBoth : List MonitorOp :=
  [.call (.createFile 5) 0, .call (.allocatePage 5 0 fun _ => 0) 0,
    .call (.allocatePage 5 1 fun _ => 0) 0, .call (.createFile 6) 0,
    .call (.allocatePage 6 0 fun _ => 0) 0, .call (.getPage ⟨5, 0⟩ {}) 0,
    .call (.getPage ⟨6, 0⟩ {}) 0, .call (.deleteFile 6 true) 0, .call (.getPage ⟨5, 1⟩ {}) 0]

/-- `notify_one` wakes the client that deletes file 6, whose page is still pinned. -/
def wakeDeleteFile : List MonitorOp :=
  waitBoth ++ [.call (.release 0) 0, .resume 0 {} true]

/-- It goes back to wait, and the other client waits beside an evictable frame. -/
theorem lostWakeup_breaks : ¬ (monitorMachine 2).Always NoLostWakeup
    (.new System.secondFirst (fun _ _ => 0) System.emptyStore) wakeDeleteFile := by
  intro always
  have lost := always.last (by decide +kernel) ⟨5, 1⟩ (by decide +kernel)
  have evictable : (((monitorMachine 2).exec (.new System.secondFirst (fun _ _ => 0)
      System.emptyStore) wakeDeleteFile).system.pool.replacer.entry 1).isEvictable = true := by
    decide +kernel
  rw [lost.2 1] at evictable
  cases evictable

/-- Waking the other client instead. -/
theorem wakeGetPage_noLostWakeup : (monitorMachine 2).Always NoLostWakeup
    (.new System.secondFirst (fun _ _ => 0) System.emptyStore)
    (waitBoth ++ [.call (.release 0) 1, .resume 0 {} true, .resume 0 {} true]) :=
  (noLostWakeup_iff System.secondFirst (fun _ _ => 0) System.emptyStore _).mpr (by decide +kernel)

end Monitor

end Yadb
