/-
**Clients of distinct tables and their frames.**

Any number of clients, each of which works on tables of its own, over one buffer manager: a turn of
a client asks for its next page or destroys a page object, and a client that holds a page can write
it. A failed call aborts the process, after which no client makes another.

* `Accounted`: the invariant of the pool and its clients, kept by every turn of clients that ask for
  a page only while they hold none.
* `neverWaitsHolding_iff`: page objects never overlap and no client waits for a frame without one
  that can go on exactly when no client constructs an iterator on a table with a listed page.
* `onePage_waits`: over one frame, the constructor of an iterator waits for the frame it holds
  itself.
-/

import Yadb.Storage.Table.Handles
import Yadb.Storage.Buffer.Monitor

namespace Yadb

open Foundation

/-- `held` are the pages that a client holds, with their frames. -/
structure TableClients (n k : Nat) where
  pool : PageBufferManager n
  programs : Fin k → List HandleEvent
  held : Fin k → List (FilePageId × Fin n)

inductive ClientOp (k : Nat)
  | turn (client : Fin k) (io : Transfers)
  | write (client : Fin k) (bytes : FullPage)
  | allocatePage (fileId : FileId) (pageId : PageId) (bytes : FullPage)

namespace TableClients

variable {n k : Nat}

/-- A failed assertion ends the process. -/
def abort (clients : TableClients n k) (pool : PageBufferManager n) : TableClients n k :=
  { clients with pool, programs := fun _ => [] }

def proceed (clients : TableClients n k) (client : Fin k) (pool : PageBufferManager n)
    (program : List HandleEvent) (held : List (FilePageId × Fin n)) : TableClients n k where
  pool := pool
  programs := Function.update clients.programs client program
  held := Function.update clients.held client held

/-- `GetPage`; a client for which it waits stays where it is. -/
def ask (clients : TableClients n k) (client : Fin k) (fpId : FilePageId)
    (program : List HandleEvent) (io : Transfers) : TableClients n k :=
  match clients.pool.acquire fpId io with
  | (none, _) => clients
  | (some (.error _), pool) => clients.abort pool
  | (some (.ok frame), pool) =>
      clients.proceed client pool program ((fpId, frame) :: clients.held client)

/-- `~Page`. -/
def giveBack (clients : TableClients n k) (client : Fin k) (fpId : FilePageId)
    (program : List HandleEvent) : TableClients n k :=
  match (clients.held client).find? fun entry => entry.1 = fpId with
  | none => clients
  | some entry => match clients.pool.removeAccessor (clients.pool.frames entry.2).fpId with
    | (.error _, pool) => clients.abort pool
    | (.ok (), pool) => clients.proceed client pool program ((clients.held client).erase entry)

/-- The next event of a client. -/
def turn (clients : TableClients n k) (client : Fin k) (io : Transfers) : TableClients n k :=
  match clients.programs client with
  | [] => clients
  | .getPage fpId :: program => clients.ask client fpId program io
  | .release fpId :: program => clients.giveBack client fpId program

def step (clients : TableClients n k) : ClientOp k → TableClients n k
  | .turn client io => clients.turn client io
  | .write client bytes => match clients.held client with
    | [] => clients
    | (_, frame) :: _ =>
        let value := clients.pool.frames frame
        { clients with
          pool := clients.pool.setFrame frame { value with isDirty := true, data := bytes } }
  | .allocatePage fileId pageId bytes =>
      { clients with pool := { clients.pool with
          disk := (clients.pool.disk.allocatePage fileId pageId bytes).2 } }

/-- The client is in `GetPage`, and its wait condition is false. -/
def Waits (clients : TableClients n k) (client : Fin k) : Prop :=
  ∃ fpId program, clients.programs client = .getPage fpId :: program ∧
    ¬ clients.pool.FrameAvailable fpId

/-- Beside a client that waits there is one that holds a frame and does not wait. -/
def NoDeadlock (clients : TableClients n k) : Prop :=
  ∀ client, clients.Waits client → ∃ other, clients.held other ≠ [] ∧ ¬ clients.Waits other

end TableClients

def clientsMachine (n k : Nat) : Machine (TableClients n k) (ClientOp k) Unit :=
  ⟨fun clients op => ((), clients.step op)⟩

namespace TableClients

variable {n k : Nat} {owns : Fin k → FileId → Prop}

/-- No table is one of two clients. -/
def Apart (owns : Fin k → FileId → Prop) : Prop :=
  ∀ client other fileId, owns client fileId → owns other fileId → client = other

/-- **The invariant.** The counter is exact, every pinned frame is held by a client under its page,
and every client has at most one page, of a table of its own. -/
structure Accounted (owns : Fin k → FileId → Prop) (clients : TableClients n k) : Prop where
  wf : clients.pool.WellFormed
  counted : clients.pool.CountsUnpinned
  owned : ∀ frame, (clients.pool.frames frame).pinCount ≠ 0 → ∃ client,
    ((clients.pool.frames frame).fpId, frame) ∈ clients.held client
  once : ∀ frame, (clients.pool.frames frame).pinCount ≤ 1
  keeps : ∀ client, ∀ entry ∈ clients.held client,
    (clients.pool.frames entry.2).fpId = entry.1 ∧ (clients.pool.frames entry.2).pinCount ≠ 0
  single : ∀ client, (clients.held client).length ≤ 1
  ownPages : ∀ client, ∀ entry ∈ clients.held client, owns client entry.1.fileId
  ownEvents : ∀ client, ∀ event ∈ clients.programs client, owns client event.fileId
  alone : ∀ client, Alone ((clients.held client).map Prod.fst) (clients.programs client)

/-- **No client waits while all frames are free**, and who holds a frame does not wait. -/
theorem Accounted.noDeadlock {clients : TableClients n k} (ok : clients.Accounted owns)
    (positive : 0 < n) : clients.NoDeadlock := by
  rintro client ⟨fpId, program, _, unavailable⟩
  have none : clients.pool.replacer.getEvictableCount = 0 := by
    by_contra some
    exact unavailable (.inr (Nat.pos_of_ne_zero some))
  have pinned : (clients.pool.frames ⟨0, positive⟩).pinCount ≠ 0 := by
    intro unpinned
    have member := PageBufferManager.mem_unpinnedFrames.mpr unpinned
    rw [Finset.card_eq_zero.mp (ok.counted.symm.trans none)] at member
    cases member
  obtain ⟨other, holds⟩ := ok.owned _ pinned
  have holding : clients.held other ≠ [] := List.ne_nil_of_mem holds
  refine ⟨other, holding, ?_⟩
  rintro ⟨asked, later, isProgram, _⟩
  have alone := ok.alone other
  rw [isProgram] at alone
  exact holding (List.map_eq_nil_iff.mp alone.1)

variable {clients : TableClients n k}

/-! ### What a step preserves -/

/-- A page that two clients hold is held by one: the pages of each client are of its own tables. -/
theorem Accounted.holder_unique (ok : clients.Accounted owns) (apart : Apart owns)
    {fpId : FilePageId} {client other : Fin k} {frame : Fin n} (ours : owns client fpId.fileId)
    (holds : (fpId, frame) ∈ clients.held other) : other = client :=
  apart other client _ (ok.ownPages other _ holds) ours

/-- The pool changed, but neither the ids nor the pins of its frames. -/
theorem Accounted.setPool (ok : clients.Accounted owns) {pool : PageBufferManager n}
    (wf : pool.WellFormed) (counted : pool.CountsUnpinned)
    (fpId : ∀ frame, (pool.frames frame).fpId = (clients.pool.frames frame).fpId)
    (pinCount : ∀ frame, (pool.frames frame).pinCount = (clients.pool.frames frame).pinCount) :
    Accounted owns { clients with pool } where
  wf := wf
  counted := counted
  owned frame pinned := by
    rw [fpId]
    exact ok.owned frame (pinCount frame ▸ pinned)
  once frame := (pinCount frame).trans_le (ok.once frame)
  keeps client entry member := by
    rw [fpId, pinCount]
    exact ok.keeps client entry member
  single := ok.single
  ownPages := ok.ownPages
  ownEvents := ok.ownEvents
  alone := ok.alone

/-- **A turn of one client**, which leaves it with pages and events of its tables, and the frames
of the others alone. -/
theorem Accounted.turn (ok : clients.Accounted owns) {client : Fin k} {event : HandleEvent}
    {program : List HandleEvent} (next : clients.programs client = event :: program)
    {pool : PageBufferManager n} {held : List (FilePageId × Fin n)} (wf : pool.WellFormed)
    (counted : pool.CountsUnpinned)
    (owned : ∀ frame, (pool.frames frame).pinCount ≠ 0 → ∃ holder,
      ((pool.frames frame).fpId, frame) ∈ Function.update clients.held client held holder)
    (once : ∀ frame, (pool.frames frame).pinCount ≤ 1)
    (own : ∀ entry ∈ held,
      (pool.frames entry.2).fpId = entry.1 ∧ (pool.frames entry.2).pinCount ≠ 0)
    (others : ∀ holder, holder ≠ client → ∀ entry ∈ clients.held holder,
      (pool.frames entry.2).fpId = entry.1 ∧ (pool.frames entry.2).pinCount ≠ 0)
    (single : held.length ≤ 1) (ownPages : ∀ entry ∈ held, owns client entry.1.fileId)
    (alone : Alone (held.map Prod.fst) program) :
    Accounted owns (clients.proceed client pool program held) where
  wf := wf
  counted := counted
  owned := owned
  once := once
  keeps := (Function.forall_update_iff clients.held fun _ entries => ∀ entry ∈ entries,
    (pool.frames entry.2).fpId = entry.1 ∧ (pool.frames entry.2).pinCount ≠ 0).mpr ⟨own, others⟩
  single := (Function.forall_update_iff clients.held fun _ entries => entries.length ≤ 1).mpr
    ⟨single, fun holder _ => ok.single holder⟩
  ownPages := (Function.forall_update_iff clients.held fun holder entries => ∀ entry ∈ entries,
    owns holder entry.1.fileId).mpr ⟨ownPages, fun holder _ => ok.ownPages holder⟩
  ownEvents := by
    refine (Function.forall_update_iff clients.programs fun holder events => ∀ event ∈ events,
      owns holder event.fileId).mpr ⟨fun later member => ?_, fun holder _ => ok.ownEvents holder⟩
    refine ok.ownEvents client later ?_
    rw [next]
    exact List.mem_cons_of_mem event member
  alone holder := by
    by_cases same : holder = client
    · subst same
      simp only [proceed, Function.update_self]
      exact alone
    · simp only [proceed, Function.update_of_ne same]
      exact ok.alone holder

/-- **A client that holds nothing gets an unpinned frame.** -/
theorem Accounted.handed (ok : clients.Accounted owns) (small : n < sizeLimit) {client : Fin k}
    {fpId : FilePageId} {program : List HandleEvent}
    (asks : clients.programs client = .getPage fpId :: program) {pool : PageBufferManager n}
    {frame : Fin n} (wf : pool.WellFormed) (counted : pool.CountsUnpinned)
    (pinCount : ∀ other, (pool.frames other).pinCount = (clients.pool.frames other).pinCount)
    (ids : ∀ other, other ≠ frame → (pool.frames other).fpId = (clients.pool.frames other).fpId)
    (named : (pool.frames frame).fpId = fpId) (unpinned : (pool.frames frame).pinCount = 0) :
    Accounted owns (clients.proceed client (pool.pin frame) program
      ((fpId, frame) :: clients.held client)) := by
  have alone := ok.alone client
  rw [asks] at alone
  have empty : clients.held client = [] := List.map_eq_nil_iff.mp alone.1
  rw [empty] at alone
  have events := ok.ownEvents client
  rw [asks] at events
  have pinnedHere : ((pool.pin frame).frames frame) =
      { pool.frames frame with pinCount := (pool.frames frame).pinCount + 1 } := by
    simp only [PageBufferManager.pin, PageBufferManager.setFrame, Function.update_self]
  have elsewhere : ∀ other, other ≠ frame → (pool.pin frame).frames other = pool.frames other := by
    intro other differs
    simp only [PageBufferManager.pin, PageBufferManager.setFrame, Function.update_of_ne differs]
  rw [empty]
  refine ok.turn asks (wf.pin frame)
    ((PageBufferManager.pin_count_iff small wf counted frame).mpr unpinned) (fun other pinned => ?_)
    (fun other => ?_) (List.forall_mem_singleton.mpr ?_) (fun holder _ entry member => ?_)
    (Nat.le_refl _) (List.forall_mem_singleton.mpr (events _ List.mem_cons_self)) alone.2
  · by_cases same : other = frame
    · subst same
      refine ⟨client, ?_⟩
      rw [Function.update_self, pinnedHere, named]
      exact List.mem_singleton_self _
    · rw [elsewhere other same] at pinned ⊢
      rw [pinCount] at pinned
      obtain ⟨holder, holds⟩ := ok.owned other pinned
      refine ⟨holder, ?_⟩
      have notClient : holder ≠ client := by
        rintro rfl
        rw [empty] at holds
        cases holds
      rw [Function.update_of_ne notClient, ids other same]
      exact holds
  · by_cases same : other = frame
    · rw [same, pinnedHere, unpinned]
    · rw [elsewhere other same, pinCount]
      exact ok.once other
  · rw [pinnedHere]
    exact ⟨named, Nat.succ_ne_zero _⟩
  · have kept := ok.keeps holder entry member
    have differs : entry.2 ≠ frame := by
      intro same
      apply kept.2
      rw [← pinCount, same, unpinned]
    rw [elsewhere entry.2 differs, ids entry.2 differs, pinCount]
    exact kept

/-- **A client gives its page back.** -/
theorem Accounted.released (ok : clients.Accounted owns) (small : n < sizeLimit)
    (apart : Apart owns) {client : Fin k} {entry : FilePageId × Fin n}
    {program : List HandleEvent}
    (ends : clients.programs client = .release entry.1 :: program)
    (holds : clients.held client = [entry]) :
    Accounted owns (clients.proceed client (clients.pool.unpin entry.2) program []) := by
  have member : entry ∈ clients.held client := holds ▸ List.mem_singleton_self entry
  obtain ⟨named, pinned⟩ := ok.keeps client entry member
  have last : (clients.pool.frames entry.2).pinCount = 1 :=
    le_antisymm (ok.once entry.2) (Nat.one_le_iff_ne_zero.mpr pinned)
  have here : ((clients.pool.unpin entry.2).frames entry.2).pinCount = 0 := by
    simp only [PageBufferManager.unpin, PageBufferManager.setFrame, Function.update_self, last]
  have elsewhere : ∀ other, other ≠ entry.2 →
      (clients.pool.unpin entry.2).frames other = clients.pool.frames other := by
    intro other differs
    simp only [PageBufferManager.unpin, PageBufferManager.setFrame, Function.update_of_ne differs]
  have alone := ok.alone client
  rw [ends, holds] at alone
  refine ok.turn ends (ok.wf.unpin pinned) (ok.counted.unpin small ok.wf pinned)
    (fun other stillPinned => ?_) (fun other => ?_) (List.forall_mem_nil _)
    (fun holder differs other has => ?_) (Nat.zero_le _) (List.forall_mem_nil _) ?_
  · by_cases same : other = entry.2
    · subst same
      exact absurd here stillPinned
    · rw [elsewhere other same] at stillPinned ⊢
      obtain ⟨holder, has⟩ := ok.owned other stillPinned
      refine ⟨holder, ?_⟩
      have notClient : holder ≠ client := by
        rintro rfl
        rw [holds, List.mem_singleton] at has
        exact same (congrArg Prod.snd has)
      rw [Function.update_of_ne notClient]
      exact has
  · by_cases same : other = entry.2
    · rw [same]
      exact here.trans_le (Nat.zero_le _)
    · rw [elsewhere other same]
      exact ok.once other
  · have kept := ok.keeps holder other has
    -- the frame of another client carries a page of another table
    have away : other.2 ≠ entry.2 := by
      intro shared
      rw [shared, named] at kept
      refine differs (apart holder client other.1.fileId (ok.ownPages holder other has) ?_)
      rw [← kept.1]
      exact ok.ownPages client entry member
    rw [elsewhere other.2 away]
    exact kept
  · simpa only [Alone, List.map_cons, List.map_nil, List.erase_cons_head] using alone

/-- The process was aborted, or the invariant holds. -/
def Sound (owns : Fin k → FileId → Prop) (clients : TableClients n k) : Prop :=
  (∀ client, clients.programs client = []) ∨ clients.Accounted owns

theorem Accounted.getPage (ok : clients.Accounted owns) (small : n < sizeLimit)
    (apart : Apart owns) {client : Fin k} {fpId : FilePageId}
    {program : List HandleEvent} (asks : clients.programs client = .getPage fpId :: program)
    (io : Transfers) : Sound owns (clients.ask client fpId program io) := by
  have ours : owns client fpId.fileId := by
    have events := ok.ownEvents client
    rw [asks] at events
    exact events _ List.mem_cons_self
  have alone := ok.alone client
  rw [asks] at alone
  have empty : clients.held client = [] := List.map_eq_nil_iff.mp alone.1
  rw [ask]
  have ended := PageBufferManager.acquire_step clients.pool fpId io
  cases isAcquired : clients.pool.acquire fpId io with
  | mk outcome pool =>
      rw [isAcquired] at ended
      cases ended with
      | unavailable _ _ => exact .inr ok
      | failed _ _ _ _ _ => exact .inl fun _ => rfl
      | hit frame mapped =>
          have named := ok.wf.keyed fpId frame mapped
          -- a pinned frame with this page would be held by this client, which holds nothing
          have unpinned : (clients.pool.frames frame).pinCount = 0 := by
            by_contra pinned
            obtain ⟨holder, holds⟩ := ok.owned frame pinned
            rw [named] at holds
            rw [ok.holder_unique apart ours holds, empty] at holds
            cases holds
          exact .inr (ok.handed small asks ok.wf ok.counted (fun _ => rfl) (fun _ _ => rfl) named
            unpinned)
      | loaded frame middle absent available load mapped =>
          have counted : middle.CountsUnpinned := by
            have same : middle.unpinnedFrames = clients.pool.unpinnedFrames :=
              PageBufferManager.unpinnedFrames_congr fun other => by
                rw [PageBufferManager.pinCount_loadStep ok.wf load]
            unfold PageBufferManager.CountsUnpinned
            rw [PageBufferManager.loadStep_count load, same]
            exact ok.counted
          have wf := ok.wf.loadStep load
          have pinCount := PageBufferManager.pinCount_loadStep ok.wf load
          refine .inr (ok.handed small asks wf counted pinCount ?_ (wf.keyed fpId frame mapped) ?_)
          · intro other differs
            cases load with
            | loaded victim disk bytes chosen _ _ _ =>
                cases (AList.lookup_insert _).symm.trans mapped
                simp only [PageBufferManager.load, PageBufferManager.setFrame,
                  Function.update_of_ne differs]
                rfl
          · cases load with
            | loaded victim disk bytes chosen _ _ _ =>
                cases (AList.lookup_insert _).symm.trans mapped
                exact (pinCount frame).trans (ok.wf.victim_unpinned chosen)

theorem Accounted.release (ok : clients.Accounted owns) (small : n < sizeLimit)
    (apart : Apart owns) {client : Fin k} {fpId : FilePageId}
    {program : List HandleEvent} (ends : clients.programs client = .release fpId :: program) :
    Sound owns (clients.giveBack client fpId program) := by
  rw [giveBack]
  cases found : (clients.held client).find? fun entry => entry.1 = fpId with
  | none => exact .inr ok
  | some entry =>
      have member := List.mem_of_find?_eq_some found
      have isPage : entry.1 = fpId := by simpa using List.find?_some found
      subst isPage
      have holds : clients.held client = [entry] := by
        obtain ⟨only, isOnly⟩ := List.length_eq_one_iff.mp
          (le_antisymm (ok.single client) (List.length_pos_of_mem member))
        rw [isOnly, List.mem_singleton] at member
        rw [isOnly, member]
      obtain ⟨named, pinned⟩ := ok.keeps client entry member
      rcases clients.pool.removeAccessor_cases (clients.pool.frames entry.2).fpId with
        ⟨_, same⟩ | ⟨_, _, _, same⟩ | ⟨frame, mapped, framePinned, same⟩
      · simp only [same]
        exact .inl fun _ => rfl
      · simp only [same]
        exact .inl fun _ => rfl
      · have isFrame : frame = entry.2 := by
          obtain ⟨holder, has⟩ := ok.owned frame framePinned
          rw [ok.wf.keyed _ frame mapped, named] at has
          rw [ok.holder_unique apart (ok.ownPages client entry member) has, holds,
            List.mem_singleton] at has
          exact congrArg Prod.snd has
        subst isFrame
        simp only [same, holds, List.erase_cons_head]
        exact .inr (ok.released small apart ends holds)

theorem turn_getPage {clients : TableClients n k} {client : Fin k} {io : Transfers}
    {fpId : FilePageId} {program : List HandleEvent} {frame : Fin n} {pool : PageBufferManager n}
    (asks : clients.programs client = .getPage fpId :: program)
    (acquired : clients.pool.acquire fpId io = (some (.ok frame), pool)) :
    clients.turn client io
      = clients.proceed client pool program ((fpId, frame) :: clients.held client) := by
  rw [turn, asks]
  simp only [ask, acquired]

/-- **One step keeps the invariant.** -/
theorem sound_step (small : n < sizeLimit) (apart : Apart owns)
    (clients : TableClients n k) (op : ClientOp k) (sound : clients.Sound owns) :
    Sound owns (clients.step op) := by
  obtain aborted | ok := sound
  · refine .inl ?_
    cases op with
    | turn client io =>
        rw [step, turn, aborted client]
        exact aborted
    | write client bytes =>
        rw [step]
        split
        · exact aborted
        · exact aborted
    | allocatePage fileId pageId bytes => exact aborted
  · cases op with
    | turn client io =>
        rw [step, turn]
        split
        · exact .inr ok
        · next isProgram => exact ok.getPage small apart isProgram io
        · next isProgram => exact ok.release small apart isProgram
    | write client bytes =>
        rw [step]
        split
        · exact .inr ok
        · next fpId frame rest _ =>
            refine .inr (ok.setPool (ok.wf.setFrame frame rfl rfl) (ok.counted.setFrame frame rfl)
              ?_ ?_)
            · intro other
              by_cases same : other = frame
              · subst same
                simp only [PageBufferManager.setFrame, Function.update_self]
              · simp only [PageBufferManager.setFrame, Function.update_of_ne same]
            · intro other
              by_cases same : other = frame
              · subst same
                simp only [PageBufferManager.setFrame, Function.update_self]
              · simp only [PageBufferManager.setFrame, Function.update_of_ne same]
    | allocatePage fileId pageId bytes =>
        refine .inr (ok.setPool ?_ ok.counted (fun _ => rfl) fun _ => rfl)
        exact ok.wf.congr rfl (fun _ => rfl) (fun _ _ => id) (fun _ => rfl) (fun _ => rfl)
          fun _ _ _ => PageStore.allocated_allocatePage

theorem Sound.noDeadlock (sound : clients.Sound owns) (positive : 0 < n) : clients.NoDeadlock := by
  obtain aborted | ok := sound
  · rintro client ⟨fpId, program, asks, _⟩
    rw [aborted client] at asks
    cases asks
  · exact ok.noDeadlock positive

/-- Beside itself there is no client that could go on. -/
theorem NoDeadlock.goes_on {clients : TableClients n k} (free : clients.NoDeadlock) (single : k = 1)
    (client : Fin k) : ¬ clients.Waits client := by
  intro waits
  obtain ⟨other, _, goesOn⟩ := free client waits
  subst single
  rw [Subsingleton.elim other client] at goesOn
  exact goesOn waits

/-- The clients before their first events, over a new buffer manager. -/
def start (order : IterationOrder n) (buffer : Fin n → FullPage) (disk : PageStore)
    (programs : Fin k → List HandleEvent) : TableClients n k :=
  ⟨.new order buffer disk, programs, fun _ => []⟩

theorem start_accounted (small : n < sizeLimit) (order : IterationOrder n)
    (buffer : Fin n → FullPage) (disk : PageStore) {programs : Fin k → List HandleEvent}
    (ownEvents : ∀ client, ∀ event ∈ programs client, owns client event.fileId)
    (alone : ∀ client, Alone [] (programs client)) :
    Accounted owns (start order buffer disk programs) where
  wf := PageBufferManager.new_wellFormed order buffer disk
  counted := System.new_counted small order buffer disk
  owned _ pinned := absurd rfl pinned
  once _ := Nat.zero_le _
  keeps _ _ member := nomatch member
  single _ := Nat.zero_le _
  ownPages _ _ member := nomatch member
  ownEvents := ownEvents
  alone := alone

/-- **Table code waits for no frame while it holds one.** For any number of clients that make any
calls on tables that no two of them share, over any number of frames: every page is asked for while
its client holds none, a client that waits has beside it one that holds a frame and goes on, and a
single client never waits, if and only if no client constructs an iterator on a table with a page in
one of its lists. -/
theorem neverWaitsHolding_iff (positive : 0 < n) (small : n < sizeLimit) (order : IterationOrder n)
    (buffer : Fin n → FullPage) (disk : PageStore) (stores : Fin k → PageStore)
    (calls : Fin k → List (FileId × TableCall))
    (apart : Apart fun client fileId => fileId ∈ (calls client).map Prod.fst) :
    ((∀ client, Alone [] (eventsOf (stores client) (calls client))) ∧
      ∀ schedule, (clientsMachine n k).Always
        (fun clients => clients.NoDeadlock ∧ (k = 1 → ∀ client, ¬ clients.Waits client))
        (start order buffer disk fun client => eventsOf (stores client) (calls client)) schedule) ↔
    ∀ client, FindNoPages (stores client) (calls client) := by
  constructor
  · rintro ⟨alone, _⟩ client
    exact (alone_eventsOf _ _).mp (alone client)
  · intro meets
    have alone := fun client => (alone_eventsOf (stores client) (calls client)).mpr (meets client)
    refine ⟨alone, fun schedule => ?_⟩
    let owns : Fin k → FileId → Prop := fun client fileId => fileId ∈ (calls client).map Prod.fst
    have step : ∀ (clients : TableClients n k) (op : ClientOp k), Sound owns clients → True →
        Sound owns ((clientsMachine n k).next clients op) :=
      fun clients op sound _ => sound_step small apart clients op sound
    have first : Sound owns (start order buffer disk fun client =>
        eventsOf (stores client) (calls client)) :=
      .inr (start_accounted small order buffer disk
        (fun client => fileId_of_eventsOf (meets client)) alone)
    refine (Machine.always_of_step step first (Machine.along_of_mem fun _ _ _ => trivial)).imp ?_
    intro clients sound
    have free := sound.noDeadlock positive
    exact ⟨free, fun single client => free.goes_on single client⟩

/-! ### One frame -/

/-- A store with one table, with these bytes on its root and a second page. -/
def tableStore (root : FullPage) : PageStore :=
  (((System.emptyStore.createFile 5).2.allocatePage 5 0 root).2.allocatePage 5 1
    (HeapPage.initPage fun _ => 0)).2

def emptyRoot : FullPage := HeapPage.initPage fun _ => 0

/-- The root of a table whose partial list is the page 1. -/
def listedRoot : FullPage := HeapPage.setPrevPage emptyRoot 1

/-- Two tables, the one with a page in its partial list and the other without pages. -/
def twoTables : PageStore :=
  (((tableStore listedRoot).createFile 6).2.allocatePage 6 0 emptyRoot).2

/-- One client inserts a row on the listed page, seeks it and deletes it; the other constructs an
iterator on its empty table, and then inserts a row. -/
def listedAndEmpty : Fin 2 → List (FileId × TableCall)
  | 0 => [(5, .insertRow [7] ⟨2, fun _ => 0⟩),
      (5, .seek ⟨nullPageId, 0, nullPageId, false, []⟩ (makeRowId 1 0)),
      (5, .deleteRow (makeRowId 1 0))]
  | 1 => [(6, .construct), (6, .insertRow [8] ⟨1, fun _ => 0⟩)]

theorem listedAndEmpty_apart :
    Apart fun client fileId => fileId ∈ (listedAndEmpty client).map Prod.fst := by
  have first : ∀ fileId ∈ (listedAndEmpty 0).map Prod.fst, fileId = 5 := by simp [listedAndEmpty]
  have second : ∀ fileId ∈ (listedAndEmpty 1).map Prod.fst, fileId = 6 := by simp [listedAndEmpty]
  intro client other fileId ours theirs
  match client, other with
  | 0, 0 | 1, 1 => rfl
  | 0, 1 | 1, 0 =>
      have isFirst := first fileId (by assumption)
      cases isFirst.symm.trans (second fileId (by assumption))

/-- Over one frame, which the clients take in turns. -/
theorem listedAndEmpty_goes_on : (clientsMachine 1 2).Always
    (fun clients => clients.NoDeadlock ∧ (2 = 1 → ∀ client, ¬ clients.Waits client))
    (start System.onlyFrame (fun _ _ => 0) twoTables fun client =>
      eventsOf twoTables (listedAndEmpty client))
    (.allocatePage 6 1 (fun _ => 0) ::
      (List.replicate 16 [.turn 0 {}, .turn 1 {}]).flatten) :=
  ((neverWaitsHolding_iff (by decide) (by decide) System.onlyFrame (fun _ _ => 0) twoTables
    (fun _ => twoTables) listedAndEmpty listedAndEmpty_apart).mpr (by decide +kernel)).2 _

/-- Two pages asked for one after the other, over one frame. -/
def asksTwice (later : List HandleEvent) : TableClients 1 1 :=
  start System.onlyFrame (fun _ _ => 0) (tableStore listedRoot) fun _ =>
    .getPage ⟨5, rootPageId⟩ :: .getPage ⟨5, 1⟩ :: later

theorem asksTwice_waits (later : List HandleEvent) :
    ((clientsMachine 1 1).exec (asksTwice later) [.turn 0 {}]).Waits 0 := by
  have acquired : (asksTwice later).pool.acquire ⟨5, rootPageId⟩ {} = (some (.ok 0),
      ((asksTwice later).pool.acquire ⟨5, rootPageId⟩ {}).2) := Prod.ext rfl rfl
  have unavailable : ¬ ((asksTwice []).pool.acquire ⟨5, rootPageId⟩ {}).2.FrameAvailable ⟨5, 1⟩ := by
    decide +kernel
  have turned : (asksTwice later).turn 0 {} = _ := turn_getPage rfl acquired
  rw [Machine.exec_cons, Machine.exec_nil]
  show ((asksTwice later).turn 0 {}).Waits 0
  rw [turned]
  exact ⟨⟨5, 1⟩, later, rfl, unavailable⟩

/-- **The constructor of an iterator waits for the frame it holds**: it keeps the page object of the
root, and asks for the page of the partial list. -/
theorem onePage_waits :
    ¬ Alone [] (eventsOf (tableStore listedRoot) [(5, .construct)]) ∧
      ((clientsMachine 1 1).exec (start System.onlyFrame (fun _ _ => 0) (tableStore listedRoot)
        fun _ => eventsOf (tableStore listedRoot) [(5, .construct)]) [.turn 0 {}]).Waits 0 := by
  have found : DiskTable.mustGetPage (tableStore listedRoot) ⟨5, rootPageId⟩ = .ok listedRoot := rfl
  have isPage : (DiskTableIterator.start (HeapPage.getFullPagesHead listedRoot)
      (HeapPage.getPartialPagesHead listedRoot)).currentPageId = 1 := by decide +kernel
  obtain ⟨later, program⟩ : ∃ later, eventsOf (tableStore listedRoot) [(5, .construct)]
      = .getPage ⟨5, rootPageId⟩ :: .getPage ⟨5, 1⟩ :: later := by
    obtain ⟨more, events⟩ := TableCall.events_construct found (by decide +kernel)
    rw [isPage] at events
    rw [eventsOf, events]
    exact ⟨_, rfl⟩
  rw [program]
  constructor
  · rintro ⟨_, nested, _⟩
    cases nested
  · exact asksTwice_waits later

end TableClients

end Yadb
