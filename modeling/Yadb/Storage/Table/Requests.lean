/-
**What clients ask of pages, and the buffer pool that answers.**

The calls on a table ask the buffer manager for pages: `PageRequest`. On a `PageStore` the answers
are those of the store, with the pages held at the moment (`onStore`). On a pool they are those of
`System`, with the client's page objects (`onPool`); the environment says which transfers fail and
in which byte stores a client writes a page.

* `Serves`: a pool with a client's page objects stands for a store with the pages it holds.
* `onPool_sound`: whatever transfers fail, an answer of the pool is the answer of the store.
* `onPool_complete`: without failing transfers, the pool gives every answer of the store.

A client asks for no page it holds, and holds fewer pages than there are frames (`Affords`); one
that asks again for a page it holds makes the evictable count wrong (`Buffer.EvictableCount`).
-/

import Yadb.Foundation.Program
import Yadb.Storage.Buffer.Mirrors
import Yadb.Storage.Table.DiskTable

namespace Yadb

open Foundation

/-! ### Requests -/

inductive PageRequest
  | createFile (fileId : FileId)
  | allocatePage (fileId : FileId) (fresh : FreshPage)
  | getPage (fpId : FilePageId)
  /-- `GetMutView`, and the bytes stored through it. -/
  | write (fpId : FilePageId) (bytes : FullPage)
  /-- The end of the page object. -/
  | release (fpId : FilePageId)

/-- `getPage` answers the bytes that `GetView` shows. -/
abbrev PageRequest.Answer : PageRequest → Type
  | allocatePage _ _ => PageId
  | getPage _ => FullPage
  | createFile _ | write _ _ | release _ => Unit

def PageRequest.fileId : PageRequest → FileId
  | createFile fileId | allocatePage fileId _ => fileId
  | getPage fpId | write fpId _ | release fpId => fpId.fileId

/-- Why a program on pages stops. -/
inductive PageStop
  | table (failure : TableFailure)
  | disk (error : DiskError)
  | pool (failure : Failure PoolError)
  | waits
  /-- The client has no such page object. -/
  | noPage

abbrev PageProgram := Program PageRequest.Answer PageStop

/-! ### On a store -/

structure StoreClient where
  store : PageStore
  held : List FilePageId

def StoreClient.answer (client : StoreClient) :
    (request : PageRequest) → Except PageStop (request.Answer × StoreClient)
  | .createFile fileId =>
      match client.store.createFile fileId with
      | (.error error, _) => .error (.disk error)
      | (.ok (), store) => .ok ((), { client with store })
  | .allocatePage fileId fresh =>
      match DiskTable.allocatePage client.store fileId fresh with
      | .error failure => .error (.table failure)
      | .ok (pageId, store) => .ok (pageId, { client with store })
  | .getPage fpId =>
      match DiskTable.mustGetPage client.store fpId with
      | .error failure => .error (.table failure)
      | .ok bytes => .ok (bytes, { client with held := fpId :: client.held })
  | .write fpId bytes => .ok ((), { client with store := client.store.put fpId bytes })
  | .release fpId => .ok ((), { client with held := client.held.erase fpId })

def onStore : Handler PageRequest.Answer PageStop StoreClient := ⟨StoreClient.answer⟩

/-- What a client of a pool may ask. -/
def Affords (frames : Nat) (client : StoreClient) : PageRequest → Prop
  | .createFile _ | .allocatePage _ _ => True
  | .getPage fpId => fpId ∉ client.held ∧ client.held.length < frames
  | .write fpId _ | .release fpId => fpId ∈ client.held

/-! ### On a pool -/

/-- The byte stores by which clients turn one page into another. -/
structure Writing where
  stores : FullPage → FullPage → List (Fin pageSize × UInt8)
  ends : ∀ before after, (stores before after).foldl
    (fun page store => Function.update page store.1 store.2) before = after

/-- Each page object that is handed out meets its transfers. -/
structure PoolWorld where
  transfers : Nat → Transfers
  writing : Writing

def PoolWorld.Faultless (world : PoolWorld) : Prop :=
  ∀ count, (world.transfers count).writeFault = none ∧ (world.transfers count).readFault = none

/-- The page objects a client holds, by their pages. -/
structure PoolClient (n : Nat) where
  system : System n
  held : FilePageId → Option Nat

namespace PoolClient

variable {n : Nat}

def new (order : IterationOrder n) (buffer : Fin n → FullPage) (disk : PageStore) : PoolClient n :=
  ⟨.new order buffer disk, fun _ => none⟩

def getPage (world : PoolWorld) (client : PoolClient n) (fpId : FilePageId) :
    Except PageStop (FullPage × PoolClient n) :=
  match client.system.getPage fpId (world.transfers client.system.nextHandle) with
  | (.page id, system) =>
      match system.getView id with
      | (.view bytes, system) => .ok (bytes, ⟨system, Function.update client.held fpId (some id)⟩)
      | _ => .error .noPage
  | (.failed failure, _) => .error (.pool failure)
  | _ => .error .waits

def write (world : PoolWorld) (client : PoolClient n) (fpId : FilePageId) (bytes : FullPage) :
    Except PageStop (Unit × PoolClient n) :=
  match client.held fpId with
  | none => .error .noPage
  | some id =>
      match client.system.getView id with
      | (.view before, system) =>
          .ok ((), { client with system := system.write id (world.writing.stores before bytes) })
      | _ => .error .noPage

def release (client : PoolClient n) (fpId : FilePageId) :
    Except PageStop (Unit × PoolClient n) :=
  match client.held fpId with
  | none => .error .noPage
  | some id =>
      match client.system.release id with
      | (.done, system) => .ok ((), ⟨system, Function.update client.held fpId none⟩)
      | (.failed failure, _) => .error (.pool failure)
      | _ => .error .noPage

def allocatePage (client : PoolClient n) (fileId : FileId) (fresh : FreshPage) :
    Except PageStop (PageId × PoolClient n) :=
  match client.system.allocatePage fileId fresh.pageId fresh.bytes with
  | (.failed failure, _) => .error (.pool failure)
  | (_, system) => .ok (fresh.pageId, { client with system })

def createFile (client : PoolClient n) (fileId : FileId) : Except PageStop (Unit × PoolClient n) :=
  match client.system.createFile fileId with
  | (.failed failure, _) => .error (.pool failure)
  | (_, system) => .ok ((), { client with system })

def answer (world : PoolWorld) (client : PoolClient n) :
    (request : PageRequest) → Except PageStop (request.Answer × PoolClient n)
  | .createFile fileId => client.createFile fileId
  | .allocatePage fileId fresh => client.allocatePage fileId fresh
  | .getPage fpId => client.getPage world fpId
  | .write fpId bytes => client.write world fpId bytes
  | .release fpId => client.release fpId

end PoolClient

def onPool {n : Nat} (world : PoolWorld) : Handler PageRequest.Answer PageStop (PoolClient n) :=
  ⟨PoolClient.answer world⟩

/-! ### Names of what is held -/

section Names

variable {Key Name : Type} [DecidableEq Key] [DecidableEq Name] {nameOf : Key → Option Name}
  {keyOf : Name → Option Key}

/-- A new name for a key without one. -/
theorem named_insert (named : ∀ key name, nameOf key = some name ↔ keyOf name = some key)
    {key : Key} {name : Name} (unnamed : nameOf key = none) (free : keyOf name = none) :
    ∀ other label, Function.update nameOf key (some name) other = some label ↔
      Function.update keyOf name (some key) label = some other := by
  intro other label
  by_cases isKey : other = key
  · by_cases isName : label = name
    · simp [isKey, isName]
    · have different := named key label
      simp only [unnamed, reduceCtorEq, false_iff] at different
      simp [isKey, isName, Ne.symm isName, different]
  · by_cases isName : label = name
    · have different := named other name
      simp only [free, reduceCtorEq, iff_false] at different
      simp [isKey, isName, Ne.symm isKey, different]
    · simp [isKey, isName, named]

/-- A key loses its name. -/
theorem named_erase (named : ∀ key name, nameOf key = some name ↔ keyOf name = some key)
    {key : Key} {name : Name} (isNamed : nameOf key = some name) :
    ∀ other label, Function.update nameOf key none other = some label ↔
      Function.update keyOf name none label = some other := by
  intro other label
  by_cases isKey : other = key
  · by_cases isName : label = name
    · simp [isKey, isName]
    · have different := named key label
      simp only [isNamed, Option.some.injEq, Ne.symm isName, false_iff] at different
      simp [isKey, isName, different]
  · by_cases isName : label = name
    · have different := named other name
      simp only [(named key name).mp isNamed, Option.some.injEq, Ne.symm isKey, iff_false]
        at different
      simp [isKey, isName, different]
    · simp [isKey, isName, named]

end Names

/-! ### A client on a pool and on a store -/

namespace PoolClient

variable {n : Nat} {client client' : PoolClient n} {state : StoreClient} {world : PoolWorld}

/-- **A pool with a client's page objects stands for a store with the pages the client holds.** -/
structure Serves (client : PoolClient n) (state : StoreClient) : Prop where
  mirrors : client.system.Mirrors state.store
  named : ∀ fpId id, client.held fpId = some id ↔ client.system.pageOf id = some fpId
  listed : ∀ fpId, (client.held fpId).isSome = true ↔ fpId ∈ state.held
  distinct : state.held.Nodup
  length : client.system.handles.length = state.held.length

theorem new_serves (small : n < sizeLimit) (order : IterationOrder n) (buffer : Fin n → FullPage)
    (disk : PageStore) : (PoolClient.new order buffer disk).Serves ⟨disk, []⟩ where
  mirrors := System.new_mirrors small order buffer disk
  named fpId id := by simp [PoolClient.new, System.new, System.pageOf, System.findHandle]
  listed fpId := by simp [PoolClient.new]
  distinct := List.nodup_nil
  length := rfl

/-- The page object for a page that the client holds. -/
theorem Serves.object (serves : client.Serves state) {fpId : FilePageId}
    (held : fpId ∈ state.held) :
    ∃ id, client.held fpId = some id ∧ client.system.pageOf id = some fpId := by
  obtain ⟨id, object⟩ := Option.isSome_iff_exists.mp ((serves.listed fpId).mpr held)
  exact ⟨id, object, (serves.named fpId id).mp object⟩

/-- No page object is for a page that the client does not hold. -/
theorem Serves.free (serves : client.Serves state) {fpId : FilePageId}
    (unheld : fpId ∉ state.held) :
    client.held fpId = none ∧ ∀ id, client.system.pageOf id ≠ some fpId := by
  have nothing : client.held fpId = none := by
    rw [← serves.listed] at unheld
    simpa using unheld
  refine ⟨nothing, fun id named => ?_⟩
  rw [← serves.named, nothing] at named
  cases named

/-- **What `GetPage` hands out.** -/
theorem Serves.getPage (serves : client.Serves state) (small : n < sizeLimit) {fpId : FilePageId}
    (unheld : fpId ∉ state.held) {bytes : FullPage}
    (ran : client.getPage world fpId = .ok (bytes, client')) :
    DiskTable.mustGetPage state.store fpId = .ok bytes ∧
      client'.Serves { state with held := fpId :: state.held } := by
  obtain ⟨unnamed, free⟩ := serves.free unheld
  unfold PoolClient.getPage at ran
  cases answered : client.system.getPage fpId (world.transfers client.system.nextHandle) with
  | mk answer system =>
    rw [answered] at ran
    cases answer with
    | page id =>
        obtain ⟨⟨shown, read, view⟩, mirrors, fresh, pageOf, length⟩ :=
          serves.mirrors.getPage small free answered
        simp only [view] at ran
        cases ran
        refine ⟨by rw [DiskTable.mustGetPage, read]; rfl, mirrors, ?_, fun other => ?_,
          List.nodup_cons.mpr ⟨unheld, serves.distinct⟩, ?_⟩
        · rw [pageOf]
          exact named_insert serves.named unnamed fresh
        · rw [List.mem_cons, ← serves.listed other]
          by_cases isPage : other = fpId
          · simp [isPage]
          · simp [isPage, Function.update_of_ne]
        · rw [length, serves.length, List.length_cons]
    | _ => cases ran

/-- With a frame to spare and without a fault, `GetPage` hands out every page of the store. -/
theorem Serves.getPage_complete (serves : client.Serves state) (small : n < sizeLimit)
    (faultless : world.Faultless) {fpId : FilePageId} (unheld : fpId ∉ state.held)
    (few : state.held.length < n) {bytes : FullPage}
    (ran : DiskTable.mustGetPage state.store fpId = .ok bytes) :
    ∃ client', client.getPage world fpId = .ok (bytes, client') ∧
      client'.Serves { state with held := fpId :: state.held } := by
  obtain ⟨file, page⟩ := PageStore.pages_of_readPage (of_mapError_ok ran)
  obtain ⟨id, system, answered⟩ := serves.mirrors.getPage_complete (serves.length ▸ few)
    (faultless client.system.nextHandle) ⟨file, by rw [page]; exact Option.some_ne_none _⟩
  obtain ⟨⟨shown, _, view⟩, _⟩ := serves.mirrors.getPage small (serves.free unheld).2 answered
  have handed : client.getPage world fpId
      = .ok (shown, ⟨system, Function.update client.held fpId (some id)⟩) := by
    unfold PoolClient.getPage
    simp only [answered, view]
  obtain ⟨read, next⟩ := serves.getPage small unheld handed
  cases read.symm.trans ran
  exact ⟨_, handed, next⟩

/-- A write of a page that the client holds. -/
theorem Serves.write (serves : client.Serves state) (small : n < sizeLimit) {fpId : FilePageId}
    (held : fpId ∈ state.held) (bytes : FullPage) :
    ∃ client', client.write world fpId bytes = .ok ((), client') ∧
      client'.Serves { state with store := state.store.put fpId bytes } := by
  obtain ⟨id, object, named⟩ := serves.object held
  obtain ⟨before, page, view⟩ := serves.mirrors.getView named
  obtain ⟨mirrors, pageOf, length⟩ :=
    serves.mirrors.write small named page (world.writing.stores before bytes)
  rw [world.writing.ends] at mirrors
  refine ⟨{ client with system := client.system.write id (world.writing.stores before bytes) }, ?_,
    mirrors, pageOf ▸ serves.named, serves.listed, serves.distinct, length.trans serves.length⟩
  unfold PoolClient.write
  simp only [object, view]

/-- The end of a page object that the client holds. -/
theorem Serves.release (serves : client.Serves state) (small : n < sizeLimit) {fpId : FilePageId}
    (held : fpId ∈ state.held) :
    ∃ client', client.release fpId = .ok ((), client') ∧
      client'.Serves { state with held := state.held.erase fpId } := by
  obtain ⟨id, object, named⟩ := serves.object held
  obtain ⟨system, ran, mirrors, pageOf, length⟩ := serves.mirrors.release small named
  refine ⟨⟨system, Function.update client.held fpId none⟩, ?_, mirrors, ?_, fun other => ?_,
    serves.distinct.erase fpId, ?_⟩
  · unfold PoolClient.release
    simp only [object, ran]
  · rw [pageOf]
    exact named_erase serves.named object
  · rw [serves.distinct.mem_erase_iff, ← serves.listed other]
    by_cases isPage : other = fpId
    · simp [isPage]
    · simp [isPage, Function.update_of_ne]
  · have shorter := List.length_erase_add_one held
    have before := serves.length
    show system.handles.length = (state.held.erase fpId).length
    omega

/-- A page that is allocated on the store is allocated through the pool, and no other. -/
theorem Serves.allocatePage (serves : client.Serves state) (small : n < sizeLimit)
    (fileId : FileId) (fresh : FreshPage) :
    (∃ client' store', client.allocatePage fileId fresh = .ok (fresh.pageId, client') ∧
        DiskTable.allocatePage state.store fileId fresh = .ok (fresh.pageId, store') ∧
        client'.Serves { state with store := store' }) ∨
      ((∃ stop, client.allocatePage fileId fresh = .error stop) ∧
        ∃ failure, DiskTable.allocatePage state.store fileId fresh = .error failure) := by
  rcases serves.mirrors.allocatePage small fileId fresh.pageId fresh.bytes with
    ⟨system, store', ran, allocated, mirrors, pageOf, handles⟩ |
    ⟨⟨failure, system, ran⟩, error, failed⟩
  · refine .inl ⟨{ client with system }, store', ?_, ?_, mirrors, ?_, serves.listed,
      serves.distinct, ?_⟩
    · unfold PoolClient.allocatePage
      simp only [ran]
    · unfold DiskTable.allocatePage
      simp only [allocated]
    · rw [pageOf]
      exact serves.named
    · rw [handles]
      exact serves.length
  · right
    unfold PoolClient.allocatePage DiskTable.allocatePage
    generalize state.store.allocatePage fileId fresh.pageId fresh.bytes = allocated at failed ⊢
    obtain ⟨answer, store'⟩ := allocated
    simp only [ran] at failed ⊢
    rw [failed]
    exact ⟨⟨_, rfl⟩, _, rfl⟩

theorem Serves.createFile (serves : client.Serves state) (small : n < sizeLimit)
    (fileId : FileId) :
    (∃ client' store', client.createFile fileId = .ok ((), client') ∧
        state.store.createFile fileId = (.ok (), store') ∧
        client'.Serves { state with store := store' }) ∨
      ((∃ stop, client.createFile fileId = .error stop) ∧
        ∃ error, (state.store.createFile fileId).1 = .error error) := by
  rcases serves.mirrors.createFile small fileId with
    ⟨system, store', ran, created, mirrors, pageOf, handles⟩ | ⟨⟨failure, system, ran⟩, failed⟩
  · refine .inl ⟨{ client with system }, store', ?_, created, mirrors, ?_, serves.listed,
      serves.distinct, ?_⟩
    · unfold PoolClient.createFile
      simp only [ran]
    · rw [pageOf]
      exact serves.named
    · rw [handles]
      exact serves.length
  · right
    unfold PoolClient.createFile
    simp only [ran]
    exact ⟨⟨_, rfl⟩, failed⟩

/-- **Whatever transfers fail, an answer of the pool is the answer of the store.** -/
theorem onPool_sound (small : n < sizeLimit) (state : StoreClient) (client : PoolClient n)
    (request : PageRequest) (answer : request.Answer) (client' : PoolClient n)
    (serves : client.Serves state) (affords : Affords n state request)
    (ran : (onPool world).answer client request = .ok (answer, client')) :
    ∃ state', onStore.answer state request = .ok (answer, state') ∧ client'.Serves state' := by
  cases request with
  | createFile fileId =>
      rcases serves.createFile small fileId with
        ⟨next, store', pool, onDisk, kept⟩ | ⟨⟨stop, pool⟩, _⟩
      · cases pool.symm.trans ran
        exact ⟨_, by unfold onStore; simp only [StoreClient.answer, onDisk], kept⟩
      · cases pool.symm.trans ran
  | allocatePage fileId fresh =>
      rcases serves.allocatePage small fileId fresh with
        ⟨next, store', pool, onDisk, kept⟩ | ⟨⟨stop, pool⟩, _⟩
      · cases pool.symm.trans ran
        exact ⟨_, by unfold onStore; simp only [StoreClient.answer, onDisk], kept⟩
      · cases pool.symm.trans ran
  | getPage fpId =>
      obtain ⟨read, kept⟩ := serves.getPage small affords.1 ran
      exact ⟨_, by unfold onStore; simp only [StoreClient.answer, read], kept⟩
  | write fpId bytes =>
      obtain ⟨next, wrote, kept⟩ := serves.write small affords bytes
      cases wrote.symm.trans ran
      exact ⟨_, rfl, kept⟩
  | release fpId =>
      obtain ⟨next, released, kept⟩ := serves.release small affords
      cases released.symm.trans ran
      exact ⟨_, rfl, kept⟩

/-- **Without failing transfers, the pool gives every answer of the store.** -/
theorem onPool_complete (small : n < sizeLimit) (faultless : world.Faultless)
    (state : StoreClient) (client : PoolClient n) (request : PageRequest)
    (answer : request.Answer) (state' : StoreClient) (serves : client.Serves state)
    (affords : Affords n state request)
    (ran : onStore.answer state request = .ok (answer, state')) :
    ∃ client', (onPool world).answer client request = .ok (answer, client') ∧
      client'.Serves state' := by
  cases request with
  | createFile fileId =>
      unfold onStore at ran
      simp only [StoreClient.answer] at ran
      rcases serves.createFile small fileId with
        ⟨next, store', pool, onDisk, kept⟩ | ⟨_, error, failed⟩
      · rw [onDisk] at ran
        cases ran
        exact ⟨next, pool, kept⟩
      · generalize state.store.createFile fileId = created at ran failed
        obtain ⟨result, store'⟩ := created
        cases failed
        cases ran
  | allocatePage fileId fresh =>
      rcases serves.allocatePage small fileId fresh with
        ⟨next, store', pool, onDisk, kept⟩ | ⟨_, failure, onDisk⟩
      · unfold onStore at ran
        simp only [StoreClient.answer, onDisk] at ran
        cases ran
        exact ⟨next, pool, kept⟩
      · unfold onStore at ran
        simp only [StoreClient.answer, onDisk] at ran
        cases ran
  | getPage fpId =>
      unfold onStore at ran
      simp only [StoreClient.answer] at ran
      cases read : DiskTable.mustGetPage state.store fpId with
      | error failure =>
          rw [read] at ran
          cases ran
      | ok bytes =>
          rw [read] at ran
          cases ran
          exact serves.getPage_complete small faultless affords.1 affords.2 read
  | write fpId bytes =>
      cases ran
      exact serves.write small affords bytes
  | release fpId =>
      cases ran
      exact serves.release small affords

end PoolClient

end Yadb
