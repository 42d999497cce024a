/-
**The page buffer manager and its clients.**

`page_buffer_manager.cpp`, `frame.cpp` and `page.cpp`, each public method one step: the methods run
under one mutex. A run interleaves the calls of any number of clients.

* A `PageBufferManager n` has frames `Fin n`, so no frame index can be out of range. The
  page map is an association list with distinct keys; its order, and the order in which the replacer
  visits its frames, stand for the iteration orders of the hash maps.
* A live page handle is a `Handle`: the object a client got from `GetPage` and has not destroyed.
  The system also records whether its client took a mutable view through it, since that view may be
  written through for as long as the handle lives.
* What the environment decides is in the operation: which transfers fail and what they leave behind,
  which page id and bytes `AllocatePage` finds, whether the file system removes a file.
* A caller whose wait predicate is false is answered `waits` and changes nothing; its next attempt
  is a later operation. A `DeleteFile` whose predicate never holds ends in its timeout error.
-/

import Mathlib.Data.Finset.Card
import Mathlib.Data.Fintype.Card
import Mathlib.Data.Fintype.Basic
import Mathlib.Data.List.AList
import Yadb.Foundation.Machine
import Yadb.Storage.Buffer.Replacer
import Yadb.Storage.Disk.PageStore

namespace Yadb

open Foundation

structure Frame where
  fpId : FilePageId
  isDirty : Bool
  pinCount : Nat
  data : FullPage

/-- A never-loaded frame carries an id no page has. -/
def Frame.new (data : FullPage) : Frame :=
  { fpId := ⟨invalidFileId, nullPageId⟩, isDirty := false, pinCount := 0, data }

abbrev PageMap (n : Nat) := AList fun _ : FilePageId => Fin n

structure PageBufferManager (n : Nat) where
  replacer : LRUKReplacer (Fin n)
  disk : PageStore
  pageMap : PageMap n
  frames : Fin n → Frame

/-- The order in which an iteration over the replacer's hash map visits the frames. -/
structure IterationOrder (n : Nat) where
  frames : List (Fin n)
  nodup : frames.Nodup
  complete : ∀ frame, frame ∈ frames

theorem IterationOrder.length_frames {n : Nat} (order : IterationOrder n) :
    order.frames.length = n := by
  have all : order.frames.toFinset = Finset.univ :=
    Finset.eq_univ_of_forall fun frame => List.mem_toFinset.mpr (order.complete frame)
  rw [← List.toFinset_card_of_nodup order.nodup, all, Finset.card_univ, Fintype.card_fin]

/-- What goes wrong in the transfers of one call: a failed write leaves bytes on disk, a failed read
leaves bytes in the frame. -/
structure Transfers where
  writeFault : Option FullPage := none
  readFault : Option FullPage := none

def Failure.map {Error Error' : Type} (wrap : Error → Error') : Failure Error → Failure Error'
  | .error cause => .error (wrap cause)
  | .assertion fired => .assertion fired

namespace PageBufferManager

variable {n : Nat}

/-- The constructor: `buffer` is what `malloc` returned. -/
def new (order : IterationOrder n) (buffer : Fin n → FullPage) (disk : PageStore) :
    PageBufferManager n :=
  { replacer := order.frames.foldl LRUKReplacer.registerFrame {}
    disk
    pageMap := ∅
    frames := fun frame => Frame.new (buffer frame) }

def setFrame (pool : PageBufferManager n) (frame : Fin n) (value : Frame) : PageBufferManager n :=
  { pool with frames := Function.update pool.frames frame value }

def getFrameForPage (pool : PageBufferManager n) (fpId : FilePageId) : Option (Fin n) :=
  pool.pageMap.lookup fpId

def flushPage (pool : PageBufferManager n) (fpId : FilePageId) (fault : Option FullPage) :
    Except (Failure PoolError) Unit × PageBufferManager n :=
  match pool.getFrameForPage fpId with
  | none => (.error (.error (.flushPageError fpId .notInBufferPool)), pool)
  | some frame =>
      match pool.disk.writePage fpId (pool.frames frame).data fault with
      | (.error failure, disk) =>
          (.error (failure.map fun error => .flushPageError fpId (.disk error)), { pool with disk })
      | (.ok (), disk) => (.ok (), { pool with disk })

/-- The end of `LoadPage`: read the page into the frame, and on success map it there. -/
def readInto (pool : PageBufferManager n) (frame : Fin n) (fpId : FilePageId)
    (fault : Option FullPage) : Except (Failure PoolError) Unit × PageBufferManager n :=
  match pool.disk.readPage fpId fault.isSome with
  | .error failure =>
      (.error (failure.map fun error => .getPageError fpId (.disk error)),
        pool.setFrame frame
          { pool.frames frame with data := fault.getD (pool.frames frame).data })
  | .ok bytes =>
      (.ok (),
        { pool.setFrame frame { fpId, isDirty := false, pinCount := 0, data := bytes } with
          pageMap := pool.pageMap.insert fpId frame })

/-- The middle of `LoadPage`: flush the victim if it is dirty, and erase the page it carries from
the page map. -/
def reuseFrame (pool : PageBufferManager n) (victim : Fin n) (fpId : FilePageId)
    (io : Transfers) : Except (Failure PoolError) Unit × PageBufferManager n :=
  let frame := pool.frames victim
  match if frame.isDirty then pool.flushPage frame.fpId io.writeFault else (.ok (), pool) with
  | (.error failure, pool) => (.error failure, pool)
  | (.ok (), pool) =>
      readInto { pool with pageMap := pool.pageMap.erase frame.fpId } victim fpId io.readFault

def loadPage (pool : PageBufferManager n) (fpId : FilePageId) (io : Transfers) :
    Except (Failure PoolError) Unit × PageBufferManager n :=
  if fpId ∈ pool.pageMap then (.ok (), pool)
  else
    match pool.replacer.evictFrame with
    | (none, replacer) =>
        (.error (.error (.getPageError fpId .noEvictableFrame)), { pool with replacer })
    | (some victim, replacer) => reuseFrame { pool with replacer } victim fpId io

def pinAndReturnPage (pool : PageBufferManager n) (fpId : FilePageId) :
    Except (Failure PoolError) (Fin n) × PageBufferManager n :=
  match pool.getFrameForPage fpId with
  | none => (.error (.assertion .pinNotInPool), pool)
  | some frame =>
      let value := pool.frames frame
      (.ok frame,
        { pool.setFrame frame { value with pinCount := value.pinCount + 1 } with
          replacer := (pool.replacer.recordAccess frame).setEvictable frame false })

/-- What `GetPage` and `GetPageIfFrameAvailable` share. `none` is where the one waits and the other
returns no page. -/
def acquire (pool : PageBufferManager n) (fpId : FilePageId) (io : Transfers) :
    Option (Except (Failure PoolError) (Fin n)) × PageBufferManager n :=
  if fpId ∉ pool.pageMap ∧ pool.replacer.getEvictableCount = 0 then (none, pool)
  else
    match if fpId ∈ pool.pageMap then (.ok (), pool) else pool.loadPage fpId io with
    | (.error failure, pool) => (some (.error failure), pool)
    | (.ok (), pool) =>
        let (pinned, pool) := pool.pinAndReturnPage fpId
        (some pinned, pool)

def removeAccessor (pool : PageBufferManager n) (fpId : FilePageId) :
    Except (Failure PoolError) Unit × PageBufferManager n :=
  match pool.getFrameForPage fpId with
  | none => (.error (.assertion .removeAccessorNotInPool), pool)
  | some frame =>
      let value := pool.frames frame
      if value.pinCount = 0 then (.error (.assertion .removeAccessorPinCountZero), pool)
      else
        let pool := pool.setFrame frame { value with pinCount := value.pinCount - 1 }
        (.ok (),
          if value.pinCount = 1 then
            { pool with replacer := pool.replacer.setEvictable frame true }
          else pool)

def fileHasPinnedPages (pool : PageBufferManager n) (fileId : FileId) : Bool :=
  pool.pageMap.entries.any fun entry =>
    entry.1.fileId == fileId && decide (0 < (pool.frames entry.2).pinCount)

/-- One round of the eviction loop of `DeleteFile`. -/
def dropPage (pool : PageBufferManager n) (fpId : FilePageId) : PageBufferManager n :=
  match pool.getFrameForPage fpId with
  | none => pool
  | some frame =>
      { pool.setFrame frame { pool.frames frame with isDirty := false } with
        pageMap := pool.pageMap.erase fpId
        replacer := pool.replacer.setEvictable frame true }

/-- The keys of one file, as `DeleteFile` collects them. -/
def toEvict (pool : PageBufferManager n) (fileId : FileId) : List FilePageId :=
  pool.pageMap.keys.filter fun fpId => fpId.fileId == fileId

def deleteFile (pool : PageBufferManager n) (fileId : FileId) (removed : Bool) :
    Except (Failure PoolError) Unit × PageBufferManager n :=
  if pool.fileHasPinnedPages fileId then
    (.error (.error (.deleteFileTimeoutError fileId)), pool)
  else
    let pool := (pool.toEvict fileId).foldl dropPage pool
    match pool.disk.deleteFile fileId removed with
    | (.error error, disk) => (.error (.error (.disk error)), { pool with disk })
    | (.ok (), disk) => (.ok (), { pool with disk })

/-- The destructor flushes every mapped page, and ignores what the flushes return. -/
def destroy (pool : PageBufferManager n) : PageBufferManager n :=
  pool.pageMap.keys.foldl (fun pool fpId => (pool.flushPage fpId none).2) pool

end PageBufferManager

/-! ### The clients -/

/-- A live `Page` object. -/
structure Handle (n : Nat) where
  id : Nat
  frame : Fin n
  mutView : Bool
  deriving DecidableEq

structure System (n : Nat) where
  pool : PageBufferManager n
  handles : List (Handle n)
  nextHandle : Nat

inductive PoolOp
  | getPage (fpId : FilePageId) (io : Transfers)
  | getPageIfFrameAvailable (fpId : FilePageId) (io : Transfers)
  | getMutView (handle : Nat)
  | writeByte (handle : Nat) (index : Fin pageSize) (byte : UInt8)
  | getView (handle : Nat)
  | release (handle : Nat)
  | createFile (fileId : FileId)
  | allocatePage (fileId : FileId) (pageId : PageId) (bytes : FullPage)
  | deleteFile (fileId : FileId) (removed : Bool)

inductive PoolAnswer
  | page (handle : Nat)
  | waits
  | noFrame
  | failed (failure : Failure PoolError)
  | view (bytes : FullPage)
  | done
  /-- No live handle has that name, or no mutable view was taken: no client makes such a call. -/
  | noHandle
  deriving DecidableEq

namespace System

variable {n : Nat}

def new (order : IterationOrder n) (buffer : Fin n → FullPage) (disk : PageStore) : System n :=
  { pool := .new order buffer disk, handles := [], nextHandle := 0 }

def findHandle (system : System n) (id : Nat) : Option (Handle n) :=
  system.handles.find? fun handle => handle.id == id

/-- Hand a pinned frame to a client as a new page object. -/
def receive (system : System n) (unavailable : PoolAnswer)
    (acquired : Option (Except (Failure PoolError) (Fin n)) × PageBufferManager n) :
    PoolAnswer × System n :=
  match acquired with
  | (none, pool) => (unavailable, { system with pool })
  | (some (.error failure), pool) => (.failed failure, { system with pool })
  | (some (.ok frame), pool) =>
      (.page system.nextHandle,
        { pool
          handles := { id := system.nextHandle, frame, mutView := false } :: system.handles
          nextHandle := system.nextHandle + 1 })

def getPage (system : System n) (fpId : FilePageId) (io : Transfers) : PoolAnswer × System n :=
  system.receive .waits (system.pool.acquire fpId io)

def getPageIfFrameAvailable (system : System n) (fpId : FilePageId) (io : Transfers) :
    PoolAnswer × System n :=
  system.receive .noFrame (system.pool.acquire fpId io)

/-- `Page::GetMutView`: the frame is dirty from now on. -/
def getMutView (system : System n) (id : Nat) : PoolAnswer × System n :=
  match system.findHandle id with
  | none => (.noHandle, system)
  | some handle =>
      let frame := system.pool.frames handle.frame
      (.done,
        { system with
          pool := system.pool.setFrame handle.frame { frame with isDirty := true }
          handles := system.handles.map fun other =>
            if other.id = id then { other with mutView := true } else other })

/-- A client stores a byte through the mutable view it took. -/
def writeByte (system : System n) (id : Nat) (index : Fin pageSize) (byte : UInt8) :
    PoolAnswer × System n :=
  match system.findHandle id with
  | none => (.noHandle, system)
  | some handle =>
      if handle.mutView then
        let frame := system.pool.frames handle.frame
        (.done,
          { system with
            pool := system.pool.setFrame handle.frame
              { frame with data := Function.update frame.data index byte } })
      else (.noHandle, system)

def getView (system : System n) (id : Nat) : PoolAnswer × System n :=
  match system.findHandle id with
  | none => (.noHandle, system)
  | some handle => (.view (system.pool.frames handle.frame).data, system)

/-- `Page::~Page`. -/
def release (system : System n) (id : Nat) : PoolAnswer × System n :=
  match system.findHandle id with
  | none => (.noHandle, system)
  | some handle =>
      match system.pool.removeAccessor (system.pool.frames handle.frame).fpId with
      | (.error failure, pool) => (.failed failure, { system with pool })
      | (.ok (), pool) => (.done, { system with pool, handles := system.handles.erase handle })

def createFile (system : System n) (fileId : FileId) : PoolAnswer × System n :=
  match system.pool.disk.createFile fileId with
  | (.error error, disk) =>
      (.failed (.error (.disk error)), { system with pool := { system.pool with disk } })
  | (.ok (), disk) => (.done, { system with pool := { system.pool with disk } })

def allocatePage (system : System n) (fileId : FileId) (pageId : PageId) (bytes : FullPage) :
    PoolAnswer × System n :=
  match system.pool.disk.allocatePage fileId pageId bytes with
  | (.error error, disk) =>
      (.failed (.error (.disk error)), { system with pool := { system.pool with disk } })
  | (.ok _, disk) => (.done, { system with pool := { system.pool with disk } })

def deleteFile (system : System n) (fileId : FileId) (removed : Bool) : PoolAnswer × System n :=
  match system.pool.deleteFile fileId removed with
  | (.error failure, pool) => (.failed failure, { system with pool })
  | (.ok (), pool) => (.done, { system with pool })

def step (system : System n) : PoolOp → PoolAnswer × System n
  | .getPage fpId io => system.getPage fpId io
  | .getPageIfFrameAvailable fpId io => system.getPageIfFrameAvailable fpId io
  | .getMutView handle => system.getMutView handle
  | .writeByte handle index byte => system.writeByte handle index byte
  | .getView handle => system.getView handle
  | .release handle => system.release handle
  | .createFile fileId => system.createFile fileId
  | .allocatePage fileId pageId bytes => system.allocatePage fileId pageId bytes
  | .deleteFile fileId removed => system.deleteFile fileId removed

end System

/-! ### Where runs start -/

namespace System

/-- The store with no files. -/
def emptyStore : PageStore := ⟨fun _ => false, fun _ => none, PageStore.noPages_null⟩

def onlyFrame : IterationOrder 1 := ⟨[0], by decide, by decide⟩

/-- Two frames, visited from the second to the first. -/
def secondFirst : IterationOrder 2 := ⟨(List.finRange 2).reverse, by decide, by decide⟩

end System

/-- The buffer manager with its clients, as a machine. -/
def poolMachine (n : Nat) : Machine (System n) PoolOp PoolAnswer := ⟨System.step⟩

end Yadb
