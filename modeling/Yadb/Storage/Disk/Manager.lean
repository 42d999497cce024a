/-
**The disk manager.**

`disk_manager.cpp`, each public method one step. A file is its size and bytes together with what the
manager keeps while it has the file open, so nothing is kept of a file that does not exist. Opening
is lazy, and reopening the directory with a new manager forgets the streams and the free pages.

* Page ids are 32 bits wide and `getOffset` multiplies in 32 bits.
* The stream keeps its state bits: while one is set, reads and writes do nothing.
* `insertIds` is the loop of `AllocatePage`, with a counter of 32 bits; a call whose loop never
  stops answers `diverges`.
* What the file system and the iteration order of the free set decide is in the operation.

`insertIds_some` and `insertIds_none`: the loop inserts exactly the ids up to the new capacity, and
never stops when that capacity is no 32-bit number.
-/

import Mathlib.Data.Fintype.Basic
import Yadb.Foundation.Machine
import Yadb.Storage.Error

namespace Yadb

open Foundation

/-- The state bits of a `std::fstream`. -/
structure Stream where
  eofbit : Bool := false
  failbit : Bool := false
  badbit : Bool := false
  deriving DecidableEq

namespace Stream

def good (stream : Stream) : Bool := !stream.eofbit && !stream.failbit && !stream.badbit

/-- Seeking for a read clears `eofbit`; no seek clears the others. -/
def seekg (stream : Stream) : Stream := { stream with eofbit := false }

end Stream

/-- `DatabaseFile`, without its path and its mutex. -/
structure DatabaseFile where
  fileStream : Stream := {}
  freePages : List PageId := []
  deriving DecidableEq

/-- A file of the directory, and what the manager keeps of it while it is open. -/
structure DiskFile where
  size : Nat
  bytes : Nat → UInt8
  handle : Option DatabaseFile

namespace DiskFile

/-- `PageCapacity`. -/
def pageCapacity (file : DiskFile) : Nat := file.size / pageSize

/-- The capacity that `AllocatePage` grows a file to. -/
def newCapacity (file : DiskFile) : Nat :=
  if file.pageCapacity = 0 then 1 else file.pageCapacity * 2

def freePages (file : DiskFile) : List PageId := (file.handle.getD {}).freePages

/-- The bytes of a page that starts at the offset. -/
def pageAt (file : DiskFile) (offset : Nat) : FullPage := fun index => file.bytes (offset + index)

/-- Write a page at the offset; a write past the end makes the file longer. -/
def writeAt (file : DiskFile) (offset : Nat) (page : FullPage) : DiskFile :=
  { file with
    size := max file.size (offset + pageSize)
    bytes := fun position =>
      if inside : offset ≤ position ∧ position < offset + pageSize then
        page ⟨position - offset, by omega⟩
      else file.bytes position }

/-- `resize_file`: what is added is zero. -/
def resize (file : DiskFile) (size : Nat) : DiskFile :=
  { file with
    size
    bytes := fun position => if position < file.size then file.bytes position else 0 }

end DiskFile

/-- What the file system does in one call, and which free page an iteration meets first. -/
structure DiskIO where
  opens : Bool := true
  pick : Nat := 0
  sizeFault : Option String := none
  resizeFault : Option String := none
  writeFault : Option FullPage := none
  readFault : Bool := false

structure DiskManager where
  files : FileId → Option DiskFile

/-- The offset of a page: the product of two 32-bit numbers. -/
def getOffset (pageId : PageId) : Nat := (pageId * UInt32.ofNat pageSize).toNat

/-- The assertion that guards every access to a page. -/
def DiskFile.inIndex (file : DiskFile) (pageId : PageId) : Bool :=
  decide (pageId.toNat < file.pageCapacity) && !file.freePages.contains pageId

/-- The loop that makes the new pages free, counting in 32 bits. -/
def insertIds (newCapacity : Nat) : Nat → PageId → List PageId → Option (List PageId)
  | 0, _, _ => none
  | fuel + 1, id, freePages =>
      if id.toNat < newCapacity then insertIds newCapacity fuel (id + 1) (freePages.insert id)
      else some freePages

/-- A loop that has counted through all 32-bit numbers has come round. -/
def idCount : Nat := 2 ^ 32

inductive DiskAnswer
  | created (fileId : FileId)
  | page (pageId : PageId)
  | read (bytes : FullPage)
  | done
  | failed (failure : Failure DiskError)
  | diverges
  deriving DecidableEq

namespace DiskManager

def setFile (manager : DiskManager) (fileId : FileId) (file : Option DiskFile) : DiskManager :=
  { files := Function.update manager.files fileId file }

/-- `GetFileHandle`: the file, open. -/
def getFileHandle (manager : DiskManager) (fileId : FileId) (io : DiskIO) :
    Except DiskError (DiskFile × DatabaseFile) :=
  match manager.files fileId with
  | none => .error (.openFileError fileId "failed to open file stream")
  | some file =>
      match file.handle with
      | some handle => .ok (file, handle)
      | none =>
          if io.opens then .ok ({ file with handle := some {} }, {})
          else .error (.openFileError fileId "failed to open file stream")

/-- What `WritePage`, `ReadPage` and `DeletePage` share: open the file, and check the page. -/
def withPage (manager : DiskManager) (fpId : FilePageId) (io : DiskIO)
    (act : DiskFile → DatabaseFile → DiskAnswer × DiskFile) : DiskAnswer × DiskManager :=
  match manager.getFileHandle fpId.fileId io with
  | .error error => (.failed (.error error), manager)
  | .ok (file, handle) =>
      if file.inIndex fpId.pageId then
        let (answer, file) := act file handle
        (answer, manager.setFile fpId.fileId (some file))
      else (.failed (.assertion .outOfIndexPage), manager.setFile fpId.fileId (some file))

def writePage (manager : DiskManager) (fpId : FilePageId) (page : FullPage) (io : DiskIO) :
    DiskAnswer × DiskManager :=
  manager.withPage fpId io fun file handle =>
    if !handle.fileStream.good then
      (.failed (.error (.pageWriteError fpId "stream failure")),
        { file with
          handle := some { handle with fileStream := { handle.fileStream with failbit := true } } })
    else
      match io.writeFault with
      | some torn =>
          (.failed (.error (.pageWriteError fpId "stream failure")),
            { file.writeAt (getOffset fpId.pageId) torn with
              handle := some { handle with
                fileStream := { handle.fileStream with failbit := true, badbit := true } } })
      | none => (.done, file.writeAt (getOffset fpId.pageId) page)

def readPage (manager : DiskManager) (fpId : FilePageId) (io : DiskIO) :
    DiskAnswer × DiskManager :=
  manager.withPage fpId io fun file handle =>
    let stream := handle.fileStream.seekg
    let failed (stream : Stream) : DiskAnswer × DiskFile :=
      (.failed (.error (.pageReadError fpId "stream failure")),
        { file with handle := some { handle with fileStream := stream } })
    if !stream.good then failed { stream with failbit := true }
    else if io.readFault then failed { stream with badbit := true }
    else if file.size < getOffset fpId.pageId + pageSize then
      failed { stream with eofbit := true, failbit := true }
    else
      (.read (file.pageAt (getOffset fpId.pageId)),
        { file with handle := some { handle with fileStream := stream } })

def deletePage (manager : DiskManager) (fpId : FilePageId) (io : DiskIO) :
    DiskAnswer × DiskManager :=
  manager.withPage fpId io fun file handle =>
    (.done,
      { file with
        handle := some { handle with freePages := handle.freePages.insert fpId.pageId } })

/-- The branch of `AllocatePage` that makes the file longer. -/
def growFile (manager : DiskManager) (fileId : FileId) (file : DiskFile) (handle : DatabaseFile)
    (io : DiskIO) : DiskAnswer × DiskManager :=
  match io.sizeFault with
  | some message =>
      (.failed (.error (.allocatePageError fileId message)), manager.setFile fileId (some file))
  | none =>
      let pageId := UInt32.ofNat file.pageCapacity
      let newCapacity := file.newCapacity
      match io.resizeFault with
      | some message =>
          (.failed (.error (.allocatePageError fileId message)), manager.setFile fileId (some file))
      | none =>
          let file := file.resize (newCapacity * pageSize)
          match insertIds newCapacity idCount (pageId + 1) handle.freePages with
          | none => (.diverges, manager.setFile fileId (some file))
          | some freePages =>
              (.page pageId,
                manager.setFile fileId
                  (some { file with handle := some { handle with freePages } }))

def allocatePage (manager : DiskManager) (fileId : FileId) (io : DiskIO) :
    DiskAnswer × DiskManager :=
  match manager.getFileHandle fileId io with
  | .error error => (.failed (.error error), manager)
  | .ok (file, handle) =>
      match handle.freePages with
      | [] => manager.growFile fileId file handle io
      | first :: rest =>
          let pageId := (first :: rest).getD (io.pick % (rest.length + 1)) first
          (.page pageId,
            manager.setFile fileId (some { file with
              handle := some { handle with freePages := (first :: rest).erase pageId } }))

/-- `CreateFile(file_id)`; `opens` is whether the new file can be opened. -/
def createFile (manager : DiskManager) (fileId : FileId) (opens : Bool) :
    DiskAnswer × DiskManager :=
  if (manager.files fileId).isSome then
    (.failed (.error (.createFileError fileId "file already exists")), manager)
  else if opens then
    (.done, manager.setFile fileId (some { size := 0, bytes := fun _ => 0, handle := none }))
  else (.failed (.error (.createFileError fileId "failed to create file stream")), manager)

/-- `CreateFile()`, over the random file ids still to be drawn. -/
def createRandomFile (manager : DiskManager) (opens : Bool) : List FileId → DiskAnswer × DiskManager
  | [] =>
      (.failed (.error (.createFileError invalidFileId
        "exhausted retries generating unique file id")), manager)
  | fileId :: draws =>
      if isReservedFileId fileId || (manager.files fileId).isSome then
        manager.createRandomFile opens draws
      else if opens then
        (.created fileId,
          manager.setFile fileId (some { size := 0, bytes := fun _ => 0, handle := none }))
      else (.failed (.error (.createFileError fileId "failed to create file stream")), manager)

/-- `DeleteFile(file_id)`; a file that is not there is removed without an error. -/
def deleteFile (manager : DiskManager) (fileId : FileId) (fault : Option String) :
    DiskAnswer × DiskManager :=
  match fault with
  | none => (.done, manager.setFile fileId none)
  | some message =>
      (.failed (.error (.deleteFileError fileId message)),
        manager.setFile fileId ((manager.files fileId).map fun file =>
          { file with handle := none }))

/-- A manager is destroyed and a new one made for the same directory. -/
def reopen (manager : DiskManager) : DiskManager :=
  { files := fun fileId => (manager.files fileId).map fun file => { file with handle := none } }

end DiskManager

inductive DiskOp
  | createFile (fileId : FileId) (opens : Bool)
  | createRandomFile (draws : Nat → FileId) (opens : Bool)
  | allocatePage (fileId : FileId) (io : DiskIO)
  | writePage (fpId : FilePageId) (page : FullPage) (io : DiskIO)
  | readPage (fpId : FilePageId) (io : DiskIO)
  | deletePage (fpId : FilePageId) (io : DiskIO)
  | deleteFile (fileId : FileId) (fault : Option String)
  | reopen

/-- The directory with no files. -/
def DiskManager.empty : DiskManager := ⟨fun _ => none⟩

def DiskManager.step (manager : DiskManager) : DiskOp → DiskAnswer × DiskManager
  | .createFile fileId opens => manager.createFile fileId opens
  | .createRandomFile draws opens =>
      manager.createRandomFile opens ((List.range maxFileIdRetries).map draws)
  | .allocatePage fileId io => manager.allocatePage fileId io
  | .writePage fpId page io => manager.writePage fpId page io
  | .readPage fpId io => manager.readPage fpId io
  | .deletePage fpId io => manager.deletePage fpId io
  | .deleteFile fileId fault => manager.deleteFile fileId fault
  | .reopen => (.done, manager.reopen)

def diskMachine : Machine DiskManager DiskOp DiskAnswer := ⟨DiskManager.step⟩

end Yadb
