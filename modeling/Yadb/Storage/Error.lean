/-
**Errors and assertions of the storage layer.**

The error classes of `disk_manager_error.h` and `page_buffer_manager_error.h` with the texts their
`what()` gives, and the `YADB_ASSERT`s of the two managers. An assertion aborts the process; a
function that can hit one returns a `Failure`.
-/

import Yadb.Storage.Types

namespace Yadb

/-- `disk_manager_error.h`. -/
inductive DiskError
  | createFileError (fileId : FileId) (reason : String)
  | allocatePageError (fileId : FileId) (reason : String)
  | pageReadError (fpId : FilePageId) (reason : String)
  | pageWriteError (fpId : FilePageId) (reason : String)
  | openFileError (fileId : FileId) (reason : String)
  | deleteFileError (fileId : FileId) (reason : String)
  deriving DecidableEq

/-- `"page {} in file {}: {}"`, the tail of every message about one page. -/
def pageMessage (fpId : FilePageId) (reason : String) : String :=
  "page " ++ toString fpId.pageId ++ " in file " ++ toString fpId.fileId ++ ": " ++ reason

/-- `"file {}: {}"`, the tail of every message about one file. -/
def fileMessage (fileId : FileId) (reason : String) : String :=
  "file " ++ toString fileId ++ ": " ++ reason

def DiskError.what : DiskError → String
  | .createFileError fileId reason => "failed to create " ++ fileMessage fileId reason
  | .allocatePageError fileId reason => "failed to allocate page in " ++ fileMessage fileId reason
  | .pageReadError fpId reason => "failed to read " ++ pageMessage fpId reason
  | .pageWriteError fpId reason => "failed to write " ++ pageMessage fpId reason
  | .openFileError fileId reason => "failed to open " ++ fileMessage fileId reason
  | .deleteFileError fileId reason => "failed to delete " ++ fileMessage fileId reason

/-- Why a page could not be loaded or flushed. -/
inductive Reason
  | noEvictableFrame
  | notInBufferPool
  | disk (error : DiskError)
  deriving DecidableEq

def Reason.text : Reason → String
  | .noEvictableFrame => "no evictable frame available"
  | .notInBufferPool => "page not in buffer pool"
  | .disk error => error.what

/-- `page_buffer_manager_error.h`, and the disk errors the buffer manager passes on. -/
inductive PoolError
  | getPageError (fpId : FilePageId) (reason : Reason)
  | flushPageError (fpId : FilePageId) (reason : Reason)
  | deleteFileTimeoutError (fileId : FileId)
  | disk (error : DiskError)
  deriving DecidableEq

def PoolError.what : PoolError → String
  | .getPageError fpId reason => "failed to get " ++ pageMessage fpId reason.text
  | .flushPageError fpId reason => "failed to flush " ++ pageMessage fpId reason.text
  | .deleteFileTimeoutError fileId =>
      "timed out waiting for pinned pages in file " ++ toString fileId ++ " to be released"
  | .disk error => error.what

/-- The assertions of the disk manager and the buffer manager. -/
inductive Assertion
  | outOfIndexPage
  | removeAccessorNotInPool
  | removeAccessorPinCountZero
  | pinNotInPool
  deriving DecidableEq

def Assertion.message : Assertion → String
  | .outOfIndexPage => "Out of index page"
  | .removeAccessorNotInPool => "RemoveAccessor called for page not in buffer pool"
  | .removeAccessorPinCountZero => "RemoveAccessor called when pin_count == 0"
  | .pinNotInPool => "PinAndReturnPage called for page not in buffer pool"

/-- How a call ends when it does not succeed: with an error, or with the process aborted. -/
inductive Failure (Error : Type)
  | error (error : Error)
  | assertion (assertion : Assertion)
  deriving DecidableEq

end Yadb
