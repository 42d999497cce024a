import Yadb.Foundation.Machine
import Yadb.Foundation.WriteBack
import Yadb.Storage.Types
import Yadb.Storage.Error
import Yadb.Storage.Disk.PageStore
import Yadb.Storage.Buffer.Replacer
import Yadb.Storage.Buffer.Pool
import Yadb.Storage.Buffer.Steps
import Yadb.Storage.Buffer.Invariant
import Yadb.Storage.Buffer.PageMap
import Yadb.Storage.Buffer.EvictableCount
import Yadb.Storage.Buffer.View
import Yadb.Storage.Buffer.Refinement
import Yadb.Storage.Buffer.Failure
import Yadb.Foundation.Loop
import Yadb.Storage.Disk.Manager
import Yadb.Storage.Disk.Allocation
import Yadb.Storage.Disk.Offsets
import Yadb.Storage.Disk.Growth
import Yadb.Storage.Disk.Refinement
import Yadb.Foundation.Bytes
import Yadb.Foundation.Extents
import Yadb.Storage.Page.Directory
import Yadb.Storage.Page.Layout
import Yadb.Storage.Page.Refinement
import Yadb.Storage.Page.Vacuum
import Yadb.Storage.Page.Format
import Yadb.Foundation.Chain
import Yadb.Storage.Heap.HeapPage
import Yadb.Storage.Table.DiskTable
import Yadb.Storage.Table.DiskTableIterator
import Yadb.Storage.Table.Content
import Yadb.Storage.Table.Scan
import Yadb.Storage.Table.Refinement
import Yadb.Storage.Table.RowLength
import Yadb.Storage.Table.Links
import Yadb.Storage.Table.Stability
import Yadb.Storage.TableIterator
import Yadb.Storage.Ephemeral.TableIterator
import Yadb.Storage.Seek
import Yadb.Foundation.Fallible
import Yadb.Storage.Table.Concurrent
import Yadb.Storage.Table.Handles
import Yadb.Storage.Table.Waiting
import Yadb.Foundation.Codec
import Yadb.Foundation.SortedMap
import Yadb.Core.Datatypes
import Yadb.Core.RowBuilder
import Yadb.Core.RowReader
import Yadb.Storage.Ephemeral.Table
import Yadb.Storage.Ephemeral.Order
import Yadb.Storage.Backends
import Yadb.Storage.Buffer.Monitor
import Yadb.Table.Storage
import Yadb.Table.Factories
import Yadb.Table.Catalog
import Yadb.Table.FactoryView
import Yadb.Table.CatalogRefinement
import Yadb.Table.Manager
import Yadb.Table.Isolation
import Yadb.Table.Held
import Yadb.Table.Openable
import Yadb.Table.Restarts
import Yadb.Table.Creation
import Yadb.Executor.Select
import Yadb.Executor.SelectRefinement
import Yadb.Executor.Insert
import Yadb.Executor.WhereLegality
import Yadb.Foundation.Lexing
import Yadb.Sql.Lexer
import Yadb.Sql.Parser
import Yadb.Sql.Rendering
import Yadb.Sql.Grouping
import Yadb.Sql.RoundTrip
import Yadb.Core.SharedSpinlock
import Yadb.Storage.Buffer.LruK
import Yadb.Storage.Buffer.Recency
import Yadb.Storage.Ephemeral.Registry
import Yadb.Storage.Page.Reclaim
import Yadb.Foundation.XorSum
import Yadb.Storage.Page.Checksum
import Yadb.Foundation.Sorting
import Yadb.Optimizer.ExternalSort
import Yadb.Optimizer.TupleCount
import Yadb.Storage.Heap.Links
import Yadb.Storage.Disk.StreamFailure
import Yadb.Storage.Buffer.PageObject
import Yadb.Foundation.Decimal
import Yadb.Core.ValueText
import Yadb.Executor.Database
import Yadb.Executor.SelectResult
import Yadb.Executor.Execute
import Yadb.Executor.Sessions
import Yadb.Executor.Values
import Yadb.Sql.Reading
import Yadb.Sql.Sentences
import Yadb.Shell.ResultPrinter
import Yadb.Shell.Main
import Yadb.Shell.Dump
import Yadb.Foundation.Program
import Yadb.Storage.Buffer.Mirrors
import Yadb.Storage.Table.Requests
import Yadb.Storage.Table.Programs
import Yadb.Foundation.Ordered
import Yadb.Storage.RowOrder
import Yadb.Table.Backing
import Yadb.Table.Processes
