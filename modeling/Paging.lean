import Paging.Config
import Paging.Descriptor
import Paging.Error
import Paging.Event
import Paging.Eviction.Notice
import Paging.Eviction.Operation
import Paging.Eviction.Queue.Basic
import Paging.Eviction.Queue.Frames
import Paging.Frame
import Paging.OpenTable
import Paging.Page
import Paging.PageCounters
import Paging.Pager.Basic
import Paging.Pager.Lifecycle
import Paging.Pager.LogStream
import Paging.Pager.Operation
import Paging.Pager.Pages
import Paging.Path
import Paging.Proofs.Eviction.AgeOrder
import Paging.Proofs.Eviction.Past
import Paging.Proofs.LogDestruction
import Paging.Proofs.LogSeparation
import Paging.Proofs.LogStream
import Paging.Proofs.OpenFiles
import Paging.Proofs.OpenTable.Coherence
import Paging.Proofs.OpenTable.LeastDescriptor
import Paging.Proofs.OpenTable.Openings
import Paging.Proofs.PageNumbers
import Paging.Proofs.PageStore
import Paging.Proofs.Pager.Holding
import Paging.Proofs.Pager.Naming
import Paging.Proofs.Pager.Numbering
import Paging.Proofs.Pager.Parts
import Paging.Proofs.Pager.Records
import Paging.Proofs.Pager.Transfers
import Paging.Proofs.Session.Files
import Paging.Proofs.Session.History
import Paging.Proofs.Session.Names
import Paging.Proofs.Volume.Bytes
import Paging.Proofs.Volume.Changes
import Paging.Proofs.Volume.Grounded
import Paging.Proofs.Volume.Growth
import Paging.Proofs.Volume.Names
import Paging.Proofs.Volume.Removal
import Paging.Proofs.Volume.Spellings
import Paging.Proofs.Workplace.Openings
import Paging.Schedule
import Paging.Session
import Paging.Statistics
import Paging.Trace
import Paging.Volume.Basic
import Paging.Volume.Blocks
import Paging.Volume.Content
import Paging.Volume.Directories
import Paging.Volume.Fault
import Paging.Volume.Files
import Paging.Workplace
import Paging.Proofs.ClosedFiles
import Paging.Proofs.OnePath
import Paging.Proofs.Pager.Counting
import Paging.Proofs.TransferCounts
import Paging.Proofs.Pager.Failing
import Paging.Proofs.FailedOperations
import Paging.Proofs.FileOpening
import Paging.Proofs.Eviction.Conservation
import Paging.Proofs.FilePages
import Paging.Proofs.LogPolling
import Paging.Proofs.Eviction.Restriction
import Paging.Proofs.Volume.Overlays
import Paging.Proofs.PageWrites
import Paging.Proofs.Volume.Newcomers
import Paging.Proofs.FileContents
import Paging.Proofs.Pager.Replay
import Paging.Proofs.TableRecords
import Paging.Proofs.Eviction.OverCapacity
import Paging.Proofs.WholePages
import Paging.Proofs.Pager.Checked
import Paging.Proofs.UnstoppedOperations
import Paging.Proofs.Path.Respelling
import Paging.Proofs.OpenSpellings
import Paging.Proofs.Pager.OpenLog
import Paging.Proofs.Workplace.Surroundings
import Paging.Proofs.LogOpening
