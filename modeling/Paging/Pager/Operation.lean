import Paging.Pager.Lifecycle
import Paging.Pager.LogStream
import Paging.Pager.Pages
import Paging.Trace

/-! All operations of a pager as one type, so that a law can speak of every
operation and of every run. -/
namespace Paging

/-- What can be asked of a pager. -/
inductive Operation
  | writePage (fd : Descriptor) (page : PageNo) (data : Array UInt8) (count : Nat)
  | readPage (fd : Descriptor) (page : PageNo) (buffer : Array UInt8) (count : Nat)
  | allocatePage (fd : Descriptor)
  | nextPage (fd : Descriptor)
  | setNextPage (fd : Descriptor) (page : PageNo)
  | releasePage (page : PageNo)
  | isDirectory (path : Path)
  | isFile (path : Path)
  | isOpen (path : Path)
  | createDirectory (path : Path)
  | destroyDirectory (path : Path)
  | createFile (path : Path)
  | destroyFile (path : Path)
  | openFile (path : Path)
  | ensureOpen (path : Path)
  | closeFile (fd : Descriptor)
  | syncFile (fd : Descriptor)
  | extent (path : Path)
  | pathOf (fd : Descriptor)
  | openCount
  | appendLog (data : Array UInt8) (count : Nat)
  | readLog (buffer : Array UInt8) (count offset : Nat)
  | syncLog
  | logPath
  | statistics
  | resetStatistics
  deriving DecidableEq

/-- What a pager answers when it does not fail. -/
inductive Reply
  | done
  | flag (value : Bool)
  | page (page : PageNo)
  | descriptor (fd : Descriptor)
  | path (path : Path)
  | count (count : Nat)
  /-- The size of what a path leads to, if it leads anywhere. -/
  | extent (extent : Option Volume.Extent)
  /-- How many bytes of the log were read, unless the log ends before them. -/
  | logRead (count : Option Nat)
  | statistics (statistics : Statistics)
  deriving DecidableEq

namespace Pager

/-- Performs one operation. -/
def perform (pager : Pager) (volume : Volume) : Operation → Outcome Reply
  | .writePage fd page data count =>
    (pager.writePage volume fd page data count).map fun _ => .done
  | .readPage fd page buffer count =>
    (pager.readPage volume fd page buffer count).map fun _ => .done
  | .allocatePage fd => (pager.allocatePage volume fd).map .page
  | .nextPage fd => (pager.nextPage volume fd).map .page
  | .setNextPage fd page => (pager.setNextPage volume fd page).map fun _ => .done
  | .releasePage page => (pager.releasePage volume page).map fun _ => .done
  | .isDirectory path => pager.unchanged volume (.ok (.flag (volume.isDirectory path)))
  | .isFile path => pager.unchanged volume (.ok (.flag (volume.isFile path)))
  | .isOpen path => pager.unchanged volume (.ok (.flag (pager.table.isOpen path)))
  | .createDirectory path => (pager.createDirectory volume path).map fun _ => .done
  | .destroyDirectory path => (pager.destroyDirectory volume path).map fun _ => .done
  | .createFile path => (pager.createFile volume path).map fun _ => .done
  | .destroyFile path => (pager.destroyFile volume path).map fun _ => .done
  | .openFile path => (pager.openFile volume path).map .descriptor
  | .ensureOpen path => (pager.ensureOpen volume path).map .descriptor
  | .closeFile fd => (pager.closeFile volume fd).map fun _ => .done
  | .syncFile fd => (pager.syncFile volume fd).map fun _ => .done
  | .extent path => pager.unchanged volume (.ok (.extent (volume.extent? path)))
  | .pathOf fd => (pager.pathOf volume fd).map .path
  | .openCount => pager.unchanged volume (.ok (.count pager.table.count))
  | .appendLog data count => (pager.appendLog volume data count).map fun _ => .done
  | .readLog buffer count offset => (pager.readLog volume buffer count offset).map .logRead
  | .syncLog => (pager.syncLog volume).map fun _ => .done
  | .logPath => pager.unchanged volume (.ok (.path pager.logPath))
  | .statistics => pager.unchanged volume (.ok (.statistics pager.statistics))
  | .resetStatistics =>
    { result := .ok .done, pager := { pager with statistics := .zero }, volume }

/-- Performs operations in order. Gives what is seen of each, and the pager and
the volume that are left. -/
def run (pager : Pager) (volume : Volume) (operations : List Operation) :
    List (Report Reply) × Pager × Volume :=
  trace
    (fun (pager, volume) operation =>
      let outcome := pager.perform volume operation
      (outcome.report, outcome.pager, outcome.volume))
    (pager, volume) operations

@[simp] theorem run_nil (pager : Pager) (volume : Volume) :
    pager.run volume [] = ([], pager, volume) := rfl

@[simp] theorem run_cons (pager : Pager) (volume : Volume) (operation : Operation)
    (rest : List Operation) :
    pager.run volume (operation :: rest) =
      let outcome := pager.perform volume operation
      (outcome.report :: (outcome.pager.run outcome.volume rest).1,
        (outcome.pager.run outcome.volume rest).2) :=
  trace_cons _ (pager, volume) operation rest

end Pager

end Paging
