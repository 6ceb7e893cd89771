import Paging.Config
import Paging.Event
import Paging.OpenTable
import Paging.PageCounters
import Paging.Statistics

/-! The state of a pager and the shape of what its operations leave behind. -/
namespace Paging

/-- The keeper of page files and of one log, all of them files of one volume.
The volume is not part of a pager: several pagers may work on one volume, and
others may change it at any time. -/
structure Pager where
  table : OpenTable
  counters : PageCounters
  logPath : Path
  /-- The log, once it has been opened. -/
  log : Option Inode
  statistics : Statistics

/-- What is seen of one operation. -/
structure Report (α : Type) where
  result : Except Error α
  /-- What was recorded meanwhile, in order. -/
  events : List Event
  /-- The caller's buffer afterwards, if the operation reads into one. -/
  buffer : Option (Array UInt8)

/-- What one operation leaves behind. An operation that fails leaves all of
this too, and may have changed it before it failed. -/
structure Outcome (α : Type) where
  result : Except Error α
  pager : Pager
  volume : Volume
  /-- What was recorded meanwhile, in order. -/
  events : List Event := []
  /-- The caller's buffer afterwards, if the operation reads into one. -/
  buffer : Option (Array UInt8) := none

/-- The same outcome with another form of result. -/
def Outcome.map {α β : Type} (f : α → β) (outcome : Outcome α) : Outcome β :=
  { outcome with result := outcome.result.map f }

/-- What is seen of an outcome. -/
def Outcome.report {α : Type} (outcome : Outcome α) : Report α :=
  ⟨outcome.result, outcome.events, outcome.buffer⟩

/-- A buffer after bytes were read into its front. The rest is as it was. -/
def fillFront (buffer front : Array UInt8) : Array UInt8 :=
  front ++ buffer.extract front.size buffer.size

namespace Pager

/-- A pager with nothing open. Its number of slots has to be one that
descriptors can count, and at least one. -/
def create (config : Config) : Except ConfigFault Pager :=
  if config.maxOpenFiles = 0 then .error .noOpenFiles
  else if UInt32.size ≤ config.maxOpenFiles then .error .tooManyOpenFiles
  else .ok {
    table := .empty config.maxOpenFiles
    counters := .initial config.maxOpenFiles
    logPath := config.logPath
    log := none
    statistics := .zero }

/-- The handle of an open file. -/
def handle? (pager : Pager) (fd : Descriptor) : Option Handle :=
  (pager.table.file? fd).map OpenFile.handle

/-- The outcome of an operation that changes nothing. -/
def unchanged {α : Type} (pager : Pager) (volume : Volume) (result : Except Error α) :
    Outcome α :=
  { result, pager, volume }

end Pager

end Paging
