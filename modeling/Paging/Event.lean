import Paging.Error
import Paging.Page

/-! What pagers record about their own work, as values. The wording is in
`Event.text` alone. -/
namespace Paging

/-- How much a record of an event matters. -/
inductive Level
  | trace
  | debug
  | warn
  deriving DecidableEq

/-- The written form of a level. -/
def Level.text : Level → String
  | trace => "TRACE"
  | debug => "DEBUG"
  | warn => "WARN"

/-- What a pager records about its own work. Records are emitted in the order
in which things happen, and nothing is ever read back from them. -/
inductive Event
  | wrotePage (count : Nat) (page : PageNo) (fd : Descriptor)
  | readPage (count : Nat) (page : PageNo) (fd : Descriptor)
  | appendedLog (count : Nat)
  /-- A page transfer moved fewer bytes than were asked for. -/
  | shortPage (transfer : Transfer) (page : PageNo) (fd : Descriptor) (actual expected : Nat)
  /-- An append moved fewer bytes than were asked for. -/
  | shortAppend (actual expected : Nat)
  | pageSpaceExhausted (fd : Descriptor)
  | createdDirectory (path : Path)
  | destroyedDirectory (path : Path)
  | createdFile (path : Path)
  | destroyedFile (path : Path)
  | refusedDestroy (path : Path)
  | tableFull (path : Path)
  | opened (path : Path) (fd : Descriptor)
  | closed (fd : Descriptor) (path : Path)
  | openedLog (path : Path)
  deriving DecidableEq

namespace Event

/-- Transfers are traced, changes of what is open or exists are debugging
matters, and what went wrong is a warning. -/
def level : Event → Level
  | wrotePage .. => .trace
  | readPage .. => .trace
  | appendedLog _ => .trace
  | shortPage .. => .warn
  | shortAppend .. => .warn
  | pageSpaceExhausted _ => .warn
  | refusedDestroy _ => .warn
  | tableFull _ => .warn
  | createdDirectory _ => .debug
  | destroyedDirectory _ => .debug
  | createdFile _ => .debug
  | destroyedFile _ => .debug
  | opened .. => .debug
  | closed .. => .debug
  | openedLog _ => .debug

/-- The written form of an event, without its level. -/
def text : Event → String
  | wrotePage count page fd => s!"wrote {count} bytes to {page.text} of {fd.text}"
  | readPage count page fd => s!"read {count} bytes from {page.text} of {fd.text}"
  | appendedLog count => s!"appended {count} bytes to log"
  | shortPage transfer page fd actual expected =>
    s!"{transfer.text} on {page.text} of {fd.text}: {actual} of {expected} bytes"
  | shortAppend actual expected => s!"short log append: {actual} of {expected} bytes"
  | pageSpaceExhausted fd => s!"page space exhausted for {fd.text}"
  | createdDirectory path => s!"created directory {path.text}"
  | destroyedDirectory path => s!"destroyed directory {path.text}"
  | createdFile path => s!"created file {path.text}"
  | destroyedFile path => s!"destroyed file {path.text}"
  | refusedDestroy path => s!"refusing to destroy open file {path.text}"
  | tableFull path => s!"file table full, cannot open {path.text}"
  | opened path fd => s!"opened {path.text} as {fd.text}"
  | closed fd path => s!"closed {fd.text} ({path.text})"
  | openedLog path => s!"opened log {path.text}"

/-- The written form of an event, after its level. -/
def line (event : Event) : String := s!"{event.level.text} {event.text}"

end Event

end Paging
