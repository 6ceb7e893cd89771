import Paging.Descriptor
import Paging.Path
import Paging.Volume.Fault

/-! The ways in which operations of a pager fail, as causes. The wording is in
`Error.message` alone. -/
namespace Paging

/-- The four ways in which bytes move between a caller and the volume. -/
inductive Transfer
  | readPage
  | writePage
  | readLog
  | writeLog
  deriving DecidableEq

/-- The written form of a kind of transfer. -/
def Transfer.text : Transfer → String
  | readPage => "read_page"
  | writePage => "write_page"
  | readLog => "read_log"
  | writeLog => "write_log"

/-- Why an operation of a pager failed. -/
inductive Error
  /-- The volume refused a transfer, or to make or open a file. -/
  | io (fault : Fault)
  /-- Fewer bytes were moved than were asked for. The bytes that were moved stay moved. -/
  | shortTransfer (transfer : Transfer) (expected actual : Nat)
  | fileExists (path : Path)
  | fileNotFound (path : Path)
  | fileNotClosed (path : Path)
  | fileNotOpen (fd : Descriptor)
  /-- The volume refused to make or to remove a directory. -/
  | directory (path : Path) (fault : Fault)
  /-- The descriptor is outside the range of slots. -/
  | invalidDescriptor (fd : Descriptor)
  | pageSpaceExhausted (fd : Descriptor)
  | tooManyOpenFiles (limit : Nat)
  | bufferTooSmall (requested available : Nat)
  deriving DecidableEq

namespace Error

/-- The written form of an error. -/
def message : Error → String
  | io fault => s!"I/O error: {fault.message}"
  | shortTransfer transfer expected actual =>
    s!"{transfer.text}: expected {expected} bytes, transferred {actual}"
  | fileExists path => s!"File already exists: {path.text}"
  | fileNotFound path => s!"File not found: {path.text}"
  | fileNotClosed path => s!"File not closed: {path.text}"
  | fileNotOpen fd => s!"File not open: {fd.text}"
  | directory path fault => s!"OS error on {path.text}: {fault.message}"
  | invalidDescriptor fd => s!"Invalid file descriptor: {fd.text}"
  | pageSpaceExhausted fd => s!"Page space exhausted for {fd.text}"
  | tooManyOpenFiles limit => s!"Too many open files (limit {limit})"
  | bufferTooSmall requested available =>
    s!"Buffer too small: requested {requested} bytes, buffer holds {available}"

/-- Whether bytes failed to move: the volume refused, or moved too few. -/
def isIo : Error → Bool
  | io _ => true
  | shortTransfer .. => true
  | _ => false

/-- The fault of the volume behind an error, when there is one. -/
def cause? : Error → Option Fault
  | io fault => some fault
  | directory _ fault => some fault
  | _ => none

end Error

end Paging
