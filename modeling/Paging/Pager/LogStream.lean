import Paging.Pager.Basic
import Paging.Volume.Files

/-! The log: a file that is only appended to, and opened when it is first
needed. -/
namespace Paging.Pager

/-- A pager whose log is open. -/
structure LogAccess where
  inode : Inode
  pager : Pager
  volume : Volume
  events : List Event

/-- Opens the log unless it is open, and makes it when it does not exist. Once
opened it stays open, whatever becomes of its path. -/
def accessLog (pager : Pager) (volume : Volume) : Except Fault LogAccess :=
  match pager.log with
  | some inode => .ok ⟨inode, pager, volume, []⟩
  | none =>
    match volume.openOrCreate pager.logPath with
    | .error fault => .error fault
    | .ok (inode, opened) =>
      .ok ⟨inode, { pager with log := some inode }, opened, [.openedLog pager.logPath]⟩

/-- Appends the first `count` bytes of `data` to the log. Only an append of all
bytes is counted. -/
def appendLog (pager : Pager) (volume : Volume) (data : Array UInt8) (count : Nat) :
    Outcome Unit :=
  if data.size < count then
    pager.unchanged volume (.error (.bufferTooSmall count data.size))
  else match pager.accessLog volume with
    | .error fault => pager.unchanged volume (.error (.io fault))
    | .ok access =>
      match access.volume.append access.inode (data.extract 0 count) with
      | .error fault =>
        { access.pager.unchanged access.volume (.error (.io fault)) with events := access.events }
      | .ok (moved, written) =>
        if moved = count then
          { result := .ok ()
            pager :=
              { access.pager with statistics := access.pager.statistics.addLogWrite count }
            volume := written
            events := access.events ++ [.appendedLog count] }
        else
          { result := .error (.shortTransfer .writeLog count moved)
            pager := access.pager
            volume := written
            events := access.events ++ [.shortAppend moved count] }

/-- Reads at most `count` bytes of the log, from `offset` on, into the front of
the buffer, and says how many there were. At the end of the log there are none;
past the end there is no answer. -/
def readLog (pager : Pager) (volume : Volume) (buffer : Array UInt8) (count offset : Nat) :
    Outcome (Option Nat) :=
  if buffer.size < count then
    { pager.unchanged volume (.error (.bufferTooSmall count buffer.size)) with
      buffer := some buffer }
  else match pager.accessLog volume with
    | .error fault =>
      { pager.unchanged volume (.error (.io fault)) with buffer := some buffer }
    | .ok access =>
      let length := (access.volume.content access.inode).length
      if length < offset then
        { result := .ok none
          pager := access.pager
          volume := access.volume
          events := access.events
          buffer := some buffer }
      else
        let expected := min count (length - offset)
        let bytes := access.volume.readAt access.inode offset expected
        if bytes.size = expected then
          { result := .ok (some expected)
            pager :=
              { access.pager with statistics := access.pager.statistics.addLogRead expected }
            volume := access.volume
            events := access.events
            buffer := some (fillFront buffer bytes) }
        else
          { result := .error (.shortTransfer .readLog expected bytes.size)
            pager := access.pager
            volume := access.volume
            events := access.events
            buffer := some (fillFront buffer bytes) }

/-- Makes sure that the log is kept safely. A log that was never opened stays
closed, and on this volume everything that was written is safe already. -/
def syncLog (pager : Pager) (volume : Volume) : Outcome Unit :=
  pager.unchanged volume (.ok ())

end Paging.Pager
