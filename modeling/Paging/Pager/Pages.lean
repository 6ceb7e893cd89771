import Paging.Pager.Basic
import Paging.Volume.Files

/-! Moving pages between callers and open files, and handing out page numbers. -/
namespace Paging.Pager

/-- Writes the first `count` bytes of `data` into the file open under `fd`, from
the start of the page on. More than a page's worth of bytes runs on into the
pages that follow. Only a write of all bytes is counted. -/
def writePage (pager : Pager) (volume : Volume) (fd : Descriptor) (page : PageNo)
    (data : Array UInt8) (count : Nat) : Outcome Unit :=
  if data.size < count then
    pager.unchanged volume (.error (.bufferTooSmall count data.size))
  else match pager.handle? fd with
    | none => pager.unchanged volume (.error (.fileNotOpen fd))
    | some handle =>
      match volume.writeAt handle.inode page.offset (data.extract 0 count) with
      | .error fault => pager.unchanged volume (.error (.io fault))
      | .ok (moved, written) =>
        if moved = count then
          { result := .ok ()
            pager := { pager with statistics := pager.statistics.addPageWrite count }
            volume := written
            events := [.wrotePage count page fd] }
        else
          { result := .error (.shortTransfer .writePage count moved)
            pager
            volume := written
            events := [.shortPage .writePage page fd moved count] }

/-- Reads `count` bytes of the file open under `fd`, from the start of the page
on, into the front of the buffer. When the file ends earlier, the bytes up to
its end are in the buffer and the read has failed. -/
def readPage (pager : Pager) (volume : Volume) (fd : Descriptor) (page : PageNo)
    (buffer : Array UInt8) (count : Nat) : Outcome Unit :=
  if buffer.size < count then
    { pager.unchanged volume (.error (.bufferTooSmall count buffer.size)) with
      buffer := some buffer }
  else match pager.handle? fd with
    | none => { pager.unchanged volume (.error (.fileNotOpen fd)) with buffer := some buffer }
    | some handle =>
      let bytes := volume.readAt handle.inode page.offset count
      if bytes.size = count then
        { result := .ok ()
          pager := { pager with statistics := pager.statistics.addPageRead count }
          volume
          events := [.readPage count page fd]
          buffer := some (fillFront buffer bytes) }
      else
        { result := .error (.shortTransfer .readPage count bytes.size)
          pager
          volume
          events := [.shortPage .readPage page fd bytes.size count]
          buffer := some (fillFront buffer bytes) }

/-- Hands out the next page number of a slot, whether or not a file is open
under its descriptor. -/
def allocatePage (pager : Pager) (volume : Volume) (fd : Descriptor) : Outcome PageNo :=
  match pager.counters.allocate fd with
  | .ok (page, counters) => { result := .ok page, pager := { pager with counters }, volume }
  | .error (.pageSpaceExhausted fd) =>
    { pager.unchanged volume (.error (.pageSpaceExhausted fd)) with
      events := [.pageSpaceExhausted fd] }
  | .error error => pager.unchanged volume (.error error)

/-- The page number that the next allocation of the slot hands out. -/
def nextPage (pager : Pager) (volume : Volume) (fd : Descriptor) : Outcome PageNo :=
  pager.unchanged volume (pager.counters.next fd)

/-- Sets the page number that the next allocation of the slot hands out. It may
go back, and then numbers are handed out again. -/
def setNextPage (pager : Pager) (volume : Volume) (fd : Descriptor) (page : PageNo) :
    Outcome Unit :=
  match pager.counters.set fd page with
  | .ok counters => { result := .ok (), pager := { pager with counters }, volume }
  | .error error => pager.unchanged volume (.error error)

/-- Gives a page number back. Numbers given back are not handed out again, so
nothing is remembered. -/
def releasePage (pager : Pager) (volume : Volume) (_page : PageNo) : Outcome Unit :=
  pager.unchanged volume (.ok ())

end Paging.Pager
