import Paging.Pager.Basic
import Paging.Volume.Directories
import Paging.Volume.Files

/-! Making, opening, closing and destroying files and directories. Operations
that other workers may come in between are put together from steps that nobody
comes in between, and those steps have names of their own. -/
namespace Paging.Pager

/-- Makes a directory and whatever is missing above it. -/
def createDirectory (pager : Pager) (volume : Volume) (path : Path) : Outcome Unit :=
  match volume.createDirectories path with
  | (.ok (), made) =>
    { result := .ok (), pager, volume := made, events := [.createdDirectory path] }
  | (.error fault, made) => pager.unchanged made (.error (.directory path fault))

/-- Removes a directory and all that is in it. Open files are not looked for:
those below the directory lose their names and stay open. -/
def destroyDirectory (pager : Pager) (volume : Volume) (path : Path) : Outcome Unit :=
  match volume.removeDirectories path with
  | (.ok (), left) =>
    { result := .ok (), pager, volume := left, events := [.destroyedDirectory path] }
  | (.error fault, left) => pager.unchanged left (.error (.directory path fault))

/-- Makes an empty file without opening it. A file that exists is never
emptied. -/
def createFile (pager : Pager) (volume : Volume) (path : Path) : Outcome Unit :=
  match volume.createFile path with
  | .ok (_, made) =>
    { result := .ok (), pager, volume := made, events := [.createdFile path] }
  | .error .exists => pager.unchanged volume (.error (.fileExists path))
  | .error fault => pager.unchanged volume (.error (.io fault))

/-- Whether a path must not be destroyed: it is open, or it is the path of the
log and the log has been opened. Other paths that lead to the same file are not
recognised. -/
def guards (pager : Pager) (path : Path) : Bool :=
  pager.table.isOpen path || (decide (path.SameAs pager.logPath) && pager.log.isSome)

/-- Removes a file by its name, without asking whether it is open. -/
def unlinkFile (pager : Pager) (volume : Volume) (path : Path) : Outcome Unit :=
  match volume.unlink path with
  | .ok left => { result := .ok (), pager, volume := left, events := [.destroyedFile path] }
  | .error _ => pager.unchanged volume (.error (.fileNotFound path))

/-- Destroys a file that is not open. -/
def destroyFile (pager : Pager) (volume : Volume) (path : Path) : Outcome Unit :=
  if pager.guards path then
    { pager.unchanged volume (.error (.fileNotClosed path)) with events := [.refusedDestroy path] }
  else pager.unlinkFile volume path

/-- Opens a file that is not open yet and enters it in the table. The descriptor
of a path that is open already is told again, even when the table is full. -/
def openTracked (pager : Pager) (volume : Volume) (path : Path) : Outcome Descriptor :=
  match pager.table.descriptor? path with
  | some fd => pager.unchanged volume (.ok fd)
  | none =>
    if pager.table.isFull then
      { pager.unchanged volume (.error (.tooManyOpenFiles pager.table.capacity)) with
        events := [.tableFull path] }
    else match volume.openFile path with
      | .error .noEntry => pager.unchanged volume (.error (.fileNotFound path))
      | .error fault => pager.unchanged volume (.error (.io fault))
      | .ok inode =>
        match pager.table.insert path inode with
        | .error error => pager.unchanged volume (.error error)
        | .ok (fd, table) =>
          { result := .ok fd, pager := { pager with table }, volume, events := [.opened path fd] }

/-- Opens an existing file. The file is looked for first, so a path that is open
but leads nowhere any more is not found. -/
def openFile (pager : Pager) (volume : Volume) (path : Path) : Outcome Descriptor :=
  if volume.isFile path then pager.openTracked volume path
  else pager.unchanged volume (.error (.fileNotFound path))

/-- The descriptor of a path, which is opened if it is not open. The table is
looked at first, so a path that is open is found wherever it leads by now. -/
def ensureOpen (pager : Pager) (volume : Volume) (path : Path) : Outcome Descriptor :=
  match pager.table.descriptor? path with
  | some fd => pager.unchanged volume (.ok fd)
  | none =>
    if volume.isFile path then pager.openTracked volume path
    else pager.unchanged volume (.error (.fileNotFound path))

/-- Takes a file out of the table, provided that it is still open by the given
handle. -/
def release (pager : Pager) (fd : Descriptor) (handle : Handle) : Pager × List Event :=
  if pager.handle? fd = some handle then
    match pager.table.remove fd with
    | (some file, table) => ({ pager with table }, [.closed fd file.path])
    | (none, _) => (pager, [])
  else (pager, [])

/-- Closes a file. A descriptor that is not in use is ignored. -/
def closeFile (pager : Pager) (volume : Volume) (fd : Descriptor) : Outcome Unit :=
  match pager.handle? fd with
  | none => pager.unchanged volume (.ok ())
  | some handle =>
    let (released, events) := pager.release fd handle
    { result := .ok (), pager := released, volume, events }

/-- Makes sure that an open file is kept safely. On this volume everything that
was written is safe already. -/
def syncFile (pager : Pager) (volume : Volume) (fd : Descriptor) : Outcome Unit :=
  match pager.handle? fd with
  | none => pager.unchanged volume (.error (.fileNotOpen fd))
  | some _ => pager.unchanged volume (.ok ())

/-- The path that a file was opened by, as it was spelled then. -/
def pathOf (pager : Pager) (volume : Volume) (fd : Descriptor) : Outcome Path :=
  match pager.table.file? fd with
  | none => pager.unchanged volume (.error (.fileNotOpen fd))
  | some file => pager.unchanged volume (.ok file.path)

end Paging.Pager
