import Paging.Volume.Basic

/-! Making directories, and removing them with all that is in them. -/
namespace Paging.Volume

/-- Puts a new directory under a name in a directory. Nothing is in it, since it
was not there before. -/
def addDirectory (volume : Volume) (directory : Directory) (name : String) : Volume :=
  let made : Directory := ⟨volume.directories.size⟩
  let held := { volume with directories := volume.directories.push ∅ }
  held.setEntries directory ((volume.entries directory).insert name (.directory made))

/-- Makes one directory where there is nothing yet. The directory that it goes
into has to be there. -/
def createDirectory (volume : Volume) (path : Path) : Except Fault Volume :=
  match volume.resolve path with
  | .error fault => .error fault
  | .ok (.self _) => .error .exists
  | .ok (.above _) => .error .exists
  | .ok (.name directory name) =>
    match volume.entry directory name with
    | .ok _ => .error .exists
    | .error .noEntry => .ok (volume.addDirectory directory name)
    | .error fault => .error fault

/-- What an attempt to make a directory comes to. It has also succeeded when the
directory is there already. -/
def settle (volume : Volume) (path : Path) : Except Fault Volume → Except Fault Unit × Volume
  | .ok made => (.ok (), made)
  | .error fault => if volume.isDirectory path then (.ok (), volume) else (.error fault, volume)

/-- Makes a directory and, when the path leads nowhere without them, up to
`height` directories above it. What was made before a failure stays. -/
def establish (volume : Volume) (path : Path) : Nat → Except Fault Unit × Volume
  | 0 => volume.settle path (volume.createDirectory path)
  | height + 1 =>
    match volume.createDirectory path with
    | .error .noEntry =>
      match path.parent? with
      | none => volume.settle path (.error .noEntry)
      | some parent =>
        match volume.establish parent height with
        | (.ok (), above) => above.settle path (above.createDirectory path)
        | failed => failed
    | attempt => volume.settle path attempt

/-- Makes a directory and whatever is missing above it. The path without any
text asks for nothing. -/
def createDirectories (volume : Volume) (path : Path) : Except Fault Unit × Volume :=
  if path.text = "" then (.ok (), volume) else volume.establish path path.components.length

/-- Removes all that is in a directory, but not the directory itself. -/
def clear (volume : Volume) (directory : Directory) : Volume := volume.setEntries directory ∅

/-- Removes an empty directory. A directory cannot be removed by a path that
ends in a dot or in two dots. -/
def removeDirectory (volume : Volume) (path : Path) : Except Fault Volume :=
  match volume.resolve path with
  | .error fault => .error fault
  | .ok (.self _) => .error .invalidArgument
  | .ok (.above _) => .error .notEmpty
  | .ok (.name directory name) =>
    match volume.entry directory name with
    | .error fault => .error fault
    | .ok (.file _) => .error .notDirectory
    | .ok (.directory below) =>
      if (volume.entries below).isEmpty then
        .ok (volume.setEntries directory ((volume.entries directory).erase name))
      else .error .notEmpty

/-- The directory that a path leads to. -/
def directoryAt (volume : Volume) (path : Path) : Except Fault Directory :=
  match volume.status path with
  | .error fault => .error fault
  | .ok (.file _) => .error .notDirectory
  | .ok (.directory directory) => .ok directory

/-- Removes a directory with all that is in it. Its contents go first, and they
are gone even when the directory itself then cannot be removed. When the path
ran through what was removed, the directory it led to is left, and empty. -/
def removeDirectories (volume : Volume) (path : Path) : Except Fault Unit × Volume :=
  match volume.directoryAt path with
  | .error fault => (.error fault, volume)
  | .ok directory =>
    let cleared := volume.clear directory
    match cleared.removeDirectory path with
    | .ok removed => (.ok (), removed)
    | .error .noEntry => (.ok (), cleared)
    | .error fault => (.error fault, cleared)

end Paging.Volume
