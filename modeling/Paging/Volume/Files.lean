import Paging.Volume.Basic

/-! Making, opening, filling and unlinking files. -/
namespace Paging.Volume

/-- Puts a new empty file under a name in a directory. Its inode has never been
used before, so nothing that is still in use changes. -/
def addFile (volume : Volume) (directory : Directory) (name : String) : Inode × Volume :=
  let inode : Inode := ⟨volume.contents.size⟩
  let held := { volume with contents := volume.contents.push .empty }
  (inode, held.setEntries directory ((volume.entries directory).insert name (.file inode)))

/-- Makes an empty file where there is nothing yet. What exists already is
never touched, whatever it is. -/
def createFile (volume : Volume) (path : Path) : Except Fault (Inode × Volume) :=
  match volume.resolve path with
  | .error fault => .error fault
  | .ok (.self _) => .error .exists
  | .ok (.above _) => .error .exists
  | .ok (.name directory name) =>
    if path.endsWithSlash then .error .isDirectory
    else match volume.entry directory name with
      | .ok _ => .error .exists
      | .error .noEntry => .ok (volume.addFile directory name)
      | .error fault => .error fault

/-- The file that a path leads to. The file keeps its content, and nothing is
made when there is none. -/
def openFile (volume : Volume) (path : Path) : Except Fault Inode :=
  match volume.status path with
  | .error fault => .error fault
  | .ok (.directory _) => .error .isDirectory
  | .ok (.file inode) => .ok inode

/-- The file that a path leads to, made empty when there is none. A file that
exists keeps its content. -/
def openOrCreate (volume : Volume) (path : Path) : Except Fault (Inode × Volume) :=
  match volume.resolve path with
  | .error fault => .error fault
  | .ok (.self _) => .error .isDirectory
  | .ok (.above _) => .error .isDirectory
  | .ok (.name directory name) =>
    if path.endsWithSlash then .error .isDirectory
    else match volume.entry directory name with
      | .ok (.directory _) => .error .isDirectory
      | .ok (.file inode) => .ok (inode, volume)
      | .error .noEntry => .ok (volume.addFile directory name)
      | .error fault => .error fault

/-- Removes the name of a file. The content stays for whoever has the file
open. -/
def unlink (volume : Volume) (path : Path) : Except Fault Volume :=
  match volume.resolve path with
  | .error fault => .error fault
  | .ok (.self _) => .error .isDirectory
  | .ok (.above _) => .error .isDirectory
  | .ok (.name directory name) =>
    match volume.entry directory name with
    | .error fault => .error fault
    | .ok (.directory _) => .error .isDirectory
    | .ok (.file _) =>
      if path.endsWithSlash then .error .notDirectory
      else .ok (volume.setEntries directory ((volume.entries directory).erase name))

/-- Gives a file other bytes. -/
def setContent (volume : Volume) (inode : Inode) (content : Content) : Volume :=
  { volume with contents := volume.contents.setIfInBounds inode.index content }

/-- Writes bytes into a file at a position, as far as there is room, and says
how many were written. -/
def writeAt (volume : Volume) (inode : Inode) (offset : Nat) (bytes : Array UInt8) :
    Except Fault (Nat × Volume) :=
  match (volume.content inode).write offset bytes with
  | .ok (moved, content) => .ok (moved, volume.setContent inode content)
  | .error fault => .error fault

/-- Writes bytes at the current end of a file, as far as there is room, and
says how many were written. -/
def append (volume : Volume) (inode : Inode) (bytes : Array UInt8) :
    Except Fault (Nat × Volume) :=
  match (volume.content inode).append bytes with
  | .ok (moved, content) => .ok (moved, volume.setContent inode content)
  | .error fault => .error fault

/-- The bytes of a file from a position on, at most `count` of them. -/
def readAt (volume : Volume) (inode : Inode) (offset count : Nat) : Array UInt8 :=
  (volume.content inode).read offset count

/-- Makes a file hold exactly these bytes, making the file first when there is
none. A file that exists stays the same file. -/
def replaceFile (volume : Volume) (path : Path) (bytes : Array UInt8) :
    Except Fault Volume :=
  match volume.openOrCreate path with
  | .ok (inode, opened) => .ok (opened.setContent inode (.ofBytes bytes))
  | .error fault => .error fault

/-- All bytes of the file that a path leads to, unless there are more than
`most` of them. -/
def contentOf? (volume : Volume) (path : Path) (most : Nat) : Option (Array UInt8) :=
  match volume.openFile path with
  | .error _ => none
  | .ok inode =>
    let content := volume.content inode
    if content.length ≤ most then some content.toArray else none

@[simp] theorem directories_setContent (volume : Volume) (inode : Inode) (content : Content) :
    (volume.setContent inode content).directories = volume.directories := rfl

/-- Giving a file other bytes changes no other file. -/
theorem content_setContent_of_ne (volume : Volume) {inode other : Inode} (content : Content)
    (hOther : other ≠ inode) :
    (volume.setContent inode content).content other = volume.content other := by
  have hIndex : inode.index ≠ other.index := by
    intro hSame
    apply hOther
    cases inode
    cases other
    exact congrArg Inode.mk hSame.symm
  simp [Volume.content, setContent, Array.getElem?_setIfInBounds_ne hIndex]

/-- A file that the volume holds has the bytes that it is given. -/
theorem content_setContent_self (volume : Volume) {inode : Inode} (content : Content)
    (hHeld : inode.index < volume.contents.size) :
    (volume.setContent inode content).content inode = content := by
  simp [Volume.content, setContent, hHeld]

/-- A new file takes nothing away from the files that there are. -/
theorem content_addFile (volume : Volume) (directory : Directory) (name : String)
    (inode : Inode) :
    (volume.addFile directory name).2.content inode = volume.content inode := by
  simp only [addFile, Volume.content, contents_setEntries, Array.getD_eq_getD_getElem?, Array.getElem?_push]
  split
  · rename_i hNew
    simp [hNew]
  · rfl

end Paging.Volume
