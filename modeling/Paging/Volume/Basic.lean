import Std.Data.ExtTreeMap
import Paging.Path
import Paging.Volume.Content

/-! A volume is a tree of names and, apart from it, the contents the names lead
to. The two are apart because a file that is still in use keeps its content
when its name is removed or given to another file. Directories are numbered, so
that a walk takes one look-up for each name. -/
namespace Paging

/-- The names that lead from the root of a volume to a place in it. -/
abbrev Location := List String

/-- The identity of a file's content, whatever names lead to it. -/
structure Inode where
  index : Nat
  deriving DecidableEq

/-- The identity of a directory, whatever is in it. -/
structure Directory where
  index : Nat
  deriving DecidableEq

/-- What a name in a directory stands for. -/
inductive Node
  | file (inode : Inode)
  | directory (directory : Directory)
  deriving DecidableEq

/-- What is in a directory, with the names in the order of their bytes. -/
abbrev Entries := Std.ExtTreeMap String Node

/-- A tree of files and directories. The first directory is the root, which is
also where relative paths start. Directories and contents that no name leads to
any more keep their places. -/
structure Volume where
  directories : Array Entries
  contents : Array Content

/-- A name longer than this many bytes cannot be looked up. -/
def nameLimit : Nat := 255

/-- A path of this many bytes or more cannot be looked up. -/
def pathLimit : Nat := 4096

/-- The place that a path leads to, whether or not anything is there. -/
inductive Target
  /-- A directory, reached by a path that ends in a dot. -/
  | self (directory : Directory)
  /-- A directory, reached by a path that ends in two dots. -/
  | above (directory : Directory)
  /-- A name inside a directory. -/
  | name (directory : Directory) (name : String)
  deriving DecidableEq

namespace Volume

/-- The directory in which every walk starts. -/
def root : Directory := ⟨0⟩

/-- The volume with nothing in it. -/
def empty : Volume := ⟨#[∅], #[]⟩

/-- What is in a directory. -/
def entries (volume : Volume) (directory : Directory) : Entries :=
  volume.directories.getD directory.index ∅

/-- Changes what is in a directory. -/
def setEntries (volume : Volume) (directory : Directory) (entries : Entries) : Volume :=
  { volume with directories := volume.directories.setIfInBounds directory.index entries }

/-- What is found under a name inside a directory. -/
def entry (volume : Volume) (directory : Directory) (name : String) : Except Fault Node :=
  if nameLimit < name.utf8ByteSize then .error .nameTooLong
  else match (volume.entries directory)[name]? with
    | some node => .ok node
    | none => .error .noEntry

/-- The directory that a trail leads to. A trail holds the directories that were
entered on the way from the root, the last one first. -/
def here (trail : List Directory) : Directory := trail.head?.getD root

/-- The trail that one segment leads to. From the root, two dots lead to the
root. -/
def enter (volume : Volume) (trail : List Directory) (segment : String) :
    Except Fault (List Directory) :=
  if segment = "." then .ok trail
  else if segment = ".." then .ok trail.tail
  else match volume.entry (here trail) segment with
    | .ok (.directory next) => .ok (next :: trail)
    | .ok (.file _) => .error .notDirectory
    | .error fault => .error fault

/-- The trail that a list of segments leads to. -/
def walk (volume : Volume) (trail : List Directory) : List String → Except Fault (List Directory)
  | [] => .ok trail
  | segment :: rest =>
    match volume.enter trail segment with
    | .ok next => volume.walk next rest
    | .error fault => .error fault

/-- Follows a path up to its last segment. The last segment itself is not
looked up, so a target may lead nowhere yet. -/
def resolve (volume : Volume) (path : Path) : Except Fault Target :=
  if path.holdsNul then .error .nulInPath
  else if path.text = "" then .error .noEntry
  else if pathLimit ≤ path.text.utf8ByteSize then .error .nameTooLong
  else
    match volume.walk [] path.segments.dropLast with
    | .error fault => .error fault
    | .ok trail =>
      match path.segments.getLast? with
      | none => .ok (.self (here trail))
      | some "." => .ok (.self (here trail))
      | some ".." => .ok (.above (here trail.tail))
      | some name => .ok (.name (here trail) name)

/-- What a path leads to. A slash at the end of a path asks for a directory, so
a file is not found by such a path. -/
def status (volume : Volume) (path : Path) : Except Fault Node :=
  match volume.resolve path with
  | .error fault => .error fault
  | .ok (.self directory) => .ok (.directory directory)
  | .ok (.above directory) => .ok (.directory directory)
  | .ok (.name directory name) =>
    match volume.entry directory name with
    | .ok (.file inode) => if path.endsWithSlash then .error .notDirectory else .ok (.file inode)
    | .ok (.directory below) => .ok (.directory below)
    | .error fault => .error fault

/-- Whether a path leads to a directory. -/
def isDirectory (volume : Volume) (path : Path) : Bool :=
  match volume.status path with
  | .ok (.directory _) => true
  | _ => false

/-- Whether a path leads to a file. -/
def isFile (volume : Volume) (path : Path) : Bool :=
  match volume.status path with
  | .ok (.file _) => true
  | _ => false

/-- The bytes of a file, named or not. -/
def content (volume : Volume) (inode : Inode) : Content :=
  volume.contents.getD inode.index .empty

/-- The size of what a path leads to. Directories have a size of their own,
which says nothing about what is in them and is not told. -/
inductive Extent
  | directory
  | bytes (count : Nat)
  deriving DecidableEq

/-- The size of what a name stands for. -/
def extent (volume : Volume) : Node → Extent
  | .directory _ => .directory
  | .file inode => .bytes (volume.content inode).length

/-- The size of what a path leads to, or `none` when it leads nowhere. -/
def extent? (volume : Volume) (path : Path) : Option Extent :=
  match volume.status path with
  | .ok node => some (volume.extent node)
  | .error _ => none

/-- Every file and directory that is at most `depth` names below a directory,
with its size, each directory before what is in it. -/
def listingBelow (volume : Volume) (directory : Directory) (location : Location) :
    Nat → List (Location × Extent)
  | 0 => []
  | depth + 1 =>
    (volume.entries directory).toList.flatMap fun (name, node) =>
      let place := location ++ [name]
      (place, volume.extent node) ::
        match node with
        | .file _ => []
        | .directory below => volume.listingBelow below place depth

/-- Every file and directory with its size, each directory before what is in it.
Nothing lies deeper than there are directories. -/
def listing (volume : Volume) : List (Location × Extent) :=
  volume.listingBelow root [] volume.directories.size

/-- Changing what is in one directory changes no other. -/
theorem entries_setEntries_of_ne (volume : Volume) {directory other : Directory}
    (entries : Entries) (hOther : other ≠ directory) :
    (volume.setEntries directory entries).entries other = volume.entries other := by
  have hIndex : directory.index ≠ other.index := by
    intro hSame
    apply hOther
    cases directory
    cases other
    exact congrArg Directory.mk hSame.symm
  simp [Volume.entries, setEntries, Array.getElem?_setIfInBounds_ne hIndex]

/-- A directory that the volume has holds what is put into it. -/
theorem entries_setEntries_self (volume : Volume) {directory : Directory} (entries : Entries)
    (hHeld : directory.index < volume.directories.size) :
    (volume.setEntries directory entries).entries directory = entries := by
  simp [Volume.entries, setEntries, hHeld]

@[simp] theorem contents_setEntries (volume : Volume) (directory : Directory)
    (entries : Entries) :
    (volume.setEntries directory entries).contents = volume.contents := rfl

end Volume

end Paging
