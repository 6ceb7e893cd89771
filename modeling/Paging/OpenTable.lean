import Std.Data.ExtTreeSet
import Paging.Error
import Paging.Volume.Basic

/-! The open files of a pager, found by path and by descriptor. The four parts
of the table are kept in step by its operations, not by its type: what they
agree on in every table that the operations can make is a theorem. -/
namespace Paging

/-- One opening of a file. The serial number tells apart two openings of the
same file, even when the second has the descriptor of the first. -/
structure Handle where
  inode : Inode
  serial : Nat
  deriving DecidableEq

/-- An open file, with the path it was opened by. -/
structure OpenFile where
  path : Path
  handle : Handle
  deriving DecidableEq

/-- A table of open files. -/
structure OpenTable where
  /-- How many files may be open at once. -/
  capacity : Nat
  /-- The descriptors by the components of the paths. -/
  byPath : Std.ExtTreeMap (List String) Descriptor
  byDescriptor : Std.ExtTreeMap Descriptor OpenFile
  /-- The descriptors that were in use and are not any more. -/
  released : Std.ExtTreeSet Descriptor
  /-- The lowest descriptor that was never in use. -/
  watermark : Descriptor
  /-- How many openings there have been. -/
  openings : Nat

namespace OpenTable

/-- The table without any open file. -/
def empty (capacity : Nat) : OpenTable := ⟨capacity, ∅, ∅, ∅, ⟨0⟩, 0⟩

/-- The open file with a descriptor. -/
def file? (table : OpenTable) (fd : Descriptor) : Option OpenFile := table.byDescriptor[fd]?

/-- The descriptor of a path, in any spelling. -/
def descriptor? (table : OpenTable) (path : Path) : Option Descriptor :=
  table.byPath[path.components]?

/-- Whether a path is open, in any spelling. -/
def isOpen (table : OpenTable) (path : Path) : Bool := table.byPath.contains path.components

/-- How many files are open. -/
def count (table : OpenTable) : Nat := table.byDescriptor.size

/-- Whether no more files can be opened. -/
def isFull (table : OpenTable) : Bool := table.capacity ≤ table.count

/-- The open files by descriptor, lowest first. -/
def toList (table : OpenTable) : List (Descriptor × OpenFile) := table.byDescriptor.toList

/-- The lowest descriptor that was in use and is not any more. -/
def lowestReleased? (table : OpenTable) : Option Descriptor :=
  Id.run (forIn table.released none fun fd _ => pure (.done (some fd)))

/-- Takes the lowest descriptor that is free: the lowest released one, or else
the lowest that was never in use. A full table has none. -/
def takeFree (table : OpenTable) : Except Error (Descriptor × OpenTable) :=
  if table.isFull then .error (.tooManyOpenFiles table.capacity)
  else match table.lowestReleased? with
    | some fd => .ok (fd, { table with released := table.released.erase fd })
    | none =>
      .ok (table.watermark, { table with watermark := ⟨table.watermark.number + 1⟩ })

/-- Enters a file that was just opened under the lowest free descriptor. A path
that is open already keeps its descriptor, and the new opening is dropped. -/
def insert (table : OpenTable) (path : Path) (inode : Inode) :
    Except Error (Descriptor × OpenTable) :=
  match table.descriptor? path with
  | some fd => .ok (fd, table)
  | none =>
    match table.takeFree with
    | .error error => .error error
    | .ok (fd, free) =>
      .ok (fd, { free with
        byPath := free.byPath.insert path.components fd
        byDescriptor := free.byDescriptor.insert fd ⟨path, ⟨inode, free.openings⟩⟩
        openings := free.openings + 1 })

/-- Takes an open file out of the table and releases its descriptor. -/
def remove (table : OpenTable) (fd : Descriptor) : Option OpenFile × OpenTable :=
  match table.file? fd with
  | none => (none, table)
  | some file =>
    (some file, { table with
      byPath := table.byPath.erase file.path.components
      byDescriptor := table.byDescriptor.erase fd
      released := table.released.insert fd })

/-- Takes all open files out of the table. All descriptors then count as never
used. -/
def drain (table : OpenTable) : List (Descriptor × OpenFile) × OpenTable :=
  (table.toList, { table with byPath := ∅, byDescriptor := ∅, released := ∅, watermark := ⟨0⟩ })

theorem lowestReleased?_eq_head? (table : OpenTable) :
    table.lowestReleased? = table.released.toList.head? := by
  rw [lowestReleased?, Std.ExtTreeSet.forIn_eq_forIn_toList]
  cases table.released.toList <;> rfl

end OpenTable

end Paging
