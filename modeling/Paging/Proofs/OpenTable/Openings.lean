import Mathlib.Data.List.Nodup
import Mathlib.Data.List.Perm.Basic
import Paging.Proofs.OpenTable.Coherence

/-! Openings of files, told apart by their serial numbers. A descriptor may come to stand
for another file, and even for the same file opened anew; the serial number is then another
one, and none is ever used twice. -/
namespace Paging.OpenTable

/-- The parts of a table agree, and the openings in it have serial numbers that were given
out and that no two of them share. -/
structure Numbered (table : OpenTable) : Prop where
  coherent : table.Coherent
  capacity_lt : table.capacity < UInt32.size
  serial_lt : ∀ fd file, table.file? fd = some file → file.handle.serial < table.openings
  serial_inj : ∀ fd other file same, table.file? fd = some file →
    table.file? other = some same → file.handle.serial = same.handle.serial → fd = other

/-- The second table has what the first has, and one file more. -/
structure Gains (table : OpenTable) (fd : Descriptor) (file : OpenFile) (after : OpenTable) :
    Prop where
  free : table.file? fd = none
  file?_eq : ∀ other, after.file? other = if other = fd then some file else table.file? other

/-- The open files of a table that another table does not have. -/
def beyond (table other : OpenTable) : List (Descriptor × OpenFile) :=
  table.toList.filter fun entry => other.file? entry.1 ≠ some entry.2

theorem mem_toList_iff {table : OpenTable} {fd : Descriptor} {file : OpenFile} :
    (fd, file) ∈ table.toList ↔ table.file? fd = some file :=
  Std.ExtTreeMap.mem_toList_iff_getElem?_eq_some

/-- A path is open exactly if it has a descriptor. -/
theorem isOpen_iff {table : OpenTable} {path : Path} :
    table.isOpen path = true ↔ ∃ fd, table.descriptor? path = some fd := by
  rw [isOpen, Std.ExtTreeMap.contains_eq_isSome_getElem?, Option.isSome_iff_exists]
  rfl

theorem descriptor?_eq_of_sameAs (table : OpenTable) {path other : Path}
    (hSame : path.SameAs other) : table.descriptor? path = table.descriptor? other := by
  rw [descriptor?, descriptor?, hSame]

/-- The path of an open file is open, in every spelling. -/
theorem Coherent.isOpen_of_file? {table : OpenTable} (hCoherent : table.Coherent)
    {fd : Descriptor} {file : OpenFile} (hFile : table.file? fd = some file) {path : Path}
    (hPath : file.path.SameAs path) : table.isOpen path = true :=
  isOpen_iff.mpr ⟨fd, (hCoherent.byPath_iff _ _).mpr ⟨file, hFile, hPath⟩⟩

theorem nodup_toList (table : OpenTable) : table.toList.Nodup := by
  have hKeys := Std.ExtTreeMap.distinct_keys_toList (t := table.byDescriptor)
  refine hKeys.imp fun hDistinct hSame => hDistinct ?_
  rw [hSame]
  exact Std.ReflCmp.compare_self

theorem beyond_eq_nil {table other : OpenTable}
    (hKept : ∀ fd file, table.file? fd = some file → other.file? fd = some file) :
    table.beyond other = [] := by
  rw [beyond, List.filter_eq_nil_iff]
  rintro ⟨fd, file⟩ hMember
  simpa using hKept fd file (mem_toList_iff.mp hMember)

theorem beyond_self (table : OpenTable) : table.beyond table = [] :=
  beyond_eq_nil fun _ _ => id

namespace Gains

variable {table after : OpenTable} {fd : Descriptor} {file : OpenFile}
  (hGains : table.Gains fd file after)
include hGains

theorem file?_self : after.file? fd = some file := by
  rw [hGains.file?_eq, if_pos rfl]

theorem file?_of_ne {other : Descriptor} (hOther : other ≠ fd) :
    after.file? other = table.file? other := by
  rw [hGains.file?_eq, if_neg hOther]

/-- What was open stays open. -/
theorem file?_of_some {other : Descriptor} {same : OpenFile}
    (hSame : table.file? other = some same) : after.file? other = some same := by
  have hOther : other ≠ fd := by
    intro hEqual
    rw [hEqual, hGains.free] at hSame
    cases hSame
  rw [hGains.file?_of_ne hOther, hSame]

theorem perm_toList : after.toList.Perm ((fd, file) :: table.toList) := by
  have hNew : (fd, file) ∉ table.toList := by
    rw [mem_toList_iff, hGains.free]
    exact Option.some_ne_none file ∘ Eq.symm
  have hNodup : ((fd, file) :: table.toList).Nodup :=
    List.nodup_cons.mpr ⟨hNew, table.nodup_toList⟩
  rw [List.perm_ext_iff_of_nodup after.nodup_toList hNodup]
  rintro ⟨other, same⟩
  rw [List.mem_cons, mem_toList_iff, mem_toList_iff, hGains.file?_eq]
  by_cases hOther : other = fd
  · simp [hOther, hGains.free, eq_comm]
  · simp [hOther]

/-- The file that was gained is all that the second table has beyond the first. -/
theorem beyond_eq : after.beyond table = [(fd, file)] ∧ table.beyond after = [] := by
  constructor
  · have hPerm : (after.beyond table).Perm
        (((fd, file) :: table.toList).filter fun entry => table.file? entry.1 ≠ some entry.2) :=
      hGains.perm_toList.filter _
    rw [List.filter_cons_of_pos (by simp [hGains.free]), ← beyond, beyond_self] at hPerm
    exact List.perm_singleton.mp hPerm
  · exact beyond_eq_nil fun _ _ => hGains.file?_of_some

end Gains

theorem numbered_empty {capacity : Nat} (hCapacity : capacity < UInt32.size) :
    (empty capacity).Numbered where
  coherent := coherent_empty capacity 0
  capacity_lt := hCapacity
  serial_lt := by simp [empty, file?]
  serial_inj := by simp [empty, file?]

/-- A table from which a file was taken is one that gains it. -/
theorem gains_remove {table : OpenTable} {fd : Descriptor} {file : OpenFile}
    (hFile : table.file? fd = some file) : (table.remove fd).2.Gains fd file table := by
  rw [remove_of_file?_eq_some hFile]
  constructor
  · simp [file?]
  · intro other
    by_cases hOther : other = fd
    · rw [if_pos hOther, hOther, hFile]
    · simp [file?, Std.ExtTreeMap.getElem?_erase, hOther, Ne.symm hOther]

namespace Numbered

variable {table : OpenTable} (hNumbered : table.Numbered)
include hNumbered

theorem nodup_serials : (table.toList.map fun entry => entry.2.handle.serial).Nodup := by
  refine List.Nodup.map_on ?_ table.nodup_toList
  rintro ⟨fd, file⟩ hFile ⟨other, same⟩ hSame hSerial
  rw [mem_toList_iff] at hFile hSame
  obtain rfl := hNumbered.serial_inj fd other file same hFile hSame hSerial
  rw [hFile] at hSame
  rw [Option.some.inj hSame]

/-- A new path that was entered took the least descriptor that was free. -/
theorem reserves_of_insert {path : Path} (hNew : table.descriptor? path = none) {inode : Inode}
    {fd : Descriptor} {after : OpenTable} (hInsert : table.insert path inode = .ok (fd, after)) :
    ∃ released watermark, table.Reserves fd released watermark ∧
      after = { table with
        byPath := table.byPath.insert path.components fd
        byDescriptor := table.byDescriptor.insert fd ⟨path, ⟨inode, table.openings⟩⟩
        released, watermark, openings := table.openings + 1 } := by
  obtain ⟨free, released, watermark, hReserves, hEntered⟩ := hNumbered.coherent.insert_eq_ok hNew
    (count_lt_of_insert_eq_ok hNew hInsert) (Or.inl hNumbered.capacity_lt) inode
  rw [hEntered] at hInsert
  cases hInsert
  exact ⟨released, watermark, hReserves, rfl⟩

/-- A new path is entered under a free descriptor, with a serial number of its own, and
becomes known in every spelling. -/
theorem insert {path : Path} (hNew : table.descriptor? path = none) {inode : Inode}
    {fd : Descriptor} {after : OpenTable} (hInsert : table.insert path inode = .ok (fd, after)) :
    after.Numbered ∧ after.openings = table.openings + 1 ∧
      table.Gains fd ⟨path, ⟨inode, table.openings⟩⟩ after ∧
      ∀ other, after.descriptor? other =
        if path.SameAs other then some fd else table.descriptor? other := by
  obtain ⟨released, watermark, hReserves, rfl⟩ := hNumbered.reserves_of_insert hNew hInsert
  have hFree : table.file? fd = none := Std.ExtTreeMap.getElem?_eq_none hReserves.least.1
  have hGains : table.Gains fd ⟨path, ⟨inode, table.openings⟩⟩ { table with
      byPath := table.byPath.insert path.components fd
      byDescriptor := table.byDescriptor.insert fd ⟨path, ⟨inode, table.openings⟩⟩
      released, watermark, openings := table.openings + 1 } := by
    constructor
    · exact hFree
    · intro other
      by_cases hOther : other = fd
      · simp [file?, hOther]
      · simp [file?, Std.ExtTreeMap.getElem?_insert, hOther, Ne.symm hOther]
  refine ⟨⟨hNumbered.coherent.enter hNew hReserves _ _, hNumbered.capacity_lt, ?_, ?_⟩, rfl,
    hGains, fun other => ?_⟩
  · intro other file hFile
    rw [hGains.file?_eq] at hFile
    split at hFile
    · cases hFile
      exact Nat.lt_succ_self _
    · exact Nat.lt_succ_of_lt (hNumbered.serial_lt other file hFile)
  · intro first second file same hFirst hSecond hSerial
    rw [hGains.file?_eq] at hFirst hSecond
    -- The new serial number is larger than those of all other openings.
    split at hFirst <;> split at hSecond
    · rename_i hSame hOther
      rw [hSame, hOther]
    · cases hFirst
      exact absurd hSerial (Nat.ne_of_gt (hNumbered.serial_lt second same hSecond))
    · cases hSecond
      exact absurd hSerial (Nat.ne_of_lt (hNumbered.serial_lt first file hFirst))
    · exact hNumbered.serial_inj first second file same hFirst hSecond hSerial
  · by_cases hSame : path.components = other.components
    · simp [descriptor?, Path.SameAs, hSame]
    · simp [descriptor?, Path.SameAs, Std.ExtTreeMap.getElem?_insert, hSame]

/-- Taking a file out leaves the others with their serial numbers, and makes its path
unknown in every spelling. -/
theorem remove {fd : Descriptor} {file : OpenFile} (hFile : table.file? fd = some file) :
    (table.remove fd).2.Numbered ∧ (table.remove fd).2.openings = table.openings ∧
      ∀ other, (table.remove fd).2.descriptor? other =
        if file.path.SameAs other then none else table.descriptor? other := by
  have hGains := gains_remove hFile
  have hKept : ∀ other same, (table.remove fd).2.file? other = some same →
      table.file? other = some same := fun _ _ => hGains.file?_of_some
  rw [remove_of_file?_eq_some hFile] at hKept ⊢
  refine ⟨⟨hNumbered.coherent.leave hFile, hNumbered.capacity_lt, ?_, ?_⟩, rfl, fun other => ?_⟩
  · intro other same hSame
    exact hNumbered.serial_lt other same (hKept other same hSame)
  · intro first second one two hFirst hSecond
    exact hNumbered.serial_inj first second one two (hKept first one hFirst)
      (hKept second two hSecond)
  · by_cases hSame : file.path.components = other.components
    · simp [descriptor?, Path.SameAs, hSame]
    · simp [descriptor?, Path.SameAs, Std.ExtTreeMap.getElem?_erase, hSame]

end Numbered

end Paging.OpenTable
