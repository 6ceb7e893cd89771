import Paging.OpenTable

/-! What the four parts of a table of open files agree on. Every descriptor below
the watermark is in use or released and never both, and the two maps hold the
same pairs. Main statements: each change keeps this, and a table that agrees
with itself always hands out the least descriptor that is not in use. -/
namespace Paging

theorem Descriptor.compare_eq_lt_iff {fd other : Descriptor} :
    compare fd other = .lt ↔ fd.index < other.index := by
  change compare fd.number other.number = .lt ↔ _
  rw [Std.compare_eq_lt]
  exact UInt32.lt_iff_toNat_lt

namespace OpenTable

/-- What the parts of a table agree on. The two sizes are part of it, since a
table is full by the number of its files and not by its watermark. -/
structure Coherent (table : OpenTable) : Prop where
  /-- The two maps hold the same pairs of a path and a descriptor. -/
  byPath_iff : ∀ (components : List String) (fd : Descriptor),
    table.byPath[components]? = some fd ↔
      ∃ file : OpenFile, table.byDescriptor[fd]? = some file ∧ file.path.components = components
  size_byPath : table.byPath.size = table.byDescriptor.size
  below_iff : ∀ fd : Descriptor, fd.index < table.watermark.index ↔
    fd ∈ table.byDescriptor ∨ fd ∈ table.released
  disjoint : ∀ fd ∈ table.released, fd ∉ table.byDescriptor
  size_add_size : table.byDescriptor.size + table.released.size = table.watermark.index
  watermark_le : table.watermark.index ≤ table.capacity

/-- The descriptor is not in use, and every lower one is. -/
def IsLeastFree (table : OpenTable) (fd : Descriptor) : Prop :=
  fd ∉ table.byDescriptor ∧
    ∀ lower : Descriptor, lower.index < fd.index → lower ∈ table.byDescriptor

/-- How many openings there have been makes no difference to an empty table. -/
theorem coherent_empty (capacity openings : Nat) :
    Coherent { empty capacity with openings } where
  byPath_iff := by simp [empty]
  size_byPath := by simp [empty]
  below_iff := by simp [empty, Descriptor.index]
  disjoint := by simp [empty]
  size_add_size := by simp [empty, Descriptor.index]
  watermark_le := by simp [empty, Descriptor.index]

namespace Coherent

variable {table : OpenTable} (hCoherent : table.Coherent)
include hCoherent

/-- Two paths that are not the same never share a descriptor. -/
theorem components_unique {components others : List String} {fd : Descriptor}
    (hPath : table.byPath[components]? = some fd) (hOther : table.byPath[others]? = some fd) :
    components = others := by
  obtain ⟨file, hFile, hComponents⟩ := (hCoherent.byPath_iff components fd).mp hPath
  obtain ⟨same, hSame, hOthers⟩ := (hCoherent.byPath_iff others fd).mp hOther
  rw [hFile] at hSame
  cases hSame
  exact hComponents.symm.trans hOthers

/-- Two descriptors never have paths that are the same. -/
theorem descriptor_unique {fd other : Descriptor} {file same : OpenFile}
    (hFile : table.byDescriptor[fd]? = some file) (hSame : table.byDescriptor[other]? = some same)
    (hPaths : file.path.SameAs same.path) : fd = other := by
  have hFirst := (hCoherent.byPath_iff _ _).mpr ⟨file, hFile, rfl⟩
  have hSecond := (hCoherent.byPath_iff _ _).mpr ⟨same, hSame, rfl⟩
  rw [hPaths, hSecond] at hFirst
  exact (Option.some.inj hFirst).symm

theorem count_le_capacity : table.count ≤ table.capacity := by
  have hSizes := hCoherent.size_add_size
  have hWatermark := hCoherent.watermark_le
  simp only [count]
  omega

theorem index_lt_capacity {fd : Descriptor} (hUsed : fd ∈ table.byDescriptor) :
    fd.index < table.capacity :=
  Nat.lt_of_lt_of_le ((hCoherent.below_iff fd).mpr (Or.inl hUsed)) hCoherent.watermark_le

end Coherent

/-- The lowest released descriptor is released and none below it is. -/
theorem lowest_of_lowestReleased?_eq_some {table : OpenTable} {fd : Descriptor}
    (hLowest : table.lowestReleased? = some fd) :
    fd ∈ table.released ∧ ∀ other ∈ table.released, fd.index ≤ other.index := by
  rw [lowestReleased?_eq_head?] at hLowest
  obtain ⟨rest, hList⟩ := List.head?_eq_some_iff.mp hLowest
  have hOrdered := table.released.ordered_toList
  rw [hList, List.pairwise_cons] at hOrdered
  refine ⟨Std.ExtTreeSet.mem_toList.mp (hList ▸ List.mem_cons_self), fun other hOther => ?_⟩
  have hMember := Std.ExtTreeSet.mem_toList.mpr hOther
  rw [hList] at hMember
  rcases List.mem_cons.mp hMember with rfl | hLater
  · exact Nat.le_refl _
  · exact Nat.le_of_lt (Descriptor.compare_eq_lt_iff.mp (hOrdered.1 other hLater))

theorem size_released_of_lowestReleased?_eq_none {table : OpenTable}
    (hNone : table.lowestReleased? = none) :
    table.released.size = 0 ∧ ∀ fd, fd ∉ table.released := by
  rw [lowestReleased?_eq_head?, List.head?_eq_none_iff] at hNone
  refine ⟨by rw [← Std.ExtTreeSet.length_toList, hNone]; rfl, fun fd hReleased => ?_⟩
  have hMember := Std.ExtTreeSet.mem_toList.mpr hReleased
  simp [hNone] at hMember

/-- What is set aside for a new file: a free descriptor, and the descriptors that
are still released and the watermark once it is taken. -/
structure Reserves (table : OpenTable) (fd : Descriptor)
    (released : Std.ExtTreeSet Descriptor) (watermark : Descriptor) : Prop where
  least : table.IsLeastFree fd
  below_iff : ∀ other : Descriptor, other.index < watermark.index ↔
    (other = fd ∨ other ∈ table.byDescriptor) ∨ other ∈ released
  disjoint : ∀ other ∈ released, other ≠ fd ∧ other ∉ table.byDescriptor
  size_add_size : table.byDescriptor.size + 1 + released.size = watermark.index
  watermark_le : watermark.index ≤ table.capacity
  watermark_le_succ : watermark.index ≤ table.watermark.index + 1

theorem toNat_add_one_of_lt {number : UInt32} (hRoom : number.toNat + 1 < UInt32.size) :
    (number + 1).toNat = number.toNat + 1 := by
  rw [UInt32.toNat_add]
  simp only [UInt32.reduceToNat]
  exact Nat.mod_eq_of_lt hRoom

/-- The lowest released descriptor can be set aside. All that lie below it are in
use, since none of them is released. -/
theorem Coherent.reserves_released {table : OpenTable} (hCoherent : table.Coherent)
    {fd : Descriptor} (hLowest : table.lowestReleased? = some fd) :
    table.Reserves fd (table.released.erase fd) table.watermark := by
  obtain ⟨hReleased, hLeast⟩ := lowest_of_lowestReleased?_eq_some hLowest
  have hFree := hCoherent.disjoint fd hReleased
  have hBelow := (hCoherent.below_iff fd).mpr (Or.inr hReleased)
  constructor
  · refine ⟨hFree, fun lower hLower => ?_⟩
    have hKnown := (hCoherent.below_iff lower).mp (Nat.lt_trans hLower hBelow)
    refine hKnown.resolve_right fun hLowerReleased => ?_
    exact Nat.not_lt.mpr (hLeast lower hLowerReleased) hLower
  · intro other
    rw [hCoherent.below_iff, Std.ExtTreeSet.mem_erase]
    by_cases hSame : other = fd
    · simp [hSame, hReleased]
    · simp [hSame, Ne.symm hSame]
  · intro other hOther
    rw [Std.ExtTreeSet.mem_erase] at hOther
    refine ⟨?_, hCoherent.disjoint other hOther.2⟩
    rintro rfl
    simp at hOther
  · have hSizes := hCoherent.size_add_size
    have hContains : table.released.contains fd = true :=
      Std.ExtTreeSet.contains_iff_mem.mpr hReleased
    have hPositive : table.released.size ≠ 0 := by
      intro hZero
      rw [← Std.ExtTreeSet.length_toList, List.length_eq_zero_iff] at hZero
      have hMember := Std.ExtTreeSet.mem_toList.mpr hReleased
      simp [hZero] at hMember
    rw [Std.ExtTreeSet.size_erase, if_pos hContains]
    omega
  · exact hCoherent.watermark_le
  · exact Nat.le_succ _

/-- When nothing is released, the watermark itself can be set aside, as long as
descriptors can count one further. -/
theorem Coherent.reserves_watermark {table : OpenTable} (hCoherent : table.Coherent)
    (hNone : table.lowestReleased? = none) (hRoom : table.count < table.capacity)
    (hCounted : table.watermark.index + 1 < UInt32.size) :
    table.Reserves table.watermark table.released ⟨table.watermark.number + 1⟩ := by
  obtain ⟨hSize, hReleased⟩ := size_released_of_lowestReleased?_eq_none hNone
  have hNext : Descriptor.index ⟨table.watermark.number + 1⟩ = table.watermark.index + 1 :=
    toNat_add_one_of_lt hCounted
  have hBelow : ∀ other : Descriptor,
      other.index < table.watermark.index ↔ other ∈ table.byDescriptor := by
    intro other
    rw [hCoherent.below_iff]
    simp [hReleased]
  have hSizes := hCoherent.size_add_size
  simp only [count] at hRoom
  constructor
  · exact ⟨fun hUsed => Nat.lt_irrefl _ ((hBelow _).mpr hUsed), fun lower => (hBelow lower).mp⟩
  · intro other
    rw [hNext, Nat.lt_succ_iff_lt_or_eq, hBelow, Descriptor.index_inj]
    simp [hReleased, or_comm]
  · intro other hOther
    exact absurd hOther (hReleased other)
  · rw [hNext]
    omega
  · rw [hNext]
    omega
  · exact Nat.le_of_eq hNext

/-- A table with room hands out its least free descriptor. The number that the
watermark moves on to has to be one that descriptors can count. -/
theorem Coherent.takeFree_eq_ok {table : OpenTable} (hCoherent : table.Coherent)
    (hRoom : table.count < table.capacity)
    (hCounted : table.capacity < UInt32.size ∨ table.watermark.index + 1 < UInt32.size) :
    ∃ fd released watermark, table.takeFree = .ok (fd, { table with released, watermark }) ∧
      table.Reserves fd released watermark := by
  have hNotFull : table.isFull = false := by simpa [isFull] using hRoom
  cases hLowest : table.lowestReleased? with
  | some fd =>
      refine ⟨fd, _, _, ?_, hCoherent.reserves_released hLowest⟩
      simp [takeFree, hNotFull, hLowest]
  | none =>
      have hSizes := hCoherent.size_add_size
      have hSize := (size_released_of_lowestReleased?_eq_none hLowest).1
      simp only [count] at hRoom
      refine ⟨_, _, _, ?_, hCoherent.reserves_watermark hLowest hRoom (by omega)⟩
      simp [takeFree, hNotFull, hLowest]

/-- The two maps hold the same pairs after a new path is entered under a descriptor
that is not in use. -/
theorem Coherent.byPath_insert_iff {table : OpenTable} (hCoherent : table.Coherent)
    {path : Path} (hNew : table.descriptor? path = none) {fd : Descriptor}
    (hFree : fd ∉ table.byDescriptor) (handle : Handle) (components : List String)
    (other : Descriptor) :
    (table.byPath.insert path.components fd)[components]? = some other ↔
      ∃ file, (table.byDescriptor.insert fd ⟨path, handle⟩)[other]? = some file ∧
        file.path.components = components := by
  simp only [Std.ExtTreeMap.getElem?_insert, Std.LawfulEqOrd.compare_eq_iff_eq]
  by_cases hPath : path.components = components
  · by_cases hDescriptor : fd = other
    · simp [hPath, hDescriptor]
    · -- an entry for the path under another descriptor would have been known before
      have hNone : ¬∃ file : OpenFile,
          table.byDescriptor[other]? = some file ∧ file.path.components = components := by
        rw [← hCoherent.byPath_iff, ← hPath]
        simp only [descriptor?] at hNew
        simp [hNew]
      simp [hPath, hDescriptor, hNone]
  · by_cases hDescriptor : fd = other
    · subst hDescriptor
      have hOld : ¬table.byPath[components]? = some fd := by
        rw [hCoherent.byPath_iff]
        rintro ⟨file, hFile, -⟩
        exact hFree (Std.ExtTreeMap.mem_iff_isSome_getElem?.mpr (by simp [hFile]))
      simp [hPath, hOld]
    · simp [hPath, hDescriptor, hCoherent.byPath_iff]

/-- Entering a path under a descriptor that was set aside for it keeps the parts
of a table in step. -/
theorem Coherent.enter {table : OpenTable} (hCoherent : table.Coherent)
    {path : Path} (hNew : table.descriptor? path = none) {fd watermark : Descriptor}
    {released : Std.ExtTreeSet Descriptor} (hReserves : table.Reserves fd released watermark)
    (handle : Handle) (openings : Nat) :
    Coherent { table with
      byPath := table.byPath.insert path.components fd
      byDescriptor := table.byDescriptor.insert fd ⟨path, handle⟩
      released, watermark, openings } := by
  have hFree : table.byDescriptor.contains fd = false := by
    rw [← Bool.not_eq_true, Std.ExtTreeMap.contains_iff_mem]
    exact hReserves.least.1
  have hUnknown : table.byPath.contains path.components = false := by
    rw [Std.ExtTreeMap.contains_eq_isSome_getElem?]
    exact Option.isSome_eq_false_iff.mpr (by simpa [descriptor?] using hNew)
  constructor
  · exact hCoherent.byPath_insert_iff hNew hReserves.least.1 handle
  · have hSizes := hCoherent.size_byPath
    simp [Std.ExtTreeMap.size_insert, hFree, hUnknown, hSizes]
  · intro other
    rw [hReserves.below_iff other, Std.ExtTreeMap.mem_insert, Std.LawfulEqOrd.compare_eq_iff_eq,
      eq_comm]
  · intro other hOther
    obtain ⟨hDifferent, hUnused⟩ := hReserves.disjoint other hOther
    simp [hDifferent.symm, hUnused]
  · have hSizes := hReserves.size_add_size
    simpa [Std.ExtTreeMap.size_insert, hFree] using hSizes
  · exact hReserves.watermark_le

/-- A path that is open already keeps its descriptor. -/
theorem insert_of_descriptor?_eq_some {table : OpenTable} {path : Path} {fd : Descriptor}
    (hKnown : table.descriptor? path = some fd) (inode : Inode) :
    table.insert path inode = .ok (fd, table) := by
  simp [insert, hKnown]

theorem insert_of_isFull {table : OpenTable} {path : Path}
    (hNew : table.descriptor? path = none) (hFull : table.capacity ≤ table.count)
    (inode : Inode) :
    table.insert path inode = .error (.tooManyOpenFiles table.capacity) := by
  have hFull : table.isFull = true := by simpa [isFull] using hFull
  simp [insert, hNew, takeFree, hFull]

/-- A table that enters a new path has room for it. -/
theorem count_lt_of_insert_eq_ok {table : OpenTable} {path : Path}
    (hNew : table.descriptor? path = none) {inode : Inode} {entered : Descriptor × OpenTable}
    (hInsert : table.insert path inode = .ok entered) : table.count < table.capacity := by
  rcases Nat.lt_or_ge table.count table.capacity with hRoom | hFull
  · exact hRoom
  · rw [insert_of_isFull hNew hFull] at hInsert
    cases hInsert

/-- A table with room enters a new path under its least free descriptor. -/
theorem Coherent.insert_eq_ok {table : OpenTable} (hCoherent : table.Coherent) {path : Path}
    (hNew : table.descriptor? path = none) (hRoom : table.count < table.capacity)
    (hCounted : table.capacity < UInt32.size ∨ table.watermark.index + 1 < UInt32.size)
    (inode : Inode) :
    ∃ fd released watermark, table.Reserves fd released watermark ∧
      table.insert path inode = .ok (fd, { table with
        byPath := table.byPath.insert path.components fd
        byDescriptor := table.byDescriptor.insert fd ⟨path, ⟨inode, table.openings⟩⟩
        released, watermark, openings := table.openings + 1 }) := by
  obtain ⟨fd, released, watermark, hTake, hReserves⟩ := hCoherent.takeFree_eq_ok hRoom hCounted
  exact ⟨fd, released, watermark, hReserves, by simp [insert, hNew, hTake]⟩

/-- The two maps hold the same pairs after an open file is taken out of both. -/
theorem Coherent.byPath_erase_iff {table : OpenTable} (hCoherent : table.Coherent)
    {fd : Descriptor} {file : OpenFile} (hFile : table.byDescriptor[fd]? = some file)
    (components : List String) (other : Descriptor) :
    (table.byPath.erase file.path.components)[components]? = some other ↔
      ∃ same, (table.byDescriptor.erase fd)[other]? = some same ∧
        same.path.components = components := by
  have hPath := (hCoherent.byPath_iff file.path.components fd).mpr ⟨file, hFile, rfl⟩
  simp only [Std.ExtTreeMap.getElem?_erase, Std.LawfulEqOrd.compare_eq_iff_eq]
  by_cases hComponents : file.path.components = components
  · by_cases hDescriptor : fd = other
    · simp [hComponents, hDescriptor]
    · -- the path that goes belongs to this descriptor and to no other
      have hNone : ¬∃ same : OpenFile,
          table.byDescriptor[other]? = some same ∧ same.path.components = components := by
        rw [← hCoherent.byPath_iff, ← hComponents, hPath]
        simpa using hDescriptor
      simp [hComponents, hDescriptor, hNone]
  · by_cases hDescriptor : fd = other
    · subst hDescriptor
      have hOld : ¬table.byPath[components]? = some fd :=
        fun hSome => hComponents (hCoherent.components_unique hPath hSome)
      simp [hComponents, hOld]
    · simp [hComponents, hDescriptor, hCoherent.byPath_iff]

/-- Taking an open file out keeps the parts of a table in step. -/
theorem Coherent.leave {table : OpenTable} (hCoherent : table.Coherent) {fd : Descriptor}
    {file : OpenFile} (hFile : table.byDescriptor[fd]? = some file) :
    Coherent { table with
      byPath := table.byPath.erase file.path.components
      byDescriptor := table.byDescriptor.erase fd
      released := table.released.insert fd } := by
  have hUsed : fd ∈ table.byDescriptor :=
    Std.ExtTreeMap.mem_iff_isSome_getElem?.mpr (by simp [hFile])
  have hPath := (hCoherent.byPath_iff file.path.components fd).mpr ⟨file, hFile, rfl⟩
  have hReleased : table.released.contains fd = false := by
    rw [← Bool.not_eq_true, Std.ExtTreeSet.contains_iff_mem]
    exact fun hMember => hCoherent.disjoint fd hMember hUsed
  constructor
  · exact hCoherent.byPath_erase_iff hFile
  · have hContains : table.byPath.contains file.path.components = true := by
      rw [Std.ExtTreeMap.contains_eq_isSome_getElem?, hPath]
      rfl
    have hSizes := hCoherent.size_byPath
    simp [Std.ExtTreeMap.size_erase, hContains, hUsed, hSizes]
  · intro other
    simp only [hCoherent.below_iff, Std.ExtTreeMap.mem_erase, Std.ExtTreeSet.mem_insert,
      Std.LawfulEqOrd.compare_eq_iff_eq, ne_eq]
    by_cases hSame : fd = other
    · simp [← hSame, hUsed]
    · simp [hSame]
  · intro other hOther
    rw [Std.ExtTreeSet.mem_insert, Std.LawfulEqOrd.compare_eq_iff_eq] at hOther
    rcases hOther with rfl | hOther
    · simp
    · simp [hCoherent.disjoint other hOther]
  · have hSizes := hCoherent.size_add_size
    have hPositive : table.byDescriptor.size ≠ 0 := by
      intro hZero
      rw [← Std.ExtTreeMap.length_toList, List.length_eq_zero_iff] at hZero
      have hMember := Std.ExtTreeMap.mem_toList_iff_getElem?_eq_some.mpr hFile
      simp [hZero] at hMember
    simp only [Std.ExtTreeMap.size_erase, Std.ExtTreeMap.contains_iff_mem, hUsed, if_true,
      Std.ExtTreeSet.size_insert, hReleased]
    simp only [Bool.false_eq_true, if_false]
    omega
  · exact hCoherent.watermark_le

theorem remove_of_file?_eq_some {table : OpenTable} {fd : Descriptor} {file : OpenFile}
    (hFile : table.file? fd = some file) :
    table.remove fd = (some file, { table with
      byPath := table.byPath.erase file.path.components
      byDescriptor := table.byDescriptor.erase fd
      released := table.released.insert fd }) := by
  simp [remove, hFile]

theorem remove_of_file?_eq_none {table : OpenTable} {fd : Descriptor}
    (hNone : table.file? fd = none) : table.remove fd = (none, table) := by
  simp [remove, hNone]

/-- The changes that a table can undergo. -/
inductive Change
  | insert (path : Path) (inode : Inode)
  | remove (fd : Descriptor)
  | drain
  deriving DecidableEq

/-- The table after a change. An insertion that fails changes nothing. -/
def apply (table : OpenTable) : Change → OpenTable
  | .insert path inode =>
    match table.insert path inode with
    | .ok (_, after) => after
    | .error _ => table
  | .remove fd => (table.remove fd).2
  | .drain => table.drain.2

/-- The table after several changes in order. -/
def applyAll (table : OpenTable) (changes : List Change) : OpenTable :=
  changes.foldl apply table

@[simp] theorem applyAll_nil (table : OpenTable) : table.applyAll [] = table := rfl

@[simp] theorem applyAll_cons (table : OpenTable) (change : Change) (rest : List Change) :
    table.applyAll (change :: rest) = (table.apply change).applyAll rest := rfl

theorem applyAll_append (table : OpenTable) (first second : List Change) :
    table.applyAll (first ++ second) = (table.applyAll first).applyAll second :=
  List.foldl_append

/-- Everything that a change can do to a table that agrees with itself: enter a
new path under a descriptor set aside for it, take an open file out, empty the
table, or nothing. -/
theorem Coherent.apply_cases {table : OpenTable} (hCoherent : table.Coherent) (change : Change)
    (hCounted : table.capacity < UInt32.size ∨ table.watermark.index + 1 < UInt32.size) :
    table.apply change = table ∨
    (∃ path inode fd released watermark, change = .insert path inode ∧
      table.descriptor? path = none ∧ table.Reserves fd released watermark ∧
      table.apply change = { table with
        byPath := table.byPath.insert path.components fd
        byDescriptor := table.byDescriptor.insert fd ⟨path, ⟨inode, table.openings⟩⟩
        released, watermark, openings := table.openings + 1 }) ∨
    (∃ fd file, change = .remove fd ∧ table.byDescriptor[fd]? = some file ∧
      table.apply change = { table with
        byPath := table.byPath.erase file.path.components
        byDescriptor := table.byDescriptor.erase fd
        released := table.released.insert fd }) ∨
    (change = .drain ∧ table.apply change =
      { empty table.capacity with openings := table.openings }) := by
  cases change with
  | insert path inode =>
      cases hKnown : table.descriptor? path with
      | some fd => exact Or.inl (by simp [apply, insert_of_descriptor?_eq_some hKnown])
      | none =>
          by_cases hRoom : table.count < table.capacity
          · obtain ⟨fd, released, watermark, hReserves, hInsert⟩ :=
              hCoherent.insert_eq_ok hKnown hRoom hCounted inode
            refine Or.inr (Or.inl
              ⟨path, inode, fd, released, watermark, rfl, hKnown, hReserves, ?_⟩)
            simp [apply, hInsert]
          · have hFull := insert_of_isFull hKnown (Nat.not_lt.mp hRoom) inode
            exact Or.inl (by simp [apply, hFull])
  | remove fd =>
      cases hFile : table.file? fd with
      | none => exact Or.inl (by simp [apply, remove_of_file?_eq_none hFile])
      | some file =>
          refine Or.inr (Or.inr (Or.inl ⟨fd, file, rfl, hFile, ?_⟩))
          simp [apply, remove_of_file?_eq_some hFile]
  | drain => exact Or.inr (Or.inr (Or.inr ⟨rfl, rfl⟩))

theorem Coherent.apply {table : OpenTable} (hCoherent : table.Coherent) (change : Change)
    (hCounted : table.capacity < UInt32.size ∨ table.watermark.index + 1 < UInt32.size) :
    (table.apply change).Coherent := by
  rcases hCoherent.apply_cases change hCounted with
    hSame | ⟨path, inode, fd, released, watermark, -, hNew, hReserves, hApply⟩ |
      ⟨fd, file, -, hFile, hApply⟩ | ⟨-, hApply⟩
  · rwa [hSame]
  · rw [hApply]
    exact hCoherent.enter hNew hReserves _ _
  · rw [hApply]
    exact hCoherent.leave hFile
  · rw [hApply]
    exact coherent_empty _ _

/-- No change moves the limit. -/
@[simp] theorem capacity_apply (table : OpenTable) (change : Change) :
    (table.apply change).capacity = table.capacity := by
  cases change with
  | insert path inode =>
      simp only [apply, insert, takeFree]
      split
      · rename_i hInsert
        split at hInsert
        · cases hInsert
          rfl
        · split at hInsert
          · cases hInsert
          · rename_i hTake
            cases hInsert
            split at hTake
            · cases hTake
            · split at hTake <;> (cases hTake; rfl)
      · rfl
  | remove fd =>
      simp only [apply, remove]
      split <;> rfl
  | drain => rfl

/-- An open file was open before the change, or it is the one that was entered. -/
theorem file_of_apply {table : OpenTable} {change : Change} {fd : Descriptor} {file : OpenFile}
    (hFile : (table.apply change).byDescriptor[fd]? = some file) :
    table.byDescriptor[fd]? = some file ∨ change = .insert file.path file.handle.inode := by
  cases change with
  | insert path inode =>
      simp only [apply, insert, takeFree] at hFile
      split at hFile
      · rename_i hInsert
        split at hInsert
        · cases hInsert
          exact Or.inl hFile
        · split at hInsert
          · cases hInsert
          · rename_i hTake
            cases hInsert
            rw [Std.ExtTreeMap.getElem?_insert] at hFile
            split at hFile
            · cases hFile
              exact Or.inr rfl
            · split at hTake
              · cases hTake
              · split at hTake <;> (cases hTake; exact Or.inl hFile)
      · exact Or.inl hFile
  | remove closed =>
      simp only [apply, remove] at hFile
      split at hFile
      · exact Or.inl hFile
      · rw [Std.ExtTreeMap.getElem?_erase] at hFile
        split at hFile
        · cases hFile
        · exact Or.inl hFile
  | drain => simp [apply, drain] at hFile

/-- One change moves the watermark up by at most one. -/
theorem Coherent.watermark_apply_le {table : OpenTable} (hCoherent : table.Coherent)
    (change : Change)
    (hCounted : table.capacity < UInt32.size ∨ table.watermark.index + 1 < UInt32.size) :
    (table.apply change).watermark.index ≤ table.watermark.index + 1 := by
  rcases hCoherent.apply_cases change hCounted with
    hSame | ⟨path, inode, fd, released, watermark, -, -, hReserves, hApply⟩ |
      ⟨fd, file, -, -, hApply⟩ | ⟨-, hApply⟩
  · rw [hSame]
    exact Nat.le_succ _
  · rw [hApply]
    exact hReserves.watermark_le_succ
  · rw [hApply]
    exact Nat.le_succ _
  · rw [hApply]
    exact Nat.zero_le _

/-- A path that is open stays open under its descriptor until the descriptor is
taken out or all are. -/
theorem Coherent.descriptor?_apply {table : OpenTable} (hCoherent : table.Coherent)
    {change : Change} {path : Path} {fd : Descriptor} (hKnown : table.descriptor? path = some fd)
    (hRemove : change ≠ .remove fd) (hDrain : change ≠ .drain)
    (hCounted : table.capacity < UInt32.size ∨ table.watermark.index + 1 < UInt32.size) :
    (table.apply change).descriptor? path = some fd := by
  rcases hCoherent.apply_cases change hCounted with
    hSame | ⟨other, inode, free, released, watermark, -, hNew, -, hApply⟩ |
      ⟨gone, file, hChange, hFile, hApply⟩ | ⟨hChange, -⟩
  · rw [hSame, hKnown]
  · have hOther : other.components ≠ path.components := by
      intro hPaths
      simp only [descriptor?] at hNew hKnown
      rw [hPaths, hKnown] at hNew
      cases hNew
    rw [hApply]
    simpa [descriptor?, Std.ExtTreeMap.getElem?_insert, hOther] using hKnown
  · have hGone : gone ≠ fd := fun hSame => hRemove (hSame ▸ hChange)
    have hOther : file.path.components ≠ path.components := by
      intro hPaths
      have hPath := (hCoherent.byPath_iff _ _).mpr ⟨file, hFile, hPaths⟩
      simp only [descriptor?] at hKnown
      rw [hKnown] at hPath
      exact hGone (Option.some.inj hPath).symm
    rw [hApply]
    simpa [descriptor?, Std.ExtTreeMap.getElem?_erase, hOther] using hKnown
  · exact absurd hChange hDrain

/-- A path that a change makes known was entered under the least descriptor that
was free before. -/
theorem Coherent.isLeastFree_of_apply {table : OpenTable} (hCoherent : table.Coherent)
    {change : Change} {path : Path} {fd : Descriptor} (hNew : table.descriptor? path = none)
    (hKnown : (table.apply change).descriptor? path = some fd)
    (hCounted : table.capacity < UInt32.size ∨ table.watermark.index + 1 < UInt32.size) :
    table.IsLeastFree fd := by
  simp only [descriptor?] at hNew hKnown
  rcases hCoherent.apply_cases change hCounted with
    hSame | ⟨other, inode, free, released, watermark, -, -, hReserves, hApply⟩ |
      ⟨gone, file, -, -, hApply⟩ | ⟨-, hApply⟩
  · rw [hSame, hNew] at hKnown
    cases hKnown
  · rw [hApply, Std.ExtTreeMap.getElem?_insert] at hKnown
    split at hKnown
    · cases hKnown
      exact hReserves.least
    · rw [hNew] at hKnown
      cases hKnown
  · rw [hApply, Std.ExtTreeMap.getElem?_erase] at hKnown
    split at hKnown
    · cases hKnown
    · rw [hNew] at hKnown
      cases hKnown
  · rw [hApply] at hKnown
    simp [empty] at hKnown

@[simp] theorem capacity_applyAll (table : OpenTable) (changes : List Change) :
    (table.applyAll changes).capacity = table.capacity := by
  induction changes generalizing table with
  | nil => rfl
  | cons change rest ih => rw [applyAll_cons, ih, capacity_apply]

/-- Every run of changes keeps the parts of a table in step, for any limit that
descriptors can count up to, and for any other limit as long as the run is too
short to reach it. -/
theorem Coherent.applyAll {table : OpenTable} (hCoherent : table.Coherent)
    (changes : List Change)
    (hCounted : table.capacity < UInt32.size ∨
      table.watermark.index + changes.length < UInt32.size) :
    (table.applyAll changes).Coherent ∧
      (table.applyAll changes).watermark.index ≤ table.watermark.index + changes.length := by
  induction changes generalizing table with
  | nil => exact ⟨hCoherent, Nat.le_refl _⟩
  | cons change rest ih =>
      rw [List.length_cons] at hCounted ⊢
      have hNow : table.capacity < UInt32.size ∨ table.watermark.index + 1 < UInt32.size := by omega
      have hStep := hCoherent.watermark_apply_le change hNow
      obtain ⟨hRest, hWatermark⟩ := ih (hCoherent.apply change hNow) (by
        rw [capacity_apply]
        omega)
      exact ⟨hRest, by rw [applyAll_cons]; omega⟩

/-- Over a whole run, too, a path that is open keeps its descriptor until that is
taken out or all are. -/
theorem Coherent.descriptor?_applyAll {table : OpenTable} (hCoherent : table.Coherent)
    {changes : List Change} {path : Path} {fd : Descriptor}
    (hKnown : table.descriptor? path = some fd)
    (hRemove : .remove fd ∉ changes) (hDrain : .drain ∉ changes)
    (hCounted : table.capacity < UInt32.size ∨
      table.watermark.index + changes.length < UInt32.size) :
    (table.applyAll changes).descriptor? path = some fd := by
  induction changes generalizing table with
  | nil => exact hKnown
  | cons change rest ih =>
      rw [List.length_cons] at hCounted
      rw [List.mem_cons, not_or] at hRemove hDrain
      have hNow : table.capacity < UInt32.size ∨ table.watermark.index + 1 < UInt32.size := by omega
      have hStep := hCoherent.watermark_apply_le change hNow
      have hKept := hCoherent.descriptor?_apply hKnown (Ne.symm hRemove.1) (Ne.symm hDrain.1) hNow
      refine ih (hCoherent.apply change hNow) hKept hRemove.2 hDrain.2 ?_
      rw [capacity_apply]
      omega

end OpenTable

end Paging
