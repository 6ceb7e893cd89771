import Paging.Volume.Directories
import Paging.Volume.Files

/-! What it takes for a change of the names to succeed, and what it does then. Whatever is
said of a change elsewhere goes by these laws, and not by the tests that the change makes. -/
namespace Paging.Volume

theorem entry_eq_ok_iff {volume : Volume} {directory : Directory} {name : String} {node : Node} :
    volume.entry directory name = .ok node ↔
      name.utf8ByteSize ≤ nameLimit ∧ (volume.entries directory)[name]? = some node := by
  unfold entry
  split
  · rename_i hLong
    simp [Nat.not_le.mpr hLong]
  · rename_i hShort
    split <;> simp_all

theorem entry_eq_noEntry_iff {volume : Volume} {directory : Directory} {name : String} :
    volume.entry directory name = .error .noEntry ↔
      name.utf8ByteSize ≤ nameLimit ∧ (volume.entries directory)[name]? = none := by
  unfold entry
  split
  · rename_i hLong
    simp [Nat.not_le.mpr hLong]
  · rename_i hShort
    split <;> simp_all

/-- A path leads to a file when it ends in a name, without a slash behind it, that
stands for the file in the directory where the path has led. -/
theorem openFile_eq_ok_iff {volume : Volume} {path : Path} {inode : Inode} :
    volume.openFile path = .ok inode ↔ path.endsWithSlash = false ∧
      ∃ directory name, volume.resolve path = .ok (.name directory name) ∧
        volume.entry directory name = .ok (.file inode) := by
  unfold openFile status
  constructor
  · intro hOpen
    split at hOpen
    · cases hOpen
    · cases hOpen
    · rename_i hStatus
      cases hOpen
      split at hStatus
      · cases hStatus
      · cases hStatus
      · cases hStatus
      · rename_i directory name hResolve
        split at hStatus
        · rename_i hEntry
          split at hStatus
          · cases hStatus
          · rename_i hSlash
            cases hStatus
            exact ⟨by simpa using hSlash, directory, name, hResolve, hEntry⟩
        · cases hStatus
        · cases hStatus
  · rintro ⟨hSlash, directory, name, hResolve, hEntry⟩
    simp [hResolve, hEntry, hSlash]

/-- A file is made under a name that stood for nothing. -/
theorem createFile_eq_ok {volume made : Volume} {path : Path} {inode : Inode}
    (hCreate : volume.createFile path = .ok (inode, made)) :
    ∃ directory name, volume.resolve path = .ok (.name directory name) ∧
      path.endsWithSlash = false ∧ volume.entry directory name = .error .noEntry ∧
      volume.addFile directory name = (inode, made) := by
  unfold createFile at hCreate
  split at hCreate
  · cases hCreate
  · cases hCreate
  · cases hCreate
  · rename_i directory name hResolve
    split at hCreate
    · cases hCreate
    · rename_i hSlash
      split at hCreate
      · cases hCreate
      · rename_i hNew
        exact ⟨directory, name, hResolve, by simpa using hSlash, hNew, Except.ok.inj hCreate⟩
      · cases hCreate

/-- A file is opened that a name stood for, or made under a name that stood for nothing. -/
theorem openOrCreate_eq_ok {volume opened : Volume} {path : Path} {inode : Inode}
    (hOpen : volume.openOrCreate path = .ok (inode, opened)) :
    ∃ directory name, volume.resolve path = .ok (.name directory name) ∧
      path.endsWithSlash = false ∧
      ((volume.entry directory name = .ok (.file inode) ∧ opened = volume) ∨
        (volume.entry directory name = .error .noEntry ∧
          volume.addFile directory name = (inode, opened))) := by
  unfold openOrCreate at hOpen
  split at hOpen
  · cases hOpen
  · cases hOpen
  · cases hOpen
  · rename_i directory name hResolve
    split at hOpen
    · cases hOpen
    · rename_i hSlash
      refine ⟨directory, name, hResolve, by simpa using hSlash, ?_⟩
      split at hOpen
      · cases hOpen
      · rename_i hEntry
        cases hOpen
        exact Or.inl ⟨hEntry, rfl⟩
      · rename_i hNew
        exact Or.inr ⟨hNew, Except.ok.inj hOpen⟩
      · cases hOpen

/-- A file that is opened or made is the one that the path leads to, or an empty one that is
made there as creating it would. -/
theorem openFile_or_createFile_of_openOrCreate {volume opened : Volume} {path : Path}
    {inode : Inode} (hOpen : volume.openOrCreate path = .ok (inode, opened)) :
    (volume.openFile path = .ok inode ∧ opened = volume) ∨
      volume.createFile path = .ok (inode, opened) := by
  obtain ⟨directory, name, hResolve, hSlash, ⟨hEntry, hSame⟩ | ⟨hNew, hAdd⟩⟩ :=
    openOrCreate_eq_ok hOpen
  · exact Or.inl ⟨openFile_eq_ok_iff.mpr ⟨hSlash, directory, name, hResolve, hEntry⟩, hSame⟩
  · refine Or.inr ?_
    simp [createFile, hResolve, hSlash, hNew, hAdd]

theorem replaceFile_eq_ok {volume after : Volume} {path : Path} {bytes : Array UInt8}
    (hReplace : volume.replaceFile path bytes = .ok after) :
    ∃ inode opened, volume.openOrCreate path = .ok (inode, opened) ∧
      after = opened.setContent inode (.ofBytes bytes) := by
  unfold replaceFile at hReplace
  split at hReplace
  · rename_i inode opened hOpen
    exact ⟨inode, opened, hOpen, (Except.ok.inj hReplace).symm⟩
  · cases hReplace

/-- Unlinking takes away the name that the path leads to, which is that of a file. -/
theorem unlink_eq_ok {volume left : Volume} {path : Path}
    (hUnlink : volume.unlink path = .ok left) :
    ∃ directory name inode, volume.resolve path = .ok (.name directory name) ∧
      volume.entry directory name = .ok (.file inode) ∧
      left = volume.setEntries directory ((volume.entries directory).erase name) := by
  unfold unlink at hUnlink
  split at hUnlink
  · cases hUnlink
  · cases hUnlink
  · cases hUnlink
  · rename_i directory name hResolve
    split at hUnlink
    · cases hUnlink
    · cases hUnlink
    · rename_i inode hEntry
      split at hUnlink
      · cases hUnlink
      · cases hUnlink
        exact ⟨directory, name, inode, hResolve, hEntry, rfl⟩

/-- A directory is made under a name that stood for nothing. -/
theorem createDirectory_eq_ok {volume made : Volume} {path : Path}
    (hCreate : volume.createDirectory path = .ok made) :
    ∃ directory name, volume.resolve path = .ok (.name directory name) ∧
      volume.entry directory name = .error .noEntry ∧
      made = volume.addDirectory directory name := by
  unfold createDirectory at hCreate
  split at hCreate
  · cases hCreate
  · cases hCreate
  · cases hCreate
  · rename_i directory name hResolve
    split at hCreate
    · cases hCreate
    · rename_i hNew
      cases hCreate
      exact ⟨directory, name, hResolve, hNew, rfl⟩
    · cases hCreate

/-- A directory is removed by taking away the name that the path leads to. -/
theorem removeDirectory_eq_ok {volume left : Volume} {path : Path}
    (hRemove : volume.removeDirectory path = .ok left) :
    ∃ directory name below, volume.resolve path = .ok (.name directory name) ∧
      volume.entry directory name = .ok (.directory below) ∧
      left = volume.setEntries directory ((volume.entries directory).erase name) := by
  unfold removeDirectory at hRemove
  split at hRemove
  · cases hRemove
  · cases hRemove
  · cases hRemove
  · rename_i directory name hResolve
    split at hRemove
    · cases hRemove
    · cases hRemove
    · rename_i below hEntry
      split at hRemove
      · cases hRemove
        exact ⟨directory, name, below, hResolve, hEntry, rfl⟩
      · cases hRemove

/-- A directory with all that is in it is removed when the path leads to one: it is
cleared, and then its name is taken away if the path still leads to it. -/
theorem removeDirectories_cases (volume : Volume) (path : Path) :
    ((∃ fault, volume.directoryAt path = .error fault) ∧
      (volume.removeDirectories path).2 = volume) ∨
    ∃ directory, volume.directoryAt path = .ok directory ∧
      ((volume.removeDirectories path).2 = volume.clear directory ∨
        ∃ place name below, let cleared := volume.clear directory
          cleared.resolve path = .ok (.name place name) ∧
          cleared.entry place name = .ok (.directory below) ∧
          (volume.removeDirectories path).2 =
            cleared.setEntries place ((cleared.entries place).erase name)) := by
  unfold removeDirectories
  split
  · rename_i fault hDirectory
    exact Or.inl ⟨⟨fault, hDirectory⟩, rfl⟩
  · rename_i directory hDirectory
    refine Or.inr ⟨directory, hDirectory, ?_⟩
    dsimp only
    split
    · rename_i removed hRemove
      obtain ⟨place, name, below, hResolve, hBelow, rfl⟩ := removeDirectory_eq_ok hRemove
      exact Or.inr ⟨place, name, below, hResolve, hBelow, rfl⟩
    · exact Or.inl rfl
    · exact Or.inl rfl

end Paging.Volume
