import Paging.Proofs.Volume.Grounded

/-! Files that come into being. Only making a file where there is nothing brings one, it is
empty, and no other change of names gives a file a name that it did not have. -/
namespace Paging.Volume

/-- Every file that a name stands for afterwards had that name before, or it was not there
yet. -/
structure NamesNew (volume after : Volume) : Prop where
  size_le : volume.contents.size ≤ after.contents.size
  named : ∀ (directory : Directory) (name : String) (inode : Inode),
    (after.entries directory)[name]? = some (.file inode) →
      (volume.entries directory)[name]? = some (.file inode) ∨
        volume.contents.size ≤ inode.index

namespace NamesNew

theorem refl (volume : Volume) : volume.NamesNew volume :=
  ⟨Nat.le_refl _, fun _ _ _ hNamed => Or.inl hNamed⟩

theorem trans {first second third : Volume} (hFirst : first.NamesNew second)
    (hSecond : second.NamesNew third) : first.NamesNew third where
  size_le := Nat.le_trans hFirst.size_le hSecond.size_le
  named := by
    intro directory name inode hNamed
    rcases hSecond.named directory name inode hNamed with hBefore | hNew
    · exact hFirst.named directory name inode hBefore
    · exact Or.inr (Nat.le_trans hFirst.size_le hNew)

end NamesNew

/-- Entries that name no old file that was not named before give no old file a name. -/
theorem namesNew_setEntries (volume : Volume) (directory : Directory) {entries : Entries}
    (hEntries : ∀ (name : String) (inode : Inode), entries[name]? = some (.file inode) →
      (volume.entries directory)[name]? = some (.file inode) ∨
        volume.contents.size ≤ inode.index) :
    volume.NamesNew (volume.setEntries directory entries) where
  size_le := Nat.le_refl _
  named := by
    intro other name inode hNamed
    by_cases hOther : other = directory
    · subst hOther
      rcases volume.entries_setEntries other other entries with hNew | hOld
      · exact hEntries name inode (hNew ▸ hNamed)
      · exact Or.inl (hOld ▸ hNamed)
    · rw [volume.entries_setEntries_of_ne entries hOther] at hNamed
      exact Or.inl hNamed

theorem namesNew_clear (volume : Volume) (directory : Directory) :
    volume.NamesNew (volume.clear directory) :=
  volume.namesNew_setEntries directory (by simp)

theorem namesNew_erase (volume : Volume) (directory : Directory) (name : String) :
    volume.NamesNew (volume.setEntries directory ((volume.entries directory).erase name)) := by
  refine volume.namesNew_setEntries directory fun other inode hNamed => ?_
  rw [Std.ExtTreeMap.getElem?_erase] at hNamed
  split at hNamed
  · cases hNamed
  · exact Or.inl hNamed

theorem namesNew_setContent (volume : Volume) (inode : Inode) (content : Content) :
    volume.NamesNew (volume.setContent inode content) where
  size_le := Nat.le_of_eq (volume.size_contents_setContent inode content).symm
  named := fun _ _ _ hNamed => Or.inl hNamed

theorem namesNew_addFile (volume : Volume) (directory : Directory) (name : String) :
    volume.NamesNew (volume.addFile directory name).2 := by
  have hSize : (volume.addFile directory name).2.contents.size = volume.contents.size + 1 := by
    simp [addFile]
  refine ⟨by omega, fun other found inode hNamed => ?_⟩
  by_cases hOther : other = directory
  · subst hOther
    rcases entries_setEntries { volume with contents := volume.contents.push .empty } other other
      ((volume.entries other).insert name (.file ⟨volume.contents.size⟩)) with hNew | hOld
    · rw [addFile, hNew, Std.ExtTreeMap.getElem?_insert] at hNamed
      split at hNamed
      · cases hNamed
        exact Or.inr (Nat.le_refl _)
      · exact Or.inl hNamed
    · rw [addFile, hOld] at hNamed
      exact Or.inl hNamed
  · rw [addFile, entries_setEntries_of_ne _ _ hOther] at hNamed
    exact Or.inl hNamed

theorem namesNew_addDirectory (volume : Volume) (directory : Directory) (name : String) :
    volume.NamesNew (volume.addDirectory directory name) := by
  have hPushed : volume.NamesNew { volume with directories := volume.directories.push ∅ } :=
    ⟨Nat.le_refl _, fun other found inode hNamed => Or.inl (by rwa [entries_push] at hNamed)⟩
  refine hPushed.trans (namesNew_setEntries _ directory fun other inode hNamed => ?_)
  rw [Std.ExtTreeMap.getElem?_insert] at hNamed
  split at hNamed
  · cases hNamed
  · exact Or.inl (by rwa [entries_push])

theorem createFile_namesNew {volume made : Volume} {path : Path} {inode : Inode}
    (hCreate : volume.createFile path = .ok (inode, made)) : volume.NamesNew made := by
  obtain ⟨directory, name, -, -, -, hAdd⟩ := createFile_eq_ok hCreate
  cases hAdd
  exact volume.namesNew_addFile directory name

theorem openOrCreate_namesNew {volume opened : Volume} {path : Path} {inode : Inode}
    (hOpen : volume.openOrCreate path = .ok (inode, opened)) : volume.NamesNew opened := by
  rcases openFile_or_createFile_of_openOrCreate hOpen with ⟨-, hSame⟩ | hCreate
  · rw [hSame]
    exact NamesNew.refl volume
  · exact createFile_namesNew hCreate

theorem unlink_namesNew {volume left : Volume} {path : Path}
    (hUnlink : volume.unlink path = .ok left) : volume.NamesNew left := by
  obtain ⟨directory, name, inode, -, -, rfl⟩ := unlink_eq_ok hUnlink
  exact volume.namesNew_erase directory name

/-- Making directories brings no file, and gives none a name. -/
theorem createDirectories_namesNew (volume : Volume) (path : Path) :
    volume.NamesNew (volume.createDirectories path).2 ∧
      (volume.createDirectories path).2.contents = volume.contents := by
  refine createDirectories_rel
    (R := fun volume made => volume.NamesNew made ∧ made.contents = volume.contents)
    (fun volume => ⟨NamesNew.refl volume, rfl⟩)
    (fun _ _ _ hFirst hSecond => ⟨hFirst.1.trans hSecond.1, hSecond.2.trans hFirst.2⟩)
    (fun volume made path hCreate => ?_) volume path
  obtain ⟨directory, name, -, -, rfl⟩ := createDirectory_eq_ok hCreate
  exact ⟨volume.namesNew_addDirectory directory name, rfl⟩

/-- Removing directories brings no file, and gives none a name. -/
theorem removeDirectories_namesNew (volume : Volume) (path : Path) :
    volume.NamesNew (volume.removeDirectories path).2 ∧
      (volume.removeDirectories path).2.contents = volume.contents := by
  rcases volume.removeDirectories_cases path with
    ⟨-, hSame⟩ | ⟨directory, -, hCleared | ⟨place, name, below, -, -, hErased⟩⟩
  · rw [hSame]
    exact ⟨NamesNew.refl volume, rfl⟩
  · rw [hCleared]
    exact ⟨volume.namesNew_clear directory, rfl⟩
  · rw [hErased]
    exact ⟨(volume.namesNew_clear directory).trans (namesNew_erase _ place name), rfl⟩

/-- The file that is made is the only one that was not there before, and from then on the
path leads to it. -/
theorem Grounded.createFile_brings {volume after : Volume} (hGrounded : volume.Grounded)
    {path : Path} {made : Inode} (hCreate : volume.createFile path = .ok (made, after))
    {inode : Inode} (hOld : volume.contents.size ≤ inode.index)
    (hNew : inode.index < after.contents.size) :
    made = inode ∧ after.openFile path = .ok inode := by
  obtain ⟨directory, name, hResolve, hSlash, hFree, hAdd⟩ := createFile_eq_ok hCreate
  have hOpen : volume.openOrCreate path = .ok (made, after) := by
    simp [Volume.openOrCreate, hResolve, hSlash, hFree, hAdd]
  have hLeads := hGrounded.openFile_of_openOrCreate hOpen
  have hThis : made = inode := by
    cases hAdd
    have hSize : inode.index < volume.contents.size + 1 := by simpa using hNew
    rw [Nat.le_antisymm hOld (Nat.lt_succ_iff.mp hSize)]
  exact ⟨hThis, hThis ▸ hLeads⟩

/-- Where a path leads to something, no file is made by it. -/
theorem createFile_of_status {volume : Volume} {path : Path} {node : Node}
    (hStatus : volume.status path = .ok node) :
    ∃ fault, volume.createFile path = .error fault ∧
      ∀ inode, node = .file inode → fault = .exists := by
  cases hResolve : volume.resolve path with
  | error fault => simp [status, hResolve] at hStatus
  | ok target =>
      cases target with
      | self directory | above directory =>
          exact ⟨.exists, by simp [createFile, hResolve], fun _ _ => rfl⟩
      | name directory name =>
          cases hEntry : volume.entry directory name with
          | error fault => simp [status, hResolve, hEntry] at hStatus
          | ok found =>
              by_cases hSlash : path.endsWithSlash = true
              · -- A path with a slash behind it leads to no file.
                refine ⟨.isDirectory, by simp [createFile, hResolve, hSlash], ?_⟩
                rintro inode rfl
                cases found <;> simp [status, hResolve, hEntry, hSlash] at hStatus
              · exact ⟨.exists, by simp [createFile, hResolve, hEntry, hSlash], fun _ _ => rfl⟩

end Paging.Volume
