import Paging.Proofs.Volume.Removal

/-! Directories that names lead to are there. Main statement: a file that is opened, or
made where there was none, is what the path leads to from then on. -/
namespace Paging.Volume

/-- A file that is added is what its name stands for. -/
theorem entry_addFile {volume : Volume} {directory : Directory} {name : String}
    (hIndex : directory.index < volume.directories.size)
    (hNew : volume.entry directory name = .error .noEntry) :
    (volume.addFile directory name).2.entry directory name =
      .ok (.file (volume.addFile directory name).1) := by
  refine entry_eq_ok_iff.mpr ⟨(entry_eq_noEntry_iff.mp hNew).1, ?_⟩
  have hEntries : (volume.addFile directory name).2.entries directory =
      (volume.entries directory).insert name (.file (volume.addFile directory name).1) :=
    entries_setEntries_self { volume with contents := volume.contents.push .empty } _ hIndex
  rw [hEntries]
  exact Std.ExtTreeMap.getElem?_insert_self

/-- The root is there, and so is every directory that a name stands for. -/
structure Grounded (volume : Volume) : Prop where
  root : 0 < volume.directories.size
  below : ∀ (directory : Directory) (name : String) (below : Directory),
    (volume.entries directory)[name]? = some (.directory below) →
      below.index < volume.directories.size

theorem grounded_empty : Grounded empty where
  root := by decide
  below := by
    intro directory name below hFound
    have hNone : empty.entries directory = ∅ := by
      rcases directory with ⟨index⟩
      cases index <;> rfl
    simp [hNone] at hFound

namespace Grounded

variable {volume : Volume} (hGrounded : volume.Grounded)
include hGrounded

theorem setEntries (directory : Directory) {entries : Entries}
    (hEntries : ∀ (name : String) (below : Directory), entries[name]? = some (.directory below) →
      below.index < volume.directories.size) :
    (volume.setEntries directory entries).Grounded := by
  have hSize : (volume.setEntries directory entries).directories.size =
      volume.directories.size := Array.size_setIfInBounds
  refine ⟨hSize ▸ hGrounded.root, fun other name below hFound => ?_⟩
  rw [hSize]
  rcases volume.entries_setEntries directory other entries with hNew | hOld
  · exact hEntries name below (hNew ▸ hFound)
  · exact hGrounded.below other name below (hOld ▸ hFound)

theorem erase (directory : Directory) (name : String) :
    (volume.setEntries directory ((volume.entries directory).erase name)).Grounded := by
  refine hGrounded.setEntries directory fun other below hFound => ?_
  rw [Std.ExtTreeMap.getElem?_erase] at hFound
  split at hFound
  · cases hFound
  · exact hGrounded.below directory other below hFound

theorem clear (directory : Directory) : (volume.clear directory).Grounded :=
  hGrounded.setEntries directory (by simp)

theorem setContent (inode : Inode) (content : Content) : (volume.setContent inode content).Grounded :=
  ⟨hGrounded.root, hGrounded.below⟩

theorem addFile (directory : Directory) (name : String) :
    (volume.addFile directory name).2.Grounded := by
  have hHeld : Grounded { volume with contents := volume.contents.push .empty } :=
    ⟨hGrounded.root, hGrounded.below⟩
  refine hHeld.setEntries directory fun other below hFound => ?_
  rw [Std.ExtTreeMap.getElem?_insert] at hFound
  split at hFound
  · cases hFound
  · exact hGrounded.below directory other below hFound

theorem addDirectory (directory : Directory) (name : String) :
    (volume.addDirectory directory name).Grounded := by
  have hSize : ({ volume with directories := volume.directories.push ∅ } :
      Volume).directories.size = volume.directories.size + 1 := Array.size_push ..
  have hPushed : Grounded { volume with directories := volume.directories.push ∅ } := by
    refine ⟨by omega, fun other found below hFound => ?_⟩
    rw [entries_push] at hFound
    have hBelow := hGrounded.below other found below hFound
    omega
  refine hPushed.setEntries directory fun other below hFound => ?_
  rw [Std.ExtTreeMap.getElem?_insert] at hFound
  split at hFound
  · cases hFound
    exact hSize ▸ Nat.lt_succ_self _
  · have hBelow := hGrounded.below directory other below hFound
    omega

theorem createFile {path : Path} {inode : Inode} {made : Volume}
    (hCreate : volume.createFile path = .ok (inode, made)) : made.Grounded := by
  obtain ⟨directory, name, -, -, -, hAdd⟩ := createFile_eq_ok hCreate
  cases hAdd
  exact hGrounded.addFile directory name

theorem openOrCreate {path : Path} {inode : Inode} {opened : Volume}
    (hOpen : volume.openOrCreate path = .ok (inode, opened)) : opened.Grounded := by
  obtain ⟨directory, name, -, -, ⟨-, rfl⟩ | ⟨-, hAdd⟩⟩ := openOrCreate_eq_ok hOpen
  · exact hGrounded
  · cases hAdd
    exact hGrounded.addFile directory name

theorem unlink {path : Path} {left : Volume} (hUnlink : volume.unlink path = .ok left) :
    left.Grounded := by
  obtain ⟨directory, name, inode, -, -, rfl⟩ := unlink_eq_ok hUnlink
  exact hGrounded.erase directory name

theorem createDirectories (path : Path) : (volume.createDirectories path).2.Grounded := by
  refine createDirectories_rel (R := fun volume made => volume.Grounded → made.Grounded)
    (fun _ => id) (fun _ _ _ hFirst hSecond => hSecond ∘ hFirst) ?_ volume path hGrounded
  intro volume made path hCreate hGrounded
  obtain ⟨directory, name, -, -, rfl⟩ := createDirectory_eq_ok hCreate
  exact hGrounded.addDirectory directory name

theorem removeDirectories (path : Path) : (volume.removeDirectories path).2.Grounded := by
  rcases volume.removeDirectories_cases path with
    ⟨-, hSame⟩ | ⟨directory, -, hCleared | ⟨place, name, below, -, -, hErased⟩⟩
  · rwa [hSame]
  · rw [hCleared]
    exact hGrounded.clear directory
  · rw [hErased]
    exact (hGrounded.clear directory).erase place name

/-- A walk that starts in directories that are there gets to such a directory. -/
theorem walk {segments : List String} {trail last : List Directory}
    (hTrail : ∀ directory ∈ trail, directory.index < volume.directories.size)
    (hWalk : volume.walk trail segments = .ok last) :
    ∀ directory ∈ last, directory.index < volume.directories.size := by
  induction segments generalizing trail with
  | nil =>
      cases hWalk
      exact hTrail
  | cons segment rest ih =>
      obtain ⟨next, hEnter, hRest⟩ := walk_cons_eq_ok_iff.mp hWalk
      refine ih (fun directory hMember => ?_) hRest
      rcases enter_eq_ok hEnter with ⟨-, hSubset, -⟩ | ⟨found, -, -, rfl, hEntry⟩
      · exact hTrail directory (hSubset hMember)
      · rcases List.mem_cons.mp hMember with rfl | hLater
        · exact hGrounded.below _ _ _ (entry_eq_ok_iff.mp hEntry).2
        · exact hTrail directory hLater

/-- The directory in which a path looks its last name up is there. -/
theorem index_lt_of_resolve {path : Path} {directory : Directory} {name : String}
    (hResolve : volume.resolve path = .ok (.name directory name)) :
    directory.index < volume.directories.size := by
  obtain ⟨-, trail, hWalk, rfl⟩ := resolve_eq_name_iff.mp hResolve
  have hTrail := hGrounded.walk (by simp) hWalk
  cases trail with
  | nil => exact hGrounded.root
  | cons last rest => exact hTrail last List.mem_cons_self

/-- A path leads to the file that was opened by it, or made. -/
theorem openFile_of_openOrCreate {path : Path} {inode : Inode} {opened : Volume}
    (hOpen : volume.openOrCreate path = .ok (inode, opened)) :
    opened.openFile path = .ok inode := by
  have hKeeps := openOrCreate_keepsNames hOpen
  obtain ⟨directory, name, hResolve, hSlash, hFound⟩ := openOrCreate_eq_ok hOpen
  refine openFile_eq_ok_iff.mpr ⟨hSlash, directory, name, hKeeps.resolve hResolve, ?_⟩
  rcases hFound with ⟨hEntry, rfl⟩ | ⟨hNew, hAdd⟩
  · exact hEntry
  · have hMade := entry_addFile (hGrounded.index_lt_of_resolve hResolve) hNew
    rwa [hAdd] at hMade

end Grounded

end Paging.Volume
