import Paging.Proofs.Volume.Changes

/-! What a change of names leaves alone. Making and removing files and directories
never changes the bytes of a file, whether or not a name still leads to it, and
no name ever leads to a file that is not there. -/
namespace Paging.Volume

/-- Every name of a file leads to a file that there is. -/
def Held (volume : Volume) : Prop :=
  ∀ (directory : Directory) (name : String) (inode : Inode),
    (volume.entries directory)[name]? = some (.file inode) → inode.index < volume.contents.size

/-- One volume has the files of another with their bytes, and possibly more. Which
names lead to them may be different. -/
structure Extends (volume after : Volume) : Prop where
  size_le : volume.contents.size ≤ after.contents.size
  content_eq : ∀ inode, after.content inode = volume.content inode
  held : volume.Held → after.Held

namespace Extends

theorem refl (volume : Volume) : volume.Extends volume :=
  ⟨Nat.le_refl _, fun _ => rfl, id⟩

theorem trans {first second third : Volume} (hFirst : first.Extends second)
    (hSecond : second.Extends third) : first.Extends third where
  size_le := Nat.le_trans hFirst.size_le hSecond.size_le
  content_eq := fun inode => (hSecond.content_eq inode).trans (hFirst.content_eq inode)
  held := hSecond.held ∘ hFirst.held

end Extends

theorem held_empty : Held empty := by
  intro directory name inode hFound
  have hNone : empty.entries directory = ∅ := by
    rcases directory with ⟨index⟩
    cases index <;> rfl
  simp [hNone] at hFound

/-- What is in a directory after the entries of some directory were changed. -/
theorem entries_setEntries (volume : Volume) (directory other : Directory) (entries : Entries) :
    (volume.setEntries directory entries).entries other = entries ∨
      (volume.setEntries directory entries).entries other = volume.entries other := by
  by_cases hSame : other = directory
  · subst hSame
    by_cases hHeld : other.index < volume.directories.size
    · exact Or.inl (volume.entries_setEntries_self entries hHeld)
    · refine Or.inr ?_
      simp only [setEntries, Volume.entries]
      rw [Array.setIfInBounds_eq_of_size_le (Nat.not_lt.mp hHeld)]
  · exact Or.inr (volume.entries_setEntries_of_ne entries hSame)

/-- Entries that name no file that was not named before take nothing away. -/
theorem extends_setEntries (volume : Volume) (directory : Directory) {entries : Entries}
    (hEntries : ∀ (name : String) (inode : Inode), entries[name]? = some (.file inode) →
      (volume.entries directory)[name]? = some (.file inode)) :
    volume.Extends (volume.setEntries directory entries) where
  size_le := Nat.le_refl _
  content_eq := fun _ => rfl
  held := by
    intro hHeld other name inode hFound
    rcases volume.entries_setEntries directory other entries with hNew | hOld
    · rw [hNew] at hFound
      exact hHeld directory name inode (hEntries name inode hFound)
    · rw [hOld] at hFound
      exact hHeld other name inode hFound

theorem extends_clear (volume : Volume) (directory : Directory) :
    volume.Extends (volume.clear directory) :=
  volume.extends_setEntries directory (by simp)

theorem extends_erase (volume : Volume) (directory : Directory) (name : String) :
    volume.Extends (volume.setEntries directory ((volume.entries directory).erase name)) := by
  refine volume.extends_setEntries directory fun other inode hFound => ?_
  rw [Std.ExtTreeMap.getElem?_erase] at hFound
  split at hFound
  · cases hFound
  · exact hFound

theorem entries_push (volume : Volume) (directory : Directory) :
    entries { volume with directories := volume.directories.push ∅ } directory =
      volume.entries directory := by
  simp only [entries, Array.getD_eq_getD_getElem?, Array.getElem?_push]
  split
  · rename_i hNew
    simp [hNew]
  · rfl

theorem extends_addDirectory (volume : Volume) (directory : Directory) (name : String) :
    volume.Extends (volume.addDirectory directory name) := by
  have hPush : volume.Extends { volume with directories := volume.directories.push ∅ } := by
    refine ⟨Nat.le_refl _, fun _ => rfl, ?_⟩
    intro hHeld other name inode hFound
    rw [entries_push] at hFound
    exact hHeld other name inode hFound
  refine hPush.trans (extends_setEntries _ directory ?_)
  intro other inode hFound
  rw [Std.ExtTreeMap.getElem?_insert] at hFound
  split at hFound
  · cases hFound
  · rw [entries_push]
    exact hFound

/-- A file that is added is one that there was not, and it is there afterwards. -/
theorem extends_addFile (volume : Volume) (directory : Directory) (name : String) :
    volume.Extends (volume.addFile directory name).2 ∧
      (volume.addFile directory name).1.index <
        (volume.addFile directory name).2.contents.size := by
  refine ⟨⟨?_, volume.content_addFile directory name, ?_⟩, ?_⟩
  · simp [addFile]
  · intro hHeld other found inode hFound
    have hBefore : ∀ (place : Directory) (name : String) (inode : Inode),
        (volume.entries place)[name]? = some (.file inode) →
          inode.index < (volume.contents.push Content.empty).size := by
      intro place name inode hNamed
      have hIndex := hHeld place name inode hNamed
      simp only [Array.size_push]
      omega
    simp only [addFile] at hFound
    rcases entries_setEntries _ directory other _ with hNew | hOld
    · rw [hNew, Std.ExtTreeMap.getElem?_insert] at hFound
      split at hFound
      · cases hFound
        simp [addFile]
      · exact hBefore directory found inode hFound
    · rw [hOld] at hFound
      exact hBefore other found inode hFound
  · simp [addFile]

/-- A file that a name stands for is there. -/
theorem Held.index_lt_of_entry {volume : Volume} (hHeld : volume.Held) {directory : Directory}
    {name : String} {inode : Inode} (hEntry : volume.entry directory name = .ok (.file inode)) :
    inode.index < volume.contents.size :=
  hHeld directory name inode (entry_eq_ok_iff.mp hEntry).2

/-- A file that is opened by its path is there. -/
theorem Held.index_lt_of_openFile {volume : Volume} (hHeld : volume.Held) {path : Path}
    {inode : Inode} (hOpen : volume.openFile path = .ok inode) :
    inode.index < volume.contents.size := by
  obtain ⟨-, directory, name, -, hEntry⟩ := openFile_eq_ok_iff.mp hOpen
  exact hHeld.index_lt_of_entry hEntry

theorem createFile_extends {volume made : Volume} {path : Path} {inode : Inode}
    (hCreate : volume.createFile path = .ok (inode, made)) : volume.Extends made := by
  obtain ⟨directory, name, -, -, -, hAdd⟩ := createFile_eq_ok hCreate
  cases hAdd
  exact (volume.extends_addFile directory name).1

/-- Opening a file, or making it, gives one that is there. -/
theorem openOrCreate_extends {volume opened : Volume} {path : Path} {inode : Inode}
    (hOpen : volume.openOrCreate path = .ok (inode, opened)) :
    volume.Extends opened ∧ (volume.Held → inode.index < opened.contents.size) := by
  obtain ⟨directory, name, -, -, ⟨hEntry, rfl⟩ | ⟨-, hAdd⟩⟩ := openOrCreate_eq_ok hOpen
  · exact ⟨Extends.refl opened, fun hHeld => hHeld.index_lt_of_entry hEntry⟩
  · cases hAdd
    obtain ⟨hExtends, hIndex⟩ := volume.extends_addFile directory name
    exact ⟨hExtends, fun _ => hIndex⟩

theorem unlink_extends {volume left : Volume} {path : Path}
    (hUnlink : volume.unlink path = .ok left) : volume.Extends left := by
  obtain ⟨directory, name, inode, -, -, rfl⟩ := unlink_eq_ok hUnlink
  exact volume.extends_erase directory name

theorem createDirectory_extends {volume made : Volume} {path : Path}
    (hCreate : volume.createDirectory path = .ok made) : volume.Extends made := by
  obtain ⟨directory, name, -, -, rfl⟩ := createDirectory_eq_ok hCreate
  exact volume.extends_addDirectory directory name

/-- Whatever making one directory does to a volume, settling an attempt does too, or
nothing. -/
theorem settle_rel {R : Volume → Volume → Prop} (hRefl : ∀ volume, R volume volume)
    (volume : Volume) (path : Path) {attempt : Except Fault Volume}
    (hAttempt : ∀ made, attempt = .ok made → R volume made) :
    R volume (volume.settle path attempt).2 := by
  cases attempt with
  | ok made => exact hAttempt made rfl
  | error fault =>
      simp only [settle]
      split <;> exact hRefl volume

/-- Whatever making one directory does to a volume, making those above it first does
too, some number of times. -/
theorem establish_rel {R : Volume → Volume → Prop} (hRefl : ∀ volume, R volume volume)
    (hTrans : ∀ first second third, R first second → R second third → R first third)
    (hCreate : ∀ (volume made : Volume) (path : Path),
      volume.createDirectory path = .ok made → R volume made)
    (volume : Volume) (path : Path) (height : Nat) :
    R volume (volume.establish path height).2 := by
  have hSettle : ∀ (volume : Volume) (path : Path),
      R volume (volume.settle path (volume.createDirectory path)).2 :=
    fun volume path => settle_rel hRefl volume path fun made => hCreate volume made path
  induction height generalizing volume path with
  | zero => exact hSettle volume path
  | succ height ih =>
      unfold establish
      split
      · split
        · exact settle_rel hRefl volume path (by simp)
        · rename_i parent _
          have hAbove := ih volume parent
          split
          · rename_i above hParent
            rw [hParent] at hAbove
            exact hTrans _ _ _ hAbove (hSettle above path)
          · exact hAbove
      · exact hSettle volume path

theorem createDirectories_rel {R : Volume → Volume → Prop} (hRefl : ∀ volume, R volume volume)
    (hTrans : ∀ first second third, R first second → R second third → R first third)
    (hCreate : ∀ (volume made : Volume) (path : Path),
      volume.createDirectory path = .ok made → R volume made)
    (volume : Volume) (path : Path) : R volume (volume.createDirectories path).2 := by
  unfold createDirectories
  split
  · exact hRefl volume
  · exact establish_rel hRefl hTrans hCreate volume path _

theorem createDirectories_extends (volume : Volume) (path : Path) :
    volume.Extends (volume.createDirectories path).2 :=
  createDirectories_rel Extends.refl (fun _ _ _ => Extends.trans)
    (fun _ _ _ => createDirectory_extends) volume path

theorem removeDirectories_extends (volume : Volume) (path : Path) :
    volume.Extends (volume.removeDirectories path).2 := by
  rcases volume.removeDirectories_cases path with
    ⟨-, hSame⟩ | ⟨directory, -, hCleared | ⟨place, name, below, -, -, hErased⟩⟩
  · rw [hSame]
    exact Extends.refl volume
  · rw [hCleared]
    exact volume.extends_clear directory
  · rw [hErased]
    exact (volume.extends_clear directory).trans (extends_erase _ place name)

@[simp] theorem size_contents_setContent (volume : Volume) (inode : Inode) (content : Content) :
    (volume.setContent inode content).contents.size = volume.contents.size := by
  simp [setContent]

theorem Held.setContent {volume : Volume} (hHeld : volume.Held) (inode : Inode)
    (content : Content) : (volume.setContent inode content).Held := by
  intro directory name other hFound
  rw [size_contents_setContent]
  exact hHeld directory name other hFound

end Paging.Volume
