import Paging.Proofs.Volume.Names

/-! Changes that take names away, and the paths that feel them. Unlinking takes one name
away, and removing a directory takes away those in it and its own. -/
namespace Paging.Volume

theorem entry_erase_of_ne (volume : Volume) {directory other : Directory} {name found : String}
    (hOther : (other, found) ≠ (directory, name)) :
    (volume.setEntries directory ((volume.entries directory).erase name)).entry other found =
      volume.entry other found := by
  have hEntries : ((volume.setEntries directory
      ((volume.entries directory).erase name)).entries other)[found]? =
        (volume.entries other)[found]? := by
    by_cases hSame : other = directory
    · subst hSame
      have hName : name ≠ found := fun hEqual => hOther (hEqual ▸ rfl)
      rcases volume.entries_setEntries other other
        ((volume.entries other).erase name) with hSet | hOld
      · rw [hSet, Std.ExtTreeMap.getElem?_erase]
        simp [hName]
      · rw [hOld]
    · rw [volume.entries_setEntries_of_ne _ hSame]
  simp only [entry, hEntries]

theorem entry_erase_self {volume : Volume} {directory : Directory} {name : String} {node : Node}
    (hEntry : volume.entry directory name = .ok node) :
    (volume.setEntries directory ((volume.entries directory).erase name)).entry directory name =
      .error .noEntry := by
  have hShort := (entry_eq_ok_iff.mp hEntry).1
  rw [entry, if_neg (Nat.not_lt.mpr hShort),
    volume.entries_setEntries_self _ (index_lt_of_entry_eq_ok hEntry)]
  simp

/-- Unlinking is felt by those paths to files that lead to the name that is taken away,
and by no others. -/
theorem openFile_unlink_iff {volume left : Volume} {path other : Path} {inode : Inode}
    (hUnlink : volume.unlink other = .ok left) (hOpen : volume.openFile path = .ok inode) :
    left.openFile path = .ok inode ↔ volume.nameOf? other ≠ volume.nameOf? path := by
  obtain ⟨directory, name, removed, hOther, hRemoved, rfl⟩ := unlink_eq_ok hUnlink
  obtain ⟨-, place, last, hResolve, hEntry⟩ := openFile_eq_ok_iff.mp hOpen
  -- The name that goes is a file's, so every directory on the way keeps its name.
  have hWay : ∀ look : Directory × String, ∀ found,
      volume.entry look.1 look.2 = .ok (.directory found) →
        (volume.setEntries directory ((volume.entries directory).erase name)).entry
          look.1 look.2 = .ok (.directory found) := by
    intro look found hFound
    rwa [entry_erase_of_ne]
    intro hSame
    cases hSame
    rw [hRemoved] at hFound
    cases hFound
  rw [nameOf?_eq_some.mpr hOther, nameOf?_eq_some.mpr hResolve]
  constructor
  · intro hLeft hSame
    cases hSame
    obtain ⟨-, found, ending, hAfter, hFile⟩ := openFile_eq_ok_iff.mp hLeft
    obtain ⟨hName, trail, hWalk, rfl⟩ := resolve_eq_name_iff.mp hResolve
    have hSameWalk := walk_of_lookups hWalk fun look _ => hWay look
    have hSameResolve := resolve_eq_name_iff.mpr ⟨hName, trail, hSameWalk, rfl⟩
    rw [hAfter] at hSameResolve
    cases hSameResolve
    rw [entry_erase_self hRemoved] at hFile
    cases hFile
  · intro hApart
    refine openFile_of_lookups hOpen hResolve (fun look _ => hWay look) fun hFile => ?_
    rwa [entry_erase_of_ne]
    intro hSame
    cases hSame
    exact hApart rfl

/-- A directory that is cleared loses what is in it, and no other does. -/
theorem entry_clear_of_ne (volume : Volume) {directory other : Directory}
    (hOther : other ≠ directory) (name : String) :
    (volume.clear directory).entry other name = volume.entry other name := by
  simp only [entry, clear, volume.entries_setEntries_of_ne _ hOther]

/-- Where a directory is left with some of its names, every name is one that there was. -/
theorem keepsNames_of_setEntries {volume : Volume} {directory : Directory} {entries : Entries}
    (hEntries : ∀ (name : String) (node : Node), entries[name]? = some node →
      (volume.entries directory)[name]? = some node) :
    (volume.setEntries directory entries).KeepsNames volume := by
  refine keepsNames_of_entries fun other name node hFound => ?_
  by_cases hSame : other = directory
  · subst hSame
    rcases volume.entries_setEntries other other entries with hSet | hOld
    · exact hEntries name node (hSet ▸ hFound)
    · rwa [hOld] at hFound
  · rwa [volume.entries_setEntries_of_ne entries hSame] at hFound

theorem clear_keepsNames (volume : Volume) (directory : Directory) :
    (volume.clear directory).KeepsNames volume :=
  keepsNames_of_setEntries (by simp)

theorem erase_keepsNames (volume : Volume) (directory : Directory) (name : String) :
    (volume.setEntries directory ((volume.entries directory).erase name)).KeepsNames volume := by
  refine keepsNames_of_setEntries fun other node hFound => ?_
  rw [Std.ExtTreeMap.getElem?_erase] at hFound
  split at hFound
  · cases hFound
  · exact hFound

theorem entry_clear_self (volume : Volume) (directory : Directory) (name : String) (node : Node) :
    (volume.clear directory).entry directory name ≠ .ok node := by
  intro hEntry
  have hIndex := index_lt_of_entry_eq_ok hEntry
  have hFound := (entry_eq_ok_iff.mp hEntry).2
  simp only [clear, setEntries, Array.size_setIfInBounds] at hIndex
  rw [clear, volume.entries_setEntries_self ∅ hIndex] at hFound
  simp at hFound

/-- A path that leads to a directory's name leads to the directory. -/
theorem directoryAt_of_entry {volume : Volume} {path : Path} {directory below : Directory}
    {name : String} (hResolve : volume.resolve path = .ok (.name directory name))
    (hEntry : volume.entry directory name = .ok (.directory below)) :
    volume.directoryAt path = .ok below := by
  simp [directoryAt, status, hResolve, hEntry]

/-- Where every name of a volume is another's too, paths lead there as they do here. -/
theorem KeepsNames.resolve {volume after : Volume} (hKeeps : volume.KeepsNames after)
    {path : Path} {directory : Directory} {name : String}
    (hResolve : volume.resolve path = .ok (.name directory name)) :
    after.resolve path = .ok (.name directory name) := by
  obtain ⟨hName, trail, hWalk, hHere⟩ := resolve_eq_name_iff.mp hResolve
  exact resolve_eq_name_iff.mpr
    ⟨hName, trail, walk_of_lookups hWalk fun _ _ _ => hKeeps _ _ _, hHere⟩

/-- Removing a directory with all that is in it takes away the names in it and its own,
and no others. -/
theorem entry_removeDirectories {volume : Volume} {path : Path} {other : Directory} {name : String}
    {node : Node} (hEntry : volume.entry other name = .ok node)
    (hApart : ∀ directory, volume.directoryAt path = .ok directory →
      other ≠ directory ∧ node ≠ .directory directory) :
    (volume.removeDirectories path).2.entry other name = .ok node := by
  rcases volume.removeDirectories_cases path with ⟨-, hSame⟩ | ⟨directory, hDirectory, hAfter⟩
  · rwa [hSame]
  · obtain ⟨hOther, hNode⟩ := hApart directory hDirectory
    have hCleared := volume.entry_clear_of_ne hOther name
    rcases hAfter with hAfter | ⟨place, last, below, hResolve, hBelow, hAfter⟩
    · rw [hAfter, hCleared, hEntry]
    · -- The name that goes is the one that the path led to before, hence this directory's.
      have hKeeps := volume.clear_keepsNames directory
      have hSame := directoryAt_of_entry (hKeeps.resolve hResolve) (hKeeps _ _ _ hBelow)
      rw [hDirectory] at hSame
      cases hSame
      rw [hAfter, entry_erase_of_ne, hCleared, hEntry]
      intro hPlace
      cases hPlace
      rw [hCleared, hEntry] at hBelow
      cases hBelow
      exact hNode rfl

/-- A path to a file does not feel the removal of a directory that it does not pass
through. -/
theorem openFile_removeDirectories {volume : Volume} {path other : Path} {inode : Inode}
    (hOpen : volume.openFile path = .ok inode)
    (hApart : ∀ directory, volume.directoryAt other = .ok directory →
      ¬volume.Passes path directory) :
    (volume.removeDirectories other).2.openFile path = .ok inode := by
  obtain ⟨-, place, last, hResolve, hEntry⟩ := openFile_eq_ok_iff.mp hOpen
  have hKept : ∀ look ∈ volume.lookups [] path.segments, ∀ node,
      volume.entry look.1 look.2 = .ok node →
        (volume.removeDirectories other).2.entry look.1 look.2 = .ok node := by
    intro look hLook node hFound
    refine entry_removeDirectories hFound fun directory hDirectory => ⟨fun hSame => ?_, ?_⟩
    · exact hApart directory hDirectory ⟨look, hLook, Or.inl hSame⟩
    · rintro rfl
      exact hApart directory hDirectory ⟨look, hLook, Or.inr (by rw [hFound]; rfl)⟩
  refine openFile_of_lookups hOpen hResolve (fun look hLook found => hKept look hLook _) ?_
  refine hKept (place, last) ?_ _
  rw [lookups_of_resolve hResolve]
  exact List.mem_append_right _ List.mem_cons_self

/-- After the removal of a directory no path leads to a file by a name that it looks up
there. -/
theorem openFile_removeDirectories_ne {volume : Volume} {path other : Path}
    {directory : Directory} (hDirectory : volume.directoryAt other = .ok directory) {name : String}
    (hLook : (directory, name) ∈ volume.lookups [] path.segments) (inode : Inode) :
    (volume.removeDirectories other).2.openFile path ≠ .ok inode := by
  have hCleared : (volume.removeDirectories other).2.KeepsNames (volume.clear directory) := by
    rcases volume.removeDirectories_cases other with
      ⟨⟨fault, hFault⟩, -⟩ | ⟨found, hFound, hAfter⟩
    · rw [hDirectory] at hFault
      cases hFault
    · rw [hDirectory] at hFound
      cases hFound
      rcases hAfter with hAfter | ⟨place, last, below, -, -, hAfter⟩
      · rw [hAfter]
        exact KeepsNames.refl _
      · rw [hAfter]
        exact erase_keepsNames _ place last
  have hKeeps := hCleared.trans (volume.clear_keepsNames directory)
  intro hOpen
  obtain ⟨-, place, last, hResolve, hEntry⟩ := openFile_eq_ok_iff.mp hOpen
  obtain ⟨hName, trail, hWalk, -⟩ := resolve_eq_name_iff.mp hResolve
  -- What the path looks up afterwards, it finds, but in the directory there is nothing.
  rw [lookups_of_resolve (hKeeps.resolve hResolve), hKeeps.lookups_eq hWalk,
    List.mem_append, List.mem_singleton] at hLook
  rcases hLook with hWay | hLast
  · obtain ⟨found, hFound⟩ := entry_of_mem_lookups hWalk hWay
    exact volume.entry_clear_self directory _ _ (hCleared _ _ _ hFound)
  · cases hLast
    exact volume.entry_clear_self directory _ _ (hCleared _ _ _ hEntry)

end Paging.Volume
