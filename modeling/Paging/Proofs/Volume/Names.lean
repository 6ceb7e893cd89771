import Paging.Proofs.Volume.Growth

/-! Where paths lead. A path leads where it led for as long as the names are kept that
the walk along it looks up, and making files and directories takes no name away. -/
namespace Paging.Volume

/-- A directory with something in it is one of the volume's. -/
theorem index_lt_of_entry_eq_ok {volume : Volume} {directory : Directory} {name : String}
    {node : Node} (hEntry : volume.entry directory name = .ok node) :
    directory.index < volume.directories.size := by
  have hFound := (entry_eq_ok_iff.mp hEntry).2
  by_cases hIndex : directory.index < volume.directories.size
  · exact hIndex
  · have hNone : volume.entries directory = ∅ := by
      simp [entries, Array.getD, hIndex]
    simp [hNone] at hFound

/-! Changes that take no name away. -/

/-- Whatever a name stands for, it stands for it still. -/
def KeepsNames (volume after : Volume) : Prop :=
  ∀ (directory : Directory) (name : String) (node : Node),
    volume.entry directory name = .ok node → after.entry directory name = .ok node

namespace KeepsNames

theorem refl (volume : Volume) : volume.KeepsNames volume :=
  fun _ _ _ => id

theorem trans {first second third : Volume} (hFirst : first.KeepsNames second)
    (hSecond : second.KeepsNames third) : first.KeepsNames third :=
  fun directory name node hEntry => hSecond _ _ _ (hFirst directory name node hEntry)

end KeepsNames

theorem keepsNames_of_entries {volume after : Volume}
    (hEntries : ∀ (directory : Directory) (name : String) (node : Node),
      (volume.entries directory)[name]? = some node →
        (after.entries directory)[name]? = some node) :
    volume.KeepsNames after := by
  intro directory name node hEntry
  obtain ⟨hShort, hFound⟩ := entry_eq_ok_iff.mp hEntry
  exact entry_eq_ok_iff.mpr ⟨hShort, hEntries directory name node hFound⟩

/-- A new name takes none away. -/
theorem keepsNames_insert (volume : Volume) {directory : Directory} {name : String}
    (hNew : (volume.entries directory)[name]? = none) (node : Node) :
    volume.KeepsNames
      (volume.setEntries directory ((volume.entries directory).insert name node)) := by
  refine keepsNames_of_entries fun other found present hFound => ?_
  by_cases hSame : other = directory
  · subst hSame
    rcases volume.entries_setEntries other other
      ((volume.entries other).insert name node) with hSet | hOld
    · have hOther : name ≠ found := by
        intro hEqual
        rw [← hEqual, hNew] at hFound
        cases hFound
      rw [hSet, Std.ExtTreeMap.getElem?_insert]
      simpa [hOther] using hFound
    · rw [hOld, hFound]
  · rw [volume.entries_setEntries_of_ne _ hSame, hFound]

theorem keepsNames_addFile {volume : Volume} {directory : Directory} {name : String}
    (hNew : volume.entry directory name = .error .noEntry) :
    volume.KeepsNames (volume.addFile directory name).2 :=
  volume.keepsNames_insert ((entry_eq_noEntry_iff.mp hNew).2) _

theorem keepsNames_addDirectory {volume : Volume} {directory : Directory} {name : String}
    (hNew : volume.entry directory name = .error .noEntry) :
    volume.KeepsNames (volume.addDirectory directory name) := by
  let held : Volume := { volume with directories := volume.directories.push ∅ }
  have hPushed : volume.KeepsNames held :=
    keepsNames_of_entries fun other found node hFound => by rwa [volume.entries_push]
  have hFree : (held.entries directory)[name]? = none := by
    rw [volume.entries_push, (entry_eq_noEntry_iff.mp hNew).2]
  refine hPushed.trans ?_
  rw [addDirectory, ← volume.entries_push directory]
  exact held.keepsNames_insert hFree _

theorem keepsNames_setContent (volume : Volume) (inode : Inode) (content : Content) :
    volume.KeepsNames (volume.setContent inode content) :=
  KeepsNames.refl volume

theorem createFile_keepsNames {volume made : Volume} {path : Path} {inode : Inode}
    (hCreate : volume.createFile path = .ok (inode, made)) : volume.KeepsNames made := by
  obtain ⟨directory, name, -, -, hNew, hAdd⟩ := createFile_eq_ok hCreate
  cases hAdd
  exact keepsNames_addFile hNew

theorem openOrCreate_keepsNames {volume opened : Volume} {path : Path} {inode : Inode}
    (hOpen : volume.openOrCreate path = .ok (inode, opened)) : volume.KeepsNames opened := by
  obtain ⟨directory, name, -, -, ⟨-, rfl⟩ | ⟨hNew, hAdd⟩⟩ := openOrCreate_eq_ok hOpen
  · exact KeepsNames.refl opened
  · cases hAdd
    exact keepsNames_addFile hNew

theorem createDirectory_keepsNames {volume made : Volume} {path : Path}
    (hCreate : volume.createDirectory path = .ok made) : volume.KeepsNames made := by
  obtain ⟨directory, name, -, hNew, rfl⟩ := createDirectory_eq_ok hCreate
  exact keepsNames_addDirectory hNew

theorem createDirectories_keepsNames (volume : Volume) (path : Path) :
    volume.KeepsNames (volume.createDirectories path).2 :=
  createDirectories_rel KeepsNames.refl (fun _ _ _ => KeepsNames.trans)
    (fun _ _ _ => createDirectory_keepsNames) volume path

/-! Walks and the names that they look up. -/

/-- The names that a walk looks up, each with the directory where it does. Dots are not
looked up. -/
def lookups (volume : Volume) (trail : List Directory) :
    List String → List (Directory × String)
  | [] => []
  | segment :: rest =>
    let later := match volume.enter trail segment with
      | .ok next => volume.lookups next rest
      | .error _ => []
    if segment = "." ∨ segment = ".." then later else (here trail, segment) :: later

/-- A path passes through a directory when the walk along it looks up a name there, or
is led there by a name. -/
def Passes (volume : Volume) (path : Path) (directory : Directory) : Prop :=
  ∃ look ∈ volume.lookups [] path.segments, look.1 = directory ∨
    (volume.entry look.1 look.2).toOption = some (.directory directory)

instance (volume : Volume) (path : Path) (directory : Directory) :
    Decidable (volume.Passes path directory) :=
  inferInstanceAs (Decidable (∃ look ∈ volume.lookups [] path.segments, _))

/-- What entering one segment looks up, if anything, and where it leads. -/
theorem enter_eq_ok {volume : Volume} {trail next : List Directory} {segment : String}
    (hEnter : volume.enter trail segment = .ok next) :
    ((segment = "." ∨ segment = "..") ∧ next ⊆ trail ∧
      ∀ other : Volume, other.enter trail segment = .ok next) ∨
    ∃ directory, segment ≠ "." ∧ segment ≠ ".." ∧ next = directory :: trail ∧
      volume.entry (here trail) segment = .ok (.directory directory) := by
  unfold enter at hEnter
  split at hEnter
  · rename_i hDot
    cases hEnter
    exact Or.inl ⟨Or.inl hDot, List.Subset.refl _, fun other => by simp [enter, hDot]⟩
  · rename_i hDot
    split at hEnter
    · rename_i hDots
      cases hEnter
      exact Or.inl ⟨Or.inr hDots, fun _ => List.mem_of_mem_tail, fun other => by simp [enter, hDots]⟩
    · rename_i hDots
      split at hEnter
      · rename_i directory hEntry
        cases hEnter
        exact Or.inr ⟨directory, hDot, hDots, rfl, hEntry⟩
      · cases hEnter
      · cases hEnter

theorem walk_cons_eq_ok_iff {volume : Volume} {trail last : List Directory} {segment : String}
    {rest : List String} :
    volume.walk trail (segment :: rest) = .ok last ↔
      ∃ next, volume.enter trail segment = .ok next ∧ volume.walk next rest = .ok last := by
  rw [walk]
  cases volume.enter trail segment <;> simp

/-- A walk gets where it got for as long as the directories it is led to by names keep
these names. -/
theorem walk_of_lookups {volume after : Volume} {segments : List String}
    {trail last : List Directory} (hWalk : volume.walk trail segments = .ok last)
    (hKept : ∀ look ∈ volume.lookups trail segments, ∀ directory,
      volume.entry look.1 look.2 = .ok (.directory directory) →
        after.entry look.1 look.2 = .ok (.directory directory)) :
    after.walk trail segments = .ok last := by
  induction segments generalizing trail with
  | nil => exact hWalk
  | cons segment rest ih =>
      obtain ⟨next, hEnter, hRest⟩ := walk_cons_eq_ok_iff.mp hWalk
      simp only [lookups, hEnter] at hKept
      rcases enter_eq_ok hEnter with ⟨hDots, -, hSame⟩ | ⟨directory, hDot, hDots, rfl, hEntry⟩
      · rw [if_pos hDots] at hKept
        exact walk_cons_eq_ok_iff.mpr ⟨next, hSame after, ih hRest hKept⟩
      · rw [if_neg (by simp [hDot, hDots])] at hKept
        refine walk_cons_eq_ok_iff.mpr ⟨directory :: trail, ?_, ih hRest fun look hLook =>
          hKept look (List.mem_cons_of_mem _ hLook)⟩
        simp [enter, hDot, hDots, hKept _ List.mem_cons_self directory hEntry]

/-- Every name that a walk looks up on its way to somewhere stands for a directory. -/
theorem entry_of_mem_lookups {volume : Volume} {segments : List String}
    {trail last : List Directory} (hWalk : volume.walk trail segments = .ok last)
    {look : Directory × String} (hLook : look ∈ volume.lookups trail segments) :
    ∃ directory, volume.entry look.1 look.2 = .ok (.directory directory) := by
  induction segments generalizing trail with
  | nil => cases hLook
  | cons segment rest ih =>
      obtain ⟨next, hEnter, hRest⟩ := walk_cons_eq_ok_iff.mp hWalk
      simp only [lookups, hEnter] at hLook
      rcases enter_eq_ok hEnter with ⟨hDots, -⟩ | ⟨directory, hDot, hDots, rfl, hEntry⟩
      · rw [if_pos hDots] at hLook
        exact ih hRest hLook
      · rw [if_neg (by simp [hDot, hDots])] at hLook
        rcases List.mem_cons.mp hLook with rfl | hLater
        · exact ⟨directory, hEntry⟩
        · exact ih hRest hLater

/-- Where no name is taken away, a walk looks up the names that it looked up. -/
theorem KeepsNames.lookups_eq {volume after : Volume} (hKeeps : volume.KeepsNames after)
    {segments : List String} {trail last : List Directory}
    (hWalk : volume.walk trail segments = .ok last) :
    after.lookups trail segments = volume.lookups trail segments := by
  induction segments generalizing trail with
  | nil => rfl
  | cons segment rest ih =>
      obtain ⟨next, hEnter, hRest⟩ := walk_cons_eq_ok_iff.mp hWalk
      have hSame : after.enter trail segment = .ok next := by
        rcases enter_eq_ok hEnter with ⟨-, -, hSame⟩ | ⟨directory, hDot, hDots, rfl, hEntry⟩
        · exact hSame after
        · simp [enter, hDot, hDots, hKeeps _ _ _ hEntry]
      simp only [lookups, hEnter, hSame, ih hRest]

/-- The lookups of a walk in two parts. -/
theorem lookups_append {volume : Volume} {first : List String} {trail middle : List Directory}
    (hWalk : volume.walk trail first = .ok middle) (second : List String) :
    volume.lookups trail (first ++ second) =
      volume.lookups trail first ++ volume.lookups middle second := by
  induction first generalizing trail with
  | nil =>
      cases hWalk
      rfl
  | cons segment rest ih =>
      obtain ⟨next, hEnter, hRest⟩ := walk_cons_eq_ok_iff.mp hWalk
      simp only [List.cons_append, lookups, hEnter, ih hRest]
      split <;> rfl

/-- The path can be looked up at all, and ends in a name rather than in dots. -/
structure EndsInName (path : Path) (name : String) : Prop where
  holdsNul : path.holdsNul = false
  text_ne : path.text ≠ ""
  text_lt : path.text.utf8ByteSize < pathLimit
  name_ne : name ≠ "."
  name_ne_above : name ≠ ".."
  getLast? : path.segments.getLast? = some name

theorem EndsInName.segments_eq {path : Path} {name : String} (hName : EndsInName path name) :
    path.segments = path.segments.dropLast ++ [name] := by
  obtain ⟨front, hFront⟩ := List.getLast?_eq_some_iff.mp hName.getLast?
  rw [hFront, List.dropLast_concat]

/-- A path leads to the name that it ends in, in the directory that it leads to without
that name. -/
theorem resolve_eq_name_iff {volume : Volume} {path : Path} {directory : Directory}
    {name : String} :
    volume.resolve path = .ok (.name directory name) ↔ EndsInName path name ∧
      ∃ trail, volume.walk [] path.segments.dropLast = .ok trail ∧ here trail = directory := by
  constructor
  · intro hResolve
    unfold resolve at hResolve
    split at hResolve
    · cases hResolve
    · rename_i hNul
      split at hResolve
      · cases hResolve
      · rename_i hText
        split at hResolve
        · cases hResolve
        · rename_i hShort
          split at hResolve
          · cases hResolve
          · rename_i trail hWalk
            split at hResolve
            · cases hResolve
            · cases hResolve
            · cases hResolve
            · rename_i last hDot hDots hLast
              cases hResolve
              exact ⟨⟨by simpa using hNul, hText, Nat.not_le.mp hShort, hDot, hDots, hLast⟩,
                trail, hWalk, rfl⟩
  · rintro ⟨hName, trail, hWalk, rfl⟩
    have hShort : ¬pathLimit ≤ path.text.utf8ByteSize := Nat.not_le.mpr hName.text_lt
    rw [resolve, if_neg (by simp [hName.holdsNul]), if_neg hName.text_ne, if_neg hShort]
    simp only [hWalk, hName.getLast?]
    split
    · rename_i hLast
      cases hLast
    · rename_i hLast
      cases hLast
      exact absurd rfl hName.name_ne
    · rename_i hLast
      cases hLast
      exact absurd rfl hName.name_ne_above
    · rename_i hLast
      cases hLast
      rfl

/-- The name that a path leads to, with the directory that it is looked up in. A path
that ends in dots leads to none. -/
def nameOf? (volume : Volume) (path : Path) : Option (Directory × String) :=
  match volume.resolve path with
  | .ok (.name directory name) => some (directory, name)
  | _ => none

theorem nameOf?_eq_some {volume : Volume} {path : Path} {directory : Directory} {name : String} :
    volume.nameOf? path = some (directory, name) ↔
      volume.resolve path = .ok (.name directory name) := by
  unfold nameOf?
  split
  · rename_i hResolve
    simp [hResolve]
  · rename_i hOther
    simpa using hOther directory name

/-- The lookups of a path that leads to a name: those on the way, and the last one. -/
theorem lookups_of_resolve {volume : Volume} {path : Path} {directory : Directory}
    {name : String} (hResolve : volume.resolve path = .ok (.name directory name)) :
    volume.lookups [] path.segments =
      volume.lookups [] path.segments.dropLast ++ [(directory, name)] := by
  obtain ⟨hName, trail, hWalk, rfl⟩ := resolve_eq_name_iff.mp hResolve
  have hLast : volume.lookups trail [name] = [(here trail, name)] := by
    rw [lookups, if_neg (by simp [hName.name_ne, hName.name_ne_above])]
    cases hEnter : volume.enter trail name <;> simp [lookups]
  calc volume.lookups [] path.segments
    _ = volume.lookups [] (path.segments.dropLast ++ [name]) :=
        congrArg (volume.lookups []) hName.segments_eq
    _ = volume.lookups [] path.segments.dropLast ++ [(here trail, name)] := by
        rw [lookups_append hWalk, hLast]

/-- A path leads to the same file for as long as the names on the way keep leading to
their directories, and the last one to the file. -/
theorem openFile_of_lookups {volume after : Volume} {path : Path} {inode : Inode}
    {directory : Directory} {name : String} (hOpen : volume.openFile path = .ok inode)
    (hResolve : volume.resolve path = .ok (.name directory name))
    (hWay : ∀ look ∈ volume.lookups [] path.segments, ∀ place,
      volume.entry look.1 look.2 = .ok (.directory place) →
        after.entry look.1 look.2 = .ok (.directory place))
    (hLast : volume.entry directory name = .ok (.file inode) →
      after.entry directory name = .ok (.file inode)) :
    after.openFile path = .ok inode := by
  obtain ⟨hSlash, _, _, hFound, hEntry⟩ := openFile_eq_ok_iff.mp hOpen
  rw [hResolve] at hFound
  cases hFound
  obtain ⟨hName, trail, hWalk, hHere⟩ := resolve_eq_name_iff.mp hResolve
  have hAfter : after.walk [] path.segments.dropLast = .ok trail := by
    refine walk_of_lookups hWalk fun look hLook => hWay look ?_
    rw [lookups_of_resolve hResolve]
    exact List.mem_append_left _ hLook
  exact openFile_eq_ok_iff.mpr
    ⟨hSlash, directory, name, resolve_eq_name_iff.mpr ⟨hName, trail, hAfter, hHere⟩, hLast hEntry⟩

/-- Where no name is taken away, a path leads to the file that it led to. -/
theorem KeepsNames.openFile {volume after : Volume} (hKeeps : volume.KeepsNames after)
    {path : Path} {inode : Inode} (hOpen : volume.openFile path = .ok inode) :
    after.openFile path = .ok inode := by
  obtain ⟨-, directory, name, hResolve, -⟩ := openFile_eq_ok_iff.mp hOpen
  exact openFile_of_lookups hOpen hResolve (fun _ _ _ => hKeeps _ _ _) (hKeeps _ _ _)

end Paging.Volume
