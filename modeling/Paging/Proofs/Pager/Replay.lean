import Mathlib.Data.Finset.Basic
import Paging.Proofs.Pager.Failing
import Paging.Proofs.Pager.Records

/-! The open files as records tell them. Reading the records of openings and closings in
order gives a set of paths with descriptors. Main statement: whatever one operation makes of
a table, its records make of that set, and they say no more than what it has done. -/
namespace Paging

namespace Event

/-- The open files after one more record, each as its path and its descriptor. -/
def follow (files : Finset (Path × Descriptor)) : Event → Finset (Path × Descriptor)
  | .opened path fd => insert (path, fd) files
  | .closed fd path => files.erase (path, fd)
  | _ => files

/-- The files that are open by what some records tell, read from the first to the last. -/
def openFiles (records : List Event) : Finset (Path × Descriptor) := records.foldl follow ∅

/-- The path that was opened under a descriptor by what a record tells. -/
def openedUnder? (fd : Descriptor) : Event → Option Path
  | .opened path other => if other = fd then some path else none
  | _ => none

/-- The path that was opened under a descriptor by the latest record that tells of one. -/
def lastOpened? (fd : Descriptor) (records : List Event) : Option Path :=
  records.reverse.findSome? (openedUnder? fd)

/-- Those of some records that are there for debugging. -/
def debugging (events : List Event) : List Event := events.filter fun event => event.level = .debug

theorem silentOnFiles_iff {events : List Event} :
    SilentOnFiles events ↔ ∀ event ∈ events, event.opened? = none ∧ event.closed? = none := by
  rw [SilentOnFiles, List.filterMap_eq_nil_iff, List.filterMap_eq_nil_iff]
  exact ⟨fun hSilent event hEvent => ⟨hSilent.1 event hEvent, hSilent.2 event hEvent⟩,
    fun hSilent => ⟨fun event hEvent => (hSilent event hEvent).1,
      fun event hEvent => (hSilent event hEvent).2⟩⟩

theorem SilentOnFiles.debugging {events : List Event} (hSilent : SilentOnFiles events) :
    SilentOnFiles (debugging events) :=
  silentOnFiles_iff.mpr fun event hEvent =>
    silentOnFiles_iff.mp hSilent event (List.mem_filter.mp hEvent).1

theorem openFiles_append (records more : List Event) :
    openFiles (records ++ more) = more.foldl follow (openFiles records) :=
  List.foldl_append

theorem lastOpened?_append (fd : Descriptor) (records more : List Event) :
    lastOpened? fd (records ++ more) = (lastOpened? fd more).or (lastOpened? fd records) := by
  rw [lastOpened?, List.reverse_append, List.findSome?_append]
  rfl

theorem foldl_follow_of_silent {events : List Event} (hSilent : SilentOnFiles events)
    (files : Finset (Path × Descriptor)) : events.foldl follow files = files := by
  rw [silentOnFiles_iff] at hSilent
  induction events with
  | nil => rfl
  | cons event rest ih =>
      obtain ⟨hFirst, hRest⟩ := List.forall_mem_cons.mp hSilent
      rw [List.foldl_cons]
      cases event with
      | opened => cases hFirst.1
      | closed => cases hFirst.2
      | _ => exact ih hRest

theorem lastOpened?_of_silent {events : List Event} (hSilent : SilentOnFiles events)
    (fd : Descriptor) : lastOpened? fd events = none := by
  refine List.findSome?_eq_none_iff.mpr fun event hEvent => ?_
  have hNone := silentOnFiles_iff.mp hSilent event (List.mem_reverse.mp hEvent)
  cases event with
  | opened => cases hNone.1
  | _ => rfl

end Event

namespace OpenTable

/-- The open files, each as the path by which it was opened and its descriptor. -/
def tracked (table : OpenTable) : Finset (Path × Descriptor) :=
  (table.toList.map fun entry => (entry.2.path, entry.1)).toFinset

theorem mem_tracked_iff {table : OpenTable} {path : Path} {fd : Descriptor} :
    (path, fd) ∈ table.tracked ↔ ∃ file, table.file? fd = some file ∧ file.path = path := by
  rw [tracked, List.mem_toFinset, List.mem_map]
  constructor
  · rintro ⟨⟨other, file⟩, hEntry, hSame⟩
    obtain ⟨rfl, rfl⟩ := Prod.mk.inj hSame
    exact ⟨file, mem_toList_iff.mp hEntry, rfl⟩
  · rintro ⟨file, hFile, rfl⟩
    exact ⟨(fd, file), mem_toList_iff.mpr hFile, rfl⟩

theorem tracked_empty (capacity : Nat) : (empty capacity).tracked = ∅ := by
  refine Finset.eq_empty_of_forall_notMem fun ⟨path, fd⟩ hMember => ?_
  obtain ⟨file, hFile, -⟩ := mem_tracked_iff.mp hMember
  simp [file?, empty] at hFile

namespace Gains

variable {table after : OpenTable} {fd : Descriptor} {file : OpenFile}
  (hGains : table.Gains fd file after)
include hGains

theorem not_mem_tracked (path : Path) : (path, fd) ∉ table.tracked := by
  rw [mem_tracked_iff]
  rintro ⟨found, hFound, -⟩
  rw [hGains.free] at hFound
  cases hFound

theorem tracked_eq : after.tracked = Insert.insert (file.path, fd) table.tracked := by
  ext ⟨path, other⟩
  rw [Finset.mem_insert, mem_tracked_iff, mem_tracked_iff, hGains.file?_eq, Prod.mk.injEq]
  by_cases hOther : other = fd
  · subst hOther
    simp [hGains.free, eq_comm]
  · simp [hOther]

theorem tracked_ne : after.tracked ≠ table.tracked := by
  intro hSame
  refine hGains.not_mem_tracked file.path ?_
  rw [← hSame, hGains.tracked_eq]
  exact Finset.mem_insert_self _ _

end Gains

/-- What an operation can make of a table, and what is recorded of it: nothing, a file that
is entered under the least descriptor that is free, or one that is taken out. -/
inductive Becomes (table : OpenTable) : List Event → OpenTable → Prop
  | same {events : List Event} (hSilent : Event.SilentOnFiles events) :
      Becomes table events table
  | opened {fd : Descriptor} {file : OpenFile} {after : OpenTable}
      (hGains : table.Gains fd file after) (hLeast : table.IsLeastFree fd) :
      Becomes table [.opened file.path fd] after
  | closed {fd : Descriptor} {file : OpenFile} {after : OpenTable}
      (hGains : after.Gains fd file table) :
      Becomes table [.closed fd file.path] after

/-- The records tell which files are open, and the latest opening under the descriptor of
each of them is its own. -/
structure ToldBy (table : OpenTable) (records : List Event) : Prop where
  openFiles_eq : Event.openFiles records = table.tracked
  latest : ∀ fd file, table.file? fd = some file →
    Event.lastOpened? fd records = some file.path

/-- After `records` have told what is in the one table, `more` of them tell what has made the
other table of it, and nothing else. -/
structure Explains (records more : List Event) (table after : OpenTable) : Prop where
  openFiles_eq : Event.openFiles records = table.tracked
  openFiles_append_eq : Event.openFiles (records ++ more) = after.tracked
  /-- A file is opened under the least descriptor that is not in use. -/
  least : ∀ path fd, .opened path fd ∈ more → table.IsLeastFree fd
  /-- A file is closed with the path that its descriptor was last opened with. -/
  latest : ∀ fd path, .closed fd path ∈ more → Event.lastOpened? fd records = some path
  atMostOne : (more.filterMap Event.opened?).length + (more.filterMap Event.closed?).length ≤ 1
  /-- Nothing is told exactly if nothing was changed. -/
  silent_iff : Event.SilentOnFiles more ↔ after.tracked = table.tracked
  unchanged : Event.SilentOnFiles more → after = table

theorem toldBy_empty (capacity : Nat) : (empty capacity).ToldBy [] where
  openFiles_eq := (tracked_empty capacity).symm
  latest := by simp [empty, file?]

namespace Becomes

variable {table after : OpenTable} {more : List Event} (hBecomes : table.Becomes more after)
include hBecomes

/-- The records of openings and closings are all for debugging. -/
theorem debugging : table.Becomes (Event.debugging more) after := by
  cases hBecomes with
  | same hSilent => exact .same hSilent.debugging
  | opened hGains hLeast => exact .opened hGains hLeast
  | closed hGains => exact .closed hGains

/-- Records that tell what is in a table tell it still, with those of one more change. -/
theorem toldBy {records : List Event} (hTold : table.ToldBy records) :
    after.ToldBy (records ++ more) := by
  refine ⟨?_, fun other same hSame => ?_⟩
  · rw [Event.openFiles_append, hTold.openFiles_eq]
    cases hBecomes with
    | same hSilent => exact Event.foldl_follow_of_silent hSilent _
    | opened hGains hLeast => exact hGains.tracked_eq.symm
    | closed hGains =>
        show table.tracked.erase _ = _
        rw [hGains.tracked_eq, Finset.erase_insert (hGains.not_mem_tracked _)]
  · rw [Event.lastOpened?_append]
    cases hBecomes with
    | same hSilent =>
        rw [Event.lastOpened?_of_silent hSilent, Option.none_or]
        exact hTold.latest other same hSame
    | @opened fd file after hGains hLeast =>
        rw [hGains.file?_eq] at hSame
        by_cases hOther : other = fd
        · subst hOther
          rw [if_pos rfl] at hSame
          cases hSame
          simp [Event.lastOpened?, Event.openedUnder?]
        · rw [if_neg hOther] at hSame
          simpa [Event.lastOpened?, Event.openedUnder?, Ne.symm hOther] using
            hTold.latest other same hSame
    | closed hGains => exact hTold.latest other same (hGains.file?_of_some hSame)

/-- The records of a change tell it, and nothing else. -/
theorem explains {records : List Event} (hTold : table.ToldBy records) :
    Explains records more table after where
  openFiles_eq := hTold.openFiles_eq
  openFiles_append_eq := (hBecomes.toldBy hTold).openFiles_eq
  least := by
    intro path fd hOpened
    cases hBecomes with
    | same hSilent => cases (Event.silentOnFiles_iff.mp hSilent _ hOpened).1
    | opened hGains hLeast =>
        cases List.mem_singleton.mp hOpened
        exact hLeast
    | closed hGains => cases List.mem_singleton.mp hOpened
  latest := by
    intro fd path hClosed
    cases hBecomes with
    | same hSilent => cases (Event.silentOnFiles_iff.mp hSilent _ hClosed).2
    | opened hGains hLeast => cases List.mem_singleton.mp hClosed
    | closed hGains =>
        cases List.mem_singleton.mp hClosed
        exact hTold.latest fd _ hGains.file?_self
  atMostOne := by
    cases hBecomes with
    | same hSilent => simp [hSilent.1, hSilent.2]
    | opened => exact Nat.le_refl 1
    | closed => exact Nat.le_refl 1
  silent_iff := by
    cases hBecomes with
    | same hSilent => exact ⟨fun _ => rfl, fun _ => hSilent⟩
    | opened hGains =>
        exact ⟨fun hSilent => (by cases hSilent.1), fun hSame => absurd hSame hGains.tracked_ne⟩
    | closed hGains =>
        exact ⟨fun hSilent => (by cases hSilent.2),
          fun hSame => absurd hSame.symm hGains.tracked_ne⟩
  unchanged := by
    intro hSilent
    cases hBecomes with
    | same => rfl
    | opened => cases hSilent.1
    | closed => cases hSilent.2

end Becomes

end OpenTable

namespace Pager

/-- What is entered in a table is recorded as it is. -/
theorem Enters.becomes {pager : Pager} (hNumbered : pager.table.Numbered) {volume : Volume}
    {path : Path} {fd : Descriptor} {after : OpenTable}
    (hEnters : pager.Enters volume path fd after) :
    pager.table.Becomes [.opened path fd] after := by
  obtain ⟨hNew, inode, -, hInsert⟩ := hEnters
  obtain ⟨-, -, hGains, -⟩ := hNumbered.insert hNew hInsert
  obtain ⟨released, watermark, hReserves, -⟩ := hNumbered.reserves_of_insert hNew hInsert
  exact .opened hGains hReserves.least

/-- What an operation makes of the table is recorded as it is. -/
theorem perform_becomes {pager : Pager} (hNumbered : pager.table.Numbered) (volume : Volume)
    (operation : Operation) :
    pager.table.Becomes (pager.perform volume operation).events
      (pager.perform volume operation).pager.table := by
  rcases perform_records pager volume operation with
    ⟨hSame, hSilent⟩ | ⟨path, fd, -, hEnters, hOpened⟩ | ⟨fd, file, -, hFile, hAfter, hClosed⟩
  · rw [hSame]
    exact .same hSilent
  · rw [hOpened]
    exact hEnters.becomes hNumbered
  · rw [hClosed, hAfter]
    exact .closed (OpenTable.gains_remove hFile)

/-- An operation that fails leaves the table as it was. -/
theorem table_perform_of_error {pager : Pager} {volume : Volume} {operation : Operation}
    {error : Error} (hError : (pager.perform volume operation).result = .error error) :
    (pager.perform volume operation).pager.table = pager.table := by
  cases hKind : operation.opensOrCloses with
  | false => exact table_perform hKind
  | true =>
      have hWhole : operation.mayStopHalfway = false := by
        cases operation <;> first | rfl | cases hKind
      rw [(failsCleanly_of_whole pager volume hWhole error hError).1]

/-- The operation has nothing to open or to close: it is of another kind, or it fails, or its
path is open already, or its descriptor is not in use. -/
def IsIdle (pager : Pager) (result : Except Error Reply) : Operation → Prop
  | .openFile path => pager.table.isOpen path = true ∨ ∃ error, result = .error error
  | .ensureOpen path => pager.table.isOpen path = true ∨ ∃ error, result = .error error
  | .closeFile fd => pager.table.file? fd = none ∨ ∃ error, result = .error error
  | _ => True

/-- An operation that has nothing to open or to close leaves the table as it was. -/
theorem table_perform_of_isIdle {pager : Pager} {volume : Volume} {operation : Operation}
    (hIdle : pager.IsIdle (pager.perform volume operation).result operation) :
    (pager.perform volume operation).pager.table = pager.table := by
  have hKnown : ∀ path fd after, pager.table.isOpen path = true →
      ¬pager.Enters volume path fd after := by
    intro path fd after hOpen hEnters
    obtain ⟨known, hKnown⟩ := OpenTable.isOpen_iff.mp hOpen
    rw [hEnters.1] at hKnown
    cases hKnown
  rcases perform_records pager volume operation with
    ⟨hSame, -⟩ | ⟨path, fd, hOperation, hEnters, -⟩ | ⟨fd, file, rfl, hFile, -, -⟩
  · exact hSame
  · rcases hOperation with rfl | rfl
    all_goals
      rcases hIdle with hOpen | ⟨error, hError⟩
      · exact absurd hEnters (hKnown _ _ _ hOpen)
      · exact table_perform_of_error hError
  · rcases hIdle with hNone | ⟨error, hError⟩
    · rw [hFile] at hNone
      cases hNone
    · exact table_perform_of_error hError

end Pager

end Paging
