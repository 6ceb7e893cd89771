import Paging.Proofs.OpenTable.Openings
import Paging.Proofs.Session.History
import Paging.Proofs.Pager.Parts

/-! What operations record of their work. Each kind of operation has its own records, and
those of openings and closings tell what becomes of the table. -/
namespace Paging

/-- Whether an operation may record an event. -/
def Operation.mayRecord : Operation → Event → Bool
  | .writePage .., .wrotePage .. => true
  | .writePage .., .shortPage .. => true
  | .readPage .., .readPage .. => true
  | .readPage .., .shortPage .. => true
  | .allocatePage _, .pageSpaceExhausted _ => true
  | .createDirectory _, .createdDirectory _ => true
  | .destroyDirectory _, .destroyedDirectory _ => true
  | .createFile _, .createdFile _ => true
  | .destroyFile _, .destroyedFile _ => true
  | .destroyFile _, .refusedDestroy _ => true
  | .openFile _, .opened .. => true
  | .openFile _, .tableFull _ => true
  | .ensureOpen _, .opened .. => true
  | .ensureOpen _, .tableFull _ => true
  | .closeFile _, .closed .. => true
  | .appendLog .., .openedLog _ => true
  | .appendLog .., .appendedLog _ => true
  | .appendLog .., .shortAppend .. => true
  | .readLog .., .openedLog _ => true
  | _, _ => false

/-- Whether an operation opens or closes files of the table. -/
def Operation.opensOrCloses : Operation → Bool
  | .openFile _ => true
  | .ensureOpen _ => true
  | .closeFile _ => true
  | _ => false

namespace Event

/-- The descriptor and the path of a file that was opened, going by a record. -/
def opened? : Event → Option (Descriptor × Path)
  | .opened path fd => some (fd, path)
  | _ => none

/-- The descriptor and the path of a file that was closed, going by a record. -/
def closed? : Event → Option (Descriptor × Path)
  | .closed fd path => some (fd, path)
  | _ => none

/-- None of the records tells of an opening or a closing. -/
def SilentOnFiles (events : List Event) : Prop :=
  events.filterMap opened? = [] ∧ events.filterMap closed? = []

end Event

namespace Pager

/-- An access to the log records at most that the log was opened. -/
theorem accessLog_events {pager : Pager} {volume : Volume} {access : LogAccess}
    (hAccess : pager.accessLog volume = .ok access) :
    access.events = [] ∨ access.events = [.openedLog pager.logPath] := by
  unfold accessLog at hAccess
  split at hAccess
  · cases hAccess
    exact Or.inl rfl
  · split at hAccess
    · cases hAccess
    · cases hAccess
      exact Or.inr rfl

theorem all_mayRecord_accessLog {pager : Pager} {volume : Volume} {access : LogAccess}
    (hAccess : pager.accessLog volume = .ok access) {operation : Operation}
    (hOpens : operation.mayRecord (.openedLog pager.logPath) = true) :
    access.events.all operation.mayRecord = true := by
  cases accessLog_events hAccess with
  | inl hNone =>
      rw [hNone]
      rfl
  | inr hOpened => simpa [hOpened] using hOpens

/-- A path that is not known, and leads to a file, is entered under a descriptor. -/
def Enters (pager : Pager) (volume : Volume) (path : Path) (fd : Descriptor)
    (after : OpenTable) : Prop :=
  pager.table.descriptor? path = none ∧ ∃ inode, volume.openFile path = .ok inode ∧
    pager.table.insert path inode = .ok (fd, after)

/-- An opening of the path has left the pager as it was, and recorded at most that the
table is full, or it has entered the path and recorded that. -/
def IsOpening (pager : Pager) (volume : Volume) (path : Path) (outcome : Outcome Descriptor) :
    Prop :=
  (outcome.pager = pager ∧ (outcome.events = [] ∨ outcome.events = [.tableFull path])) ∨
  ∃ fd table, pager.Enters volume path fd table ∧ outcome.pager = { pager with table } ∧
    outcome.events = [.opened path fd]

theorem isOpening_openTracked (pager : Pager) (volume : Volume) (path : Path) :
    pager.IsOpening volume path (pager.openTracked volume path) := by
  unfold openTracked
  split
  · exact Or.inl ⟨rfl, Or.inl rfl⟩
  · rename_i hNew
    split
    · exact Or.inl ⟨rfl, Or.inr rfl⟩
    · split
      · exact Or.inl ⟨rfl, Or.inl rfl⟩
      · exact Or.inl ⟨rfl, Or.inl rfl⟩
      · rename_i inode hOpen
        split
        · exact Or.inl ⟨rfl, Or.inl rfl⟩
        · rename_i fd table hInsert
          exact Or.inr ⟨fd, table, ⟨hNew, inode, hOpen, hInsert⟩, rfl, rfl⟩

theorem isOpening_openFile (pager : Pager) (volume : Volume) (path : Path) :
    pager.IsOpening volume path (pager.openFile volume path) := by
  unfold openFile
  split
  · exact pager.isOpening_openTracked volume path
  · exact Or.inl ⟨rfl, Or.inl rfl⟩

theorem isOpening_ensureOpen (pager : Pager) (volume : Volume) (path : Path) :
    pager.IsOpening volume path (pager.ensureOpen volume path) := by
  unfold ensureOpen
  split
  · exact Or.inl ⟨rfl, Or.inl rfl⟩
  · split
    · exact pager.isOpening_openTracked volume path
    · exact Or.inl ⟨rfl, Or.inl rfl⟩

/-- Nothing is recorded of an opening but that it was made, or that the table is full. -/
theorem IsOpening.mem_events {pager : Pager} {volume : Volume} {path : Path}
    {outcome : Outcome Descriptor} (hOpening : pager.IsOpening volume path outcome)
    {event : Event} (hEvent : event ∈ outcome.events) :
    (∃ fd, event = .opened path fd) ∨ event = .tableFull path := by
  rcases hOpening with ⟨-, hNone | hFull⟩ | ⟨fd, table, -, -, hOpened⟩
  · simp [hNone] at hEvent
  · exact Or.inr (by simpa [hFull] using hEvent)
  · exact Or.inl ⟨fd, by simpa [hOpened] using hEvent⟩

theorem IsOpening.all_mayRecord {pager : Pager} {volume : Volume} {path : Path}
    {outcome : Outcome Descriptor} (hOpening : pager.IsOpening volume path outcome)
    {operation : Operation} (hOpens : ∀ fd, operation.mayRecord (.opened path fd) = true)
    (hFull : operation.mayRecord (.tableFull path) = true) :
    outcome.events.all operation.mayRecord = true := by
  rw [List.all_eq_true]
  intro event hEvent
  cases hOpening.mem_events hEvent with
  | inl hOpened =>
      obtain ⟨fd, rfl⟩ := hOpened
      exact hOpens fd
  | inr hRefused =>
      rw [hRefused]
      exact hFull

/-- What an opening does to the table, and what it records of it. -/
theorem IsOpening.records {pager : Pager} {volume : Volume} {path : Path}
    {outcome : Outcome Descriptor} (hOpening : pager.IsOpening volume path outcome) :
    (outcome.pager.table = pager.table ∧ Event.SilentOnFiles outcome.events) ∨
    ∃ fd, pager.Enters volume path fd outcome.pager.table ∧
      outcome.events = [.opened path fd] := by
  rcases hOpening with ⟨hSame, hNone | hFull⟩ | ⟨fd, table, hEnters, hAfter, hOpened⟩
  · rw [hSame, hNone]
    exact Or.inl ⟨rfl, rfl, rfl⟩
  · rw [hSame, hFull]
    exact Or.inl ⟨rfl, rfl, rfl⟩
  · rw [hAfter]
    exact Or.inr ⟨fd, hEnters, hOpened⟩

/-- Taking out a file by its handle records that, and a handle that is not the one in the
table takes out nothing. -/
theorem release_records (pager : Pager) (fd : Descriptor) (handle : Handle) :
    pager.release fd handle = (pager, []) ∨
    ∃ file, pager.table.file? fd = some file ∧ file.handle = handle ∧
      pager.release fd handle =
        ({ pager with table := (pager.table.remove fd).2 }, [.closed fd file.path]) := by
  unfold release
  split
  · rename_i hHandle
    obtain ⟨file, hFile, hSame⟩ := Option.map_eq_some_iff.mp hHandle
    exact Or.inr ⟨file, hFile, hSame, by simp [OpenTable.remove, hFile]⟩
  · exact Or.inl rfl

theorem all_mayRecord_appendLog (pager : Pager) (volume : Volume) (data : Array UInt8)
    (count : Nat) :
    (pager.appendLog volume data count).events.all (Operation.appendLog data count).mayRecord =
      true := by
  unfold appendLog
  split
  · rfl
  · split
    · rfl
    · rename_i access hAccess
      have hOpening : access.events.all (Operation.appendLog data count).mayRecord = true :=
        all_mayRecord_accessLog hAccess rfl
      split
      · exact hOpening
      · split
        · rw [List.all_append, hOpening]
          rfl
        · rw [List.all_append, hOpening]
          rfl

theorem all_mayRecord_readLog (pager : Pager) (volume : Volume) (buffer : Array UInt8)
    (count offset : Nat) :
    (pager.readLog volume buffer count offset).events.all
      (Operation.readLog buffer count offset).mayRecord = true := by
  unfold readLog
  split
  · rfl
  · split
    · rfl
    · rename_i access hAccess
      have hOpening : access.events.all (Operation.readLog buffer count offset).mayRecord = true :=
        all_mayRecord_accessLog hAccess rfl
      dsimp only
      split
      · exact hOpening
      · split
        · exact hOpening
        · exact hOpening

theorem all_mayRecord_closeFile (pager : Pager) (volume : Volume) (fd : Descriptor) :
    (pager.closeFile volume fd).events.all (Operation.closeFile fd).mayRecord = true := by
  unfold closeFile
  split
  · rfl
  · rename_i handle _
    dsimp only
    cases pager.release_records fd handle with
    | inl hNothing =>
        rw [hNothing]
        rfl
    | inr hReleased =>
        obtain ⟨file, -, -, hClosed⟩ := hReleased
        rw [hClosed]
        rfl

theorem all_mayRecord_destroyFile (pager : Pager) (volume : Volume) (path : Path) :
    (pager.destroyFile volume path).events.all (Operation.destroyFile path).mayRecord = true := by
  unfold destroyFile
  split
  · rfl
  · unfold unlinkFile
    split
    · rfl
    · rfl

/-- No operation has records of another kind than its own. -/
theorem all_mayRecord_perform (pager : Pager) (volume : Volume) (operation : Operation) :
    (pager.perform volume operation).events.all operation.mayRecord = true := by
  cases operation with
  | openFile path => exact (pager.isOpening_openFile volume path).all_mayRecord (fun _ => rfl) rfl
  | ensureOpen path =>
      exact (pager.isOpening_ensureOpen volume path).all_mayRecord (fun _ => rfl) rfl
  | closeFile fd => exact pager.all_mayRecord_closeFile volume fd
  | destroyFile path => exact pager.all_mayRecord_destroyFile volume path
  | appendLog data count => exact pager.all_mayRecord_appendLog volume data count
  | readLog buffer count offset => exact pager.all_mayRecord_readLog volume buffer count offset
  -- The others record one event at every end, or none.
  | writePage | readPage | allocatePage | setNextPage | createDirectory | destroyDirectory
  | createFile | syncFile | pathOf =>
      simp only [perform, Outcome.map, writePage, readPage, allocatePage, setNextPage,
        createDirectory, destroyDirectory, createFile, syncFile, pathOf]
      repeat' split
      all_goals rfl
  | _ => rfl

theorem mayRecord_of_mem_events {pager : Pager} {volume : Volume} {operation : Operation}
    {event : Event} (hEvent : event ∈ (pager.perform volume operation).events) :
    operation.mayRecord event = true :=
  List.all_eq_true.mp (all_mayRecord_perform pager volume operation) event hEvent

theorem table_perform {pager : Pager} {volume : Volume} {operation : Operation}
    (hOther : operation.opensOrCloses = false) :
    (pager.perform volume operation).pager.table = pager.table := by
  rcases perform_pager pager volume operation with ⟨_, hAfter⟩ | ⟨-, _, _, hAfter⟩ |
    ⟨-, _, -, hAfter⟩ | ⟨_, _, rfl | rfl, -, -⟩ | ⟨_, rfl, -⟩
  · rw [hAfter]
  · rw [hAfter]
  · rw [hAfter]
  all_goals cases hOther

theorem silentOnFiles_perform {pager : Pager} {volume : Volume} {operation : Operation}
    (hOther : operation.opensOrCloses = false) :
    Event.SilentOnFiles (pager.perform volume operation).events := by
  have hOpened : ∀ path fd, operation.mayRecord (.opened path fd) = false := by
    cases operation <;> first | exact fun _ _ => rfl | cases hOther
  have hClosed : ∀ fd path, operation.mayRecord (.closed fd path) = false := by
    cases operation <;> first | exact fun _ _ => rfl | cases hOther
  constructor
  · rw [List.filterMap_eq_nil_iff]
    intro event hEvent
    have hMay := mayRecord_of_mem_events hEvent
    cases event with
    | opened path fd => rw [hOpened] at hMay; cases hMay
    | _ => rfl
  · rw [List.filterMap_eq_nil_iff]
    intro event hEvent
    have hMay := mayRecord_of_mem_events hEvent
    cases event with
    | closed fd path => rw [hClosed] at hMay; cases hMay
    | _ => rfl

/-- What an operation does to the table, and what it records of it: nothing, a path entered,
or a file taken out. -/
theorem perform_records (pager : Pager) (volume : Volume) (operation : Operation) :
    let outcome := pager.perform volume operation
    (outcome.pager.table = pager.table ∧ Event.SilentOnFiles outcome.events) ∨
    (∃ path fd, (operation = .openFile path ∨ operation = .ensureOpen path) ∧
      pager.Enters volume path fd outcome.pager.table ∧ outcome.events = [.opened path fd]) ∨
    ∃ fd file, operation = .closeFile fd ∧ pager.table.file? fd = some file ∧
      outcome.pager.table = (pager.table.remove fd).2 ∧
      outcome.events = [.closed fd file.path] := by
  cases operation with
  | openFile path =>
      rcases (pager.isOpening_openFile volume path).records with hSame | ⟨fd, hEnters, hOpened⟩
      · exact Or.inl hSame
      · exact Or.inr (Or.inl ⟨path, fd, Or.inl rfl, hEnters, hOpened⟩)
  | ensureOpen path =>
      rcases (pager.isOpening_ensureOpen volume path).records with hSame | ⟨fd, hEnters, hOpened⟩
      · exact Or.inl hSame
      · exact Or.inr (Or.inl ⟨path, fd, Or.inr rfl, hEnters, hOpened⟩)
  | closeFile fd =>
      simp only [perform, Outcome.map, closeFile]
      split
      · exact Or.inl ⟨rfl, rfl, rfl⟩
      · rename_i handle _
        rcases pager.release_records fd handle with hNothing | ⟨file, hFile, -, hClosed⟩
        · rw [hNothing]
          exact Or.inl ⟨rfl, rfl, rfl⟩
        · rw [hClosed]
          exact Or.inr (Or.inr ⟨fd, file, rfl, hFile, rfl, rfl⟩)
  | _ => exact Or.inl ⟨table_perform rfl, silentOnFiles_perform rfl⟩

theorem numbered_perform {pager : Pager} (hNumbered : pager.table.Numbered) (volume : Volume)
    (operation : Operation) : (pager.perform volume operation).pager.table.Numbered := by
  rcases perform_records pager volume operation with
    ⟨hSame, -⟩ | ⟨path, fd, -, ⟨hNew, inode, -, hInsert⟩, -⟩ | ⟨fd, file, -, hFile, hAfter, -⟩
  · rwa [hSame]
  · exact (hNumbered.insert hNew hInsert).1
  · rw [hAfter]
    exact (hNumbered.remove hFile).1

end Pager

/-- As long as no two openings of a pager share a serial number, none ever come to. -/
theorem Session.AllPagers.numbered {session : Session}
    (hNumbered : session.AllPagers fun pager => pager.table.Numbered)
    (instructions : List Instruction) :
    (session.run instructions).2.AllPagers fun pager => pager.table.Numbered := by
  refine allPagers_run (fun config pager hCreate => ?_)
    (fun pager volume operation hTable => Pager.numbered_perform hTable volume operation)
    hNumbered instructions
  obtain ⟨rfl, hCapacity⟩ := Pager.create_eq_ok hCreate
  exact OpenTable.numbered_empty hCapacity

/-- In every pager of a run, no two openings share a serial number. -/
theorem Session.numbered_run (volume : Volume) (instructions : List Instruction) :
    (Session.run ⟨∅, volume⟩ instructions).2.AllPagers fun pager => pager.table.Numbered :=
  (allPagers_of_pagers_empty _ volume).numbered instructions

end Paging
