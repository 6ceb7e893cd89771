import Paging.Proofs.Pager.Records
import Paging.Proofs.Workplace.Moves

/-! What becomes of the open files while several workers open and close them. A worker who
closes a file goes by the handle that was captured when the closing was begun; by the time
the file is taken out its descriptor may stand for another one. -/
namespace Paging

namespace Pager

/-- Nothing that is begun and done at once takes a file out, and what opens one is the call
that makes sure that a path is open. -/
theorem begin_records {pager : Pager} {volume : Volume} {operation : Operation}
    {outcome : Outcome Reply} (hBegin : pager.begin volume operation = .inr outcome) :
    (outcome.pager.table = pager.table ∧ Event.SilentOnFiles outcome.events) ∨
    ∃ path fd, operation = .ensureOpen path ∧
      pager.Enters volume path fd outcome.pager.table ∧ outcome.events = [.opened path fd] := by
  have hWhole := begin_eq_inr hBegin
  rw [hWhole]
  rcases perform_records pager volume operation with
    hSame | ⟨path, fd, rfl | rfl, hEnters, hOpened⟩ | ⟨fd, file, rfl, hFile, -, -⟩
  · exact Or.inl hSame
  · -- A path that leads to a file is not opened in one step.
    simp only [begin] at hBegin
    split at hBegin
    · cases hBegin
    · rename_i hNoFile
      simp [perform, openFile, hNoFile, unchanged, Outcome.map] at hOpened
  · exact Or.inr ⟨path, fd, rfl, hEnters, hOpened⟩
  · simp [begin, handle?, hFile] at hBegin

/-- What finishing an operation does to the table, and what it records of it. -/
theorem complete_records (pager : Pager) (volume : Volume) (unfinished : Unfinished) :
    let outcome := pager.complete volume unfinished
    (outcome.pager.table = pager.table ∧ Event.SilentOnFiles outcome.events) ∨
    (∃ path fd, unfinished = .opening path ∧ pager.Enters volume path fd outcome.pager.table ∧
      outcome.events = [.opened path fd]) ∨
    ∃ fd file, unfinished = .closing fd file.handle ∧ pager.table.file? fd = some file ∧
      outcome.pager.table = (pager.table.remove fd).2 ∧
      outcome.events = [.closed fd file.path] := by
  cases unfinished with
  | opening path =>
      rcases (pager.isOpening_openTracked volume path).records with hSame | ⟨fd, hEnters, hOpened⟩
      · exact Or.inl hSame
      · exact Or.inr (Or.inl ⟨path, fd, rfl, hEnters, hOpened⟩)
  | closing fd handle =>
      simp only [complete]
      rcases pager.release_records fd handle with hNothing | ⟨file, hFile, rfl, hClosed⟩
      · rw [hNothing]
        exact Or.inl ⟨rfl, rfl, rfl⟩
      · rw [hClosed]
        exact Or.inr (Or.inr ⟨fd, file, rfl, hFile, rfl, rfl⟩)
  | destroying path =>
      simp only [complete, Outcome.map, unlinkFile]
      split <;> exact Or.inl ⟨rfl, rfl, rfl⟩

end Pager

namespace Workplace

/-- What is recorded of a move. -/
def recorded (meeting : Workplace × Move) : List Event :=
  match (meeting.1.step meeting.2).1 with
  | some report => report.events
  | none => []

/-- The files that a move enters in the table. -/
def entered (meeting : Workplace × Move) : List (Descriptor × OpenFile) :=
  (meeting.1.step meeting.2).2.pager.table.beyond meeting.1.pager.table

/-- The files that a move takes out of the table. -/
def removed (meeting : Workplace × Move) : List (Descriptor × OpenFile) :=
  meeting.1.pager.table.beyond (meeting.1.step meeting.2).2.pager.table

/-- The move is a worker's, who begins to close a descriptor and captures the handle of the
file that is open under it. -/
def Captures (worker : Nat) (fd : Descriptor) (handle : Handle) (meeting : Workplace × Move) :
    Prop :=
  meeting.2 = .start worker (.closeFile fd) ∧ meeting.1.unfinished[worker]? = none ∧
    meeting.1.pager.handle? fd = some handle

instance (worker : Nat) (fd : Descriptor) (handle : Handle) (meeting : Workplace × Move) :
    Decidable (Captures worker fd handle meeting) :=
  inferInstanceAs (Decidable (_ ∧ _ ∧ _))

/-- Whoever is in the middle of closing a file after a move was so before, or has captured
its handle. -/
theorem captures_of_step {workplace : Workplace} {move : Move} {worker : Nat}
    {fd : Descriptor} {handle : Handle}
    (hFound : (workplace.step move).2.unfinished[worker]? = some (.closing fd handle)) :
    workplace.unfinished[worker]? = some (.closing fd handle) ∨
      Captures worker fd handle (workplace, move) := by
  rcases unfinished_step hFound with hBefore | ⟨operation, rfl, hFree, hBegin⟩
  · exact Or.inl hBefore
  · rcases Pager.begin_eq_inl hBegin with ⟨_, -, hOther, -⟩ | ⟨_, _, rfl, hSame, hHandle⟩ |
      ⟨_, -, hOther, -⟩
    · cases hOther
    · cases hSame
      exact Or.inr ⟨rfl, hFree, hHandle⟩
    · cases hOther

/-- What a move does to the table, and what it records of it: nothing, a path entered that a
worker opens while nobody is about to destroy a file, or a file taken out by a worker who
captured the handle that it has. -/
theorem step_records (workplace : Workplace) (move : Move) :
    let after := (workplace.step move).2
    (after.pager.table = workplace.pager.table ∧
      Event.SilentOnFiles (recorded (workplace, move))) ∨
    (∃ worker path fd, (move = .start worker (.ensureOpen path) ∨
        move = .finish worker ∧ workplace.unfinished[worker]? = some (.opening path)) ∧
      workplace.isLocked = false ∧
      workplace.pager.Enters workplace.volume path fd after.pager.table ∧
      recorded (workplace, move) = [.opened path fd]) ∨
    ∃ worker fd file, move = .finish worker ∧
      workplace.unfinished[worker]? = some (.closing fd file.handle) ∧
      workplace.pager.table.file? fd = some file ∧
      after.pager.table = (workplace.pager.table.remove fd).2 ∧
      recorded (workplace, move) = [.closed fd file.path] := by
  simp only [recorded]
  rcases workplace.step_cases move with
    hSame | ⟨worker, operation, unfinished, -, -, -, hStep⟩ |
      ⟨worker, operation, rfl, hWaits, hBegin, hStep⟩ |
      ⟨worker, unfinished, rfl, hWaits, hFound, hStep⟩
  · rw [hSame]
    exact Or.inl ⟨rfl, rfl, rfl⟩
  · rw [hStep]
    exact Or.inl ⟨rfl, rfl, rfl⟩
  · rw [hStep]
    rcases Pager.begin_records hBegin with hSame | ⟨path, fd, rfl, hEnters, hOpened⟩
    · exact Or.inl hSame
    · exact Or.inr (Or.inl ⟨worker, path, fd, Or.inl rfl, hWaits, hEnters, hOpened⟩)
  · rw [hStep]
    rcases workplace.pager.complete_records workplace.volume unfinished with
      hSame | ⟨path, fd, rfl, hEnters, hOpened⟩ | ⟨fd, file, rfl, hFile, hAfter, hClosed⟩
    · exact Or.inl hSame
    · refine Or.inr (Or.inl ⟨worker, path, fd, Or.inr ⟨rfl, hFound⟩, ?_, hEnters, hOpened⟩)
      simpa [waits, hFound] using hWaits
    · exact Or.inr (Or.inr ⟨worker, fd, file, rfl, hFound, hFile, hAfter, hClosed⟩)

/-- No two openings in the table share a serial number, and those that workers are about to
close have had theirs given out. -/
structure Numbered (workplace : Workplace) : Prop where
  table : workplace.pager.table.Numbered
  closing_lt : ∀ (worker : Nat) (fd : Descriptor) (handle : Handle),
    workplace.unfinished[worker]? = some (.closing fd handle) →
      handle.serial < workplace.pager.table.openings

theorem numbered_quiet {pager : Pager} (hNumbered : pager.table.Numbered) (volume : Volume) :
    (quiet pager volume).Numbered where
  table := hNumbered
  closing_lt := by simp [quiet]

namespace Numbered

variable {workplace : Workplace} (hNumbered : workplace.Numbered)
include hNumbered

/-- What a move does to the open files: nothing, one file entered with the next serial
number, or one taken out whose handle the worker had captured. -/
theorem step_changes (move : Move) :
    let before := workplace.pager.table
    let after := (workplace.step move).2.pager.table
    let meeting := (workplace, move)
    (after = before ∧ entered meeting = [] ∧ removed meeting = [] ∧
      Event.SilentOnFiles (recorded meeting)) ∨
    (∃ fd file, before.Gains fd file after ∧ after.Numbered ∧
      after.openings = before.openings + 1 ∧ file.handle.serial = before.openings ∧
      entered meeting = [(fd, file)] ∧ removed meeting = [] ∧
      recorded meeting = [.opened file.path fd]) ∨
    ∃ worker fd file, move = .finish worker ∧
      workplace.unfinished[worker]? = some (.closing fd file.handle) ∧
      after.Gains fd file before ∧ after.Numbered ∧ after.openings = before.openings ∧
      entered meeting = [] ∧ removed meeting = [(fd, file)] ∧
      recorded meeting = [.closed fd file.path] := by
  intro before after meeting
  rcases workplace.step_records move with
    ⟨hSame, hSilent⟩ | ⟨-, path, fd, -, -, ⟨hNew, inode, -, hInsert⟩, hOpened⟩ |
      ⟨worker, fd, file, hFinish, hFound, hFile, hAfter, hClosed⟩
  · refine Or.inl ⟨hSame, ?_, ?_, hSilent⟩
    · rw [entered, hSame, OpenTable.beyond_self]
    · rw [removed, hSame, OpenTable.beyond_self]
  · obtain ⟨hTable, hOpenings, hGains, -⟩ := hNumbered.table.insert hNew hInsert
    exact Or.inr (Or.inl ⟨fd, _, hGains, hTable, hOpenings, rfl, hGains.beyond_eq.1,
      hGains.beyond_eq.2, hOpened⟩)
  · obtain ⟨hTable, hOpenings, -⟩ := hNumbered.table.remove hFile
    have hGains := OpenTable.gains_remove hFile
    rw [← hAfter] at hTable hOpenings hGains
    exact Or.inr (Or.inr ⟨worker, fd, file, hFinish, hFound, hGains, hTable, hOpenings,
      hGains.beyond_eq.2, hGains.beyond_eq.1, hClosed⟩)

/-- No move gives a serial number out again. -/
theorem openings_step (move : Move) :
    (workplace.step move).2.pager.table.openings =
      workplace.pager.table.openings + (entered (workplace, move)).length := by
  rcases hNumbered.step_changes move with ⟨hSame, hNone, -⟩ |
    ⟨fd, file, -, -, hOpenings, -, hOne, -⟩ | ⟨worker, fd, file, -, -, -, -, hOpenings, hNone, -⟩
  · rw [hSame, hNone, List.length_nil, Nat.add_zero]
  · rw [hOpenings, hOne, List.length_singleton]
  · rw [hOpenings, hNone, List.length_nil, Nat.add_zero]

theorem step (move : Move) : (workplace.step move).2.Numbered := by
  constructor
  · rcases hNumbered.step_changes move with ⟨hSame, -⟩ | ⟨_, _, -, hTable, -⟩ |
      ⟨_, _, _, -, -, -, hTable, -⟩
    · rw [hSame]
      exact hNumbered.table
    · exact hTable
    · exact hTable
  · intro worker fd handle hFound
    rw [hNumbered.openings_step move]
    refine Nat.lt_add_right _ ?_
    rcases captures_of_step hFound with hBefore | ⟨-, -, hHandle⟩
    · exact hNumbered.closing_lt worker fd handle hBefore
    · obtain ⟨file, hFile, rfl⟩ := Option.map_eq_some_iff.mp hHandle
      exact hNumbered.table.serial_lt fd file hFile

theorem run (moves : List Move) : (workplace.run moves).2.Numbered := by
  induction moves generalizing workplace with
  | nil => exact hNumbered
  | cons move rest ih =>
      rw [run_cons]
      exact ih (hNumbered.step move)

/-- What was open before a move or is entered by it is taken out by it or open after it. -/
theorem perm_step (move : Move) :
    (workplace.pager.table.toList ++ entered (workplace, move)).Perm
      (removed (workplace, move) ++ (workplace.step move).2.pager.table.toList) := by
  rcases hNumbered.step_changes move with ⟨hSame, hEntered, hRemoved, -⟩ |
    ⟨fd, file, hGains, -, -, -, hEntered, hRemoved, -⟩ |
    ⟨worker, fd, file, -, -, hGains, -, -, hEntered, hRemoved, -⟩
  · rw [hSame, hEntered, hRemoved, List.append_nil, List.nil_append]
  · rw [hEntered, hRemoved, List.nil_append]
    exact (List.perm_append_singleton _ _).trans hGains.perm_toList.symm
  · rw [hEntered, hRemoved, List.append_nil]
    exact hGains.perm_toList

/-- What was open at the start of a run or is entered in it is taken out in it or open at its
end, each as often. -/
theorem perm_run (moves : List Move) :
    (workplace.pager.table.toList ++ (workplace.meetings moves).flatMap entered).Perm
      ((workplace.meetings moves).flatMap removed ++
        (workplace.run moves).2.pager.table.toList) := by
  induction moves generalizing workplace with
  | nil => simp [meetings]
  | cons move rest ih =>
      have hFirst := (hNumbered.perm_step move).append_right
        (((workplace.step move).2.meetings rest).flatMap entered)
      have hLater := (ih (hNumbered.step move)).append_left (removed (workplace, move))
      rw [meetings, List.flatMap_cons, List.flatMap_cons, run_cons, ← List.append_assoc,
        List.append_assoc (removed _)]
      rw [List.append_assoc (removed _)] at hFirst
      exact hFirst.trans hLater

/-- The files that a run enters have serial numbers one after the other. -/
theorem serials_run (moves : List Move) :
    ((workplace.meetings moves).flatMap entered).map (fun entry => entry.2.handle.serial) =
      List.range' workplace.pager.table.openings
        ((workplace.meetings moves).flatMap entered).length := by
  induction moves generalizing workplace with
  | nil => rfl
  | cons move rest ih =>
      have hLater := ih (hNumbered.step move)
      have hFirst : (entered (workplace, move)).map (fun entry => entry.2.handle.serial) =
          List.range' workplace.pager.table.openings (entered (workplace, move)).length := by
        rcases hNumbered.step_changes move with ⟨-, hNone, -⟩ |
          ⟨fd, file, -, -, -, hSerial, hOne, -⟩ | ⟨_, _, _, -, -, -, -, -, hNone, -⟩
        · rw [hNone]
          rfl
        · rw [hOne, List.map_singleton, hSerial]
          rfl
        · rw [hNone]
          rfl
      rw [hNumbered.openings_step move] at hLater
      rw [meetings, List.flatMap_cons, List.map_append, hFirst, hLater, List.length_append]
      exact List.range'_append_1

/-- What is recorded of openings and closings is what was entered and taken out. -/
theorem records_run (moves : List Move) :
    let meetings := workplace.meetings moves
    (meetings.flatMap recorded).filterMap Event.opened? =
        (meetings.flatMap entered).map (fun entry => (entry.1, entry.2.path)) ∧
      (meetings.flatMap recorded).filterMap Event.closed? =
        (meetings.flatMap removed).map fun entry => (entry.1, entry.2.path) := by
  induction moves generalizing workplace with
  | nil => exact ⟨rfl, rfl⟩
  | cons move rest ih =>
      obtain ⟨hOpened, hClosed⟩ := ih (hNumbered.step move)
      simp only [meetings, List.flatMap_cons, List.filterMap_append, List.map_append, hOpened,
        hClosed]
      rcases hNumbered.step_changes move with ⟨-, hEntered, hRemoved, hNoOpening, hNoClosing⟩ |
        ⟨fd, file, -, -, -, -, hEntered, hRemoved, hRecorded⟩ |
        ⟨worker, fd, file, -, -, -, -, -, hEntered, hRemoved, hRecorded⟩
      · rw [hEntered, hRemoved, hNoOpening, hNoClosing]
        exact ⟨rfl, rfl⟩
      · rw [hEntered, hRemoved, hRecorded]
        exact ⟨rfl, rfl⟩
      · rw [hEntered, hRemoved, hRecorded]
        exact ⟨rfl, rfl⟩

end Numbered

end Workplace

end Paging
