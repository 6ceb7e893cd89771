import Mathlib.Data.List.Induction
import Paging.Proofs.Workplace.Openings

/-! Closing files while others close and open them. The descriptor that a worker set out to
close may have been closed and opened anew in the meantime, even by the same path; nothing
but the file whose handle was captured is taken out. A closing that was given up before the
file was taken out is one that was begun and is never finished. -/
namespace Paging

namespace Workplace

/-- In a run of the moves a worker has captured a handle to close the file under a
descriptor, and has been in the middle of that ever since. -/
def IsClosing (start : Workplace) (moves : List Move) (worker : Nat) (fd : Descriptor)
    (handle : Handle) : Prop :=
  ∃ first second, moves = first ++ .start worker (.closeFile fd) :: second ∧
    Captures worker fd handle ((start.run first).2, .start worker (.closeFile fd)) ∧
    ∀ later, later <+: second →
      (start.run (first ++ .start worker (.closeFile fd) :: later)).2.unfinished[worker]? =
        some (.closing fd handle)

/-- Whoever is in the middle of closing a file, with nobody in the middle of anything at the
start, has begun to in the run. -/
theorem isClosing_of_unfinished {start : Workplace}
    (hStart : ∀ worker : Nat, start.unfinished[worker]? = none) {moves : List Move}
    {worker : Nat} {fd : Descriptor} {handle : Handle}
    (hFound : (start.run moves).2.unfinished[worker]? = some (.closing fd handle)) :
    IsClosing start moves worker fd handle := by
  induction moves using List.reverseRecOn with
  | nil =>
      rw [run_nil, hStart] at hFound
      cases hFound
  | append_singleton moves move ih =>
      have hAfter := hFound
      rw [run_concat] at hFound
      rcases captures_of_step hFound with hBefore | hCaptures
      · obtain ⟨first, second, rfl, hCaptures, hSince⟩ := ih hBefore
        refine ⟨first, second ++ [move], by simp, hCaptures, fun later hLater => ?_⟩
        rcases List.prefix_concat_iff.mp hLater with rfl | hEarlier
        · simpa using hAfter
        · exact hSince later hEarlier
      · obtain rfl : move = .start worker (.closeFile fd) := hCaptures.1
        refine ⟨moves, [], rfl, hCaptures, fun later hLater => ?_⟩
        rw [List.prefix_nil.mp hLater]
        exact hAfter

namespace Numbered

variable {workplace : Workplace} (hNumbered : workplace.Numbered)
include hNumbered

/-- A file that is open, and that nobody is in the middle of closing, stays open unless
somebody captures its handle. -/
theorem file?_run_or_captures {fd : Descriptor} {file : OpenFile}
    (hFile : workplace.pager.table.file? fd = some file)
    (hFree : ∀ (worker : Nat) (other : Descriptor),
      workplace.unfinished[worker]? ≠ some (.closing other file.handle)) (moves : List Move) :
    (workplace.run moves).2.pager.table.file? fd = some file ∨
      ∃ meeting ∈ workplace.meetings moves, ∃ worker, Captures worker fd file.handle meeting := by
  induction moves generalizing workplace with
  | nil => exact Or.inl hFile
  | cons move rest ih =>
      by_cases hCaptured : ∃ worker other, Captures worker other file.handle (workplace, move)
      · obtain ⟨worker, other, hCaptures⟩ := hCaptured
        obtain ⟨same, hSame, hHandle⟩ := Option.map_eq_some_iff.mp hCaptures.2.2
        obtain rfl := hNumbered.table.serial_inj other fd same file hSame hFile
          (congrArg Handle.serial hHandle)
        exact Or.inr ⟨_, List.mem_cons_self, worker, hCaptures⟩
      · have hStays : (workplace.step move).2.pager.table.file? fd = some file := by
          rcases hNumbered.step_changes move with ⟨hSame, -⟩ | ⟨_, _, hGains, -⟩ |
            ⟨worker, other, same, -, hFound, hGains, -⟩
          · rwa [hSame]
          · exact hGains.file?_of_some hFile
          · have hOther : fd ≠ other := by
              rintro rfl
              rw [hGains.file?_self] at hFile
              cases hFile
              exact hFree worker fd hFound
            rwa [← hGains.file?_of_ne hOther]
        have hStillFree : ∀ (worker : Nat) (other : Descriptor),
            (workplace.step move).2.unfinished[worker]? ≠ some (.closing other file.handle) := by
          intro worker other hFound
          rcases captures_of_step hFound with hBefore | hCaptures
          · exact hFree worker other hBefore
          · exact hCaptured ⟨worker, other, hCaptures⟩
        rw [run_cons, meetings]
        rcases ih (hNumbered.step move) hStays hStillFree with
          hKept | ⟨meeting, hMeeting, worker, hCaptures⟩
        · exact Or.inl hKept
        · exact Or.inr ⟨meeting, List.mem_cons_of_mem _ hMeeting, worker, hCaptures⟩

/-- Nobody is in the middle of closing a file that was just entered. -/
theorem not_closing_of_mem_entered {move : Move} {fd : Descriptor} {file : OpenFile}
    (hEntered : (fd, file) ∈ entered (workplace, move)) :
    (workplace.step move).2.pager.table.file? fd = some file ∧
      workplace.pager.table.openings ≤ file.handle.serial ∧
      ∀ (worker : Nat) (other : Descriptor),
        (workplace.step move).2.unfinished[worker]? ≠ some (.closing other file.handle) := by
  rcases hNumbered.step_changes move with ⟨-, hNone, -⟩ |
    ⟨new, made, hGains, -, -, hSerial, hOne, -⟩ | ⟨_, _, _, -, -, -, -, -, hNone, -⟩
  · simp [hNone] at hEntered
  · obtain ⟨rfl, rfl⟩ : fd = new ∧ file = made := by simpa [hOne] using hEntered
    refine ⟨hGains.file?_self, Nat.le_of_eq hSerial.symm, fun worker other hFound => ?_⟩
    -- Every handle that was captured by then has an earlier serial number.
    have hEarlier : file.handle.serial < workplace.pager.table.openings := by
      rcases captures_of_step hFound with hBefore | ⟨-, -, hHandle⟩
      · exact hNumbered.closing_lt worker other _ hBefore
      · obtain ⟨same, hSame, hHandle⟩ := Option.map_eq_some_iff.mp hHandle
        rw [← hHandle]
        exact hNumbered.table.serial_lt other same hSame
    exact absurd hSerial (Nat.ne_of_lt hEarlier)
  · simp [hNone] at hEntered

/-- A file that is entered in a run is open at its end, unless somebody has captured its
handle. -/
theorem entered_kept_or_captured {moves : List Move} {entry : Descriptor × OpenFile}
    (hEntry : entry ∈ (workplace.meetings moves).flatMap entered) :
    entry ∈ (workplace.run moves).2.pager.table.toList ∨
      ∃ meeting ∈ workplace.meetings moves, ∃ worker,
        Captures worker entry.1 entry.2.handle meeting := by
  obtain ⟨fd, file⟩ := entry
  obtain ⟨⟨met, move⟩, hMeeting, hEntered⟩ := List.mem_flatMap.mp hEntry
  obtain ⟨first, second, rfl, rfl, hMeetings⟩ := exists_split_of_mem_meetings hMeeting
  obtain ⟨hFile, -, hFree⟩ := (hNumbered.run first).not_closing_of_mem_entered hEntered
  rw [hMeetings, run_append, run_cons]
  rcases ((hNumbered.run first).step move).file?_run_or_captures hFile hFree second with
    hKept | ⟨meeting, hLater, worker, hCaptures⟩
  · exact Or.inl (OpenTable.mem_toList_iff.mpr hKept)
  · exact Or.inr ⟨meeting, List.mem_append_right _ (List.mem_cons_of_mem _ hLater), worker,
      hCaptures⟩

/-- What a run takes out and what is open at its end has handles that are all different. -/
theorem nodup_handles (moves : List Move) :
    (((workplace.meetings moves).flatMap removed ++
      (workplace.run moves).2.pager.table.toList).map fun entry => entry.2.handle).Nodup := by
  refine ((hNumbered.perm_run moves).map _).nodup_iff.mp (List.Nodup.of_map Handle.serial ?_)
  have hEntered := hNumbered.serials_run moves
  simp only [List.map_append, List.map_map, Function.comp_def] at hEntered ⊢
  rw [hEntered]
  refine hNumbered.table.nodup_serials.append List.nodup_range' fun serial hOld hNew => ?_
  obtain ⟨⟨fd, file⟩, hMember, rfl⟩ := List.mem_map.mp hOld
  have hLess := hNumbered.table.serial_lt fd file (OpenTable.mem_toList_iff.mp hMember)
  have hGreater := (List.mem_range'_1.mp hNew).1
  exact absurd hLess (Nat.not_lt.mpr hGreater)

end Numbered

end Workplace

/-- Whatever several workers do at a pager, in whatever order their moves fall: the records
of openings and closings tell which files were entered in the table and taken out, and what
was open at the start or opened since is closed or open still, with no file closed twice.
A file is taken out by a worker who finishes closing it, one at a time, and it is the file
whose handle that worker captured. A file that is opened after somebody set out to close
has another handle than the one that was captured, and is open still unless somebody else
set out to close it since. -/
theorem files_closed_by_handle (volume : Volume) (earlier : List Instruction) {number : Nat}
    {pager : Pager} (hPager : (Session.run ⟨∅, volume⟩ earlier).2.pagers[number]? = some pager)
    (present : Volume) (moves : List Move) :
    let start := Workplace.quiet pager present
    let final := (start.run moves).2
    let meetings := start.meetings moves
    (meetings.flatMap Workplace.recorded).filterMap Event.opened? =
      (meetings.flatMap Workplace.entered).map (fun entry => (entry.1, entry.2.path)) ∧
    (meetings.flatMap Workplace.recorded).filterMap Event.closed? =
      (meetings.flatMap Workplace.removed).map (fun entry => (entry.1, entry.2.path)) ∧
    (pager.table.toList ++ meetings.flatMap Workplace.entered).Perm
      (meetings.flatMap Workplace.removed ++ final.pager.table.toList) ∧
    ((meetings.flatMap Workplace.removed ++ final.pager.table.toList).map
      fun entry => entry.2.handle).Nodup ∧
    ∀ before move after, moves = before ++ move :: after →
      (∀ entry ∈ Workplace.removed ((start.run before).2, move), ∃ worker,
        move = .finish worker ∧ Workplace.removed ((start.run before).2, move) = [entry] ∧
        Workplace.IsClosing start before worker entry.1 entry.2.handle) ∧
      ∀ worker fd handle, Workplace.Captures worker fd handle ((start.run before).2, move) →
        let later := (start.run (before ++ [move])).2.meetings after
        ∀ entry ∈ later.flatMap Workplace.entered, entry.2.handle ≠ handle ∧
          (entry ∈ final.pager.table.toList ∨ ∃ meeting ∈ later, ∃ other,
            Workplace.Captures other entry.1 entry.2.handle meeting) := by
  intro start final meetings
  have hNumbered : start.Numbered :=
    Workplace.numbered_quiet (Session.numbered_run volume earlier number pager hPager) present
  obtain ⟨hOpened, hClosed⟩ := hNumbered.records_run moves
  refine ⟨hOpened, hClosed, hNumbered.perm_run moves, hNumbered.nodup_handles moves, ?_⟩
  rintro before move after rfl
  have hBefore := hNumbered.run before
  constructor
  · rintro ⟨fd, file⟩ hRemoved
    rcases hBefore.step_changes move with ⟨-, -, hNone, -⟩ | ⟨_, _, -, -, -, -, -, hNone, -⟩ |
      ⟨worker, other, same, hFinish, hFound, -, -, -, -, hOne, -⟩
    · simp [hNone] at hRemoved
    · simp [hNone] at hRemoved
    · obtain ⟨rfl, rfl⟩ : fd = other ∧ file = same := by simpa [hOne] using hRemoved
      refine ⟨worker, hFinish, hOne, Workplace.isClosing_of_unfinished (fun worker => ?_) hFound⟩
      simp [start, Workplace.quiet]
  · intro worker fd handle hCaptures later entry hEntry
    have hFinal : final = ((start.run (before ++ [move])).2.run after).2 := by
      simp only [final, Workplace.run_append, Workplace.run_cons, Workplace.run_nil]
    rw [hFinal]
    have hNow : (start.run (before ++ [move])).2.Numbered := hNumbered.run _
    refine ⟨fun hSame => ?_, hNow.entered_kept_or_captured hEntry⟩
    -- The captured handle was given out by then, and those of later openings are new.
    obtain ⟨file, hFile, hHandle⟩ := Option.map_eq_some_iff.mp hCaptures.2.2
    have hOld := hBefore.table.serial_lt fd file hFile
    have hGrown := hBefore.openings_step move
    rw [← Workplace.run_concat] at hGrown
    have hSerial : entry.2.handle.serial ∈
        (later.flatMap Workplace.entered).map fun entry => entry.2.handle.serial :=
      List.mem_map_of_mem hEntry
    rw [hNow.serials_run after, hSame, ← hHandle] at hSerial
    have hNew := (List.mem_range'_1.mp hSerial).1
    omega

/-- Two workers set out to close the same file. One of them closes it, and it is opened anew
under the same descriptor before the other goes on: it stays open. -/
theorem files_closed_by_handle_reopened :
    let earlier : List Instruction :=
      [.build 0 { maxOpenFiles := 1 }, .perform 0 (.createFile ⟨"f"⟩),
        .perform 0 (.openFile ⟨"f"⟩)]
    let session := (Session.run ⟨∅, .empty⟩ earlier).2
    let before : List Move := [.start 1 (.closeFile ⟨0⟩)]
    let after : List Move := [.finish 1, .start 2 (.ensureOpen ⟨"f"⟩), .finish 0]
    ∃ pager ∈ session.pagers[0]?,
      let moves := before ++ .start 0 (.closeFile ⟨0⟩) :: after
      let final := ((Workplace.quiet pager session.volume).run moves).2
      pager.table.file? ⟨0⟩ = some ⟨⟨"f"⟩, ⟨⟨0⟩, 0⟩⟩ ∧
        final.pager.table.file? ⟨0⟩ = some ⟨⟨"f"⟩, ⟨⟨0⟩, 1⟩⟩ := by
  intro earlier session before after
  have hSome : session.pagers[0]?.isSome := by decide +kernel +revert
  obtain ⟨pager, hPager⟩ := Option.isSome_iff_exists.mp hSome
  have hEvaluated : ∀ pager ∈ session.pagers[0]?,
      let start := Workplace.quiet pager session.volume
      let later := (start.run (before ++ [.start 0 (.closeFile ⟨0⟩)])).2.meetings after
      pager.table.file? ⟨0⟩ = some ⟨⟨"f"⟩, ⟨⟨0⟩, 0⟩⟩ ∧
        Workplace.Captures 0 ⟨0⟩ ⟨⟨0⟩, 0⟩ ((start.run before).2, .start 0 (.closeFile ⟨0⟩)) ∧
        (⟨0⟩, ⟨⟨"f"⟩, ⟨⟨0⟩, 1⟩⟩) ∈ later.flatMap Workplace.entered ∧
        ∀ meeting ∈ later, meeting.2 ∈ after := by
    decide +kernel +revert
  obtain ⟨hFirst, hCaptures, hEntered, hMoves⟩ := hEvaluated pager hPager
  obtain ⟨-, -, -, -, hSplit⟩ := files_closed_by_handle .empty earlier hPager session.volume
    (before ++ .start 0 (.closeFile ⟨0⟩) :: after)
  refine ⟨pager, hPager, hFirst, ?_⟩
  rcases ((hSplit before _ after rfl).2 _ _ _ hCaptures _ hEntered).2 with
    hKept | ⟨meeting, hMeeting, other, hStart, -⟩
  · exact OpenTable.mem_toList_iff.mp hKept
  · have hMove := hMoves meeting hMeeting
    simp [hStart, after] at hMove

end Paging
