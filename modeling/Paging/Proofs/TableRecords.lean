import Paging.Proofs.LogSeparation
import Paging.Proofs.Pager.Replay
import Paging.Proofs.TransferCounts
import Paging.Proofs.Workplace.Openings

/-! The table of open files and the records of a whole life of a pager. Main statement: who
reads the records from the first one on knows the table after every operation, also while
several workers are at it. -/
namespace Paging

/-- What a pager recorded for debugging at a moment. -/
def Moment.debugged (number : Nat) (moment : Moment) : List Event :=
  Event.debugging (moment.recorded number)

/-- What is recorded for debugging of a move. -/
def Workplace.debugged (meeting : Workplace × Move) : List Event :=
  Event.debugging (Workplace.recorded meeting)

/-- An instruction that keeps a pager, and is no operation of it, lets it count on. -/
theorem Instruction.Keeps.letsTally {instruction : Instruction} {number : Nat}
    (hKeeps : instruction.Keeps number)
    (hOther : ∀ operation, instruction ≠ .perform number operation) :
    instruction.LetsTally number := by
  cases instruction with
  | build other config =>
      have hNumber : other ≠ number := hKeeps
      simp [LetsTally, zeroes, hNumber]
  | drop other =>
      have hNumber : other ≠ number := hKeeps
      simp [LetsTally, zeroes, hNumber]
  | perform other operation =>
      have hNumber : other ≠ number := by
        rintro rfl
        exact hOther operation rfl
      cases operation <;> simp [LetsTally, zeroes, hNumber]
  | _ => simp [LetsTally, zeroes]

namespace Session

/-- Every moment of a run meets what the moments before it leave. -/
theorem exists_of_moments_eq {session : Session} {singles : List Instruction}
    {before after : List Moment} {moment : Moment}
    (hMoments : session.moments singles = before ++ moment :: after) :
    ∃ first second, singles = first ++ moment.instruction :: second ∧
      before = session.moments first ∧ moment.before = (session.run first).2 := by
  induction before generalizing session singles with
  | nil =>
      cases singles with
      | nil => cases hMoments
      | cons single rest =>
          cases hMoments
          exact ⟨[], rest, rfl, rfl, rfl⟩
  | cons head before ih =>
      cases singles with
      | nil => cases hMoments
      | cons single rest =>
          obtain ⟨rfl, hRest⟩ := List.cons.inj hMoments
          obtain ⟨first, second, rfl, rfl, hMeets⟩ := ih hRest
          exact ⟨single :: first, second, rfl, rfl, by rw [hMeets, run_cons]⟩

variable {session : Session} {number : Nat} {pager : Pager}

/-- What a single operation makes of the table of a pager is recorded as it is. -/
theorem becomes_step (hPager : session.pagers[number]? = some pager)
    (hNumbered : pager.table.Numbered) {instruction : Instruction}
    (hSingle : instruction.isSingle = true) (hKeeps : instruction.Keeps number) :
    ∃ left, (session.step instruction).2.pagers[number]? = some left ∧ left.table.Numbered ∧
      pager.table.Becomes (Moment.debugged number ⟨session, instruction⟩) left.table := by
  by_cases hPerform : ∃ operation, instruction = .perform number operation
  · obtain ⟨operation, rfl⟩ := hPerform
    have hRecorded : Moment.recorded number ⟨session, .perform number operation⟩ =
        (pager.perform session.volume operation).events := by
      simp [Moment.recorded, step, hPager]
    refine ⟨(pager.perform session.volume operation).pager, by simp [step, hPager],
      Pager.numbered_perform hNumbered session.volume operation, ?_⟩
    rw [Moment.debugged, hRecorded]
    exact (Pager.perform_becomes hNumbered session.volume operation).debugging
  · have hOther : ∀ operation, instruction ≠ .perform number operation :=
      fun operation hOperation => hPerform ⟨operation, hOperation⟩
    obtain ⟨hSame, -, hNothing⟩ :=
      step_of_letsTally hPager hSingle (hKeeps.letsTally hOther) hOther
    refine ⟨pager, hSame, hNumbered, ?_⟩
    rw [Moment.debugged, hNothing]
    exact .same ⟨rfl, rfl⟩

/-- Through a run of single operations that keep a pager, its records tell its table. -/
theorem toldBy_run (hPager : session.pagers[number]? = some pager)
    (hNumbered : pager.table.Numbered) {records : List Event}
    (hTold : pager.table.ToldBy records) {singles : List Instruction}
    (hSingles : ∀ single ∈ singles, single.isSingle = true ∧ single.Keeps number) :
    ∃ final, (session.run singles).2.pagers[number]? = some final ∧ final.table.Numbered ∧
      final.table.ToldBy
        (records ++ (session.moments singles).flatMap (Moment.debugged number)) := by
  induction singles generalizing session pager records with
  | nil => exact ⟨pager, hPager, hNumbered, by simpa [moments] using hTold⟩
  | cons single rest ih =>
      obtain ⟨hFirst, hRest⟩ := List.forall_mem_cons.mp hSingles
      obtain ⟨left, hLeft, hNext, hBecomes⟩ := becomes_step hPager hNumbered hFirst.1 hFirst.2
      obtain ⟨final, hFinal, hLast, hRecords⟩ := ih hLeft hNext (hBecomes.toldBy hTold) hRest
      rw [run_cons, moments, List.flatMap_cons, ← List.append_assoc]
      exact ⟨final, hFinal, hLast, hRecords⟩

/-- At every moment of such a run, what was recorded before tells the table that is met, and
what is recorded then tells what becomes of it. -/
theorem explains_moment (hPager : session.pagers[number]? = some pager)
    (hNumbered : pager.table.Numbered) (hTold : pager.table.ToldBy [])
    {singles : List Instruction}
    (hSingles : ∀ single ∈ singles, single.isSingle = true ∧ single.Keeps number)
    {before after : List Moment} {moment : Moment}
    (hMoments : session.moments singles = before ++ moment :: after) :
    ∃ met left : Pager, moment.before.pagers[number]? = some met ∧
      moment.after.pagers[number]? = some left ∧
      OpenTable.Explains (before.flatMap (Moment.debugged number)) (moment.debugged number)
        met.table left.table := by
  obtain ⟨first, second, rfl, rfl, hMeets⟩ := exists_of_moments_eq hMoments
  rw [List.forall_mem_append, List.forall_mem_cons] at hSingles
  obtain ⟨met, hMet, hMetNumbered, hMetTold⟩ := toldBy_run hPager hNumbered hTold hSingles.1
  rw [← hMeets] at hMet
  obtain ⟨left, hLeft, -, hBecomes⟩ :=
    becomes_step hMet hMetNumbered hSingles.2.1.1 hSingles.2.1.2
  exact ⟨met, left, hMet, hLeft, hBecomes.explains hMetTold⟩

/-- A moment at which there is nothing to open or to close leaves the table as it was. -/
theorem table_after_of_isIdle {moment : Moment} {met left : Pager}
    (hMet : moment.before.pagers[number]? = some met)
    (hLeft : moment.after.pagers[number]? = some left) {operation : Operation}
    {result : Except Error Reply} {buffer : Option (Array UInt8)}
    (hOperation : moment.instruction = .perform number operation)
    (hAnswer : moment.answer = .performed result buffer) (hIdle : met.IsIdle result operation) :
    left.table = met.table := by
  obtain rfl : (met.perform moment.before.volume operation).pager = left := by
    rw [Moment.after, hOperation] at hLeft
    simpa [step, hMet] using hLeft
  obtain rfl : (met.perform moment.before.volume operation).result = result := by
    rw [Moment.answer, hOperation] at hAnswer
    simp only [step, hMet, Answer.performed.injEq] at hAnswer
    exact hAnswer.1
  exact Pager.table_perform_of_isIdle hIdle

end Session

namespace Workplace

/-- What a move makes of the table is recorded as it is. -/
theorem Numbered.becomes_step {workplace : Workplace} (hNumbered : workplace.Numbered)
    (move : Move) :
    workplace.pager.table.Becomes (debugged (workplace, move))
      (workplace.step move).2.pager.table := by
  refine OpenTable.Becomes.debugging ?_
  rcases workplace.step_records move with
    ⟨hSame, hSilent⟩ | ⟨-, path, fd, -, -, hEnters, hOpened⟩ |
      ⟨worker, fd, file, -, -, hFile, hAfter, hClosed⟩
  · rw [hSame]
    exact .same hSilent
  · rw [hOpened]
    exact hEnters.becomes hNumbered.table
  · rw [hClosed, hAfter]
    exact .closed (OpenTable.gains_remove hFile)

/-- Through a run of moves, what is recorded of them tells the table. -/
theorem Numbered.toldBy_run {workplace : Workplace} (hNumbered : workplace.Numbered)
    {records : List Event} (hTold : workplace.pager.table.ToldBy records) (moves : List Move) :
    (workplace.run moves).2.pager.table.ToldBy
      (records ++ (workplace.meetings moves).flatMap debugged) := by
  induction moves generalizing workplace records with
  | nil => simpa [meetings] using hTold
  | cons move rest ih =>
      have hNext := ih (hNumbered.step move) ((hNumbered.becomes_step move).toldBy hTold)
      rw [run_cons, meetings, List.flatMap_cons, ← List.append_assoc]
      exact hNext

/-- A worker who fails leaves the table as it was. -/
theorem table_step_of_error {workplace : Workplace} {move : Move} {report : Report Reply}
    (hReport : (workplace.step move).1 = some report) {error : Error}
    (hError : report.result = .error error) :
    (workplace.step move).2.pager.table = workplace.pager.table := by
  rcases workplace.step_cases move with
    hSame | ⟨worker, operation, unfinished, -, -, -, hStep⟩ |
      ⟨worker, operation, -, -, -, hStep⟩ | ⟨worker, unfinished, -, -, -, hStep⟩
  · rw [hSame]
  · rw [hStep]
  · rw [hStep] at hReport ⊢
    cases hReport
    exact Pager.table_perform_of_error hError
  · rw [hStep] at hReport ⊢
    cases hReport
    cases unfinished with
    | opening path =>
        have hFails := (workplace.pager.failsCleanly_openTracked workplace.volume path
          (.openFile path)).map Reply.descriptor
        have hTable := congrArg Pager.table (hFails error hError).1
        exact hTable
    | closing fd handle => cases hError
    | destroying path =>
        exact congrArg Pager.table (workplace.pager.unlinkFile_cases workplace.volume path).1

end Workplace

/-- From the making of a pager on, for as long as it is neither dropped nor replaced, its
records for debugging tell its table of open files: read from the first to the last, with
each opening adding its path and descriptor and each closing taking its own away, they give
before and after every operation exactly the open files. A file is opened under the least
descriptor that is not in use, and closed with the path that its descriptor was last opened
with. An operation records one opening or closing at most, and none exactly if it leaves the
table as it was; so does one that opens what is open, closes what is not open or fails. All
this goes on when several workers are at the pager, move by move. -/
theorem records_tell_table (volume : Volume) (earlier : List Instruction) {number : Nat}
    {config : Config} {pager : Pager} (hCreate : Pager.create config = .ok pager)
    {instructions : List Instruction}
    (hKeeps : ∀ instruction ∈ instructions, instruction.Keeps number) :
    let session := (Session.run ⟨∅, volume⟩ (earlier ++ [.build number config])).2
    let history := session.history instructions
    let records := history.flatMap (Moment.debugged number)
    (∀ (before : List Moment) (moment : Moment) (after : List Moment),
      history = before ++ moment :: after →
      let more := moment.debugged number
      ∃ met left : Pager, moment.before.pagers[number]? = some met ∧
        moment.after.pagers[number]? = some left ∧
        OpenTable.Explains (before.flatMap (Moment.debugged number)) more met.table left.table ∧
        ∀ (operation : Operation) (result : Except Error Reply) (buffer : Option (Array UInt8)),
          moment.instruction = .perform number operation →
          moment.answer = .performed result buffer → met.IsIdle result operation →
          Event.SilentOnFiles more) ∧
    ∃ final : Pager, (session.run instructions).2.pagers[number]? = some final ∧
      Event.openFiles records = final.table.tracked ∧
      ∀ (present : Volume) (before : List Move) (move : Move),
        let start := Workplace.quiet final present
        let met := (start.run before).2
        let more := Workplace.debugged (met, move)
        OpenTable.Explains (records ++ (start.meetings before).flatMap Workplace.debugged) more
          met.pager.table (met.step move).2.pager.table ∧
        ∀ (report : Report Reply) (error : Error), (met.step move).1 = some report →
          report.result = .error error → Event.SilentOnFiles more := by
  intro session history records
  have hPager : session.pagers[number]? = some pager := by
    simp [session, Session.run_append, Session.step, hCreate]
  obtain ⟨hNew, hCapacity⟩ := Pager.create_eq_ok hCreate
  have hNumbered : pager.table.Numbered := by
    rw [hNew]
    exact OpenTable.numbered_empty hCapacity
  have hTold : pager.table.ToldBy [] := by
    rw [hNew]
    exact OpenTable.toldBy_empty _
  have hSingles : ∀ single ∈ instructions.flatMap Instruction.singly,
      single.isSingle = true ∧ single.Keeps number := by
    intro single hSingle
    obtain ⟨instruction, hInstruction, hMember⟩ := List.mem_flatMap.mp hSingle
    exact ⟨Instruction.isSingle_of_mem_singly hMember,
      Instruction.keeps_of_mem_singly (hKeeps instruction hInstruction) hMember⟩
  constructor
  · intro before moment after hHistory more
    obtain ⟨met, left, hMet, hLeft, hExplains⟩ :=
      Session.explains_moment hPager hNumbered hTold hSingles hHistory
    refine ⟨met, left, hMet, hLeft, hExplains, ?_⟩
    intro operation result buffer hOperation hAnswer hIdle
    refine hExplains.silent_iff.mpr (congrArg OpenTable.tracked ?_)
    exact Session.table_after_of_isIdle hMet hLeft hOperation hAnswer hIdle
  · obtain ⟨final, hFinal, hLast, hRecords⟩ :=
      Session.toldBy_run hPager hNumbered hTold hSingles
    rw [← Session.run_singly] at hFinal
    refine ⟨final, hFinal, hRecords.openFiles_eq, ?_⟩
    intro present before move start met more
    have hStart : start.Numbered := Workplace.numbered_quiet hLast present
    have hMet : met.Numbered := hStart.run before
    have hExplains := (hMet.becomes_step move).explains (hStart.toldBy_run hRecords before)
    refine ⟨hExplains, fun report error hReport hError => hExplains.silent_iff.mpr ?_⟩
    rw [Workplace.table_step_of_error hReport hError]

/-- A file that is open is asked for in another spelling, which is not recorded. Closed and
opened in that spelling, it has its old descriptor again, and the records tell the new
spelling. -/
theorem records_tell_table_respelled :
    let session := (Session.run ⟨∅, .empty⟩ [.build 0 { maxOpenFiles := 2 }]).2
    let instructions : List Instruction :=
      [.perform 0 (.createDirectory ⟨"d"⟩), .perform 0 (.createFile ⟨"d/f"⟩),
        .perform 0 (.openFile ⟨"d/f"⟩), .ensureOpenTogether 0 ⟨"d//f"⟩ 2,
        .perform 0 (.closeFile ⟨0⟩), .perform 0 (.closeFile ⟨0⟩),
        .perform 0 (.openFile ⟨"d//f"⟩)]
    let records := (session.history instructions).flatMap (Moment.debugged 0)
    records = [.createdDirectory ⟨"d"⟩, .createdFile ⟨"d/f"⟩, .opened ⟨"d/f"⟩ ⟨0⟩,
        .closed ⟨0⟩ ⟨"d/f"⟩, .opened ⟨"d//f"⟩ ⟨0⟩] ∧
      ∃ final : Pager, (session.run instructions).2.pagers[0]? = some final ∧
        final.table.tracked = {(⟨"d//f"⟩, ⟨0⟩)} := by
  intro session instructions records
  have hRecords : records = [.createdDirectory ⟨"d"⟩, .createdFile ⟨"d/f"⟩,
      .opened ⟨"d/f"⟩ ⟨0⟩, .closed ⟨0⟩ ⟨"d/f"⟩, .opened ⟨"d//f"⟩ ⟨0⟩] := by
    decide +kernel +revert
  obtain ⟨pager, hCreate⟩ : ∃ pager, Pager.create { maxOpenFiles := 2 } = .ok pager := ⟨_, rfl⟩
  have hKeeps : ∀ instruction ∈ instructions, instruction.Keeps 0 := by decide
  obtain ⟨-, final, hFinal, hFiles, -⟩ := records_tell_table .empty [] hCreate hKeeps
  have hTold : Event.openFiles records = final.table.tracked := hFiles
  refine ⟨hRecords, final, hFinal, ?_⟩
  rw [← hTold, hRecords]
  decide

end Paging
