import Paging.Proofs.Pager.Counting

/-! The counts of a pager through a run. Counting starts when the pager is new or its counts
are set back; from then on they are what the completed transfers come to, and nothing else
has a part in them. -/
namespace Paging

namespace Instruction

/-- Whether an instruction makes a pager count from zero, by putting a new one in its place
or by setting its counts back. -/
def zeroes (number : Nat) : Instruction → Bool
  | .build other config => decide (other = number) && (Pager.create config).isOk
  | .perform other .resetStatistics => decide (other = number)
  | _ => false

/-- The instruction lets a pager count on: it does not make it start anew, and it does not
put an end to the pager. -/
def LetsTally (number : Nat) (instruction : Instruction) : Prop :=
  instruction.zeroes number = false ∧ instruction ≠ .drop number

instance (number : Nat) (instruction : Instruction) :
    Decidable (instruction.LetsTally number) :=
  inferInstanceAs (Decidable (_ ∧ _))

theorem letsTally_of_mem_singly {instruction single : Instruction} {number : Nat}
    (hTally : instruction.LetsTally number) (hSingle : single ∈ instruction.singly) :
    single.LetsTally number := by
  rcases mem_singly_cases hSingle with rfl | ⟨_, _, rfl⟩ | ⟨_, _, rfl⟩ | ⟨_, _, rfl⟩
  · exact hTally
  all_goals exact ⟨rfl, by simp⟩

end Instruction

namespace Moment

/-- The transfer that a pager completed at a moment. -/
def completed? (number : Nat) (moment : Moment) : Option (Transfer × Nat) :=
  match moment.instruction, moment.answer with
  | .perform other operation, .performed result _ =>
    if other = number then operation.completed? result else none
  | _, _ => none

/-- What a pager recorded at a moment. -/
def recorded (number : Nat) (moment : Moment) : List Event :=
  match moment.instruction with
  | .perform other _ =>
    if other = number then (moment.before.step moment.instruction).1.events else []
  | _ => []

end Moment

namespace Session

/-- Whatever is not an operation of the pager leaves it as it is. -/
theorem step_of_letsTally {session : Session} {number : Nat} {pager : Pager}
    (hPager : session.pagers[number]? = some pager) {instruction : Instruction}
    (hSingle : instruction.isSingle = true) (hTally : instruction.LetsTally number)
    (hOther : ∀ operation, instruction ≠ .perform number operation) :
    (session.step instruction).2.pagers[number]? = some pager ∧
      Moment.completed? number ⟨session, instruction⟩ = none ∧
      Moment.recorded number ⟨session, instruction⟩ = [] := by
  refine ⟨?_, ?_⟩
  · rcases session.pagers_step_cases hSingle number with
      hSame | ⟨config, created, rfl, hCreate, -⟩ | ⟨hDrop, -⟩ | ⟨operation, _, hPerform, -⟩
    · exact hSame.trans hPager
    · have hZeroes := hTally.1
      simp [Instruction.zeroes, hCreate, Except.isOk, Except.toBool] at hZeroes
    · exact absurd hDrop hTally.2
    · exact absurd hPerform (hOther operation)
  · cases instruction with
    | perform other operation =>
        have hNumber : other ≠ number := by
          rintro rfl
          exact hOther operation rfl
        refine ⟨?_, if_neg hNumber⟩
        cases hAnswer : Moment.answer ⟨session, .perform other operation⟩ with
        | performed result buffer => simp [Moment.completed?, hAnswer, hNumber]
        | _ => simp [Moment.completed?, hAnswer]
    | _ => exact ⟨rfl, rfl⟩

/-- A single operation counts and records what the pager completed, if it is the pager's. -/
theorem step_counts {session : Session} {number : Nat} {pager : Pager}
    (hPager : session.pagers[number]? = some pager) {instruction : Instruction}
    (hSingle : instruction.isSingle = true) (hTally : instruction.LetsTally number) :
    let moment : Moment := ⟨session, instruction⟩
    let completed := (moment.completed? number).toList
    ∃ after, (session.step instruction).2.pagers[number]? = some after ∧
      after.statistics = completed.foldl Statistics.count pager.statistics ∧
      (moment.recorded number).filterMap Event.completed? = Transfer.recorded completed := by
  intro moment completed
  by_cases hPerform : ∃ operation, instruction = .perform number operation
  · obtain ⟨operation, rfl⟩ := hPerform
    have hReset : operation ≠ .resetStatistics := by
      rintro rfl
      simp [Instruction.LetsTally, Instruction.zeroes] at hTally
    obtain ⟨hStatistics, hEvents⟩ := pager.perform_counts session.volume hReset
    have hCompleted : moment.completed? number =
        operation.completed? (pager.perform session.volume operation).result := by
      simp [moment, Moment.completed?, Moment.answer, step, hPager]
    have hRecorded : moment.recorded number =
        (pager.perform session.volume operation).events := by
      simp [moment, Moment.recorded, step, hPager]
    refine ⟨(pager.perform session.volume operation).pager, by simp [step, hPager], ?_, ?_⟩
    · rw [hStatistics, ← hCompleted]
    · rw [hRecorded, hEvents, ← hCompleted]
  · obtain ⟨hSame, hNone, hSilent⟩ := step_of_letsTally hPager hSingle hTally
      fun operation hOperation => hPerform ⟨operation, hOperation⟩
    refine ⟨pager, hSame, ?_, ?_⟩
    · simp [completed, moment, hNone]
    · simp [completed, moment, hNone, hSilent, Transfer.recorded]

/-- What a run of single operations adds to the counts, and what is recorded of it. -/
theorem counts_moments {session : Session} {number : Nat} {pager : Pager}
    (hPager : session.pagers[number]? = some pager) {singles : List Instruction}
    (hSingle : ∀ single ∈ singles, single.isSingle = true)
    (hTally : ∀ single ∈ singles, single.LetsTally number)
    {before : List (Transfer × Nat)} (hBefore : pager.statistics = .ofTransfers before) :
    let transfers := (session.moments singles).filterMap (Moment.completed? number)
    ∃ after, (session.run singles).2.pagers[number]? = some after ∧
      after.statistics = .ofTransfers (before ++ transfers) ∧
      ((session.moments singles).flatMap (Moment.recorded number)).filterMap Event.completed? =
        Transfer.recorded transfers := by
  induction singles generalizing session pager before with
  | nil => exact ⟨pager, hPager, by simpa [moments] using hBefore, rfl⟩
  | cons instruction rest ih =>
      rw [List.forall_mem_cons] at hSingle hTally
      obtain ⟨next, hNext, hCounts, hRecords⟩ := step_counts hPager hSingle.1 hTally.1
      rw [hBefore, Statistics.foldl_count] at hCounts
      obtain ⟨after, hAfter, hFinal, hLater⟩ := ih hNext hSingle.2 hTally.2 hCounts
      rw [List.filterMap_eq_flatMap_toList (Moment.completed? number)] at hFinal hLater ⊢
      rw [moments, List.flatMap_cons, run_cons, List.flatMap_cons, List.filterMap_append, hRecords,
        hLater]
      refine ⟨after, hAfter, ?_, ?_⟩
      · rw [hFinal, List.append_assoc]
      · exact (List.filter_append _ _).symm

/-- A pager that was just made to count from zero has counted nothing. -/
theorem statistics_of_zeroes {session : Session} {opening : Instruction} {number : Nat}
    {pager : Pager} (hOpening : opening.zeroes number = true)
    (hPager : (session.step opening).2.pagers[number]? = some pager) :
    pager.statistics = .ofTransfers [] := by
  cases opening with
  | build other config =>
      simp only [Instruction.zeroes, Bool.and_eq_true, decide_eq_true_eq] at hOpening
      obtain ⟨rfl, hCreated⟩ := hOpening
      cases hCreate : Pager.create config with
      | error fault => simp [hCreate, Except.isOk, Except.toBool] at hCreated
      | ok created =>
          simp [step, hCreate] at hPager
          rw [← hPager, (Pager.create_eq_ok hCreate).1]
          rfl
  | perform other operation =>
      cases operation with
      | resetStatistics =>
          obtain rfl : other = number := by simpa [Instruction.zeroes] using hOpening
          cases hBefore : session.pagers[other]? with
          | none => simp [step, hBefore] at hPager
          | some before =>
              simp [step, hBefore, Pager.perform] at hPager
              rw [← hPager]
              rfl
      | _ => cases hOpening
  | _ => cases hOpening

end Session

/-- Whatever several pagers do on one volume, the counts of a pager that was made to count
from zero, by being new or by having them set back, are those of the transfers that it
completed since: of the pages read and written how many there were and how many bytes they
moved, and of the log how many bytes were read and appended, each count starting over when
it runs out. Transfers that fail, whatever they moved, and reads past the end of the log
have no part in them, and no other operation has. The records of the same span tell of
the same transfers, one by one, but for the reads of the log, so that they come to the
same counts but for that one. -/
theorem transfers_counted (volume : Volume) (earlier : List Instruction)
    {opening : Instruction} {instructions : List Instruction} {number : Nat} {pager : Pager}
    (hOpening : opening.zeroes number = true)
    (hPager : (Session.run ⟨∅, volume⟩ (earlier ++ [opening])).2.pagers[number]? = some pager)
    (hTally : ∀ instruction ∈ instructions, instruction.LetsTally number) :
    let session := (Session.run ⟨∅, volume⟩ (earlier ++ [opening])).2
    let final := (session.run instructions).2
    let transfers := (session.history instructions).filterMap (Moment.completed? number)
    let records := ((session.history instructions).flatMap (Moment.recorded number)).filterMap
      Event.completed?
    ∃ after, final.pagers[number]? = some after ∧
      after.statistics = .ofTransfers transfers ∧
      (after.perform final.volume .statistics).result = .ok (.statistics after.statistics) ∧
      records = transfers.filter (fun transfer => transfer.1 ≠ .readLog) ∧
      Statistics.ofTransfers records = { after.statistics with logBytesRead := 0 } := by
  intro session final transfers records
  have hOpened : (Session.run ⟨∅, volume⟩ (earlier ++ [opening])).2 =
      ((Session.run ⟨∅, volume⟩ earlier).2.step opening).2 := by
    simp [Session.run_append]
  have hZero := Session.statistics_of_zeroes hOpening (hOpened ▸ hPager)
  have hSingly : ∀ single ∈ instructions.flatMap Instruction.singly,
      single.isSingle = true ∧ single.LetsTally number := by
    intro single hSingle
    obtain ⟨instruction, hInstruction, hMember⟩ := List.mem_flatMap.mp hSingle
    exact ⟨Instruction.isSingle_of_mem_singly hMember,
      Instruction.letsTally_of_mem_singly (hTally instruction hInstruction) hMember⟩
  obtain ⟨after, hAfter, hStatistics, hRecords⟩ :=
    Session.counts_moments hPager (fun single hSingle => (hSingly single hSingle).1)
      (fun single hSingle => (hSingly single hSingle).2) hZero
  rw [← Session.run_singly] at hAfter
  refine ⟨after, hAfter, hStatistics, rfl, hRecords, ?_⟩
  rw [hStatistics]
  exact (congrArg Statistics.ofTransfers hRecords).trans (Statistics.ofTransfers_recorded _)

/-- One of two writes and one of two reads of a page are counted, since the others have too
small a buffer or come up short; of the log two workers' appends are counted, and the read
that does not begin past its end. -/
theorem transfers_counted_since_reset :
    let earlier : List Instruction :=
      [.build 0 { maxOpenFiles := 1 }, .perform 0 (.createFile ⟨"f"⟩),
        .perform 0 (.openFile ⟨"f"⟩), .perform 0 (.appendLog #[1] 1)]
    let opening : Instruction := .perform 0 .resetStatistics
    let instructions : List Instruction :=
      [.perform 0 (.writePage ⟨0⟩ ⟨0⟩ #[1, 2] 2), .perform 0 (.writePage ⟨0⟩ ⟨0⟩ #[] 1),
        .perform 0 (.readPage ⟨0⟩ ⟨0⟩ #[0, 0, 0] 3), .perform 0 (.readPage ⟨0⟩ ⟨0⟩ #[0] 1),
        .appendTogether 0 #[7] 2 1, .perform 0 (.readLog #[0, 0, 0] 3 1),
        .perform 0 (.readLog #[0] 1 9)]
    let session := (Session.run ⟨∅, .empty⟩ (earlier ++ [opening])).2
    ∃ after, (session.run instructions).2.pagers[0]? = some after ∧ after.statistics =
      { pagesRead := 1, pagesWritten := 1, pageBytesRead := 1, pageBytesWritten := 2,
        logBytesWritten := 2, logBytesRead := 2 } := by
  intro earlier opening instructions session
  have hSome : session.pagers[0]?.isSome := by decide +kernel +revert
  have hEvaluated : (session.history instructions).filterMap (Moment.completed? 0) =
      [(.writePage, 2), (.readPage, 1), (.writeLog, 1), (.writeLog, 1), (.readLog, 2)] := by
    decide +kernel +revert
  have hTally : ∀ instruction ∈ instructions, instruction.LetsTally 0 := by decide +kernel +revert
  obtain ⟨pager, hPager⟩ := Option.isSome_iff_exists.mp hSome
  obtain ⟨after, hAfter, hStatistics, -⟩ :=
    transfers_counted .empty earlier (rfl : opening.zeroes 0 = true) hPager hTally
  refine ⟨after, hAfter, hStatistics.trans ?_⟩
  rw [hEvaluated]
  rfl

end Paging
