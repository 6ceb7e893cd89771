import Paging.Proofs.Session.Names

/-! The log apart from page files. As long as no path that leads to the log is opened as
a page file, no descriptor stands for the log, and all that happens to its bytes is that
more of them are appended. -/
namespace Paging

/-- The instruction neither drops the pager with this number nor puts a new one in its
place. -/
def Instruction.Keeps (number : Nat) : Instruction → Prop
  | .build other _ => other ≠ number
  | .drop other => other ≠ number
  | _ => True

instance (number : Nat) (instruction : Instruction) : Decidable (instruction.Keeps number) := by
  unfold Instruction.Keeps
  split <;> infer_instance

theorem Instruction.keeps_of_mem_singly {instruction single : Instruction} {number : Nat}
    (hKeeps : instruction.Keeps number) (hSingle : single ∈ instruction.singly) :
    single.Keeps number := by
  rcases mem_singly_cases hSingle with rfl | ⟨_, _, rfl⟩ | ⟨_, _, rfl⟩ | ⟨_, _, rfl⟩
  · exact hKeeps
  all_goals trivial

namespace Moment

/-- The log that a pager has open stays its log. -/
theorem logOf?_after {moment : Moment} (hSingle : moment.instruction.isSingle = true)
    {number : Nat} {inode : Inode} (hLog : moment.before.logOf? number = some inode)
    (hKeeps : moment.instruction.Keeps number) : moment.after.logOf? number = some inode := by
  obtain ⟨pager, hPager, hOpen⟩ := Option.bind_eq_some_iff.mp hLog
  unfold after
  rcases moment.before.pagers_step_cases hSingle number with
    hSame | ⟨config, created, hInstruction, -, -⟩ | ⟨hInstruction, -⟩ |
      ⟨operation, performer, -, hPerformer, hAfter⟩
  · rw [Session.logOf?, hSame]
    exact hLog
  · rw [hInstruction] at hKeeps
    exact absurd rfl hKeeps
  · rw [hInstruction] at hKeeps
    exact absurd rfl hKeeps
  · rw [hPager] at hPerformer
    cases hPerformer
    rw [Session.logOf?, hAfter]
    exact Pager.log_perform hOpen moment.before.volume operation

/-- A file that is not opened as a page file is none afterwards if it was none before. -/
theorem fileOf?_after_ne {moment : Moment} (hSingle : moment.instruction.isSingle = true)
    {inode : Inode} (hBefore : ∀ number fd, moment.before.fileOf? number fd ≠ some inode)
    (hNotOpened : ¬moment.OpensPages inode) (number : Nat) (fd : Descriptor) :
    moment.after.fileOf? number fd ≠ some inode := by
  intro hAfter
  rw [Session.fileOf?_eq_map] at hAfter
  obtain ⟨file, hFile, rfl⟩ := Option.map_eq_some_iff.mp hAfter
  rcases openFile?_after hSingle hFile with hOpen | ⟨hOpening, hNamed⟩
  · refine hBefore number fd ?_
    rw [Session.fileOf?_eq_map, hOpen]
    rfl
  · refine hNotOpened ?_
    have hFound := OpenFile.namedOn_iff.mpr hNamed
    rcases hOpening with hInstruction | hInstruction <;> simpa [OpensPages, hInstruction]

/-- Nothing is written through descriptors into a file that no descriptor stands for. -/
theorem pageWrites_eq_nil {moment : Moment} {inode : Inode}
    (hNoPage : ∀ number fd, moment.before.fileOf? number fd ≠ some inode) :
    moment.pageWrites inode = [] := by
  unfold pageWrites
  split
  · exact if_neg (hNoPage _ _)
  · rfl

end Moment

namespace Session

/-- No pager has the file open as a page file. -/
def NoPages (inode : Inode) (session : Session) : Prop :=
  ∀ number fd, session.fileOf? number fd ≠ some inode

/-- As long as a file is not opened as a page file, it is none, at no moment of a run. -/
theorem noPages_run {session : Session} {inode : Inode} (hStart : session.NoPages inode)
    {instructions : List Instruction}
    (hNotOpened : ∀ moment ∈ session.history instructions, ¬moment.OpensPages inode) :
    (∀ moment ∈ session.history instructions, moment.before.NoPages inode) ∧
      (session.run instructions).2.NoPages inode :=
  invariant_of_history hStart fun moment hMoment hBefore =>
    moment.fileOf?_after_ne (isSingle_of_mem_history hMoment) hBefore (hNotOpened moment hMoment)

/-- A file that nobody opens as a page file and nobody else fills only gets longer, by
what is appended to it. -/
theorem content_run_of_noPages {session : Session} (hHeld : session.Held) {inode : Inode}
    (hStart : session.NoPages inode) {instructions : List Instruction}
    (hNotOpened : ∀ moment ∈ session.history instructions, ¬moment.OpensPages inode)
    (hInside : ∀ moment ∈ session.history instructions, moment.filledOutside? ≠ some inode) :
    ((session.run instructions).2.volume.content inode).toList =
      (session.volume.content inode).toList ++
        ((session.history instructions).flatMap (Moment.appends inode)).flatten := by
  have hWrites : ∀ moment ∈ session.history instructions, moment.pageWrites inode = [] :=
    fun moment hMoment =>
      Moment.pageWrites_eq_nil ((noPages_run hStart hNotOpened).1 moment hMoment)
  rw [← foldl_leave_of_pageWrites hWrites]
  exact content_run hHeld instructions hInside

end Session

/-- From the moment a pager has opened its log, as long as no pager, then or earlier, opens
a path that leads to it as a page file and nobody else fills it: the pager keeps the log,
no descriptor that any pager hands out stands for it and no write through one reaches it,
its bytes are those that it held and behind them those that were appended, and what it
held at any time it begins with at any later time. -/
theorem log_only_grows (earlier instructions : List Instruction) {number : Nat} {inode : Inode}
    (hLog : (Session.empty.run earlier).2.logOf? number = some inode)
    (hKeeps : ∀ instruction ∈ instructions, instruction.Keeps number)
    (hNotOpened : ∀ moment ∈ Session.empty.history (earlier ++ instructions),
      ¬moment.OpensPages inode)
    (hInside : ∀ moment ∈ (Session.empty.run earlier).2.history instructions,
      moment.filledOutside? ≠ some inode) :
    let start := (Session.empty.run earlier).2
    let final := (start.run instructions).2
    let log := fun session : Session => (session.volume.content inode).toList
    final.logOf? number = some inode ∧
    (∀ other fd, final.fileOf? other fd ≠ some inode) ∧
    (∀ moment ∈ start.history instructions, moment.pageWrites inode = []) ∧
    log final = log start ++
      ((start.history instructions).flatMap (Moment.appends inode)).flatten ∧
    ∀ first second, instructions = first ++ second → log (start.run first).2 <+: log final := by
  intro start final log
  rw [Session.history_append, List.forall_mem_append] at hNotOpened
  have hEmpty : Session.empty.NoPages inode := by
    intro other fd
    simp [Session.fileOf?, Session.empty]
  have hStart : start.NoPages inode := (Session.noPages_run hEmpty hNotOpened.1).2
  have hHeld : start.Held := Session.held_empty.run earlier
  obtain ⟨hBefore, hFinal⟩ := Session.noPages_run hStart hNotOpened.2
  refine ⟨?_, hFinal, fun moment hMoment => Moment.pageWrites_eq_nil (hBefore moment hMoment),
    Session.content_run_of_noPages hHeld hStart hNotOpened.2 hInside, ?_⟩
  · refine (Session.invariant_of_history (P := fun session =>
      session.logOf? number = some inode) hLog fun moment hMoment hOpen => ?_).2
    obtain ⟨instruction, hInstruction, hSingle⟩ := Session.mem_singly_of_mem_history hMoment
    exact Moment.logOf?_after (Session.isSingle_of_mem_history hMoment) hOpen
      (Instruction.keeps_of_mem_singly (hKeeps instruction hInstruction) hSingle)
  · rintro first second rfl
    rw [Session.history_append, List.forall_mem_append] at hNotOpened hInside
    have hMiddle := (Session.noPages_run hStart hNotOpened.2.1).2
    have hLast := Session.content_run_of_noPages (hHeld.run first) hMiddle hNotOpened.2.2 hInside.2
    rw [← Session.run_append] at hLast
    exact ⟨_, hLast.symm⟩

/-- Pages are written and the log is appended to, before and after a byte that it held. -/
theorem log_only_grows_beside_pages :
    let earlier : List Instruction :=
      [.build 0 { maxOpenFiles := 2 }, .perform 0 (.createFile ⟨"f"⟩),
        .perform 0 (.openFile ⟨"f"⟩), .perform 0 (.appendLog #[1] 1)]
    let instructions : List Instruction :=
      [.perform 0 (.writePage ⟨0⟩ ⟨0⟩ #[8, 9] 2), .perform 0 (.appendLog #[2, 3] 2)]
    let start := (Session.empty.run earlier).2
    start.logOf? 0 = some ⟨1⟩ ∧
      ((start.run instructions).2.volume.content ⟨1⟩).toList = [1, 2, 3] := by
  intro earlier instructions start
  have hLog : start.logOf? 0 = some ⟨1⟩ := by decide +kernel +revert
  obtain ⟨-, -, -, hBytes, -⟩ := log_only_grows earlier instructions hLog
    (by decide +kernel +revert) (by decide +kernel +revert) (by decide +kernel +revert)
  have hEvaluated : (start.volume.content ⟨1⟩).toList ++
      ((start.history instructions).flatMap (Moment.appends ⟨1⟩)).flatten = [1, 2, 3] := by
    decide +kernel +revert
  exact ⟨hLog, hBytes.trans hEvaluated⟩

/-- Nothing keeps the log from being opened as a page file: a page that is written through
the descriptor then told overwrites what was appended. -/
theorem log_overwritten_as_page :
    let earlier : List Instruction :=
      [.build 0 { maxOpenFiles := 2 }, .perform 0 (.appendLog #[1, 2] 2)]
    let instructions : List Instruction :=
      [.perform 0 (.openFile ⟨"db.log"⟩), .perform 0 (.writePage ⟨0⟩ ⟨0⟩ #[9] 1)]
    let start := (Session.empty.run earlier).2
    let final := (start.run instructions).2
    start.logOf? 0 = some ⟨0⟩ ∧ (start.volume.content ⟨0⟩).toList = [1, 2] ∧
      final.fileOf? 0 ⟨0⟩ = some ⟨0⟩ ∧ (final.volume.content ⟨0⟩).toList = [9, 2] := by
  decide +kernel

end Paging
