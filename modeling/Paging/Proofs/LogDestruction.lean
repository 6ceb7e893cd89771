import Paging.Proofs.Session.Names
import Paging.Proofs.Workplace.Moves

/-! Destroying the log while others append to it. The guard of the log and the removal of
its name are two steps, and the log may be opened between them; as long as that does not
happen, an open log keeps its name and all that was appended. -/
namespace Paging

/-- The bytes that an operation appended to the log, going by its result. -/
def Operation.appended (result : Except Error Reply) : Operation → List UInt8
  | .appendLog data count => data.toList.take (movedBy count result)
  | _ => []

namespace Pager

/-- Using the log either fails before it is open, or it is open then, and no name goes. -/
theorem perform_usesLog (pager : Pager) (volume : Volume) {operation : Operation}
    (hUses : operation.usesLog = true) :
    ((pager.perform volume operation).volume = volume ∧
      (pager.perform volume operation).pager.log = pager.log) ∨
    ∃ access, pager.accessLog volume = .ok access ∧
      (pager.perform volume operation).pager.log = some access.inode ∧
      access.volume.KeepsNames (pager.perform volume operation).volume := by
  cases operation with
  | appendLog data count =>
      simp only [perform, Outcome.map]
      rcases appendLog_cases pager volume data count with
        ⟨hSame, hLog, -⟩ | ⟨access, hAccess, hLog, ⟨hAfter, -⟩ | ⟨content, hAfter, -⟩⟩
      · exact Or.inl ⟨hSame, hLog⟩
      · refine Or.inr ⟨access, hAccess, hLog, ?_⟩
        rw [hAfter]
        exact Volume.KeepsNames.refl _
      · refine Or.inr ⟨access, hAccess, hLog, ?_⟩
        rw [hAfter]
        exact Volume.keepsNames_setContent _ _ _
  | readLog buffer count offset =>
      simp only [perform, Outcome.map]
      rcases readLog_cases pager volume buffer count offset with
        hSame | ⟨access, hAccess, hAfter, hLog⟩
      · exact Or.inl hSame
      · refine Or.inr ⟨access, hAccess, hLog, ?_⟩
        rw [hAfter]
        exact Volume.KeepsNames.refl _
  | _ => cases hUses

/-- The path of the log leads to the log when it has just been opened, and for as long as
it did before. -/
theorem openFile_of_log_perform {pager : Pager} {volume : Volume} (hGrounded : volume.Grounded)
    {operation : Operation} (hUses : operation.usesLog = true)
    (hNamed : ∀ inode, pager.log = some inode → volume.openFile pager.logPath = .ok inode)
    {inode : Inode} (hLog : (pager.perform volume operation).pager.log = some inode) :
    (pager.perform volume operation).volume.openFile pager.logPath = .ok inode := by
  rcases perform_usesLog pager volume hUses with ⟨hSame, hOld⟩ | ⟨access, hAccess, hOpen, hKeeps⟩
  · rw [hSame]
    exact hNamed inode (hOld ▸ hLog)
  · rw [hLog] at hOpen
    cases hOpen
    refine hKeeps.openFile ?_
    rcases (accessLog_eq_ok hAccess).2 with ⟨hFound, hSame⟩ | ⟨-, hMade⟩
    · rw [hSame]
      exact hNamed _ hFound
    · exact hGrounded.openFile_of_openOrCreate hMade

/-- The log gets longer by what is appended, and by nothing else when it is used. -/
theorem content_perform_of_usesLog {pager : Pager} {volume : Volume}
    (hHeld : pager.HeldBy volume) (hVolume : volume.Held) {operation : Operation}
    (hUses : operation.usesLog = true) {inode : Inode}
    (hLog : ∀ other, (pager.perform volume operation).pager.log = some other → other = inode) :
    ((pager.perform volume operation).volume.content inode).toList =
      (volume.content inode).toList ++
        operation.appended (pager.perform volume operation).result := by
  cases operation with
  | appendLog data count =>
      simp only [perform, Outcome.map, Operation.appended, movedBy_map] at hLog ⊢
      rcases appendLog_cases pager volume data count with
        ⟨hSame, -, hNone⟩ | ⟨access, hAccess, hOpen, ⟨hAfter, hNone⟩ | ⟨content, hAfter, hList⟩⟩
      · simp [hSame, hNone]
      · simp [hAfter, hNone, (accessLog_extends hAccess).content_eq]
      · obtain rfl := hLog _ hOpen
        have hIndex := hHeld.index_lt_of_accessLog hVolume hAccess
        rw [hAfter, Volume.content_setContent_self _ _ hIndex, hList,
          (accessLog_extends hAccess).content_eq]
  | readLog buffer count offset =>
      have hExtends : volume.Extends
          (pager.perform volume (.readLog buffer count offset)).volume :=
        perform_extends pager volume rfl
      rw [hExtends.content_eq]
      exact (List.append_nil _).symm
  | _ => cases hUses

/-- Using the log is one step. -/
theorem begin_of_usesLog (pager : Pager) (volume : Volume) {operation : Operation}
    (hUses : operation.usesLog = true) :
    pager.begin volume operation = .inr (pager.perform volume operation) := by
  cases operation <;> first | rfl | cases hUses

end Pager

namespace Workplace

/-- What a move appends to the log at the workplace that it meets. -/
def appendedBy (meeting : Workplace × Move) : List UInt8 :=
  match meeting.2, (meeting.1.step meeting.2).1 with
  | .start _ operation, some report => operation.appended report.result
  | _, _ => []

/-- The move does not open the log while somebody is about to destroy a file. -/
def OpensAlone (meeting : Workplace × Move) : Prop :=
  meeting.1.pager.log = none → (meeting.1.step meeting.2).2.pager.log ≠ none →
    meeting.1.isLocked = false

instance (meeting : Workplace × Move) : Decidable (OpensAlone meeting) :=
  inferInstanceAs (Decidable (_ → _ → _))

/-- Nobody is in the middle of anything but destroying, and an open log is what its path
leads to, with nobody about to destroy it. -/
structure LogNamed (logPath : Path) (workplace : Workplace) : Prop where
  held : workplace.volume.Held
  grounded : workplace.volume.Grounded
  heldBy : workplace.pager.HeldBy workplace.volume
  logPath_eq : workplace.pager.logPath = logPath
  unfinished : ∀ (worker : Nat) (unfinished : Unfinished),
    workplace.unfinished[worker]? = some unfinished → ∃ path, unfinished = .destroying path
  named : ∀ inode, workplace.pager.log = some inode →
    workplace.isLocked = false ∧ workplace.volume.openFile logPath = .ok inode

namespace LogNamed

variable {logPath : Path} {workplace : Workplace} (hNamed : workplace.LogNamed logPath)
include hNamed

theorem log_eq_none_of_isLocked (hLocked : workplace.isLocked = true) :
    workplace.pager.log = none := by
  cases hLog : workplace.pager.log with
  | none => rfl
  | some inode =>
      have hOpen := (hNamed.named inode hLog).1
      rw [hLocked] at hOpen
      cases hOpen

/-- Everything that a move on the log can do: nothing, be refused, get past the guard of a
log that is not open, use the log, or remove a name while the log is not open. -/
theorem step_cases_of_onLog {move : Move} (hMove : move.OnLog logPath) :
    workplace.step move = (none, workplace) ∨
    (∃ worker path, move = .start worker (.destroyFile path) ∧ workplace.step move =
      (some ⟨.error (.fileNotClosed path), [.refusedDestroy path], none⟩, workplace)) ∨
    (∃ worker path, move = .start worker (.destroyFile path) ∧ workplace.pager.log = none ∧
      workplace.step move = (none, { workplace with
        unfinished := workplace.unfinished.insert worker (.destroying path) })) ∨
    (∃ worker operation, move = .start worker operation ∧ operation.usesLog = true ∧
      let outcome := workplace.pager.perform workplace.volume operation
      workplace.step move = (some outcome.report,
        { workplace with pager := outcome.pager, volume := outcome.volume })) ∨
    ∃ worker path report, move = .finish worker ∧ workplace.pager.log = none ∧
      let outcome := workplace.pager.unlinkFile workplace.volume path
      workplace.step move = (some report,
        ⟨outcome.pager, outcome.volume, workplace.unfinished.erase worker⟩) := by
  have hOnLog : ∀ {worker operation}, move = .start worker operation →
      (∃ path, operation = .destroyFile path ∧ path.SameAs logPath) ∨
        operation.usesLog = true := by
    rintro worker operation rfl
    cases operation with
    | destroyFile path => exact Or.inl ⟨path, rfl, hMove⟩
    | _ => exact Or.inr hMove
  rcases workplace.step_cases move with
    hSame | ⟨worker, operation, unfinished, hStart, -, hBegin, hStep⟩ |
      ⟨worker, operation, hStart, -, hBegin, hStep⟩ | ⟨worker, unfinished, hFinish, -, hFound, hStep⟩
  · exact Or.inl hSame
  · rcases hOnLog hStart with ⟨path, rfl, hPath⟩ | hUses
    · simp only [Pager.begin] at hBegin
      split at hBegin
      · cases hBegin
      · rename_i hGuards
        cases hBegin
        refine Or.inr (Or.inr (Or.inl ⟨worker, path, hStart, ?_, hStep⟩))
        cases hLog : workplace.pager.log with
        | none => rfl
        | some inode =>
            exact absurd (Pager.guards_of_log hLog (hNamed.logPath_eq ▸ hPath)) hGuards
    · rw [Pager.begin_of_usesLog _ _ hUses] at hBegin
      cases hBegin
  · rcases hOnLog hStart with ⟨path, rfl, hPath⟩ | hUses
    · simp only [Pager.begin] at hBegin
      split at hBegin
      · rename_i hGuards
        obtain ⟨hReport, hPager, hVolume⟩ :=
          Pager.report_perform_destroyFile hGuards workplace.volume
        refine Or.inr (Or.inl ⟨worker, path, hStart, ?_⟩)
        rw [hStep, hReport, hPager, hVolume]
      · cases hBegin
    · exact Or.inr (Or.inr (Or.inr (Or.inl ⟨worker, operation, hStart, hUses, hStep⟩)))
  · obtain ⟨path, rfl⟩ := hNamed.unfinished worker unfinished hFound
    have hLocked := workplace.isLocked_iff.mpr ⟨worker, path, hFound⟩
    exact Or.inr (Or.inr (Or.inr (Or.inr
      ⟨worker, path, _, hFinish, hNamed.log_eq_none_of_isLocked hLocked, hStep⟩)))

/-- A worker gets past the guard of a log that is not open. -/
theorem insert (hNone : workplace.pager.log = none) (worker : Nat) (path : Path) :
    LogNamed logPath { workplace with
      unfinished := workplace.unfinished.insert worker (.destroying path) } := by
  refine { hNamed with unfinished := ?_, named := by simp [hNone] }
  intro other unfinished hFound
  rw [Std.ExtTreeMap.getElem?_insert] at hFound
  split at hFound
  · exact ⟨path, (Option.some.inj hFound).symm⟩
  · exact hNamed.unfinished other unfinished hFound

/-- A log that is used, and was open or is opened with nobody about to destroy it, is what
its path leads to. -/
theorem use {operation : Operation} (hUses : operation.usesLog = true)
    (hAlone : workplace.pager.log = none →
      (workplace.pager.perform workplace.volume operation).pager.log ≠ none →
        workplace.isLocked = false) :
    LogNamed logPath { workplace with
      pager := (workplace.pager.perform workplace.volume operation).pager
      volume := (workplace.pager.perform workplace.volume operation).volume } := by
  have hPath := (Pager.perform_settings workplace.pager workplace.volume operation).1
  refine ⟨(Pager.perform_held _ _ operation).2 hNamed.held,
    Pager.perform_grounded _ hNamed.grounded operation,
    hNamed.heldBy.perform hNamed.held operation, hPath.trans hNamed.logPath_eq,
    hNamed.unfinished, fun inode hLog => ⟨?_, ?_⟩⟩
  · cases hBefore : workplace.pager.log with
    | none =>
        refine hAlone hBefore fun hNone => ?_
        rw [hLog] at hNone
        cases hNone
    | some other => exact (hNamed.named other hBefore).1
  · rw [← hNamed.logPath_eq]
    refine Pager.openFile_of_log_perform hNamed.grounded hUses (fun other hOpen => ?_) hLog
    rw [hNamed.logPath_eq]
    exact (hNamed.named other hOpen).2

/-- A name goes while the log is not open. -/
theorem unlink (hNone : workplace.pager.log = none) (worker : Nat) (path : Path) :
    LogNamed logPath ⟨(workplace.pager.unlinkFile workplace.volume path).pager,
      (workplace.pager.unlinkFile workplace.volume path).volume,
      workplace.unfinished.erase worker⟩ := by
  have hExtends := workplace.pager.unlinkFile_extends workplace.volume path
  rw [(workplace.pager.unlinkFile_cases workplace.volume path).1]
  refine ⟨hExtends.held hNamed.held, workplace.pager.unlinkFile_grounded hNamed.grounded path,
    hNamed.heldBy.mono hExtends.size_le, hNamed.logPath_eq,
    fun other unfinished hFound => ?_, by simp [hNone]⟩
  rw [Std.ExtTreeMap.getElem?_erase] at hFound
  split at hFound
  · cases hFound
  · exact hNamed.unfinished other unfinished hFound

theorem step {move : Move} (hMove : move.OnLog logPath) (hAlone : OpensAlone (workplace, move)) :
    (workplace.step move).2.LogNamed logPath := by
  rcases hNamed.step_cases_of_onLog hMove with hSame | ⟨_, _, -, hStep⟩ |
    ⟨worker, path, -, hNone, hStep⟩ | ⟨worker, operation, -, hUses, hStep⟩ |
    ⟨worker, path, report, -, hNone, hStep⟩
  · rwa [hSame]
  · rwa [hStep]
  · rw [hStep]
    exact hNamed.insert hNone worker path
  · rw [OpensAlone, hStep] at hAlone
    rw [hStep]
    exact hNamed.use hUses hAlone
  · rw [hStep]
    exact hNamed.unlink hNone worker path

/-- What a move makes of the bytes of the only file that may be the log by then. -/
theorem content_step {move : Move} (hMove : move.OnLog logPath) {inode : Inode}
    (hLog : ∀ other, (workplace.step move).2.pager.log = some other → other = inode) :
    ((workplace.step move).2.volume.content inode).toList =
      (workplace.volume.content inode).toList ++ appendedBy (workplace, move) := by
  rcases hNamed.step_cases_of_onLog hMove with hSame | ⟨worker, path, rfl, hStep⟩ |
    ⟨worker, path, rfl, -, hStep⟩ | ⟨worker, operation, rfl, hUses, hStep⟩ |
    ⟨worker, path, report, rfl, -, hStep⟩
  · have hNothing : appendedBy (workplace, move) = [] := by
      simp only [appendedBy, hSame]
    rw [hSame, hNothing, List.append_nil]
  · simp [hStep, appendedBy, Operation.appended]
  · simp [hStep, appendedBy]
  · rw [hStep] at hLog ⊢
    rw [appendedBy, hStep]
    exact Pager.content_perform_of_usesLog hNamed.heldBy hNamed.held hUses hLog
  · have hExtends := workplace.pager.unlinkFile_extends workplace.volume path
    rw [hStep, appendedBy]
    dsimp only
    rw [hExtends.content_eq]
    exact (List.append_nil _).symm

/-- An open log stays the log whatever the move. -/
theorem log_step {move : Move} (hMove : move.OnLog logPath) {inode : Inode}
    (hLog : workplace.pager.log = some inode) : (workplace.step move).2.pager.log = some inode := by
  rcases hNamed.step_cases_of_onLog hMove with hSame | ⟨_, _, -, hStep⟩ |
    ⟨_, _, -, hNone, -⟩ | ⟨worker, operation, -, -, hStep⟩ | ⟨_, _, _, -, hNone, -⟩
  · rw [hSame, hLog]
  · rw [hStep, hLog]
  · rw [hLog] at hNone
    cases hNone
  · rw [hStep]
    exact Pager.log_perform hLog workplace.volume operation
  · rw [hLog] at hNone
    cases hNone

/-- Once the log is open, everyone who wants to destroy it is refused. -/
theorem step_destroyFile {inode : Inode} (hLog : workplace.pager.log = some inode)
    {path : Path} (hSame : path.SameAs logPath) (worker : Nat) :
    workplace.step (.start worker (.destroyFile path)) =
      (some ⟨.error (.fileNotClosed path), [.refusedDestroy path], none⟩, workplace) := by
  refine step_destroyFile_of_guards ?_ (Pager.guards_of_log hLog (hNamed.logPath_eq ▸ hSame))
  cases hFound : workplace.unfinished[worker]? with
  | none => rfl
  | some unfinished =>
      -- Whoever is in the middle of something is about to destroy the log.
      obtain ⟨found, rfl⟩ := hNamed.unfinished worker unfinished hFound
      have hLocked := workplace.isLocked_iff.mpr ⟨worker, found, hFound⟩
      rw [(hNamed.named inode hLog).1] at hLocked
      cases hLocked

end LogNamed

/-- What moves on the log leave, of which none opens it while somebody is about to destroy
a file: an open log stays the log, and it gets longer by what was appended. -/
theorem LogNamed.run {logPath : Path} {workplace : Workplace}
    (hNamed : workplace.LogNamed logPath) {moves : List Move}
    (hMoves : ∀ move ∈ moves, move.OnLog logPath)
    (hAlone : ∀ meeting ∈ workplace.meetings moves, OpensAlone meeting) :
    (workplace.run moves).2.LogNamed logPath ∧
    (∀ inode, workplace.pager.log = some inode →
      (workplace.run moves).2.pager.log = some inode) ∧
    ∀ inode, (workplace.run moves).2.pager.log = some inode →
      ((workplace.run moves).2.volume.content inode).toList =
        (workplace.volume.content inode).toList ++
          (workplace.meetings moves).flatMap appendedBy := by
  induction moves generalizing workplace with
  | nil => exact ⟨hNamed, fun _ => id, fun _ _ => by simp [meetings]⟩
  | cons move rest ih =>
      rw [List.forall_mem_cons] at hMoves
      rw [meetings, List.forall_mem_cons] at hAlone
      obtain ⟨hFinal, hKept, hContent⟩ :=
        ih (hNamed.step hMoves.1 hAlone.1) hMoves.2 hAlone.2
      rw [run_cons]
      refine ⟨hFinal, fun inode hLog => hKept inode (hNamed.log_step hMoves.1 hLog),
        fun inode hLog => ?_⟩
      have hFirst : ∀ other, (workplace.step move).2.pager.log = some other → other = inode := by
        intro other hOther
        rw [hKept other hOther] at hLog
        exact Option.some.inj hLog
      rw [hContent inode hLog, hNamed.content_step hMoves.1 hFirst, meetings, List.flatMap_cons,
        List.append_assoc]

end Workplace

/-- Several workers destroy the log by its path, append to it and read it, their moves
falling in any order. If nobody opens the log while somebody is past its guard, then from
the moment it is open it stays open and its path leads to it, everyone who wants to
destroy it is refused, and the file at its path holds what it held at the start and all
that was appended behind it. -/
theorem log_kept_once_open (earlier : List Instruction) {number : Nat} {pager : Pager}
    (hPager : (Session.empty.run earlier).2.pagers[number]? = some pager)
    (hNamed : ∀ inode, pager.log = some inode →
      (Session.empty.run earlier).2.volume.openFile pager.logPath = .ok inode)
    {first second : List Move} (hMoves : ∀ move ∈ first ++ second, move.OnLog pager.logPath)
    (hAlone : ∀ meeting ∈ (Workplace.quiet pager (Session.empty.run earlier).2.volume).meetings
      (first ++ second), Workplace.OpensAlone meeting) {inode : Inode}
    (hOpen : ((Workplace.quiet pager (Session.empty.run earlier).2.volume).run
      first).2.pager.log = some inode) :
    let start := Workplace.quiet pager (Session.empty.run earlier).2.volume
    let final := (start.run (first ++ second)).2
    final.pager.log = some inode ∧
    final.volume.openFile pager.logPath = .ok inode ∧
    (final.volume.content inode).toList = (start.volume.content inode).toList ++
      (start.meetings (first ++ second)).flatMap Workplace.appendedBy ∧
    ∀ worker path, path.SameAs pager.logPath → final.step (.start worker (.destroyFile path)) =
      (some ⟨.error (.fileNotClosed path), [.refusedDestroy path], none⟩, final) := by
  intro start final
  have hHeld := Session.held_empty.run earlier
  have hStart : start.LogNamed pager.logPath := by
    refine ⟨hHeld.volume, Session.grounded_run earlier, hHeld.pagers number pager hPager, rfl,
      fun worker unfinished hFound => ?_, fun inode hLog => ⟨rfl, hNamed inode hLog⟩⟩
    simp [start, Workplace.quiet] at hFound
  obtain ⟨hFinal, -, hContent⟩ := hStart.run hMoves hAlone
  have hLog : final.pager.log = some inode := by
    rw [List.forall_mem_append] at hMoves
    rw [Workplace.meetings_append, List.forall_mem_append] at hAlone
    have hMiddle := (hStart.run hMoves.1 hAlone.1).1
    simp only [final, Workplace.run_append]
    exact (hMiddle.run hMoves.2 hAlone.2).2.1 inode hOpen
  exact ⟨hLog, (hFinal.named inode hLog).2, hContent inode hLog,
    fun worker path hSame => hFinal.step_destroyFile hLog hSame worker⟩

/-- A log that two workers append to, while a third is refused, keeps its name and all
bytes. -/
theorem log_kept_once_open_three_workers :
    let earlier : List Instruction :=
      [.replaceOutside ⟨"db.log"⟩ #[1], .build 0 { maxOpenFiles := 2 }]
    let pager : Pager := ⟨.empty 2, .initial 2, ⟨"db.log"⟩, none, .zero⟩
    let first : List Move := [.start 0 (.appendLog #[2] 1)]
    let second : List Move :=
      [.start 1 (.destroyFile ⟨"db.log"⟩), .start 2 (.appendLog #[3, 4] 2), .finish 1]
    let start := Workplace.quiet pager (Session.empty.run earlier).2.volume
    let final := (start.run (first ++ second)).2
    (Session.empty.run earlier).2.pagers[0]? = some pager ∧
      final.volume.openFile ⟨"db.log"⟩ = .ok ⟨0⟩ ∧
      (final.volume.content ⟨0⟩).toList = [1, 2, 3, 4] := by
  intro earlier pager first second start final
  have hMoves : ∀ move ∈ first ++ second, move.OnLog pager.logPath := by decide +kernel +revert
  have hAlone : ∀ meeting ∈ start.meetings (first ++ second), Workplace.OpensAlone meeting := by
    decide +kernel +revert
  have hOpen : (start.run first).2.pager.log = some ⟨0⟩ := by decide +kernel +revert
  have hEvaluated : (start.volume.content ⟨0⟩).toList ++
      (start.meetings (first ++ second)).flatMap Workplace.appendedBy = [1, 2, 3, 4] := by
    decide +kernel +revert
  have hPager : (Session.empty.run earlier).2.pagers[0]? = some pager := by
    rfl
  obtain ⟨-, hFile, hBytes, -⟩ :=
    log_kept_once_open earlier hPager (by simp [pager]) hMoves hAlone hOpen
  exact ⟨hPager, hFile, hBytes.trans hEvaluated⟩

/-- What nobody looks out for: a worker gets past the guard of the log that is not open yet,
another appends to it, which opens it, and then its name goes. The append has succeeded,
the log stays open, and nothing is at its path. -/
theorem log_destroyed_while_opened :
    ∃ pager ∈ (Pager.create { maxOpenFiles := 2 }).toOption,
      let moves : List Move :=
        [.start 1 (.destroyFile pager.logPath), .start 0 (.appendLog #[1] 1), .finish 1]
      let (reports, final) := (Workplace.quiet pager .empty).run moves
      reports.map (Option.bind · fun report => report.result.toOption) =
          [none, some .done, some .done] ∧
        final.pager.log = some ⟨0⟩ ∧ (final.volume.content ⟨0⟩).toList = [1] ∧
        (final.volume.openFile pager.logPath).toOption = none := by
  decide +kernel

end Paging
