import Paging.Proofs.LogDestruction
import Paging.Proofs.Workplace.Surroundings

/-! Opening the log once. Several workers use the log of one pager, their moves falling in any
order, while others take its path away and put other files there. Main statement: however
often it cannot be opened, the log is opened at most once, and from then on it is that file to
every operation. -/
namespace Paging

namespace Workplace

/-- How the workers of a workplace deal with the log. They do what its pager does, and nobody
comes in between of that; once the log is open everyone is refused who comes to destroy it, in
any spelling of its path. Whatever else happens does not open the log. Nothing is said of a
worker who came to destroy it before it was open, and has only to finish. -/
structure TendsLog (workplace : Workplace) : Prop where
  pager : workplace.pager.TendsLog workplace.volume
  atOnce : ∀ (worker : Nat) (operation : Operation), workplace.unfinished[worker]? = none →
    (operation.usesLog = true ∨ operation = .syncLog) →
    let outcome := workplace.pager.perform workplace.volume operation
    workplace.step (.start worker operation) =
      (some outcome.report, { workplace with pager := outcome.pager, volume := outcome.volume })
  refuses : ∀ inode, workplace.pager.log = some inode → ∀ (worker : Nat) (path : Path),
    workplace.unfinished[worker]? = none → path.SameAs workplace.pager.logPath →
    workplace.step (.start worker (.destroyFile path)) =
      (some ⟨.error (.fileNotClosed path), [.refusedDestroy path], none⟩, workplace)
  opensOnly : ∀ happening, (workplace.happen happening).2.pager.log ≠ workplace.pager.log →
    ∃ worker operation, happening = .move (.start worker operation) ∧
      operation.reachesLog = true ∧ workplace.pager.log = none

namespace Held

variable {workplace : Workplace} (hHeld : workplace.Held)
include hHeld

theorem pagerTendsLog : workplace.pager.TendsLog workplace.volume :=
  Pager.tendsLog hHeld.pager hHeld.volume

/-- Everything that a happening can do to the log, and what is recorded of that: nothing, or a
worker who comes to work with the log opens it. -/
theorem happen_cases (happening : Happening) :
    let after := (workplace.happen happening).2
    let records := (workplace.happen happening).1.elim [] Report.events
    after.pager.logPath = workplace.pager.logPath ∧
    ((after.pager.log = workplace.pager.log ∧ records.filter Event.opensLog = []) ∨
    ∃ worker operation inode, happening = .move (.start worker operation) ∧
      operation.reachesLog = true ∧ workplace.pager.log = none ∧ after.pager.log = some inode ∧
      records.filter Event.opensLog = [.openedLog workplace.pager.logPath]) := by
  cases happening with
  | meddle meddling => exact ⟨rfl, Or.inl ⟨rfl, rfl⟩⟩
  | move move =>
      dsimp only [Workplace.happen]
      rcases workplace.step_cases move with
        hSame | ⟨worker, operation, unfinished, -, -, -, hStep⟩ |
          ⟨worker, operation, rfl, -, -, hStep⟩ | ⟨worker, unfinished, -, -, -, hStep⟩
      · rw [hSame]
        exact ⟨rfl, Or.inl ⟨rfl, rfl⟩⟩
      · rw [hStep]
        exact ⟨rfl, Or.inl ⟨rfl, rfl⟩⟩
      · rw [hStep]
        refine ⟨(Pager.perform_settings _ _ operation).1, ?_⟩
        rcases hHeld.pagerTendsLog.perform_cases operation with
          hSame | ⟨hNone, hReaches, inode, hOpened, hRecorded⟩
        · exact Or.inl hSame
        · exact Or.inr ⟨worker, operation, inode, rfl, hReaches, hNone, hOpened, hRecorded⟩
      · rw [hStep]
        obtain ⟨-, hLog, hPath, hNothing⟩ :=
          Pager.complete_log workplace.pager workplace.volume unfinished
        exact ⟨hPath, Or.inl ⟨hLog, hNothing⟩⟩

/-- Whatever happens, an open log stays the log and is not opened again, and one that is not
open is opened at most once. -/
theorem opensLog_runAmid (happenings : List Happening) :
    let reached := (workplace.runAmid happenings).2
    let records := workplace.recordsAmid happenings
    reached.pager.logPath = workplace.pager.logPath ∧
    (∀ inode, workplace.pager.log = some inode →
      reached.pager.log = some inode ∧ records.filter Event.opensLog = []) ∧
    (workplace.pager.log = none → records.filter Event.opensLog =
      if reached.pager.log.isSome then [.openedLog workplace.pager.logPath] else []) := by
  induction happenings generalizing workplace with
  | nil => exact ⟨rfl, fun _ hLog => ⟨hLog, rfl⟩, fun hNone => by simp [hNone, recordsAmid]⟩
  | cons happening rest ih =>
      obtain ⟨hPathRest, hKept, hOnce⟩ := ih (hHeld.happen happening)
      obtain ⟨hPath, hFirst⟩ := hHeld.happen_cases happening
      dsimp only
      rw [runAmid_cons, recordsAmid_cons, List.filter_append]
      refine ⟨hPathRest.trans hPath, ?_⟩
      rcases hFirst with ⟨hSame, hNothing⟩ | ⟨-, -, opened, -, -, hNone, hOpened, hRecorded⟩
      · rw [hNothing, List.nil_append]
        refine ⟨fun inode hLog => hKept inode (hSame.trans hLog), fun hNone => ?_⟩
        rw [hOnce (hSame.trans hNone), hPath]
      · -- The log is opened by this happening, and by none of the others.
        obtain ⟨hLast, hNoMore⟩ := hKept opened hOpened
        rw [hRecorded, hNoMore, List.append_nil, hLast]
        refine ⟨fun inode hLog => ?_, fun _ => rfl⟩
        rw [hNone] at hLog
        cases hLog

theorem tendsLog : workplace.TendsLog where
  pager := hHeld.pagerTendsLog
  atOnce worker operation hFree hUses := by
    rcases hUses with hUses | rfl
    · refine step_start hFree ?_ (Pager.begin_of_usesLog _ _ hUses)
      cases operation <;> first | rfl | cases hUses
    · exact step_start hFree rfl rfl
  refuses inode hLog worker path hFree hSame :=
    step_destroyFile_of_guards hFree (Pager.guards_of_log hLog hSame)
  opensOnly happening hChanged := by
    rcases (hHeld.happen_cases happening).2 with
      ⟨hSame, -⟩ | ⟨worker, operation, -, hMove, hReaches, hNone, -, -⟩
    · exact absurd hSame hChanged
    · exact ⟨worker, operation, hMove, hReaches, hNone⟩

end Held

end Workplace

/-- Several workers use a new pager, their moves falling in any order, and in between others
change its volume as they like. The record that the log was opened is made at most once, and
is made if and only if the log is open in the end. Until then an append or a read that cannot
open the log leaves it closed and makes no file, and the next one tries again. From then on
the log is the same file whatever happens, wherever its path leads by now: no operation loses
it, every append and every read goes to it, and everyone who comes to destroy it by its path,
in any spelling, is refused. What is refused for a buffer that is too small, what makes the log
safe and what destroys a file do not open it. -/
theorem log_opened_once {config : Config} {pager : Pager}
    (hCreate : Pager.create config = .ok pager) {volume : Volume} (hVolume : volume.Held)
    (happenings : List Happening) :
    let start := Workplace.quiet pager volume
    let reached := (start.runAmid happenings).2
    reached.TendsLog ∧ reached.pager.logPath = config.logPath ∧
    (start.recordsAmid happenings).filter Event.opensLog =
      (if reached.pager.log.isSome then [.openedLog config.logPath] else []) ∧
    ∀ inode, reached.pager.log = some inode → ∀ later : List Happening,
      let final := (reached.runAmid later).2
      final.pager.log = some inode ∧ final.pager.WorksOn final.volume inode ∧
      (reached.recordsAmid later).filter Event.opensLog = [] := by
  intro start reached
  have hStart : start.Held := Workplace.held_quiet hCreate hVolume
  have hReached : reached.Held := hStart.runAmid happenings
  obtain ⟨hPath, -, hOnce⟩ := hStart.opensLog_runAmid happenings
  have hNew : start.pager.log = none ∧ start.pager.logPath = config.logPath := by
    simp [start, Workplace.quiet, (Pager.create_eq_ok hCreate).1]
  rw [hNew.2] at hPath
  refine ⟨hReached.tendsLog, hPath, ?_, fun inode hLog later => ?_⟩
  · rw [hOnce hNew.1, hNew.2]
  · obtain ⟨hKept, hNoMore⟩ := (hReached.opensLog_runAmid later).2.1 inode hLog
    exact ⟨hKept, (hReached.runAmid later).pagerTendsLog.worksOn inode hKept, hNoMore⟩

/-- A log in a directory that is missing at first. Once it is open, its name is taken away and
given to another file, and it is the first file that is read and appended to. -/
theorem log_opened_once_name_taken :
    let config : Config := { maxOpenFiles := 2, logPath := ⟨"d/log"⟩ }
    let pager : Pager := ⟨.empty 2, .initial 2, ⟨"d/log"⟩, none, .zero⟩
    let other : Pager := ⟨.empty 2, .initial 2, ⟨"other"⟩, none, .zero⟩
    let first : List Happening :=
      [.move (.start 0 (.appendLog #[1] 1)), .meddle (.perform other (.createDirectory ⟨"d"⟩)),
        .move (.start 1 (.appendLog #[2] 2)), .move (.start 1 (.readLog #[0] 1 0))]
    let later : List Happening :=
      [.meddle (.perform other (.destroyFile ⟨"d/log"⟩)),
        .meddle (.replaceFile ⟨"d/log"⟩ #[7, 8]), .move (.start 0 (.appendLog #[3, 4] 2)),
        .move (.start 1 (.destroyFile ⟨"d//log"⟩))]
    let start := Workplace.quiet pager .empty
    let reached := (start.runAmid first).2
    let final := (reached.runAmid later).2
    Pager.create config = .ok pager ∧
      (start.runAmid first).1.map (Option.map fun report => report.result.isOk) =
        [some false, none, some false, some true] ∧
      (start.recordsAmid first).filter Event.opensLog = [.openedLog ⟨"d/log"⟩] ∧
      final.pager.log = some ⟨0⟩ ∧
      (final.volume.openFile ⟨"d/log"⟩).toOption = some ⟨1⟩ ∧
      (final.volume.content ⟨1⟩).toList = [7, 8] ∧
      (final.pager.readLog final.volume #[0, 0, 0] 3 0).result = .ok (some 2) ∧
      (final.pager.readLog final.volume #[0, 0, 0] 3 0).buffer.map Array.toList =
        some [3, 4, 0] ∧
      (final.pager.destroyFile final.volume ⟨"d/./log"⟩).result =
        .error (.fileNotClosed ⟨"d/./log"⟩) := by
  intro config pager other first later start reached final
  have hEvaluated : (start.runAmid first).1.map (Option.map fun report => report.result.isOk) =
        [some false, none, some false, some true] ∧ reached.pager.log = some ⟨0⟩ ∧
      (final.volume.openFile ⟨"d/log"⟩).toOption = some ⟨1⟩ ∧
      (final.volume.content ⟨1⟩).toList = [7, 8] ∧ (final.volume.content ⟨0⟩).toList = [3, 4] ∧
      final.pager.logPath = ⟨"d/log"⟩ := by decide +kernel +revert
  obtain ⟨hReports, hOpen, hElsewhere, hOther, hBytes, hPath⟩ := hEvaluated
  have hCreate : Pager.create config = .ok pager := rfl
  obtain ⟨-, -, hOnce, hKept⟩ := log_opened_once hCreate Volume.held_empty first
  obtain ⟨hLog, hWorks, -⟩ := hKept ⟨0⟩ hOpen later
  obtain ⟨hRead, hBuffer, -⟩ := hWorks.reads #[0, 0, 0] 3 0 (by decide)
  have hRefused := hWorks.refuses ⟨"d/./log"⟩ (by rw [hPath]; decide)
  rw [hOpen] at hOnce
  rw [hBytes] at hRead hBuffer
  refine ⟨hCreate, hReports, hOnce, hLog, hElsewhere, hOther, hRead, hBuffer, ?_⟩
  rw [hRefused]
  rfl

end Paging
