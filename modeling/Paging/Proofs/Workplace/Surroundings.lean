import Paging.Proofs.Pager.OpenLog
import Paging.Proofs.Workplace.Moves

/-! A workplace whose volume is not its own. Between the moves of the workers others may change
the volume as they like: other pagers, and whoever makes, fills or removes files without any.
What is open stays on the volume whatever they do. -/
namespace Paging

/-- Something that others do to a volume. Names may lead elsewhere afterwards, and files may
have other bytes, but no file is gone that somebody may have open. -/
structure Meddling where
  change : Volume → Volume
  size_le : ∀ volume, volume.contents.size ≤ (change volume).contents.size
  held : ∀ volume, volume.Held → (change volume).Held

namespace Meddling

/-- Another pager performs an operation. -/
def perform (pager : Pager) (operation : Operation) : Meddling where
  change volume := (pager.perform volume operation).volume
  size_le volume := (pager.perform_held volume operation).1
  held volume := (pager.perform_held volume operation).2

/-- Someone makes a file hold these bytes, if that can be done. -/
def replaceFile (path : Path) (bytes : Array UInt8) : Meddling where
  change volume := (volume.replaceFile path bytes).toOption.getD volume
  size_le volume := by
    cases hReplace : volume.replaceFile path bytes with
    | error fault => exact Nat.le_refl _
    | ok replaced =>
        obtain ⟨inode, opened, hOpen, rfl⟩ := Volume.replaceFile_eq_ok hReplace
        simpa [Except.toOption] using (Volume.openOrCreate_extends hOpen).1.size_le
  held volume hHeld := by
    cases hReplace : volume.replaceFile path bytes with
    | error fault => exact hHeld
    | ok replaced =>
        obtain ⟨inode, opened, hOpen, rfl⟩ := Volume.replaceFile_eq_ok hReplace
        exact ((Volume.openOrCreate_extends hOpen).1.held hHeld).setContent inode _

end Meddling

/-- What happens at a workplace: a worker makes a move, or others change the volume. -/
inductive Happening
  | move (move : Move)
  | meddle (meddling : Meddling)

namespace Workplace

/-- What comes of a happening, and what is seen of an operation that comes to its end. -/
def happen (workplace : Workplace) : Happening → Option (Report Reply) × Workplace
  | .move move => workplace.step move
  | .meddle meddling => (none, { workplace with volume := meddling.change workplace.volume })

/-- What comes of several happenings. -/
def runAmid (workplace : Workplace) (happenings : List Happening) :
    List (Option (Report Reply)) × Workplace :=
  trace happen workplace happenings

/-- All that the pager of the workplace records meanwhile, in order. -/
def recordsAmid (workplace : Workplace) (happenings : List Happening) : List Event :=
  (workplace.runAmid happenings).1.flatMap fun report? => report?.elim [] Report.events

@[simp] theorem runAmid_nil (workplace : Workplace) : workplace.runAmid [] = ([], workplace) := rfl

@[simp] theorem runAmid_cons (workplace : Workplace) (happening : Happening)
    (rest : List Happening) :
    workplace.runAmid (happening :: rest) =
      ((workplace.happen happening).1 :: ((workplace.happen happening).2.runAmid rest).1,
        ((workplace.happen happening).2.runAmid rest).2) :=
  trace_cons happen workplace happening rest

theorem recordsAmid_cons (workplace : Workplace) (happening : Happening)
    (rest : List Happening) :
    workplace.recordsAmid (happening :: rest) =
      (workplace.happen happening).1.elim [] Report.events ++
        (workplace.happen happening).2.recordsAmid rest := by
  simp [recordsAmid]

/-- When nobody else changes the volume, a run is a run of moves. -/
theorem runAmid_map_move (workplace : Workplace) (moves : List Move) :
    workplace.runAmid (moves.map .move) = workplace.run moves := by
  induction moves generalizing workplace with
  | nil => rfl
  | cons move rest ih => simp [happen, ih]

/-- All that the pager has open is on the volume, and so is every file that has a name. -/
structure Held (workplace : Workplace) : Prop where
  volume : workplace.volume.Held
  pager : workplace.pager.HeldBy workplace.volume

end Workplace

namespace Pager

/-- Finishing an operation changes the bytes of no file, and leaves the log alone. -/
theorem complete_log (pager : Pager) (volume : Volume) (unfinished : Unfinished) :
    let outcome := pager.complete volume unfinished
    volume.Extends outcome.volume ∧ outcome.pager.log = pager.log ∧
      outcome.pager.logPath = pager.logPath ∧ outcome.events.filter Event.opensLog = [] := by
  cases unfinished with
  | opening path =>
      obtain ⟨hVolume, hPager⟩ := openTracked_cases pager volume path
      have hEvents : (pager.openTracked volume path).events.filter Event.opensLog = [] := by
        rw [List.filter_eq_nil_iff]
        intro event hEvent
        rcases (pager.isOpening_openTracked volume path).mem_events hEvent with
          ⟨fd, rfl⟩ | rfl <;> simp [Event.opensLog]
      simp only [complete, Outcome.map, hVolume]
      refine ⟨Volume.Extends.refl volume, ?_, ?_, hEvents⟩
      · rcases hPager with hSame | ⟨inode, -, hAfter⟩
        · rw [hSame]
        · rw [hAfter]
      · rcases hPager with hSame | ⟨inode, -, hAfter⟩
        · rw [hSame]
        · rw [hAfter]
  | closing fd handle =>
      simp only [complete]
      rcases pager.release_records fd handle with hNothing | ⟨file, -, -, hClosed⟩
      · rw [hNothing]
        exact ⟨Volume.Extends.refl volume, rfl, rfl, rfl⟩
      · rw [hClosed]
        exact ⟨Volume.Extends.refl volume, rfl, rfl, rfl⟩
  | destroying path =>
      dsimp only [complete, Outcome.map]
      rw [(unlinkFile_cases pager volume path).1]
      refine ⟨pager.unlinkFile_extends volume path, rfl, rfl, ?_⟩
      unfold unlinkFile
      split <;> rfl

/-- What a pager has open, and its volume, go together after an operation is finished. -/
theorem HeldBy.complete {pager : Pager} {volume : Volume} (hHeld : pager.HeldBy volume)
    (hVolume : volume.Held) (unfinished : Unfinished) :
    (pager.complete volume unfinished).pager.HeldBy (pager.complete volume unfinished).volume := by
  cases unfinished with
  | opening path =>
      obtain ⟨hSame, hNothing | ⟨inode, hOpen, hAfter⟩⟩ := openTracked_cases pager volume path
      · simp only [Pager.complete, Outcome.map, hSame, hNothing]
        exact hHeld
      · simp only [Pager.complete, Outcome.map, hSame, hAfter]
        refine hHeld.apply (.insert path inode) ?_
        rintro _ _ ⟨⟩
        exact hVolume.index_lt_of_openFile hOpen
  | closing fd handle =>
      simp only [Pager.complete]
      rcases pager.release_records fd handle with hNothing | ⟨file, -, -, hClosed⟩
      · rw [hNothing]
        exact hHeld
      · rw [hClosed]
        exact hHeld.apply (.remove fd) (by rintro _ _ ⟨⟩)
  | destroying path =>
      simp only [Pager.complete, Outcome.map, (unlinkFile_cases pager volume path).1]
      exact hHeld.mono (pager.unlinkFile_extends volume path).size_le

end Pager

namespace Workplace.Held

variable {workplace : Workplace} (hHeld : workplace.Held)
include hHeld

theorem step (move : Move) : (workplace.step move).2.Held := by
  rcases workplace.step_cases move with hSame | ⟨worker, operation, unfinished, -, -, -, hStep⟩ |
    ⟨worker, operation, -, -, -, hStep⟩ | ⟨worker, unfinished, -, -, -, hStep⟩
  · rwa [hSame]
  · rw [hStep]
    exact ⟨hHeld.volume, hHeld.pager⟩
  · rw [hStep]
    exact ⟨(Pager.perform_held _ _ operation).2 hHeld.volume,
      hHeld.pager.perform hHeld.volume operation⟩
  · rw [hStep]
    exact ⟨(Pager.complete_log _ _ unfinished).1.held hHeld.volume,
      hHeld.pager.complete hHeld.volume unfinished⟩

theorem happen (happening : Happening) : (workplace.happen happening).2.Held := by
  cases happening with
  | move move => exact hHeld.step move
  | meddle meddling =>
      exact ⟨meddling.held _ hHeld.volume, hHeld.pager.mono (meddling.size_le _)⟩

end Workplace.Held

namespace Workplace

/-- What is open stays on the volume whatever happens. -/
theorem Held.runAmid {workplace : Workplace} (hHeld : workplace.Held)
    (happenings : List Happening) : (workplace.runAmid happenings).2.Held := by
  induction happenings generalizing workplace with
  | nil => exact hHeld
  | cons happening rest ih =>
      rw [runAmid_cons]
      exact ih (hHeld.happen happening)

theorem held_quiet {config : Config} {pager : Pager} (hCreate : Pager.create config = .ok pager)
    {volume : Volume} (hVolume : volume.Held) : (quiet pager volume).Held :=
  ⟨hVolume, Pager.heldBy_of_create_eq_ok hCreate volume⟩

end Workplace

end Paging
