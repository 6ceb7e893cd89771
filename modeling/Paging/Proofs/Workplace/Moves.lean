import Paging.Proofs.Pager.Naming
import Paging.Workplace

/-! Laws of the moves of several workers: where a move stands in a run, what it leaves of
those who are in the middle of something, and what it does to names. Moves may be known to
keep to the log, or to one path. -/
namespace Paging

namespace Pager

/-- What is seen of the destruction of a path that is guarded. -/
theorem report_perform_destroyFile {pager : Pager} {path : Path}
    (hGuards : pager.guards path = true) (volume : Volume) :
    (pager.perform volume (.destroyFile path)).report =
      ⟨.error (.fileNotClosed path), [.refusedDestroy path], none⟩ ∧
    (pager.perform volume (.destroyFile path)).pager = pager ∧
    (pager.perform volume (.destroyFile path)).volume = volume := by
  simp [perform, destroyFile_of_guards hGuards, Outcome.map, Outcome.report, unchanged, Except.map]

/-- What an operation that others may come in between of has seen when it is begun. -/
theorem begin_eq_inl {pager : Pager} {volume : Volume} {operation : Operation}
    {unfinished : Unfinished} (hBegin : pager.begin volume operation = .inl unfinished) :
    (∃ path, operation = .openFile path ∧ unfinished = .opening path ∧
      volume.isFile path = true) ∨
    (∃ fd handle, operation = .closeFile fd ∧ unfinished = .closing fd handle ∧
      pager.handle? fd = some handle) ∨
    ∃ path, operation = .destroyFile path ∧ unfinished = .destroying path ∧
      pager.guards path = false := by
  cases operation with
  | openFile path =>
      simp only [begin] at hBegin
      split at hBegin
      · rename_i hFile
        cases hBegin
        exact Or.inl ⟨path, rfl, rfl, hFile⟩
      · cases hBegin
  | closeFile fd =>
      simp only [begin] at hBegin
      split at hBegin
      · rename_i handle hHandle
        cases hBegin
        exact Or.inr (Or.inl ⟨fd, handle, rfl, rfl, hHandle⟩)
      · cases hBegin
  | destroyFile path =>
      simp only [begin] at hBegin
      split at hBegin
      · cases hBegin
      · rename_i hGuards
        cases hBegin
        exact Or.inr (Or.inr ⟨path, rfl, rfl, Bool.eq_false_iff.mpr hGuards⟩)
  | _ => cases hBegin

end Pager

/-- The move starts nothing but the destruction of the log by its path, an append to it or
a read. -/
def Move.OnLog (logPath : Path) : Move → Prop
  | .start _ (.destroyFile path) => path.SameAs logPath
  | .start _ operation => operation.usesLog = true
  | .finish _ => True

instance (logPath : Path) (move : Move) : Decidable (move.OnLog logPath) := by
  unfold Move.OnLog
  split <;> infer_instance

/-- The move opens the path in no other spelling, destroys no file but by this very path, and
destroys no directory. -/
def Move.OnPath (path : Path) : Move → Prop
  | .start _ (.openFile other) => other.SameAs path → other = path
  | .start _ (.ensureOpen other) => other.SameAs path → other = path
  | .start _ (.destroyFile other) => other = path
  | .start _ (.destroyDirectory _) => False
  | _ => True

instance (path : Path) (move : Move) : Decidable (move.OnPath path) := by
  unfold Move.OnPath
  split <;> infer_instance

namespace Workplace

theorem run_concat (workplace : Workplace) (moves : List Move) (move : Move) :
    (workplace.run (moves ++ [move])).2 = ((workplace.run moves).2.step move).2 := by
  rw [run_append, run_cons, run_nil]

/-- Every move of a run is made at the workplace that the moves before it leave. -/
theorem exists_split_of_mem_meetings {workplace : Workplace} {moves : List Move}
    {meeting : Workplace × Move} (hMeeting : meeting ∈ workplace.meetings moves) :
    ∃ first second, moves = first ++ meeting.2 :: second ∧
      meeting.1 = (workplace.run first).2 ∧
      workplace.meetings moves = workplace.meetings first ++ meeting ::
        (meeting.1.step meeting.2).2.meetings second := by
  induction moves generalizing workplace with
  | nil => cases hMeeting
  | cons move rest ih =>
      rcases List.mem_cons.mp hMeeting with rfl | hLater
      · exact ⟨[], rest, rfl, rfl, rfl⟩
      · obtain ⟨first, second, hRest, hMeets, hMeetings⟩ := ih hLater
        refine ⟨move :: first, second, by rw [hRest]; rfl, ?_, ?_⟩
        · rw [run_cons, hMeets]
        · rw [meetings, hMeetings]
          rfl

/-- What a worker is in the middle of after a move, it was in the middle of before, or it
has begun. -/
theorem unfinished_step {workplace : Workplace} {move : Move} {worker : Nat}
    {unfinished : Unfinished}
    (hFound : (workplace.step move).2.unfinished[worker]? = some unfinished) :
    workplace.unfinished[worker]? = some unfinished ∨
    ∃ operation, move = .start worker operation ∧ workplace.unfinished[worker]? = none ∧
      workplace.pager.begin workplace.volume operation = .inl unfinished := by
  cases hWaits : workplace.waits move with
  | true => exact Or.inl (by simpa [step, hWaits] using hFound)
  | false =>
      cases move with
      | start other operation =>
          cases hBusy : workplace.unfinished.contains other with
          | true => exact Or.inl (by simpa [step, hBusy] using hFound)
          | false =>
              cases hBegin : workplace.pager.begin workplace.volume operation with
              | inr outcome => exact Or.inl (by simpa [step, hWaits, hBusy, hBegin] using hFound)
              | inl begun =>
                  simp only [step, hWaits, hBusy, hBegin, Bool.false_eq_true, if_false,
                    Std.ExtTreeMap.getElem?_insert] at hFound
                  split at hFound
                  · rename_i hSame
                    obtain rfl := Std.LawfulEqCmp.eq_of_compare hSame
                    obtain rfl := Option.some.inj hFound
                    have hFree := Std.ExtTreeMap.getElem?_eq_none_of_contains_eq_false hBusy
                    exact Or.inr ⟨operation, rfl, hFree, hBegin⟩
                  · exact Or.inl hFound
      | finish other =>
          cases hOther : workplace.unfinished[other]? with
          | none => exact Or.inl (by simpa [step, hOther] using hFound)
          | some _ =>
              simp only [step, hWaits, hOther, Bool.false_eq_true, if_false,
                Std.ExtTreeMap.getElem?_erase] at hFound
              split at hFound
              · cases hFound
              · exact Or.inl hFound

/-- A worker who is in the middle of nothing does at once what nobody comes in between of. -/
theorem step_start {workplace : Workplace} {worker : Nat}
    (hFree : workplace.unfinished[worker]? = none) {operation : Operation}
    (hWaits : workplace.waits (.start worker operation) = false) {outcome : Outcome Reply}
    (hBegin : workplace.pager.begin workplace.volume operation = .inr outcome) :
    workplace.step (.start worker operation) =
      (some outcome.report,
        { workplace with pager := outcome.pager, volume := outcome.volume }) := by
  have hIdle : workplace.unfinished.contains worker = false := by
    rw [Std.ExtTreeMap.contains_eq_isSome_getElem?, hFree]
    rfl
  simp [step, hWaits, hIdle, hBegin]

/-- Whoever wants to destroy a file whose path is guarded is refused. -/
theorem step_destroyFile_of_guards {workplace : Workplace} {worker : Nat}
    (hFree : workplace.unfinished[worker]? = none) {path : Path}
    (hGuards : workplace.pager.guards path = true) :
    workplace.step (.start worker (.destroyFile path)) =
      (some ⟨.error (.fileNotClosed path), [.refusedDestroy path], none⟩, workplace) := by
  obtain ⟨hReport, hPager, hVolume⟩ := Pager.report_perform_destroyFile hGuards workplace.volume
  have hBegin : workplace.pager.begin workplace.volume (.destroyFile path) =
      .inr (workplace.pager.perform workplace.volume (.destroyFile path)) := by
    simp [Pager.begin, hGuards]
  rw [step_start hFree rfl hBegin, hReport, hPager, hVolume]

/-- No move takes a name away but that of a worker who finishes destroying a file, and one
that destroys a directory. -/
theorem step_keepsNames (workplace : Workplace) {move : Move}
    (hMove : ∀ worker path, move ≠ .start worker (.destroyDirectory path)) :
    workplace.volume.KeepsNames (workplace.step move).2.volume ∨
    ∃ (worker : Nat) (path : Path), move = .finish worker ∧
      workplace.unfinished[worker]? = some (.destroying path) ∧
      (workplace.step move).2.pager = workplace.pager := by
  rcases workplace.step_cases move with
    hSame | ⟨worker, operation, unfinished, -, -, -, hStep⟩ |
      ⟨worker, operation, rfl, -, hBegin, hStep⟩ | ⟨worker, unfinished, rfl, -, hFound, hStep⟩
  · rw [hSame]
    exact Or.inl (Volume.KeepsNames.refl _)
  · rw [hStep]
    exact Or.inl (Volume.KeepsNames.refl _)
  · rw [hStep]
    refine Or.inl ?_
    cases operation with
    | destroyDirectory path => exact absurd rfl (hMove worker path)
    | destroyFile path =>
        -- A destruction that is done at once is one that was refused.
        simp only [Pager.begin] at hBegin
        split at hBegin
        · rename_i hGuards
          rw [(Pager.report_perform_destroyFile hGuards workplace.volume).2.2]
          exact Volume.KeepsNames.refl _
        · cases hBegin
    | _ => exact Pager.perform_keepsNames _ _ rfl
  · rw [hStep]
    cases unfinished with
    | opening path =>
        simp only [Pager.complete, Outcome.map,
          (Pager.openTracked_cases workplace.pager workplace.volume path).1]
        exact Or.inl (Volume.KeepsNames.refl _)
    | closing fd handle => exact Or.inl (Volume.KeepsNames.refl _)
    | destroying path =>
        exact Or.inr ⟨worker, path, rfl, hFound,
          (workplace.pager.unlinkFile_cases workplace.volume path).1⟩

end Workplace

end Paging
