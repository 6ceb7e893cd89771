import Paging.Pager.Operation

/-! Several workers at one pager, with the three operations taken apart that others may
come in between of: opening a file that is looked for first, closing one, and destroying
one. Main statement: an operation that nobody comes in between of does what it does as
one step. -/
namespace Paging

/-- An operation that a worker has begun, with what the worker has seen so far. -/
inductive Unfinished
  /-- The path led to a file when the worker looked. -/
  | opening (path : Path)
  /-- The descriptor stood for this opening of a file. -/
  | closing (fd : Descriptor) (handle : Handle)
  /-- The path was not guarded. -/
  | destroying (path : Path)
  deriving DecidableEq

namespace Pager

/-- Begins an operation, and does all of it unless others may come in between. -/
def begin (pager : Pager) (volume : Volume) : Operation → Unfinished ⊕ Outcome Reply
  | .openFile path =>
    if volume.isFile path then .inl (.opening path)
    else .inr (pager.perform volume (.openFile path))
  | .closeFile fd =>
    match pager.handle? fd with
    | some handle => .inl (.closing fd handle)
    | none => .inr (pager.perform volume (.closeFile fd))
  | .destroyFile path =>
    if pager.guards path then .inr (pager.perform volume (.destroyFile path))
    else .inl (.destroying path)
  | operation => .inr (pager.perform volume operation)

/-- Does the rest of an operation, going by what was seen when it was begun. -/
def complete (pager : Pager) (volume : Volume) : Unfinished → Outcome Reply
  | .opening path => (pager.openTracked volume path).map .descriptor
  | .closing fd handle =>
    let (released, events) := pager.release fd handle
    { result := .ok .done, pager := released, volume, events }
  | .destroying path => (pager.unlinkFile volume path).map fun _ => .done

/-- What is begun and done at once is the whole operation. -/
theorem begin_eq_inr {pager : Pager} {volume : Volume} {operation : Operation}
    {outcome : Outcome Reply} (hBegin : pager.begin volume operation = .inr outcome) :
    outcome = pager.perform volume operation := by
  cases operation with
  | openFile path =>
      simp only [begin] at hBegin
      split at hBegin
      · cases hBegin
      · exact (Sum.inr.inj hBegin).symm
  | closeFile fd =>
      simp only [begin] at hBegin
      split at hBegin
      · cases hBegin
      · exact (Sum.inr.inj hBegin).symm
  | destroyFile path =>
      simp only [begin] at hBegin
      split at hBegin
      · exact (Sum.inr.inj hBegin).symm
      · cases hBegin
  | _ => exact (Sum.inr.inj hBegin).symm

/-- What is begun, and completed before anything else happens, is the whole operation. -/
theorem complete_of_begin {pager : Pager} {volume : Volume} {operation : Operation}
    {unfinished : Unfinished} (hBegin : pager.begin volume operation = .inl unfinished) :
    pager.complete volume unfinished = pager.perform volume operation := by
  cases operation with
  | openFile path =>
      simp only [begin] at hBegin
      split at hBegin
      · rename_i hFile
        cases hBegin
        simp [complete, perform, openFile, hFile]
      · cases hBegin
  | closeFile fd =>
      simp only [begin] at hBegin
      split at hBegin
      · rename_i handle hHandle
        cases hBegin
        simp [complete, perform, closeFile, hHandle, Outcome.map, Except.map]
      · cases hBegin
  | destroyFile path =>
      simp only [begin] at hBegin
      split at hBegin
      · cases hBegin
      · rename_i hGuards
        cases hBegin
        simp [complete, perform, destroyFile, hGuards]
  | _ => cases hBegin

end Pager

/-- A pager, its volume, and the workers that are in the middle of an operation, by
number. -/
structure Workplace where
  pager : Pager
  volume : Volume
  unfinished : Std.ExtTreeMap Nat Unfinished

/-- What a worker can do next. -/
inductive Move
  | start (worker : Nat) (operation : Operation)
  | finish (worker : Nat)
  deriving DecidableEq

namespace Workplace

/-- A workplace at which nobody is in the middle of anything. -/
def quiet (pager : Pager) (volume : Volume) : Workplace := ⟨pager, volume, ∅⟩

/-- Whether somebody is about to destroy a file. Until that is done, nobody enters a file
in the table or takes one out. The log is opened all the same. -/
def isLocked (workplace : Workplace) : Bool :=
  workplace.unfinished.toList.any fun entry =>
    match entry.2 with
    | .destroying _ => true
    | _ => false

/-- Whether a move has to wait until the table is not locked any more. -/
def waits (workplace : Workplace) : Move → Bool
  | .start _ (.ensureOpen _) => workplace.isLocked
  | .start .. => false
  | .finish worker =>
    match workplace.unfinished[worker]? with
    | some (.opening _) => workplace.isLocked
    | some (.closing ..) => workplace.isLocked
    | _ => false

/-- Makes a move, and tells what is seen of an operation that comes to its end. A move
that has to wait changes nothing, and so does one that the worker cannot make: a worker
does one thing at a time, and finishes only what was started. -/
def step (workplace : Workplace) (move : Move) : Option (Report Reply) × Workplace :=
  if workplace.waits move then (none, workplace)
  else match move with
    | .start worker operation =>
      if workplace.unfinished.contains worker then (none, workplace)
      else match workplace.pager.begin workplace.volume operation with
        | .inl unfinished =>
          (none, { workplace with unfinished := workplace.unfinished.insert worker unfinished })
        | .inr outcome =>
          (some outcome.report,
            { workplace with pager := outcome.pager, volume := outcome.volume })
    | .finish worker =>
      match workplace.unfinished[worker]? with
      | none => (none, workplace)
      | some unfinished =>
        let outcome := workplace.pager.complete workplace.volume unfinished
        (some outcome.report,
          ⟨outcome.pager, outcome.volume, workplace.unfinished.erase worker⟩)

/-- Makes moves in order. What several workers do at once is one such list, whichever
way their moves fall. -/
def run (workplace : Workplace) (moves : List Move) : List (Option (Report Reply)) × Workplace :=
  trace step workplace moves

@[simp] theorem run_nil (workplace : Workplace) : workplace.run [] = ([], workplace) := rfl

@[simp] theorem run_cons (workplace : Workplace) (move : Move) (rest : List Move) :
    workplace.run (move :: rest) =
      ((workplace.step move).1 :: ((workplace.step move).2.run rest).1,
        ((workplace.step move).2.run rest).2) :=
  trace_cons step workplace move rest

theorem run_append (workplace : Workplace) (first second : List Move) :
    workplace.run (first ++ second) =
      ((workplace.run first).1 ++ ((workplace.run first).2.run second).1,
        ((workplace.run first).2.run second).2) :=
  trace_append step workplace first second

/-- Every move with the workplace that it meets. -/
def meetings (workplace : Workplace) : List Move → List (Workplace × Move)
  | [] => []
  | move :: rest => (workplace, move) :: meetings (workplace.step move).2 rest

theorem meetings_append (workplace : Workplace) (first second : List Move) :
    workplace.meetings (first ++ second) =
      workplace.meetings first ++ (workplace.run first).2.meetings second := by
  induction first generalizing workplace with
  | nil => rfl
  | cons move rest ih => simp [meetings, ih]

/-- Everything that a move can do: nothing, begin an operation, do one that nobody comes in
between of, or finish one that was begun. -/
theorem step_cases (workplace : Workplace) (move : Move) :
    workplace.step move = (none, workplace) ∨
    (∃ worker operation unfinished, move = .start worker operation ∧
      workplace.waits move = false ∧
      workplace.pager.begin workplace.volume operation = .inl unfinished ∧
      workplace.step move = (none,
        { workplace with unfinished := workplace.unfinished.insert worker unfinished })) ∨
    (∃ worker operation, move = .start worker operation ∧ workplace.waits move = false ∧
      let outcome := workplace.pager.perform workplace.volume operation
      workplace.pager.begin workplace.volume operation = .inr outcome ∧
      workplace.step move = (some outcome.report,
        { workplace with pager := outcome.pager, volume := outcome.volume })) ∨
    ∃ worker unfinished, move = .finish worker ∧ workplace.waits move = false ∧
      workplace.unfinished[worker]? = some unfinished ∧
      let outcome := workplace.pager.complete workplace.volume unfinished
      workplace.step move = (some outcome.report,
        ⟨outcome.pager, outcome.volume, workplace.unfinished.erase worker⟩) := by
  cases hWaits : workplace.waits move with
  | true => exact Or.inl (by simp [step, hWaits])
  | false =>
      cases move with
      | start worker operation =>
          cases hBusy : workplace.unfinished.contains worker with
          | true => exact Or.inl (by simp [step, hBusy])
          | false =>
              cases hBegin : workplace.pager.begin workplace.volume operation with
              | inl unfinished =>
                  refine Or.inr (Or.inl ⟨worker, operation, unfinished, rfl, rfl, hBegin, ?_⟩)
                  simp [step, hWaits, hBusy, hBegin]
              | inr outcome =>
                  have hWhole := Pager.begin_eq_inr hBegin
                  subst hWhole
                  refine Or.inr (Or.inr (Or.inl ⟨worker, operation, rfl, rfl, hBegin, ?_⟩))
                  simp [step, hWaits, hBusy, hBegin]
      | finish worker =>
          cases hFound : workplace.unfinished[worker]? with
          | none => exact Or.inl (by simp [step, hFound])
          | some unfinished =>
              refine Or.inr (Or.inr (Or.inr ⟨worker, unfinished, rfl, rfl, hFound, ?_⟩))
              simp [step, hWaits, hFound]

/-- The table is locked as long as somebody is about to destroy a file. -/
theorem isLocked_iff (workplace : Workplace) :
    workplace.isLocked = true ↔ ∃ (worker : Nat) (path : Path),
      workplace.unfinished[worker]? = some (.destroying path) := by
  simp only [isLocked, List.any_eq_true, Prod.exists,
    Std.ExtTreeMap.mem_toList_iff_getElem?_eq_some]
  constructor
  · rintro ⟨worker, unfinished, hFound, hKind⟩
    cases unfinished with
    | destroying path => exact ⟨worker, path, hFound⟩
    | opening | closing => cases hKind
  · rintro ⟨worker, path, hFound⟩
    exact ⟨worker, .destroying path, hFound, rfl⟩

/-- A worker alone never has to wait. -/
theorem waits_eq_false_of_alone {pager : Pager} {volume : Volume} {worker : Nat}
    {unfinished : Unfinished} :
    waits ⟨pager, volume, (∅ : Std.ExtTreeMap Nat Unfinished).insert worker unfinished⟩
      (.finish worker) = false := by
  have hLocked : isLocked ⟨pager, volume,
      (∅ : Std.ExtTreeMap Nat Unfinished).insert worker unfinished⟩ = true →
        ∃ path, unfinished = .destroying path := by
    rw [isLocked_iff]
    rintro ⟨other, path, hFound⟩
    rw [Std.ExtTreeMap.getElem?_insert] at hFound
    split at hFound
    · exact ⟨path, Option.some.inj hFound⟩
    · simp at hFound
  simp only [waits, Std.ExtTreeMap.getElem?_insert_self]
  cases unfinished with
  | destroying => rfl
  | opening | closing =>
      rw [← Bool.not_eq_true]
      intro hTrue
      obtain ⟨path, hPath⟩ := hLocked hTrue
      cases hPath

/-- An operation of a worker alone is the pager's own operation. -/
theorem run_start_finish (pager : Pager) (volume : Volume) (worker : Nat)
    (operation : Operation) :
    let outcome := pager.perform volume operation
    ((quiet pager volume).run [.start worker operation, .finish worker]).1.filterMap id =
        [outcome.report] ∧
      ((quiet pager volume).run [.start worker operation, .finish worker]).2 =
        quiet outcome.pager outcome.volume := by
  have hStart : (quiet pager volume).waits (.start worker operation) = false := by
    cases operation <;> rfl
  cases hBegin : pager.begin volume operation with
  | inr outcome =>
      have hStep : (quiet pager volume).step (.start worker operation) =
          (some outcome.report, quiet outcome.pager outcome.volume) := by
        rw [step, hStart]
        simp [hBegin, quiet]
      have hNothing : (quiet outcome.pager outcome.volume).step (.finish worker) =
          (none, quiet outcome.pager outcome.volume) := by
        simp [step, waits, quiet]
      rw [← Pager.begin_eq_inr hBegin]
      simp [hStep, hNothing]
  | inl unfinished =>
      have hStep : (quiet pager volume).step (.start worker operation) =
          (none, ⟨pager, volume, (∅ : Std.ExtTreeMap Nat Unfinished).insert worker unfinished⟩) := by
        rw [step, hStart]
        simp [hBegin, quiet]
      have hErase : ((∅ : Std.ExtTreeMap Nat Unfinished).insert worker unfinished).erase worker =
          ∅ := by
        ext other found
        simp only [Std.ExtTreeMap.getElem?_erase, Std.ExtTreeMap.getElem?_insert]
        split <;> simp
      let outcome := pager.complete volume unfinished
      have hFinish : step ⟨pager, volume, (∅ : Std.ExtTreeMap Nat Unfinished).insert worker
          unfinished⟩ (.finish worker) =
            (some outcome.report, quiet outcome.pager outcome.volume) := by
        rw [step, waits_eq_false_of_alone]
        simp [hErase, quiet, outcome]
      rw [← Pager.complete_of_begin hBegin]
      simp [hStep, hFinish, outcome]

/-- A worker alone does, operation by operation, what the pager does. -/
theorem run_alone (pager : Pager) (volume : Volume) (worker : Nat)
    (operations : List Operation) :
    let moves := operations.flatMap fun operation => [.start worker operation, .finish worker]
    ((quiet pager volume).run moves).1.filterMap id = (pager.run volume operations).1 ∧
      ((quiet pager volume).run moves).2 =
        quiet (pager.run volume operations).2.1 (pager.run volume operations).2.2 := by
  induction operations generalizing pager volume with
  | nil => exact ⟨rfl, rfl⟩
  | cons operation rest ih =>
      obtain ⟨hReport, hAfter⟩ := run_start_finish pager volume worker operation
      obtain ⟨hReports, hLast⟩ := ih (pager.perform volume operation).pager
        (pager.perform volume operation).volume
      dsimp only
      rw [List.flatMap_cons, run_append, Pager.run_cons]
      dsimp only
      rw [List.filterMap_append, hReport, hAfter, hReports, hLast]
      exact ⟨rfl, rfl⟩

end Workplace

end Paging
