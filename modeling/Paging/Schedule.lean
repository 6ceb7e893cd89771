/-! What several workers do at once is one list of their steps, in which each
worker's own steps keep their order. Which list it is depends on the workers'
luck, so a law about several workers is a law about every such list. -/
namespace Paging.Schedule

variable {Step : Type}

/-- `Interleaves workers steps` says that `steps` is made of all the workers'
steps, each worker's in its own order. It does not say who goes when. -/
inductive Interleaves : List (List Step) → List Step → Prop
  | done (workers : List (List Step)) (hDone : ∀ worker ∈ workers, worker = []) :
      Interleaves workers []
  | step (before after : List (List Step)) (first : Step) (rest steps : List Step)
      (later : Interleaves (before ++ rest :: after) steps) :
      Interleaves (before ++ (first :: rest) :: after) (first :: steps)

/-- How many rounds it takes until no worker has a step left. -/
def longest (workers : List (List Step)) : Nat :=
  workers.foldl (fun most worker => max most worker.length) 0

/-- One round: every worker that has a step for it takes that step. -/
def round (workers : List (Array Step)) (turn : Nat) : List Step :=
  workers.filterMap (·[turn]?)

/-- The interleaving in which the workers take turns. -/
def takingTurns (workers : List (List Step)) : List Step :=
  (List.range (longest workers)).flatMap (round (workers.map List.toArray))

/-- Some number of workers that all do the same. -/
def alike (workers : Nat) (steps : List Step) : List (List Step) :=
  List.replicate workers steps

theorem le_foldl_max_length (workers : List (List Step)) (most : Nat) :
    most ≤ workers.foldl (fun most worker => max most worker.length) most ∧
      ∀ worker ∈ workers,
        worker.length ≤ workers.foldl (fun most worker => max most worker.length) most := by
  induction workers generalizing most with
  | nil => simp
  | cons other workers ih =>
      obtain ⟨hMost, hLater⟩ := ih (max most other.length)
      refine ⟨Nat.le_trans (Nat.le_max_left _ _) hMost, fun worker hWorker => ?_⟩
      rcases List.mem_cons.mp hWorker with rfl | hWorker
      · exact Nat.le_trans (Nat.le_max_right _ _) hMost
      · exact hLater worker hWorker

theorem length_le_longest {workers : List (List Step)} {worker : List Step}
    (hWorker : worker ∈ workers) : worker.length ≤ longest workers :=
  (le_foldl_max_length workers 0).2 worker hWorker

/-- A round takes the first steps of what the workers have left. -/
theorem round_eq (workers : List (List Step)) (turn : Nat) :
    round (workers.map List.toArray) turn =
      (workers.map (List.drop turn)).filterMap List.head? := by
  rw [round, List.filterMap_map, List.filterMap_map]
  congr 1
  funext worker
  simp

/-- One round in front of an interleaving of what is left after it is an
interleaving of everything. Workers in `before` have had their turn. -/
theorem Interleaves.heads_after (workers : List (List Step)) {before : List (List Step)}
    {steps : List Step} (later : Interleaves (before ++ workers.map List.tail) steps) :
    Interleaves (before ++ workers) (workers.filterMap List.head? ++ steps) := by
  induction workers generalizing before with
  | nil => simpa using later
  | cons worker workers ih =>
      cases worker with
      | nil =>
          have hRest : Interleaves ((before ++ [[]]) ++ workers.map List.tail) steps := by
            simpa using later
          have hHeads : ([] :: workers).filterMap List.head? = workers.filterMap List.head? := rfl
          rw [hHeads]
          simpa using ih hRest
      | cons first rest =>
          have hRest : Interleaves ((before ++ [rest]) ++ workers.map List.tail) steps := by
            simpa using later
          exact Interleaves.step before workers first rest _ (by simpa using ih hRest)

/-- One round in front of an interleaving of what all workers have left. -/
theorem Interleaves.heads (workers : List (List Step)) {steps : List Step}
    (later : Interleaves (workers.map List.tail) steps) :
    Interleaves workers (workers.filterMap List.head? ++ steps) := by
  have hEmpty : Interleaves ([] ++ workers.map List.tail) steps := later
  simpa using Interleaves.heads_after workers hEmpty

/-- Enough rounds from some round on are an interleaving of what is left. -/
theorem Interleaves.rounds_of_length_le (workers : List (List Step)) (count turn : Nat)
    (hCount : ∀ worker ∈ workers, worker.length ≤ turn + count) :
    Interleaves (workers.map (List.drop turn))
      ((List.range' turn count).flatMap (round (workers.map List.toArray))) := by
  induction count generalizing turn with
  | zero =>
      refine Interleaves.done _ fun rest hRest => ?_
      obtain ⟨worker, hWorker, rfl⟩ := List.mem_map.mp hRest
      exact List.drop_eq_nil_of_le (hCount worker hWorker)
  | succ count ih =>
      have hTails : (workers.map (List.drop turn)).map List.tail =
          workers.map (List.drop (turn + 1)) := by
        simp [Function.comp_def]
      rw [List.range'_succ, List.flatMap_cons, round_eq]
      refine Interleaves.heads _ ?_
      rw [hTails]
      exact ih (turn + 1) fun worker hWorker => by
        have hLength := hCount worker hWorker
        omega

/-- Taking turns is one of the ways in which the workers may interleave. -/
theorem Interleaves.takingTurns (workers : List (List Step)) :
    Interleaves workers (takingTurns workers) := by
  have hRounds := Interleaves.rounds_of_length_le workers (longest workers) 0 fun _ hWorker => by
    simpa using length_le_longest hWorker
  have hWhole : workers.map (List.drop 0) = workers := List.map_id workers
  rw [hWhole] at hRounds
  simpa [Schedule.takingTurns, List.range_eq_range'] using hRounds

/-- An interleaving is made of the workers' steps and of nothing else. -/
theorem Interleaves.perm {workers : List (List Step)} {steps : List Step}
    (hInterleaves : Interleaves workers steps) : steps.Perm workers.flatten := by
  induction hInterleaves with
  | done workers hDone => rw [List.flatten_eq_nil_iff.mpr hDone]
  | step before after first rest steps later ih =>
      rw [List.flatten_append, List.flatten_cons] at ih ⊢
      exact (ih.cons first).trans List.perm_middle.symm

end Paging.Schedule
