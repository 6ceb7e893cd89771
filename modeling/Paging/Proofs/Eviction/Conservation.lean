import Mathlib.Data.List.Perm.Basic
import Paging.Proofs.Eviction.AgeOrder

/-! What becomes of the frames when several workers share one eviction queue. Every call
takes effect at once, so whatever the workers do is one list of calls. Main statements:
workers that evict until nothing is left get each waiting frame once between them, and
every frame that ever joined was evicted, was pinned, or still waits. -/
namespace Paging.Eviction

/-- A call and the queue that it meets. -/
structure Encounter where
  queue : Queue
  call : Call

namespace Encounter

/-- The queue that the call leaves. -/
def after (encounter : Encounter) : Queue :=
  (encounter.queue.perform encounter.call.operation).2

/-- The frame that the call unpins, if it did not wait. -/
def added? (encounter : Encounter) : Option Frame :=
  match encounter.call with
  | .unpin frame => if frame ∈ encounter.queue.frames then none else some frame
  | .pin _ => none
  | .victim => none

/-- The frame that the call pins, if it did wait. -/
def withdrawn? (encounter : Encounter) : Option Frame :=
  match encounter.call with
  | .unpin _ => none
  | .pin frame => if frame ∈ encounter.queue.frames then some frame else none
  | .victim => none

/-- The frame that the call evicts. -/
def evicted? (encounter : Encounter) : Option Frame :=
  match (encounter.queue.perform encounter.call.operation).1.reply with
  | .victim frame => frame
  | _ => none

/-- What waited and what the call adds is what it evicts or withdraws and what waits
afterwards. -/
theorem balance (encounter : Encounter) :
    (encounter.queue.frames ++ encounter.added?.toList).Perm
      (encounter.evicted?.toList ++ encounter.withdrawn?.toList ++ encounter.after.frames) := by
  obtain ⟨queue, call⟩ := encounter
  cases call with
  | unpin frame =>
      by_cases hWaiting : frame ∈ queue.frames
      · simp [added?, withdrawn?, evicted?, after, Call.operation, Queue.perform, Queue.report,
          hWaiting, Queue.unpin_of_mem]
      · simp [added?, withdrawn?, evicted?, after, Call.operation, Queue.perform, Queue.report,
          hWaiting, Queue.frames_unpin_of_not_mem]
  | pin frame =>
      by_cases hWaiting : frame ∈ queue.frames
      · simpa [added?, withdrawn?, evicted?, after, Call.operation, Queue.perform,
          Queue.report, hWaiting] using List.perm_cons_erase hWaiting
      · simp [added?, withdrawn?, evicted?, after, Call.operation, Queue.perform,
          Queue.report, hWaiting, List.erase_of_not_mem]
  | victim =>
      cases hFrames : queue.frames with
      | nil =>
          have hVictim := Queue.victim_of_frames_eq_nil hFrames
          simp [added?, withdrawn?, evicted?, after, Call.operation, Queue.perform,
            Queue.report, hVictim, hFrames]
      | cons frame rest =>
          obtain ⟨left, hVictim, hLeft, -⟩ := Queue.victim_of_frames_eq_cons hFrames
          simp [added?, withdrawn?, evicted?, after, Call.operation, Queue.perform,
            Queue.report, hVictim, hLeft]

end Encounter

namespace Queue

/-- Calls one after the other, each with the queue that it meets. -/
def encounters (queue : Queue) : List Call → List Encounter
  | [] => []
  | call :: rest => ⟨queue, call⟩ :: (queue.perform call.operation).2.encounters rest

/-- Through any calls, what waited and what was added is what was evicted, what was
withdrawn and what waits in the end. -/
theorem count_encounters (queue : Queue) (calls : List Call) (frame : Frame) :
    queue.frames.count frame + ((queue.encounters calls).filterMap Encounter.added?).count frame =
      ((queue.encounters calls).filterMap Encounter.evicted?).count frame +
        ((queue.encounters calls).filterMap Encounter.withdrawn?).count frame +
        (queue.run (calls.map Call.operation)).2.frames.count frame := by
  induction calls generalizing queue with
  | nil => simp [encounters]
  | cons call rest ih =>
      have hFirst := (Encounter.balance ⟨queue, call⟩).count_eq frame
      have hRest := ih (queue.perform call.operation).2
      have hSplit : ∀ told? : Encounter → Option Frame,
          ((queue.encounters (call :: rest)).filterMap told?).count frame =
            (told? ⟨queue, call⟩).toList.count frame +
              (((queue.perform call.operation).2.encounters rest).filterMap told?).count
                frame := by
        intro told?
        cases hTold : told? ⟨queue, call⟩ with
        | none => simp [encounters, hTold]
        | some found => simp [encounters, hTold, List.count_cons, Nat.add_comm]
      simp only [List.count_append, Encounter.after] at hFirst
      simp only [hSplit, List.map_cons, run_cons]
      omega

/-- Frames wait in the order in which they were first unpinned. -/
theorem frames_unpinAll (queue : Queue) (unpinned : List Frame) :
    (queue.unpinAll unpinned).frames =
      queue.frames ++ (unpinned.removeAll queue.frames).eraseDups := by
  induction unpinned generalizing queue with
  | nil => simp [unpinAll]
  | cons frame rest ih =>
      have hRest : (queue.unpinAll (frame :: rest)).frames = _ := ih (queue.unpin frame).1
      rw [hRest, List.cons_removeAll]
      by_cases hWaiting : frame ∈ queue.frames
      · simp [unpin_of_mem hWaiting, hWaiting]
      · have hLater : rest.removeAll (queue.frames ++ [frame]) =
            (rest.removeAll queue.frames).filter (fun other => !other == frame) := by
          simp [List.removeAll, Bool.and_comm, Bool.beq_eq_decide_eq]
        simp [frames_unpin_of_not_mem hWaiting, hWaiting, List.eraseDups_cons, hLater]

end Queue

/-- A worker that evicts: the frames that it got so far, the first one first, and whether
it was told that none was left, after which it stops. -/
structure Evictor where
  taken : List Frame := []
  finished : Bool := false
  deriving DecidableEq

/-- A queue and the workers that evict from it. -/
structure Crew where
  queue : Queue
  workers : List Evictor

namespace Crew

/-- Workers that have not begun. -/
def start (queue : Queue) (count : Nat) : Crew := ⟨queue, List.replicate count {}⟩

/-- The turn of one worker: it evicts once more, unless it has stopped or there is no
such worker. -/
def turn (crew : Crew) (number : Nat) : Crew :=
  match crew.workers[number]? with
  | some ⟨taken, false⟩ =>
    match crew.queue.victim with
    | (none, after, _) => ⟨after, crew.workers.set number ⟨taken, true⟩⟩
    | (some frame, after, _) => ⟨after, crew.workers.set number ⟨taken ++ [frame], false⟩⟩
  | _ => crew

/-- What is left once the workers with the given numbers had their turns. -/
def work (crew : Crew) (turns : List Nat) : Crew := turns.foldl turn crew

/-- The frames that the workers got, one worker after the other. -/
def taken (crew : Crew) : List Frame := crew.workers.flatMap Evictor.taken

/-- The frames that the workers got are those that went from the queue, each worker got
its own in the order in which they waited, and no worker stopped while any waited. -/
structure Serves (crew : Crew) (waited : List Frame) : Prop where
  shared : ∃ gone, waited = gone ++ crew.queue.frames ∧ crew.taken.Perm gone ∧
    ∀ worker ∈ crew.workers, worker.taken.Sublist gone
  empty_of_finished : ∀ worker ∈ crew.workers, worker.finished = true → crew.queue.frames = []

/-- A worker has stopped. -/
def Stopped (crew : Crew) (number : Nat) : Prop :=
  ∃ worker, crew.workers[number]? = some worker ∧ worker.finished = true

/-- Everything that a turn can do: nothing where the worker has stopped or there is none,
let it stop, or give it the frame that has waited longest. -/
theorem turn_cases (crew : Crew) (number : Nat) :
    ((number < crew.workers.length → crew.Stopped number) ∧ crew.turn number = crew) ∨
    (∃ taken, crew.workers[number]? = some ⟨taken, false⟩ ∧ crew.queue.frames = [] ∧
      (crew.turn number).queue.frames = [] ∧
      (crew.turn number).workers = crew.workers.set number ⟨taken, true⟩) ∨
    (∃ taken frame, crew.workers[number]? = some ⟨taken, false⟩ ∧
      crew.queue.frames = frame :: (crew.turn number).queue.frames ∧
      (crew.turn number).workers = crew.workers.set number ⟨taken ++ [frame], false⟩) := by
  cases hWorker : crew.workers[number]? with
  | none =>
      have hNone : crew.turn number = crew := by simp [turn, hWorker]
      have hLength := List.getElem?_eq_none_iff.mp hWorker
      exact Or.inl ⟨fun hLess => absurd hLess (Nat.not_lt.mpr hLength), hNone⟩
  | some worker =>
      obtain ⟨taken, finished⟩ := worker
      cases finished with
      | true =>
          have hSame : crew.turn number = crew := by simp [turn, hWorker]
          exact Or.inl ⟨fun _ => ⟨_, hWorker, rfl⟩, hSame⟩
      | false =>
          cases hFrames : crew.queue.frames with
          | nil =>
              have hVictim := Queue.victim_of_frames_eq_nil hFrames
              have hTurn : crew.turn number =
                  ⟨crew.queue, crew.workers.set number ⟨taken, true⟩⟩ := by
                simp [turn, hWorker, hVictim]
              rw [hTurn]
              exact Or.inr (Or.inl ⟨taken, rfl, rfl, hFrames, rfl⟩)
          | cons frame rest =>
              obtain ⟨left, hVictim, hLeft, -⟩ := Queue.victim_of_frames_eq_cons hFrames
              have hTurn : crew.turn number =
                  ⟨left, crew.workers.set number ⟨taken ++ [frame], false⟩⟩ := by
                simp [turn, hWorker, hVictim]
              rw [hTurn]
              exact Or.inr (Or.inr ⟨taken, frame, rfl, by rw [hLeft], rfl⟩)

/-- What one worker gets in addition, the workers get in addition between them. -/
theorem taken_set {workers : List Evictor} {number : Nat} {taken : List Frame}
    (hWorker : workers[number]? = some ⟨taken, false⟩) (more : List Frame) (finished : Bool) :
    ((workers.set number ⟨taken ++ more, finished⟩).flatMap Evictor.taken).Perm
      (workers.flatMap Evictor.taken ++ more) := by
  induction workers generalizing number with
  | nil => cases hWorker
  | cons worker rest ih =>
      cases number with
      | zero =>
          obtain rfl : worker = ⟨taken, false⟩ := Option.some.inj hWorker
          simp only [List.set_cons_zero, List.flatMap_cons, List.append_assoc]
          exact List.perm_append_comm.append_left taken
      | succ number =>
          simp only [List.set_cons_succ, List.flatMap_cons, List.append_assoc]
          exact (ih hWorker).append_left worker.taken

variable {crew : Crew} {waited : List Frame}

theorem serves_start (queue : Queue) (count : Nat) : (start queue count).Serves queue.frames where
  shared := ⟨[], rfl, by simp [start, taken], by simp [start]⟩
  empty_of_finished := by simp [start]

/-- A turn shares out what waited at first as before. -/
theorem Serves.turn (hServes : crew.Serves waited) (number : Nat) :
    (crew.turn number).Serves waited := by
  obtain ⟨⟨gone, hWaited, hPerm, hSublist⟩, hEmpty⟩ := hServes
  rcases crew.turn_cases number with ⟨-, hSame⟩ | ⟨taken, hWorker, hFrames, hLeft, hAfter⟩ |
    ⟨taken, frame, hWorker, hFrames, hAfter⟩
  · rw [hSame]
    exact ⟨⟨gone, hWaited, hPerm, hSublist⟩, hEmpty⟩
  · have hTaken := taken_set hWorker [] true
    rw [List.append_nil, List.append_nil, ← hAfter] at hTaken
    constructor
    · refine ⟨gone, by rw [hWaited, hFrames, hLeft], hTaken.trans hPerm, fun worker hMem => ?_⟩
      rw [hAfter] at hMem
      rcases List.mem_or_eq_of_mem_set hMem with hOld | rfl
      · exact hSublist worker hOld
      · exact hSublist ⟨taken, false⟩ (List.mem_of_getElem? hWorker)
    · exact fun _ _ _ => hLeft
  · have hTaken := taken_set hWorker [frame] false
    rw [← hAfter] at hTaken
    have hLater : ∀ worker ∈ (crew.turn number).workers,
        worker ∈ crew.workers ∨ worker = ⟨taken ++ [frame], false⟩ := fun worker hMem =>
      List.mem_or_eq_of_mem_set (hAfter ▸ hMem)
    constructor
    · refine ⟨gone ++ [frame], by simp [hWaited, hFrames], hTaken.trans (hPerm.append_right _),
        fun worker hMem => ?_⟩
      rcases hLater worker hMem with hOld | rfl
      · exact (hSublist worker hOld).trans (List.sublist_append_left gone [frame])
      · exact (hSublist ⟨taken, false⟩ (List.mem_of_getElem? hWorker)).append_right [frame]
    · intro worker hMem hFinished
      rcases hLater worker hMem with hOld | rfl
      · rw [hEmpty worker hOld hFinished] at hFrames
        cases hFrames
      · cases hFinished

/-- However the workers take turns, they share out what waited at first. -/
theorem Serves.work (hServes : crew.Serves waited) (turns : List Nat) :
    (crew.work turns).Serves waited := by
  induction turns generalizing crew with
  | nil => exact hServes
  | cons number rest ih => exact ih (hServes.turn number)

theorem length_workers_turn (crew : Crew) (number : Nat) :
    (crew.turn number).workers.length = crew.workers.length := by
  rcases crew.turn_cases number with ⟨-, hSame⟩ | ⟨taken, -, -, -, hAfter⟩ |
    ⟨taken, frame, -, -, hAfter⟩
  · rw [hSame]
  · rw [hAfter, List.length_set]
  · rw [hAfter, List.length_set]

/-- A worker that has stopped stays as it is. -/
theorem Stopped.turn {number : Nat} (hStopped : crew.Stopped number) (other : Nat) :
    (crew.turn other).Stopped number := by
  obtain ⟨worker, hWorker, hFinished⟩ := hStopped
  by_cases hSame : other = number
  · subst hSame
    obtain ⟨taken, finished⟩ := worker
    subst hFinished
    have hTurn : crew.turn other = crew := by simp [Crew.turn, hWorker]
    rw [hTurn]
    exact ⟨_, hWorker, rfl⟩
  · have hKept : (crew.turn other).workers[number]? = crew.workers[number]? := by
      rcases crew.turn_cases other with ⟨-, hTurn⟩ | ⟨_, -, -, -, hAfter⟩ | ⟨_, _, -, -, hAfter⟩
      · rw [hTurn]
      · rw [hAfter, List.getElem?_set_ne hSame]
      · rw [hAfter, List.getElem?_set_ne hSame]
    exact ⟨worker, hKept.trans hWorker, hFinished⟩

/-- A turn adds nothing to the queue. -/
theorem length_frames_turn (crew : Crew) (number : Nat) :
    (crew.turn number).queue.frames.length ≤ crew.queue.frames.length := by
  rcases crew.turn_cases number with ⟨-, hSame⟩ | ⟨_, -, -, hLeft, -⟩ | ⟨_, frame, -, hFrames, -⟩
  · rw [hSame]
  · simp [hLeft]
  · simp [hFrames]

/-- In its own turn a worker stops, if it has not already, or shortens the queue. -/
theorem stopped_or_shorter {number : Nat} (hThere : number < crew.workers.length) :
    (crew.turn number).Stopped number ∨
      (crew.turn number).queue.frames.length + 1 = crew.queue.frames.length := by
  rcases crew.turn_cases number with ⟨hStopped, hSame⟩ | ⟨taken, -, -, -, hAfter⟩ |
    ⟨taken, frame, -, hFrames, -⟩
  · exact Or.inl (hSame.symm ▸ hStopped hThere)
  · refine Or.inl ⟨⟨taken, true⟩, ?_, rfl⟩
    rw [hAfter, List.getElem?_set_self hThere]
  · exact Or.inr (by simp [hFrames])

/-- A worker that has more turns than there are frames stops, whatever the others do. -/
theorem stopped_work {number : Nat} (hThere : number < crew.workers.length) {turns : List Nat}
    (hTurns : crew.Stopped number ∨ crew.queue.frames.length < turns.count number) :
    (crew.work turns).Stopped number := by
  induction turns generalizing crew with
  | nil =>
      cases hTurns with
      | inl hStopped => exact hStopped
      | inr hLess => cases hLess
  | cons other rest ih =>
      -- A turn of its own stops the worker or uses up a frame, and a turn of another worker
      -- leaves no more frames than there were.
      refine ih (by rwa [length_workers_turn]) ?_
      rcases hTurns with hStopped | hLess
      · exact Or.inl (hStopped.turn other)
      · rw [List.count_cons] at hLess
        by_cases hOwn : other = number
        · subst hOwn
          rcases stopped_or_shorter hThere with hStopped | hShorter
          · exact Or.inl hStopped
          · rw [beq_self_eq_true, if_pos rfl] at hLess
            exact Or.inr (by omega)
        · rw [beq_false_of_ne hOwn, if_neg Bool.false_ne_true, Nat.add_zero] at hLess
          exact Or.inr (Nat.lt_of_le_of_lt (length_frames_turn crew other) hLess)

/-- Once all the workers have stopped, they got what waited, and nothing is left. -/
theorem Serves.taken_perm (hServes : crew.Serves waited) (hSome : 0 < crew.workers.length)
    (hStopped : ∀ number < crew.workers.length, crew.Stopped number) :
    crew.taken.Perm waited ∧ crew.queue.frames = [] := by
  obtain ⟨worker, hWorker, hFinished⟩ := hStopped 0 hSome
  have hEmpty := hServes.empty_of_finished worker (List.mem_of_getElem? hWorker) hFinished
  obtain ⟨gone, hWaited, hPerm, -⟩ := hServes.shared
  rw [hEmpty, List.append_nil] at hWaited
  exact ⟨hWaited ▸ hPerm, hEmpty⟩

theorem length_workers_work (crew : Crew) (turns : List Nat) :
    (crew.work turns).workers.length = crew.workers.length := by
  induction turns generalizing crew with
  | nil => rfl
  | cons number rest ih => exact (ih (crew.turn number)).trans (length_workers_turn crew number)

@[simp] theorem length_workers_start (queue : Queue) (count : Nat) :
    (start queue count).workers.length = count := List.length_replicate

end Crew

namespace Queue

/-- Frames that are sorted by number come in one order only. -/
theorem mergeSort_eq_of_perm {frames others : List Frame} (hPerm : frames.Perm others) :
    (frames.mergeSort fun a b => a.number ≤ b.number) =
      others.mergeSort fun a b => a.number ≤ b.number := by
  have hSorted : ∀ list : List Frame, (list.mergeSort fun a b => a.number ≤ b.number).Pairwise
      fun a b => decide (a.number ≤ b.number) = true := fun list =>
    List.pairwise_mergeSort (by simp only [decide_eq_true_eq]; omega) (by simp; omega) list
  refine List.Perm.eq_of_pairwise ?_ (hSorted frames) (hSorted others)
    ((List.mergeSort_perm frames _).trans (hPerm.trans (List.mergeSort_perm others _).symm))
  intro a b _ _ hLess hMore
  cases a
  cases b
  simp only [decide_eq_true_eq] at hLess hMore
  exact congrArg Frame.mk (Nat.le_antisymm hLess hMore)

/-- What is told of workers that evict together is what they get between them in every
order in which they may take turns. -/
theorem evictTogether_reply (queue : Queue) {count : Nat} (hSome : 0 < count)
    {turns : List Nat}
    (hStopped : ∀ number < count, ((Crew.start queue count).work turns).Stopped number) :
    (queue.perform (.evictTogether count)).1.reply =
      .victims (((Crew.start queue count).work turns).taken.mergeSort
        fun a b => a.number ≤ b.number) := by
  have hServes := (Crew.serves_start queue count).work turns
  have hLength : ((Crew.start queue count).work turns).workers.length = count := by
    rw [Crew.length_workers_work, Crew.length_workers_start]
  have hTaken := (hServes.taken_perm (by rwa [hLength]) (by rwa [hLength])).1
  obtain ⟨after, hEvict, -⟩ := queue.evict_eq (attempts count queue.size)
  have hAll : queue.frames.take (attempts count queue.size) = queue.frames := by
    rw [attempts, size_eq_length_frames]
    exact List.take_of_length_le (Nat.le_mul_of_pos_left _ hSome)
  simp only [perform, report, hEvict, hAll, mergeSort_eq_of_perm hTaken]

/-- Let several workers unpin frames on a new queue, however they interleave, and let
others then evict, however they take turns. Every worker that goes on stops, and it has
got its frames in the order in which they were first unpinned. Once all have stopped, they
have between them got each frame that some worker unpinned, none twice, and nothing is
left. And where all calls mix freely, each frame joined as often as it was evicted, was
withdrawn by being pinned, or still waits. -/
theorem frames_conserved (capacity : Nat) :
    (∀ (unpinners : List (List Frame)) (unpinned : List Frame) (evictors : Nat)
        (turns : List Nat), Schedule.Interleaves unpinners unpinned →
      let queue := (empty capacity).unpinAll unpinned
      let crew := (Crew.start queue evictors).work turns
      (∀ number < evictors, queue.size < turns.count number → crew.Stopped number) ∧
      (∀ worker ∈ crew.workers, worker.taken.Sublist unpinned.eraseDups) ∧
      (0 < evictors → (∀ number < evictors, crew.Stopped number) →
        crew.taken.Nodup ∧
        (∀ frame, frame ∈ crew.taken ↔ ∃ unpinner ∈ unpinners, frame ∈ unpinner) ∧
        crew.queue.size = 0)) ∧
    ∀ (calls : List Call) (frame : Frame),
      let encounters := (empty capacity).encounters calls
      (encounters.filterMap Encounter.added?).count frame =
        (encounters.filterMap Encounter.evicted?).count frame +
          (encounters.filterMap Encounter.withdrawn?).count frame +
          if frame ∈ (afterCalls capacity calls).frames then 1 else 0 := by
  constructor
  · intro unpinners unpinned evictors turns hInterleaves queue crew
    have hFrames : queue.frames = unpinned.eraseDups := by
      simp [queue, frames_unpinAll, List.removeAll_nil]
    have hServes : crew.Serves queue.frames := (Crew.serves_start queue evictors).work turns
    have hLength : crew.workers.length = evictors := by
      rw [Crew.length_workers_work, Crew.length_workers_start]
    refine ⟨fun number hNumber hTurns => ?_, fun worker hWorker => ?_, fun hSome hStopped => ?_⟩
    · rw [size_eq_length_frames] at hTurns
      exact Crew.stopped_work (by simpa using hNumber) (Or.inr hTurns)
    · obtain ⟨gone, hWaited, -, hSublist⟩ := hServes.shared
      rw [← hFrames, hWaited]
      exact (hSublist worker hWorker).trans (List.sublist_append_left gone _)
    · rw [← hLength] at hSome hStopped
      obtain ⟨hTaken, hEmpty⟩ := hServes.taken_perm hSome hStopped
      refine ⟨hTaken.nodup_iff.mpr queue.nodup_frames, fun frame => ?_, ?_⟩
      · rw [hTaken.mem_iff, hFrames, List.mem_eraseDups, hInterleaves.perm.mem_iff,
          List.mem_flatten]
      · rw [size_eq_length_frames, hEmpty, List.length_nil]
  · intro calls frame encounters
    have hCount := (empty capacity).count_encounters calls frame
    have hOnce : (afterCalls capacity calls).frames.count frame = _ :=
      (afterCalls capacity calls).nodup_frames.count
    rw [frames_empty, List.count_nil, Nat.zero_add] at hCount
    rw [← hOnce]
    exact hCount

/-- Two workers both unpin one frame, and two others evict. -/
theorem frames_conserved_overlapping :
    let crew := (Crew.start ((empty 4).unpinAll [⟨2⟩, ⟨1⟩, ⟨2⟩, ⟨3⟩]) 2).work [0, 1, 1, 0, 1]
    Schedule.Interleaves [[⟨1⟩, ⟨2⟩], [⟨2⟩, ⟨3⟩]] [(⟨2⟩ : Frame), ⟨1⟩, ⟨2⟩, ⟨3⟩] ∧
      crew.workers = [⟨[⟨2⟩], true⟩, ⟨[⟨1⟩, ⟨3⟩], true⟩] ∧
      crew.taken.Nodup ∧ (∃ unpinner ∈ [[(⟨1⟩ : Frame), ⟨2⟩], [⟨2⟩, ⟨3⟩]], ⟨3⟩ ∈ unpinner) ∧
      crew.queue.size = 0 := by
  intro crew
  have hInterleaves :
      Schedule.Interleaves [[⟨1⟩, ⟨2⟩], [⟨2⟩, ⟨3⟩]] [(⟨2⟩ : Frame), ⟨1⟩, ⟨2⟩, ⟨3⟩] := by
    apply Schedule.Interleaves.step [[Frame.mk 1, Frame.mk 2]] []
    apply Schedule.Interleaves.step [] [[Frame.mk 3]]
    apply Schedule.Interleaves.step [] [[Frame.mk 3]]
    apply Schedule.Interleaves.step [([] : List Frame)] []
    exact Schedule.Interleaves.done _ (by simp)
  have hWorkers : crew.workers = [⟨[⟨2⟩], true⟩, ⟨[⟨1⟩, ⟨3⟩], true⟩] := by decide +kernel +revert
  have hStopped : ∀ number < 2, crew.Stopped number := by
    intro number hNumber
    rw [Crew.Stopped, hWorkers]
    match number, hNumber with
    | 0, _ => exact ⟨_, rfl, rfl⟩
    | 1, _ => exact ⟨_, rfl, rfl⟩
  have hConserved := (frames_conserved 4).1 _ _ 2 [0, 1, 1, 0, 1] hInterleaves
  obtain ⟨hNodup, hMem, hSize⟩ := hConserved.2.2 Nat.two_pos hStopped
  have hTaken : (⟨3⟩ : Frame) ∈ crew.taken := by
    rw [Crew.taken, hWorkers]
    decide
  exact ⟨hInterleaves, hWorkers, hNodup, (hMem ⟨3⟩).mp hTaken, hSize⟩

end Queue

end Paging.Eviction
