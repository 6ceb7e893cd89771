import Mathlib.Data.List.Nodup
import Mathlib.Data.List.Perm.Basic
import Paging.Proofs.Eviction.AgeOrder

/-! Some of the frames by themselves. Pinning and unpinning a frame moves no other, so of a
queue that is not evicted from, any part of the frames waits as if there were no others. Main
statement: workers that keep to frames of their own get, however their calls fall, what each
of them would get alone. -/
namespace Paging

namespace Schedule.Interleaves

variable {Step : Type} {workers : List (List Step)} {steps : List Step}

/-- Leaving out the same steps of every worker and of an interleaving gives an interleaving
of what is left. -/
theorem filter (hSteps : Interleaves workers steps) (keeps : Step → Bool) :
    Interleaves (workers.map (List.filter keeps)) (steps.filter keeps) := by
  induction hSteps with
  | done workers hDone =>
      refine Interleaves.done _ fun worker hWorker => ?_
      obtain ⟨before, hBefore, rfl⟩ := List.mem_map.mp hWorker
      rw [hDone before hBefore, List.filter_nil]
  | step before after first rest steps later ih =>
      rw [List.map_append, List.map_cons] at ih ⊢
      by_cases hKept : keeps first = true
      · rw [List.filter_cons_of_pos hKept, List.filter_cons_of_pos hKept]
        exact Interleaves.step _ _ first _ _ ih
      · rwa [List.filter_cons_of_neg hKept, List.filter_cons_of_neg hKept]

/-- A worker that is the only one with anything to do takes its steps in order. -/
theorem eq_of_alone {before after : List (List Step)} {worker : List Step}
    (hSteps : Interleaves (before ++ worker :: after) steps)
    (hBefore : ∀ other ∈ before, other = []) (hAfter : ∀ other ∈ after, other = []) :
    steps = worker := by
  generalize hWorkers : before ++ worker :: after = workers at hSteps
  induction hSteps generalizing worker with
  | done workers hDone => exact (hDone worker (by simp [← hWorkers])).symm
  | step front back first rest steps later ih =>
      -- Whoever takes the first step has something to do, so it is this worker.
      have hNotBefore : first :: rest ∉ before := fun hMem =>
        List.cons_ne_nil _ _ (hBefore _ hMem)
      have hNotAfter : first :: rest ∉ after := fun hMem =>
        List.cons_ne_nil _ _ (hAfter _ hMem)
      obtain ⟨rfl, rfl, rfl⟩ := (List.append_cons_inj_of_notMem hNotBefore hNotAfter).mp hWorkers
      rw [ih rfl]

end Schedule.Interleaves

namespace Eviction

/-- The frame that is pinned or unpinned. -/
def Call.frame? : Call → Option Frame
  | unpin frame => some frame
  | pin frame => some frame
  | victim => none

/-- Whether a call pins or unpins one of the chosen frames. -/
def Call.isOn (chosen : Frame → Bool) (call : Call) : Bool := call.frame?.any chosen

/-- What a call makes of the frames that wait. -/
def Call.onFrames (frames : List Frame) : Call → List Frame
  | unpin frame => if frame ∈ frames then frames else frames ++ [frame]
  | pin frame => frames.erase frame
  | victim => frames.tail

/-- The frames that a worker pins and unpins. -/
def ownFrames (worker : List Call) : List Frame := worker.filterMap Call.frame?

theorem mem_ownFrames_iff {worker : List Call} {frame : Frame} :
    frame ∈ ownFrames worker ↔ ∃ call ∈ worker, call.frame? = some frame :=
  List.mem_filterMap

theorem Call.isOn_iff {chosen : Frame → Bool} {call : Call} :
    call.isOn chosen = true ↔ ∃ frame, call.frame? = some frame ∧ chosen frame = true :=
  Option.any_eq_true chosen call.frame?

/-- Nobody calls on frames of others than its own. -/
theorem filter_isOn_ownFrames {worker : List Call} (hPins : .victim ∉ worker) :
    worker.filter (Call.isOn (· ∈ ownFrames worker)) = worker := by
  refine List.filter_eq_self.mpr fun call hCall => ?_
  have hFrame : ∃ frame, call.frame? = some frame := by
    cases call with
    | victim => exact absurd hCall hPins
    | unpin frame | pin frame => exact ⟨frame, rfl⟩
  obtain ⟨frame, hFrame⟩ := hFrame
  exact Call.isOn_iff.mpr
    ⟨frame, hFrame, decide_eq_true (mem_ownFrames_iff.mpr ⟨call, hCall, hFrame⟩)⟩

theorem filter_isOn_eq_nil {worker other : List Call}
    (hApart : (ownFrames other).Disjoint (ownFrames worker)) :
    other.filter (Call.isOn (· ∈ ownFrames worker)) = [] := by
  refine List.filter_eq_nil_iff.mpr fun call hCall hOn => ?_
  obtain ⟨frame, hFrame, hOwn⟩ := Call.isOn_iff.mp hOn
  exact hApart (mem_ownFrames_iff.mpr ⟨call, hCall, hFrame⟩) (of_decide_eq_true hOwn)

/-- A call on one of the chosen frames does to them what it would do without the others, and
a call on another frame does nothing to them. -/
theorem Call.filter_onFrames {call : Call} (hCall : call ≠ .victim) (chosen : Frame → Bool)
    (frames : List Frame) :
    (call.onFrames frames).filter chosen =
      if call.isOn chosen then call.onFrames (frames.filter chosen) else frames.filter chosen := by
  cases call with
  | victim => exact absurd rfl hCall
  | unpin frame =>
      by_cases hWaiting : frame ∈ frames <;> by_cases hChosen : chosen frame = true <;>
        simp [onFrames, isOn, frame?, hWaiting, hChosen]
  | pin frame =>
      by_cases hChosen : chosen frame = true
      · simp [onFrames, isOn, frame?, hChosen, List.erase_filter]
      · have hNot : frame ∉ frames.filter chosen := fun hMem => hChosen (List.mem_filter.mp hMem).2
        simp [onFrames, isOn, frame?, hChosen, ← List.erase_filter, List.erase_of_not_mem hNot]

namespace Queue

variable {chosen : Frame → Bool} {calls : List Call}

/-- A queue makes of a call what the list of its frames does. -/
theorem frames_perform (queue : Queue) (call : Call) :
    (queue.perform call.operation).2.frames = call.onFrames queue.frames := by
  rcases queue.perform_cases call with ⟨frame, rfl, hWaiting, hAfter⟩ |
    ⟨frame, rfl, hNew, hAfter⟩ | ⟨frame, rfl, hAfter⟩ | ⟨rfl, -, hNone, hAfter⟩ |
      ⟨frame, rfl, -, hFrames⟩
  · rw [hAfter, Call.onFrames, if_pos hWaiting]
  · rw [hAfter, Call.onFrames, if_neg hNew]
  · exact hAfter
  · rw [hAfter, hNone]
    rfl
  · rw [Call.onFrames, hFrames]
    rfl

/-- Without evictions, the chosen frames wait as they would if nothing were called on any
other. -/
theorem filter_frames_run {queue part : Queue} (hPart : part.frames = queue.frames.filter chosen)
    (hCalls : .victim ∉ calls) :
    (queue.run (calls.map Call.operation)).2.frames.filter chosen =
      (part.run ((calls.filter (Call.isOn chosen)).map Call.operation)).2.frames := by
  induction calls generalizing queue part with
  | nil => exact hPart.symm
  | cons call rest ih =>
      obtain ⟨hFirst, hRest⟩ := not_or.mp (mt List.mem_cons.mpr hCalls)
      have hAfter := Call.filter_onFrames (Ne.symm hFirst) chosen queue.frames
      rw [← frames_perform, ← hPart] at hAfter
      rw [List.map_cons, run_cons]
      by_cases hOn : call.isOn chosen = true
      · rw [if_pos hOn, ← frames_perform] at hAfter
        rw [List.filter_cons_of_pos hOn, List.map_cons, run_cons]
        exact ih hAfter.symm hRest
      · rw [if_neg hOn] at hAfter
        rw [List.filter_cons_of_neg hOn]
        exact ih hAfter.symm hRest

theorem filter_frames_afterCalls (capacity : Nat) (hCalls : .victim ∉ calls) :
    (afterCalls capacity calls).frames.filter chosen =
      (afterCalls capacity (calls.filter (Call.isOn chosen))).frames :=
  filter_frames_run (by simp) hCalls

/-- In a new queue no frame waits that was not called on. -/
theorem mem_ownFrames_of_mem_frames {capacity : Nat} (hCalls : .victim ∉ calls) {frame : Frame}
    (hFrame : frame ∈ (afterCalls capacity calls).frames) : frame ∈ ownFrames calls := by
  by_contra hOther
  have hNone : calls.filter (Call.isOn fun other => other = frame) = [] := by
    refine List.filter_eq_nil_iff.mpr fun call hCall hOn => hOther ?_
    obtain ⟨same, hSame, hEqual⟩ := Call.isOn_iff.mp hOn
    rw [of_decide_eq_true hEqual] at hSame
    exact mem_ownFrames_iff.mpr ⟨call, hCall, hSame⟩
  have hLeft : (afterCalls capacity calls).frames.filter (fun other => other = frame) =
      (afterCalls capacity (calls.filter (Call.isOn fun other => other = frame))).frames :=
    filter_frames_afterCalls capacity hCalls
  rw [hNone] at hLeft
  have hFound : frame ∈ (afterCalls capacity calls).frames.filter (fun other => other = frame) :=
    List.mem_filter.mpr ⟨hFrame, decide_eq_true rfl⟩
  rw [hLeft] at hFound
  simp [afterCalls] at hFound

/-- Workers that never evict do not evict together. -/
theorem victim_not_mem {workers : List (List Call)}
    (hInterleaves : Schedule.Interleaves workers calls)
    (hPins : ∀ worker ∈ workers, .victim ∉ worker) : .victim ∉ calls := by
  intro hVictim
  obtain ⟨worker, hWorker, hMember⟩ := List.mem_flatten.mp (hInterleaves.perm.mem_iff.mp hVictim)
  exact hPins worker hWorker hMember

/-- Of what several workers leave who keep to frames of their own, the frames of one worker
are those that it leaves alone, in the same order. -/
theorem filter_own_afterCalls (capacity : Nat) {workers : List (List Call)}
    (hInterleaves : Schedule.Interleaves workers calls)
    (hPins : ∀ worker ∈ workers, .victim ∉ worker)
    (hApart : workers.Pairwise fun worker other => (ownFrames worker).Disjoint (ownFrames other))
    {worker : List Call} (hWorker : worker ∈ workers) :
    (afterCalls capacity calls).frames.filter (· ∈ ownFrames worker) =
      (afterCalls capacity worker).frames := by
  have hCalls := victim_not_mem hInterleaves hPins
  have hOwn : worker.filter (Call.isOn (· ∈ ownFrames worker)) = worker :=
    filter_isOn_ownFrames (hPins worker hWorker)
  obtain ⟨before, after, rfl⟩ := List.append_of_mem hWorker
  obtain ⟨-, hLater, hEarlier⟩ := List.pairwise_append.mp hApart
  have hBefore : ∀ rest ∈ before.map (List.filter (Call.isOn (· ∈ ownFrames worker))),
      rest = [] := by
    intro rest hRest
    obtain ⟨other, hOther, rfl⟩ := List.mem_map.mp hRest
    exact filter_isOn_eq_nil (hEarlier other hOther worker List.mem_cons_self)
  have hAfter : ∀ rest ∈ after.map (List.filter (Call.isOn (· ∈ ownFrames worker))),
      rest = [] := by
    intro rest hRest
    obtain ⟨other, hOther, rfl⟩ := List.mem_map.mp hRest
    exact filter_isOn_eq_nil ((List.pairwise_cons.mp hLater).1 other hOther).symm
  have hLeft := hInterleaves.filter (Call.isOn (· ∈ ownFrames worker))
  rw [List.map_append, List.map_cons, hOwn] at hLeft
  have hSteps := hLeft.eq_of_alone hBefore hAfter
  rw [filter_frames_afterCalls capacity hCalls, hSteps]

/-- What several workers leave who keep to frames of their own is, up to order, what each of
them leaves alone, put together. -/
theorem frames_perm_of_workers (capacity : Nat) {workers : List (List Call)}
    (hInterleaves : Schedule.Interleaves workers calls)
    (hPins : ∀ worker ∈ workers, .victim ∉ worker)
    (hApart : workers.Pairwise fun worker other => (ownFrames worker).Disjoint (ownFrames other)) :
    (afterCalls capacity calls).frames.Perm
      (workers.flatMap fun worker => (afterCalls capacity worker).frames) := by
  have hOwn : ∀ worker ∈ workers, ∀ frame ∈ (afterCalls capacity worker).frames,
      frame ∈ ownFrames worker := fun worker hWorker _ hFrame =>
    mem_ownFrames_of_mem_frames (hPins worker hWorker) hFrame
  have hNodup : (workers.flatMap fun worker => (afterCalls capacity worker).frames).Nodup := by
    refine List.nodup_flatMap.mpr ⟨fun worker _ => nodup_frames _, ?_⟩
    refine hApart.imp_of_mem fun {worker other} hWorker hOther hDisjoint frame hFirst hSecond => ?_
    exact hDisjoint (hOwn worker hWorker frame hFirst) (hOwn other hOther frame hSecond)
  rw [List.perm_ext_iff_of_nodup (nodup_frames _) hNodup]
  intro frame
  rw [List.mem_flatMap]
  constructor
  · intro hFrame
    have hCalled := mem_ownFrames_of_mem_frames (victim_not_mem hInterleaves hPins) hFrame
    obtain ⟨call, hCall, hTouched⟩ := mem_ownFrames_iff.mp hCalled
    obtain ⟨worker, hWorker, hMember⟩ := List.mem_flatten.mp (hInterleaves.perm.mem_iff.mp hCall)
    have hTheirs := mem_ownFrames_iff.mpr ⟨call, hMember, hTouched⟩
    refine ⟨worker, hWorker, ?_⟩
    rw [← filter_own_afterCalls capacity hInterleaves hPins hApart hWorker]
    exact List.mem_filter.mpr ⟨hFrame, decide_eq_true hTheirs⟩
  · rintro ⟨worker, hWorker, hFrame⟩
    rw [← filter_own_afterCalls capacity hInterleaves hPins hApart hWorker] at hFrame
    exact (List.mem_filter.mp hFrame).1

/-- Draining gives the frames that wait, in their order. -/
theorem reply_drain (queue : Queue) : (queue.perform .drain).1.reply = .victims queue.frames := by
  obtain ⟨after, hDrain, -⟩ := queue.drain_eq
  simp [perform, report, hDrain]

/-- In a queue that is not evicted from, any part of the frames waits as it would if nothing
were called on the others, which may be left out from the start. So when several workers pin
and unpin, each frames of its own, then however their calls fall, the frames that wait are
those that each worker would leave alone, as many as these together, and those of one worker
are evicted in the order in which they would be without the others. -/
theorem frames_wait_apart :
    (∀ (queue part : Queue) (chosen : Frame → Bool) (calls : List Call), .victim ∉ calls →
      part.frames = queue.frames.filter chosen →
      (queue.run (calls.map Call.operation)).2.frames.filter chosen =
        (part.run ((calls.filter (Call.isOn chosen)).map Call.operation)).2.frames) ∧
    ∀ (capacity : Nat) (workers : List (List Call)) (calls : List Call),
      Schedule.Interleaves workers calls → (∀ worker ∈ workers, .victim ∉ worker) →
      (workers.Pairwise fun worker other => (ownFrames worker).Disjoint (ownFrames other)) →
      let together := afterCalls capacity calls
      let alone := afterCalls capacity
      (∀ frame, frame ∈ together.frames ↔ ∃ worker ∈ workers, frame ∈ (alone worker).frames) ∧
      together.size = (workers.map fun worker => (alone worker).size).sum ∧
      ∀ worker ∈ workers, ∃ evicted own,
        (together.perform .drain).1.reply = .victims evicted ∧
        ((alone worker).perform .drain).1.reply = .victims own ∧
        evicted.filter (· ∈ ownFrames worker) = own := by
  refine ⟨fun queue part chosen calls hCalls hPart => filter_frames_run hPart hCalls, ?_⟩
  intro capacity workers calls hInterleaves hPins hApart together alone
  have hPerm := frames_perm_of_workers capacity hInterleaves hPins hApart
  refine ⟨fun frame => ?_, ?_, fun worker hWorker => ?_⟩
  · rw [hPerm.mem_iff, List.mem_flatMap]
  · rw [size_eq_length_frames, hPerm.length_eq, List.length_flatMap]
    simp only [size_eq_length_frames, alone]
  · exact ⟨_, _, reply_drain together, reply_drain (alone worker),
      filter_own_afterCalls capacity hInterleaves hPins hApart hWorker⟩

/-- Two workers, one of whom pins a frame and unpins it again while the other goes on: the
frame waits behind the other's by then. -/
theorem frames_wait_apart_two_workers :
    let first : List Call := [.unpin ⟨1⟩, .unpin ⟨3⟩, .pin ⟨1⟩, .unpin ⟨1⟩]
    let second : List Call := [.unpin ⟨2⟩, .unpin ⟨2⟩]
    let calls : List Call :=
      [.unpin ⟨1⟩, .unpin ⟨2⟩, .unpin ⟨3⟩, .pin ⟨1⟩, .unpin ⟨1⟩, .unpin ⟨2⟩]
    Schedule.Interleaves [first, second] calls ∧
      (afterCalls 4 calls).size = 3 ∧
      (afterCalls 4 calls).frames.filter (fun frame => frame.number % 2 = 1) = [⟨3⟩, ⟨1⟩] := by
  intro first second calls
  have hInterleaves : Schedule.Interleaves [first, second] calls := by
    apply Schedule.Interleaves.step [] [second]
    apply Schedule.Interleaves.step [[Call.unpin ⟨3⟩, .pin ⟨1⟩, .unpin ⟨1⟩]] []
    apply Schedule.Interleaves.step [] [[Call.unpin ⟨2⟩]]
    apply Schedule.Interleaves.step [] [[Call.unpin ⟨2⟩]]
    apply Schedule.Interleaves.step [] [[Call.unpin ⟨2⟩]]
    apply Schedule.Interleaves.step [([] : List Call)] []
    exact Schedule.Interleaves.done _ (by simp)
  obtain ⟨hParts, hWorkers⟩ := frames_wait_apart
  obtain ⟨-, hSize, -⟩ := hWorkers 4 [first, second] calls hInterleaves (by decide)
    (by simp [first, second, ownFrames, Call.frame?])
  have hOdd := hParts (empty 4) (empty 4) (fun frame => frame.number % 2 = 1) calls (by decide)
    (by simp)
  refine ⟨hInterleaves, hSize.trans (by decide +kernel), hOdd.trans (by decide +kernel)⟩

end Queue

end Eviction

end Paging
