import Paging.Proofs.Eviction.Restriction

/-! What the capacity of an eviction queue is for. Queues of different capacities that take the
same calls answer the same and hold the same frames at every moment, and only their warnings
tell them apart. Main statement: `capacity_only_warns`. -/
namespace Paging.Eviction

/-- Whether a notice is a warning. -/
def Notice.isWarning (notice : Notice) : Bool := notice.level = .warn

/-- The warnings among the notices of a report. -/
def Report.warnings (report : Report) : List Notice := report.notices.filter Notice.isWarning

/-- The report without its warnings. -/
def Report.withoutWarnings (report : Report) : Report :=
  { report with notices := report.notices.filter fun notice => !notice.isWarning }

namespace Call

/-- What a call is answered where the given frames wait. -/
def replyAmong (frames : List Frame) : Call → Reply
  | unpin _ => .done
  | pin _ => .done
  | victim => .victim frames.head?

/-- What a call records of evictions where the given frames wait. -/
def evictionsAmong (frames : List Frame) : Call → List Notice
  | unpin _ => []
  | pin _ => []
  | victim => frames.head?.toList.map .evicted

/-- What a call warns of in a pool of `capacity` frames where the given frames wait. -/
def warningsAmong (capacity : Nat) (frames : List Frame) : Call → List Notice
  | unpin frame =>
    if frame ∉ frames ∧ capacity < frames.length + 1 then
      [.overCapacity (frames.length + 1) capacity]
    else []
  | pin _ => []
  | victim => []

/-- Evictions are not warned of. -/
theorem filter_noticesAmong (capacity : Nat) (frames : List Frame) (call : Call) :
    let notices := call.evictionsAmong frames ++ call.warningsAmong capacity frames
    notices.filter Notice.isWarning = call.warningsAmong capacity frames ∧
      notices.filter (fun notice => !notice.isWarning) = call.evictionsAmong frames := by
  cases call with
  | unpin frame =>
      simp only [evictionsAmong, warningsAmong, List.nil_append]
      split <;> exact ⟨rfl, rfl⟩
  | pin frame => exact ⟨rfl, rfl⟩
  | victim => cases frames <;> exact ⟨rfl, rfl⟩

end Call

namespace Queue

/-- All that is seen of a call goes by the frames that wait, and only its warnings go by the
capacity besides. -/
theorem perform_report (queue : Queue) (call : Call) :
    (queue.perform call.operation).1 =
      ⟨call.replyAmong queue.frames, (call.onFrames queue.frames).length,
        call.evictionsAmong queue.frames ++ call.warningsAmong queue.capacity queue.frames⟩ := by
  rw [← frames_perform, ← size_eq_length_frames]
  cases call with
  | unpin frame =>
      by_cases hWaiting : frame ∈ queue.frames
      · simp [Call.operation, Call.replyAmong, Call.evictionsAmong, Call.warningsAmong, perform,
          report, unpin_of_mem, hWaiting]
      · simp [Call.operation, Call.replyAmong, Call.evictionsAmong, Call.warningsAmong, perform,
          report, notices_unpin_of_not_mem, hWaiting]
  | pin frame => rfl
  | victim =>
      cases hFrames : queue.frames with
      | nil =>
          simp [Call.operation, Call.replyAmong, Call.evictionsAmong, Call.warningsAmong, perform,
            report, victim_of_frames_eq_nil hFrames]
      | cons frame rest =>
          obtain ⟨after, hVictim, -⟩ := victim_of_frames_eq_cons hFrames
          simp [Call.operation, Call.replyAmong, Call.evictionsAmong, Call.warningsAmong, perform,
            report, hVictim]

theorem warnings_perform (queue : Queue) (call : Call) :
    (queue.perform call.operation).1.warnings =
      call.warningsAmong queue.capacity queue.frames := by
  rw [perform_report, Report.warnings]
  exact (Call.filter_noticesAmong _ _ call).1

theorem withoutWarnings_perform (queue : Queue) (call : Call) :
    (queue.perform call.operation).1.withoutWarnings =
      ⟨call.replyAmong queue.frames, (call.onFrames queue.frames).length,
        call.evictionsAmong queue.frames⟩ := by
  rw [perform_report, Report.withoutWarnings]
  exact congrArg (Report.mk _ _) (Call.filter_noticesAmong _ _ call).2

theorem capacity_perform (queue : Queue) (call : Call) :
    (queue.perform call.operation).2.capacity = queue.capacity := by
  cases call with
  | unpin frame => exact capacity_unpin queue frame
  | pin frame => exact capacity_pin queue frame
  | victim =>
      cases hFrames : queue.frames with
      | nil => simp [Call.operation, perform, report, victim_of_frames_eq_nil hFrames]
      | cons frame rest =>
          obtain ⟨after, hVictim, -, hCapacity⟩ := victim_of_frames_eq_cons hFrames
          simp [Call.operation, perform, report, hVictim, hCapacity]

theorem capacity_run (queue : Queue) (calls : List Call) :
    (queue.run (calls.map Call.operation)).2.capacity = queue.capacity := by
  induction calls generalizing queue with
  | nil => rfl
  | cons call rest ih => rw [List.map_cons, run_cons, ih, capacity_perform]

/-- Queues that hold the same frames take the same calls alike, whatever their capacities:
what is seen of the calls differs in nothing but warnings, and the queues hold the same frames
afterwards. -/
theorem run_eq_of_frames_eq {queue other : Queue} (hFrames : other.frames = queue.frames)
    (calls : List Call) :
    (other.run (calls.map Call.operation)).1.map Report.withoutWarnings =
        (queue.run (calls.map Call.operation)).1.map Report.withoutWarnings ∧
      (other.run (calls.map Call.operation)).2.frames =
        (queue.run (calls.map Call.operation)).2.frames := by
  induction calls generalizing queue other with
  | nil => exact ⟨rfl, hFrames⟩
  | cons call rest ih =>
      have hAfter : (other.perform call.operation).2.frames =
          (queue.perform call.operation).2.frames := by
        rw [frames_perform, frames_perform, hFrames]
      have hReport : (other.perform call.operation).1.withoutWarnings =
          (queue.perform call.operation).1.withoutWarnings := by
        rw [withoutWarnings_perform, withoutWarnings_perform, hFrames]
      obtain ⟨hReports, hLast⟩ := ih hAfter
      simp only [List.map_cons, run_cons, hReport, hReports]
      exact ⟨trivial, hLast⟩

/-- What is seen of calls to a new queue, one report for each. -/
def reports (capacity : Nat) (calls : List Call) : List Report :=
  ((empty capacity).run (calls.map Call.operation)).1

theorem frames_afterCalls (capacity other : Nat) (calls : List Call) :
    (afterCalls other calls).frames = (afterCalls capacity calls).frames :=
  (run_eq_of_frames_eq (by simp) calls).2

theorem capacity_afterCalls (capacity : Nat) (calls : List Call) :
    (afterCalls capacity calls).capacity = capacity :=
  capacity_run (empty capacity) calls

theorem getElem?_reports (capacity : Nat) (calls : List Call) (place : Nat) :
    (reports capacity calls)[place]? = calls[place]?.map fun call =>
      ((afterCalls capacity (calls.take place)).perform call.operation).1 := by
  simp only [reports, run, getElem?_trace, List.getElem?_map, Option.map_map, ← List.map_take]
  rfl

/-- The call at a place unpins a frame that does not wait, and then more frames wait than the
pool has. -/
def Overfills (capacity : Nat) (calls : List Call) (place : Nat) : Prop :=
  ∃ frame, calls[place]? = some (.unpin frame) ∧
    frame ∉ (afterCalls capacity (calls.take place)).frames ∧
    capacity < (afterCalls capacity (calls.take (place + 1))).size

/-- The call behind a report, with the queue that it met and the queue that it left. -/
theorem exists_call_of_getElem?_reports {capacity : Nat} {calls : List Call} {place : Nat}
    {report : Report} (hReport : (reports capacity calls)[place]? = some report) :
    ∃ call, calls[place]? = some call ∧
      report = ((afterCalls capacity (calls.take place)).perform call.operation).1 ∧
      afterCalls capacity (calls.take (place + 1)) =
        ((afterCalls capacity (calls.take place)).perform call.operation).2 := by
  rw [getElem?_reports, Option.map_eq_some_iff] at hReport
  obtain ⟨call, hCall, rfl⟩ := hReport
  refine ⟨call, hCall, rfl, ?_⟩
  rw [List.take_add_one, hCall, Option.toList_some, afterCalls_append]

theorem size_of_getElem?_reports {capacity : Nat} {calls : List Call} {place : Nat}
    {report : Report} (hReport : (reports capacity calls)[place]? = some report) :
    report.size = (afterCalls capacity (calls.take (place + 1))).size := by
  obtain ⟨call, -, rfl, hNext⟩ := exists_call_of_getElem?_reports hReport
  rw [hNext, perform_report, size_eq_length_frames, frames_perform]

/-- A call that overfills the pool gives one warning, with the number of frames that wait, and
no other call warns. -/
theorem warnings_of_getElem?_reports {capacity : Nat} {calls : List Call} {place : Nat}
    {report : Report} (hReport : (reports capacity calls)[place]? = some report) :
    (Overfills capacity calls place → report.warnings = [.overCapacity report.size capacity]) ∧
      (¬Overfills capacity calls place → report.warnings = []) := by
  rw [size_of_getElem?_reports hReport, Overfills]
  obtain ⟨call, hCall, rfl, hNext⟩ := exists_call_of_getElem?_reports hReport
  rw [hCall, hNext, size_eq_length_frames, frames_perform, warnings_perform,
    capacity_afterCalls]
  cases call with
  | unpin frame =>
      by_cases hWaiting : frame ∈ (afterCalls capacity (calls.take place)).frames
      · simp [Call.warningsAmong, hWaiting]
      · simp +contextual [Call.warningsAmong, Call.onFrames, hWaiting]
  | pin frame | victim => simp [Call.warningsAmong]

theorem warnings_ne_nil_iff {capacity : Nat} {calls : List Call} {place : Nat} {report : Report}
    (hReport : (reports capacity calls)[place]? = some report) :
    report.warnings ≠ [] ↔ Overfills capacity calls place := by
  obtain ⟨hWarns, hSilent⟩ := warnings_of_getElem?_reports hReport
  constructor
  · exact fun hWarnings => by_contra fun hNot => hWarnings (hSilent hNot)
  · intro hOverfills
    rw [hWarns hOverfills]
    exact List.cons_ne_nil _ _

/-- What overfills a pool overfills a smaller one. -/
theorem Overfills.mono {capacity larger : Nat} (hLess : capacity ≤ larger) {calls : List Call}
    {place : Nat} (hOverfills : Overfills larger calls place) : Overfills capacity calls place := by
  obtain ⟨frame, hCall, hNew, hSize⟩ := hOverfills
  rw [size_eq_length_frames, frames_afterCalls capacity] at hSize
  rw [frames_afterCalls capacity] at hNew
  refine ⟨frame, hCall, hNew, ?_⟩
  rw [size_eq_length_frames]
  exact Nat.lt_of_le_of_lt hLess hSize

/-- The capacity of a queue decides of what it warns, and of nothing else. At any two
capacities the same calls are answered alike, with the same numbers of frames and the same
records besides warnings, and the queues hold the same frames in the same order at every
moment. A queue warns, once and with its size and its capacity, at just those calls that unpin
a frame that does not wait and leave more frames than its capacity. So a larger queue warns at
no call at which a smaller one does not, and a queue that never holds more frames than its
capacity does not warn. -/
theorem capacity_only_warns (capacity : Nat) (calls : List Call) :
    (∀ other,
      (reports other calls).map Report.withoutWarnings =
        (reports capacity calls).map Report.withoutWarnings ∧
      ∀ moment,
        (afterCalls other (calls.take moment)).frames =
          (afterCalls capacity (calls.take moment)).frames ∧
        (afterCalls other (calls.take moment)).size =
          (afterCalls capacity (calls.take moment)).size) ∧
    (reports capacity calls).length = calls.length ∧
    (∀ (place : Nat) (report : Report), (reports capacity calls)[place]? = some report →
      (Overfills capacity calls place →
        report.warnings = [.overCapacity report.size capacity]) ∧
      (¬Overfills capacity calls place → report.warnings = [])) ∧
    (∀ (larger place : Nat) (report warned : Report), capacity ≤ larger →
      (reports capacity calls)[place]? = some report →
      (reports larger calls)[place]? = some warned →
      warned.warnings ≠ [] → report.warnings ≠ []) ∧
    ((∀ report ∈ reports capacity calls, report.size ≤ capacity) →
      ∀ report ∈ reports capacity calls, report.warnings = []) := by
  refine ⟨fun other => ⟨(run_eq_of_frames_eq (by simp) calls).1, fun moment => ?_⟩, ?_,
    fun place report => warnings_of_getElem?_reports, ?_, ?_⟩
  · have hFrames := frames_afterCalls capacity other (calls.take moment)
    exact ⟨hFrames, by rw [size_eq_length_frames, size_eq_length_frames, hFrames]⟩
  · rw [reports, run, length_trace, List.length_map]
  · intro larger place report warned hLess hReport hWarned hWarnings
    rw [warnings_ne_nil_iff hReport]
    exact ((warnings_ne_nil_iff hWarned).mp hWarnings).mono hLess
  · intro hSizes report hMem
    obtain ⟨place, hReport⟩ := List.getElem?_of_mem hMem
    by_contra hWarnings
    obtain ⟨-, -, -, hMore⟩ := (warnings_ne_nil_iff hReport).mp hWarnings
    rw [← size_of_getElem?_reports hReport] at hMore
    exact Nat.not_lt.mpr (hSizes report hMem) hMore

/-- Three frames in a pool of one and in a pool of two, and one of them twice: unpinned while
it waits, and unpinned anew after it was pinned. -/
theorem capacity_only_warns_one_and_two :
    let calls : List Call :=
      [.unpin ⟨1⟩, .unpin ⟨2⟩, .unpin ⟨2⟩, .unpin ⟨3⟩, .pin ⟨2⟩, .unpin ⟨2⟩, .victim]
    (reports 1 calls).map Report.warnings =
        [[], [.overCapacity 2 1], [], [.overCapacity 3 1], [], [.overCapacity 3 1], []] ∧
      (reports 2 calls).map Report.warnings =
        [[], [], [], [.overCapacity 3 2], [], [.overCapacity 3 2], []] ∧
      (reports 2 calls).map Report.withoutWarnings =
        (reports 1 calls).map Report.withoutWarnings ∧
      (afterCalls 2 calls).frames = [⟨3⟩, ⟨2⟩] ∧ (afterCalls 1 calls).frames = [⟨3⟩, ⟨2⟩] ∧
      (∀ report ∈ reports 3 calls, report.warnings = []) := by
  intro calls
  obtain ⟨hAlike, -⟩ := capacity_only_warns 1 calls
  obtain ⟨hReports, hMoments⟩ := hAlike 2
  have hFrames : (afterCalls 1 calls).frames = [⟨3⟩, ⟨2⟩] := by decide +kernel
  have hSame := (hMoments calls.length).1
  rw [List.take_length, hFrames] at hSame
  refine ⟨by decide +kernel, by decide +kernel, hReports, hSame, hFrames, ?_⟩
  exact (capacity_only_warns 3 calls).2.2.2.2 (by decide +kernel)

end Queue

end Paging.Eviction
