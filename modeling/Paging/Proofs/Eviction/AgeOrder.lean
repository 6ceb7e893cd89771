import Mathlib.Data.Set.Card
import Paging.Eviction.Queue.Frames
import Paging.Proofs.Eviction.Past

/-! Evictions in the order of age. What a queue answers after any calls is decided by
their past alone: the frames that may be evicted wait in the order in which they
joined, and the oldest of them is evicted next. -/
namespace Paging.Eviction

namespace Queue

/-- The queue that calls leave of a new one. -/
def afterCalls (capacity : Nat) (calls : List Call) : Queue :=
  ((empty capacity).run (calls.map Call.operation)).2

/-- The calls to a new queue with the answers that they got. -/
def past (capacity : Nat) (calls : List Call) : List Event :=
  List.zipWith (fun call report => ⟨call, report.reply⟩) calls
    ((empty capacity).run (calls.map Call.operation)).1

theorem afterCalls_append (capacity : Nat) (calls : List Call) (call : Call) :
    afterCalls capacity (calls ++ [call]) =
      ((afterCalls capacity calls).perform call.operation).2 := by
  simp [afterCalls, run, trace_append]

theorem past_append (capacity : Nat) (calls : List Call) (call : Call) :
    past capacity (calls ++ [call]) = past capacity calls ++
      [⟨call, ((afterCalls capacity calls).perform call.operation).1.reply⟩] := by
  have hLength : calls.length = ((empty capacity).run (calls.map Call.operation)).1.length := by
    rw [run, length_trace, List.length_map]
  simp only [past, run, List.map_append, trace_append] at hLength ⊢
  rw [List.zipWith_append hLength]
  simp [afterCalls, run]

/-- Everything that a call can do: let a frame wait on, let one join, take one out,
find none to evict, or evict the first. -/
theorem perform_cases (queue : Queue) (call : Call) :
    (∃ frame, call = .unpin frame ∧ frame ∈ queue.frames ∧
      (queue.perform call.operation).2.frames = queue.frames) ∨
    (∃ frame, call = .unpin frame ∧ frame ∉ queue.frames ∧
      (queue.perform call.operation).2.frames = queue.frames ++ [frame]) ∨
    (∃ frame, call = .pin frame ∧
      (queue.perform call.operation).2.frames = queue.frames.erase frame) ∨
    (call = .victim ∧ (queue.perform call.operation).1.reply = .victim none ∧
      queue.frames = [] ∧ (queue.perform call.operation).2.frames = []) ∨
    (∃ frame, call = .victim ∧ (queue.perform call.operation).1.reply = .victim (some frame) ∧
      queue.frames = frame :: (queue.perform call.operation).2.frames) := by
  cases call with
  | unpin frame =>
      by_cases hWaiting : frame ∈ queue.frames
      · refine Or.inl ⟨frame, rfl, hWaiting, ?_⟩
        simp [Call.operation, perform, report, unpin_of_mem hWaiting]
      · refine Or.inr (Or.inl ⟨frame, rfl, hWaiting, ?_⟩)
        simp [Call.operation, perform, report, frames_unpin_of_not_mem hWaiting]
  | pin frame =>
      refine Or.inr (Or.inr (Or.inl ⟨frame, rfl, ?_⟩))
      simp [Call.operation, perform, report]
  | victim =>
      refine Or.inr (Or.inr (Or.inr ?_))
      cases hFrames : queue.frames with
      | nil =>
          have hVictim := victim_of_frames_eq_nil hFrames
          refine Or.inl ⟨rfl, ?_, rfl, ?_⟩
          · simp [Call.operation, perform, report, hVictim]
          · simp [Call.operation, perform, report, hVictim, hFrames]
      | cons frame rest =>
          obtain ⟨after, hVictim, hAfter, -⟩ := victim_of_frames_eq_cons hFrames
          refine Or.inr ⟨frame, rfl, ?_, ?_⟩
          · simp [Call.operation, perform, report, hVictim]
          · simp [Call.operation, perform, report, hVictim, hAfter]

end Queue

/-- The frames that may be evicted, going by the past, each once and the one that
joined first at the front. -/
structure InAgeOrder (past : List Event) (frames : List Frame) : Prop where
  nodup : frames.Nodup
  mem_iff : ∀ frame, frame ∈ frames ↔ Evictable past frame
  ordered : frames.Pairwise fun first second =>
    ∀ place later, JoinedAt past first place → JoinedAt past second later → place < later

namespace InAgeOrder

theorem nil : InAgeOrder [] [] where
  nodup := List.nodup_nil
  mem_iff := by
    intro frame
    simp only [List.not_mem_nil, false_iff]
    rintro ⟨place, hUnpinned, -⟩
    exact Nat.not_lt_zero _ hUnpinned.lt_length
  ordered := List.Pairwise.nil

variable {past : List Event} {frames : List Frame} {last : Event}

/-- An event at which no frame joins or is removed changes nothing. -/
theorem keep (hOrder : InAgeOrder past frames) (hKeeps : ∀ frame, ¬last.Removes frame)
    (hJoins : ∀ frame, last.Unpins frame → frame ∈ frames) :
    InAgeOrder (past ++ [last]) frames := by
  have hJoined : ∀ frame place,
      JoinedAt (past ++ [last]) frame place ↔ JoinedAt past frame place := by
    intro frame place
    rw [joinedAt_append (hKeeps frame)]
    exact or_iff_left fun hNew => hNew.2.2 ((hOrder.mem_iff frame).mp (hJoins frame hNew.2.1))
  refine ⟨hOrder.nodup, fun frame => ?_, ?_⟩
  · simp only [hOrder.mem_iff, evictable_iff, hJoined]
  · simpa only [hJoined] using hOrder.ordered

/-- A frame that joins is the youngest. -/
theorem join (hOrder : InAgeOrder past frames) {frame : Frame} (hNew : frame ∉ frames)
    (hUnpins : last.Unpins frame) : InAgeOrder (past ++ [last]) (frames ++ [frame]) := by
  have hNot : ¬Evictable past frame := fun hEvictable =>
    hNew ((hOrder.mem_iff frame).mpr hEvictable)
  have hJoined : ∀ other place, JoinedAt (past ++ [last]) other place ↔
      JoinedAt past other place ∨ (place = past.length ∧ other = frame) := by
    intro other place
    rw [joinedAt_append (Event.not_removes_of_unpins hUnpins)]
    refine or_congr_right (and_congr_right fun _ => ⟨fun hBoth => ?_, ?_⟩)
    · have hCalls := hBoth.1
      rw [Event.Unpins, hUnpins] at hCalls
      exact (Call.unpin.inj hCalls).symm
    · rintro rfl
      exact ⟨hUnpins, hNot⟩
  refine ⟨List.nodup_append.mpr ⟨hOrder.nodup, by simp, ?_⟩, fun other => ?_, ?_⟩
  · rintro other hOther same hSame rfl
    exact hNew (List.mem_singleton.mp hSame ▸ hOther)
  · rw [List.mem_append, hOrder.mem_iff, List.mem_singleton, evictable_iff, evictable_iff]
    simp only [hJoined, exists_or, exists_eq_left]
  · refine List.pairwise_append.mpr ⟨?_, by simp, ?_⟩
    · refine hOrder.ordered.imp_of_mem fun {first second} hFirst hSecond hLess => ?_
      intro place later hPlace hLater
      simp only [hJoined] at hPlace hLater
      rcases hPlace with hPlace | ⟨-, rfl⟩
      · rcases hLater with hLater | ⟨-, rfl⟩
        · exact hLess place later hPlace hLater
        · exact absurd hSecond hNew
      · exact absurd hFirst hNew
    · intro other hOther same hSame place later hPlace hLater
      rw [List.mem_singleton.mp hSame] at hLater
      simp only [hJoined] at hPlace hLater
      rcases hLater with hLater | ⟨rfl, -⟩
      · exact absurd (evictable_iff.mpr ⟨later, hLater⟩) hNot
      · rcases hPlace with hPlace | ⟨-, rfl⟩
        · exact hPlace.unpinned.lt_length
        · exact absurd hOther hNew

/-- A frame that is removed leaves the others in their order. -/
theorem remove (hOrder : InAgeOrder past frames) {frame : Frame}
    (hRemoves : ∀ other, last.Removes other ↔ other = frame)
    (hUnpins : ∀ other, ¬last.Unpins other) :
    InAgeOrder (past ++ [last]) (frames.erase frame) := by
  have hJoined : ∀ other place, JoinedAt (past ++ [last]) other place ↔
      other ≠ frame ∧ JoinedAt past other place := by
    intro other place
    by_cases hOther : other = frame
    · have hGone : ¬JoinedAt (past ++ [last]) other place :=
        not_joinedAt_append_of_removes ((hRemoves other).mpr hOther) place
      exact ⟨fun hJoined => absurd hJoined hGone, fun hBoth => absurd hOther hBoth.1⟩
    · rw [joinedAt_append (fun hRemoved => hOther ((hRemoves other).mp hRemoved))]
      simp [hOther, hUnpins other]
  refine ⟨hOrder.nodup.erase frame, fun other => ?_, ?_⟩
  · rw [hOrder.nodup.mem_erase_iff, hOrder.mem_iff, evictable_iff, evictable_iff]
    simp only [hJoined, exists_and_left]
  · refine (hOrder.ordered.sublist List.erase_sublist).imp fun hLess => ?_
    intro place later hPlace hLater
    exact hLess place later ((hJoined _ _).mp hPlace).2 ((hJoined _ _).mp hLater).2

/-- The frame at the front is the oldest, and no other is. -/
theorem isOldest_iff {frame : Frame} {rest : List Frame}
    (hOrder : InAgeOrder past (frame :: rest)) (other : Frame) :
    IsOldest past other ↔ other = frame := by
  have hBefore := (List.pairwise_cons.mp hOrder.ordered).1
  obtain ⟨front, hFront⟩ := evictable_iff.mp ((hOrder.mem_iff frame).mp List.mem_cons_self)
  have hLeast : ∀ same later, JoinedAt past same later → front ≤ later := by
    intro same later hLater
    have hWaits := (hOrder.mem_iff same).mpr (evictable_iff.mpr ⟨later, hLater⟩)
    rcases List.mem_cons.mp hWaits with rfl | hRest
    · exact Nat.le_of_eq (hFront.unique hLater)
    · exact Nat.le_of_lt (hBefore same hRest front later hFront hLater)
  constructor
  · rintro ⟨place, hPlace, hOldest⟩
    have hSame := Nat.le_antisymm (hOldest frame front hFront) (hLeast other place hPlace)
    exact hPlace.frame_unique (hSame ▸ hFront)
  · rintro rfl
    exact ⟨front, hFront, hLeast⟩

theorem not_isOldest (hOrder : InAgeOrder past []) (frame : Frame) : ¬IsOldest past frame := by
  rintro ⟨place, hPlace, -⟩
  have hWaits := (hOrder.mem_iff frame).mpr (evictable_iff.mpr ⟨place, hPlace⟩)
  cases hWaits

end InAgeOrder

namespace Queue

/-- A queue whose frames wait in the order of their age does so after every call. -/
theorem inAgeOrder_perform {queue : Queue} {past : List Event}
    (hOrder : InAgeOrder past queue.frames) (call : Call) :
    InAgeOrder (past ++ [⟨call, (queue.perform call.operation).1.reply⟩])
      (queue.perform call.operation).2.frames := by
  rcases queue.perform_cases call with ⟨frame, rfl, hWaiting, hAfter⟩ |
    ⟨frame, rfl, hNew, hAfter⟩ | ⟨frame, rfl, hAfter⟩ | ⟨rfl, hReply, hNone, hAfter⟩ |
      ⟨frame, rfl, hReply, hFrames⟩
  · rw [hAfter]
    refine hOrder.keep (fun other => Event.not_removes_of_unpins rfl) fun other hUnpins => ?_
    exact Call.unpin.inj hUnpins ▸ hWaiting
  · rw [hAfter]
    exact hOrder.join hNew rfl
  · rw [hAfter]
    exact hOrder.remove (by simp [Event.Removes, Event.Evicts, eq_comm])
      (by simp [Event.Unpins])
  · rw [hAfter, hReply]
    exact (hNone ▸ hOrder).keep (by simp [Event.Removes, Event.Evicts])
      (by simp [Event.Unpins])
  · rw [hReply]
    have hRest : (queue.perform Call.victim.operation).2.frames = queue.frames.erase frame := by
      rw [hFrames, List.erase_cons_head]
    rw [hRest]
    exact hOrder.remove (by simp [Event.Removes, Event.Evicts, eq_comm])
      (by simp [Event.Unpins])

theorem inAgeOrder_afterCalls (capacity : Nat) (calls : List Call) :
    InAgeOrder (past capacity calls) (afterCalls capacity calls).frames := by
  induction calls using List.reverseRecOn with
  | nil => simpa [past, afterCalls] using InAgeOrder.nil
  | append_singleton calls call ih =>
      rw [past_append, afterCalls_append]
      exact inAgeOrder_perform ih call

/-- Only what could be evicted is evicted. -/
theorem evictable_of_evicts {queue : Queue} {past : List Event}
    (hOrder : InAgeOrder past queue.frames) {call : Call} {frame : Frame}
    (hEvicts : Event.Evicts frame ⟨call, (queue.perform call.operation).1.reply⟩) :
    Evictable past frame := by
  obtain ⟨rfl, hReply⟩ := Event.mk.inj hEvicts
  refine (hOrder.mem_iff frame).mp ?_
  rcases queue.perform_cases .victim with ⟨_, hCall, -⟩ | ⟨_, hCall, -⟩ | ⟨_, hCall, -⟩ |
    ⟨-, hNone, -⟩ | ⟨front, -, hSome, hFrames⟩
  · cases hCall
  · cases hCall
  · cases hCall
  · rw [hNone] at hReply
    cases hReply
  · rw [hSome] at hReply
    cases hReply
    rw [hFrames]
    exact List.mem_cons_self

/-- Between two evictions of a frame it was unpinned. -/
theorem unpinned_between_evictions (capacity : Nat) (calls : List Call) {frame : Frame}
    {first second : Nat} (hOrdered : first < second)
    (hFirst : HappensAt (past capacity calls) (Event.Evicts frame) first)
    (hSecond : HappensAt (past capacity calls) (Event.Evicts frame) second) :
    ∃ between, first < between ∧ between < second ∧
      HappensAt (past capacity calls) (Event.Unpins frame) between := by
  induction calls using List.reverseRecOn with
  | nil => cases hFirst.lt_length
  | append_singleton calls call ih =>
      rw [past_append] at hFirst hSecond ⊢
      rcases happensAt_append.mp hSecond with hBefore | ⟨rfl, hEvicts⟩
      · rcases happensAt_append.mp hFirst with hEarlier | ⟨rfl, -⟩
        · obtain ⟨between, hAfter, hUntil, hUnpinned⟩ := ih hEarlier hBefore
          exact ⟨between, hAfter, hUntil, happensAt_append.mpr (Or.inl hUnpinned)⟩
        · exact absurd hOrdered (Nat.lt_asymm hBefore.lt_length)
      · -- What is evicted last could be, so it was unpinned after the other eviction.
        have hEarlier := (happensAt_append.mp hFirst).resolve_right
          fun hBoth => Nat.ne_of_lt hOrdered hBoth.1
        obtain ⟨place, hUnpinned, hKept⟩ :=
          evictable_of_evicts (inAgeOrder_afterCalls capacity calls) hEvicts
        refine ⟨place, ?_, hUnpinned.lt_length, happensAt_append.mpr (Or.inl hUnpinned)⟩
        obtain ⟨event, hEvent, hEvicted⟩ := hEarlier
        rcases Nat.lt_trichotomy first place with hLess | rfl | hMore
        · exact hLess
        · obtain ⟨same, hSame, hUnpins⟩ := hUnpinned
          rw [hEvent] at hSame
          cases hSame
          exact absurd (Or.inr hEvicted) (Event.not_removes_of_unpins hUnpins)
        · exact absurd ⟨event, hEvent, Or.inr hEvicted⟩ (hKept first hMore)

theorem victim_reply (queue : Queue) :
    (queue.perform .victim).1.reply = .victim queue.frames.head? := by
  cases hFrames : queue.frames with
  | nil => simp [perform, report, victim_of_frames_eq_nil hFrames]
  | cons frame rest =>
      obtain ⟨after, hVictim, -⟩ := victim_of_frames_eq_cons hFrames
      simp [perform, report, hVictim]

/-- Evicting until there is no answer gives the frames in the order in which they
wait. -/
theorem run_victims (queue : Queue) :
    (queue.run (List.replicate (queue.frames.length + 1) .victim)).1.map Report.reply =
      queue.frames.map (fun frame => .victim (some frame)) ++ [.victim none] := by
  generalize hFrames : queue.frames = frames
  induction frames generalizing queue with
  | nil => simp [perform, report, victim_of_frames_eq_nil hFrames]
  | cons frame rest ih =>
      obtain ⟨after, hVictim, hAfter, -⟩ := victim_of_frames_eq_cons hFrames
      rw [List.length_cons, List.replicate_succ, run_cons, List.map_cons, List.map_cons,
        List.cons_append]
      have hFirst :
          queue.perform .victim = after.report (.victim (some frame)) [.evicted frame] := by
        simp [perform, hVictim]
      rw [hFirst]
      exact congrArg (List.cons _) (ih after hAfter)

/-- After any calls to a new queue, what it does next is decided by their past. The
frames that wait are those that may be evicted, none twice, and they are as many
as is told. The next eviction finds none exactly when there is none, and otherwise
takes the oldest. Evicting until there is no answer, or draining, gives all of
them by age and leaves none. No frame was evicted twice without having been
unpinned in between. -/
theorem evicts_by_age (capacity : Nat) (calls : List Call) :
    let queue := afterCalls capacity calls
    let past := past capacity calls
    (queue.frames.Nodup ∧ ∀ frame, frame ∈ queue.frames ↔ Evictable past frame) ∧
    queue.size = {frame | Evictable past frame}.ncard ∧
    ((queue.perform .victim).1.reply = .victim none ↔ ∀ frame, ¬Evictable past frame) ∧
    (∀ frame, (queue.perform .victim).1.reply = .victim (some frame) ↔ IsOldest past frame) ∧
    (∃ frames, InAgeOrder past frames ∧
      (queue.run (List.replicate (frames.length + 1) .victim)).1.map Report.reply =
        frames.map (fun frame => .victim (some frame)) ++ [.victim none] ∧
      (queue.perform .drain).1.reply = .victims frames ∧
      (queue.perform .drain).2.frames = []) ∧
    ∀ frame first second, first < second → HappensAt past (Event.Evicts frame) first →
      HappensAt past (Event.Evicts frame) second →
      ∃ between, first < between ∧ between < second ∧
        HappensAt past (Event.Unpins frame) between := by
  intro queue past
  have hOrder : InAgeOrder past queue.frames := inAgeOrder_afterCalls capacity calls
  refine ⟨⟨hOrder.nodup, hOrder.mem_iff⟩, ?_, ?_, ?_, ?_,
    fun _ _ _ => unpinned_between_evictions capacity calls⟩
  · have hSet : {frame | Evictable past frame} = ↑queue.frames.toFinset := by
      ext frame
      simp [hOrder.mem_iff]
    rw [hSet, Set.ncard_coe_finset, List.toFinset_card_of_nodup hOrder.nodup,
      size_eq_length_frames]
  · rw [victim_reply, Reply.victim.injEq, List.head?_eq_none_iff,
      List.eq_nil_iff_forall_not_mem]
    simp only [hOrder.mem_iff]
  · intro frame
    rw [victim_reply, Reply.victim.injEq]
    cases hFrames : queue.frames with
    | nil =>
        rw [hFrames] at hOrder
        simp [hOrder.not_isOldest frame]
    | cons front rest =>
        rw [hFrames] at hOrder
        rw [hOrder.isOldest_iff, List.head?_cons, Option.some.injEq, eq_comm]
  · obtain ⟨after, hDrain, hAfter, -⟩ := queue.drain_eq
    refine ⟨queue.frames, hOrder, queue.run_victims, ?_, ?_⟩
    · simp [perform, report, hDrain]
    · simp [perform, report, hDrain, hAfter]

end Queue

end Paging.Eviction
