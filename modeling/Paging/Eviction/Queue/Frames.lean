import Paging.Eviction.Queue.Basic

/-! What each operation on an eviction queue does to the list of waiting frames,
and what it records. How the frames are found is not spoken of again after
this. -/
namespace Paging.Eviction.Queue

@[simp] theorem frames_empty (capacity : Nat) : (empty capacity).frames = [] := by
  simp [frames, empty]

@[simp] theorem capacity_empty (capacity : Nat) : (empty capacity).capacity = capacity := rfl

theorem size_eq_length_frames (queue : Queue) : queue.size = queue.frames.length := by
  simp [size, frames]

/-- A frame waits exactly when it has a place. -/
theorem mem_frames_iff {queue : Queue} {frame : Frame} :
    frame ∈ queue.frames ↔ ∃ place, queue.places[frame]? = some place := by
  simp only [frames, List.mem_map, Prod.exists, exists_eq_right,
    Std.ExtTreeMap.mem_toList_iff_getElem?_eq_some, queue.places_iff]

theorem not_mem_frames_iff {queue : Queue} {frame : Frame} :
    frame ∉ queue.frames ↔ queue.places[frame]? = none := by
  rw [mem_frames_iff]
  cases queue.places[frame]? <;> simp

/-- Entries in the order of their places, with no place twice. -/
theorem pairwise_toList (waiting : Std.ExtTreeMap Nat Frame) :
    waiting.toList.Pairwise fun entry later => entry.1 < later.1 :=
  waiting.ordered_keys_toList.imp fun hLess => Nat.compare_eq_lt.mp hLess

/-- Two lists in the order of their places are equal when they have the same
entries. -/
theorem eq_of_pairwise_of_mem_iff {entries others : List (Nat × Frame)}
    (hEntries : entries.Pairwise fun entry later => entry.1 < later.1)
    (hOthers : others.Pairwise fun entry later => entry.1 < later.1)
    (hSame : ∀ entry, entry ∈ entries ↔ entry ∈ others) : entries = others := by
  have hDistinct : ∀ {list : List (Nat × Frame)},
      list.Pairwise (fun entry later => entry.1 < later.1) → list.Nodup := by
    intro list hOrdered
    refine hOrdered.imp ?_
    rintro entry later hLess rfl
    exact Nat.lt_irrefl _ hLess
  refine List.Perm.eq_of_pairwise ?_ hEntries hOthers
    ((List.perm_ext_iff_of_nodup (hDistinct hEntries) (hDistinct hOthers)).mpr hSame)
  intro entry later _ _ hLess hMore
  exact False.elim (Nat.lt_asymm hLess hMore)

/-- No frame waits at two places. -/
theorem nodup_frames (queue : Queue) : queue.frames.Nodup := by
  refine List.pairwise_map.mpr ((pairwise_toList queue.waiting).imp_of_mem ?_)
  rintro ⟨place, frame⟩ ⟨later, other⟩ hEntry hLater hLess hSame
  have hSame : frame = other := hSame
  subst hSame
  have hPlace := (queue.places_iff frame place).mpr
    (Std.ExtTreeMap.mem_toList_iff_getElem?_eq_some.mp hEntry)
  have hOther := (queue.places_iff frame later).mpr
    (Std.ExtTreeMap.mem_toList_iff_getElem?_eq_some.mp hLater)
  have hPlaces : place = later := by simpa [hPlace] using hOther
  exact Nat.lt_irrefl _ (hPlaces ▸ hLess)

theorem frames_join (queue : Queue) (frame : Frame) (hUsed : queue.places[frame]? = none) :
    (queue.join frame hUsed).frames = queue.frames ++ [frame] := by
  have hToList : (queue.waiting.insert queue.next frame).toList =
      queue.waiting.toList ++ [(queue.next, frame)] := by
    refine eq_of_pairwise_of_mem_iff (pairwise_toList _) ?_ ?_
    · refine List.pairwise_append.mpr ⟨pairwise_toList _, by simp, ?_⟩
      rintro ⟨place, other⟩ hEntry later hLater
      rw [List.mem_singleton.mp hLater]
      exact queue.lt_next place other (Std.ExtTreeMap.mem_toList_iff_getElem?_eq_some.mp hEntry)
    · rintro ⟨place, other⟩
      rw [Std.ExtTreeMap.mem_toList_iff_getElem?_eq_some, Std.ExtTreeMap.getElem?_insert,
        List.mem_append, Std.ExtTreeMap.mem_toList_iff_getElem?_eq_some]
      by_cases hPlace : queue.next = place
      · subst hPlace
        have hNone : ¬queue.waiting[queue.next]? = some other :=
          fun hSome => Nat.lt_irrefl _ (queue.lt_next _ _ hSome)
        simp [hNone, eq_comm]
      · have hNot : ¬(place, other) = (queue.next, frame) :=
          fun hEntry => hPlace (congrArg Prod.fst hEntry).symm
        simp [hPlace, hNot]
  simp only [frames, join, hToList, List.map_append, List.map_cons, List.map_nil]

theorem frames_leave (queue : Queue) (place : Nat) (frame : Frame)
    (hWaiting : queue.waiting[place]? = some frame) :
    (queue.leave place frame hWaiting).frames = queue.frames.erase frame := by
  have hToList : (queue.waiting.erase place).toList =
      queue.waiting.toList.filter fun entry => entry.2 ≠ frame := by
    refine eq_of_pairwise_of_mem_iff (pairwise_toList _) ((pairwise_toList _).filter _) ?_
    rintro ⟨otherPlace, other⟩
    rw [Std.ExtTreeMap.mem_toList_iff_getElem?_eq_some, Std.ExtTreeMap.getElem?_erase,
      List.mem_filter, Std.ExtTreeMap.mem_toList_iff_getElem?_eq_some]
    by_cases hPlace : place = otherPlace
    · subst hPlace
      simp only [Std.LawfulEqOrd.compare_eq_iff_eq, if_true, hWaiting]
      simp only [reduceCtorEq, false_iff, not_and, Option.some.injEq]
      rintro rfl
      simp
    · have hFrame : queue.waiting[otherPlace]? = some other → other ≠ frame := by
        rintro hSome rfl
        have hOwn := (queue.places_iff other place).mpr hWaiting
        have hOther := (queue.places_iff other otherPlace).mpr hSome
        rw [hOwn] at hOther
        exact hPlace (Option.some.inj hOther)
      simpa [hPlace] using hFrame
  have hErase : queue.frames.erase frame = queue.frames.filter fun other => other ≠ frame := by
    rw [(nodup_frames queue).erase_eq_filter]
    congr 1
    funext other
    by_cases hOther : other = frame <;> simp [hOther]
  rw [hErase]
  simp only [frames, leave, hToList, List.filter_map]
  rfl

/-- A frame that is waiting keeps its place, and nothing is recorded. -/
theorem unpin_of_mem {queue : Queue} {frame : Frame} (hWaiting : frame ∈ queue.frames) :
    queue.unpin frame = (queue, []) := by
  obtain ⟨place, hPlace⟩ := mem_frames_iff.mp hWaiting
  unfold unpin
  split
  · rfl
  · rename_i hNone
    rw [hPlace] at hNone
    cases hNone

/-- A frame that is not waiting joins at the end. -/
theorem frames_unpin_of_not_mem {queue : Queue} {frame : Frame}
    (hUsed : frame ∉ queue.frames) :
    (queue.unpin frame).1.frames = queue.frames ++ [frame] := by
  have hNone := not_mem_frames_iff.mp hUsed
  unfold unpin
  split
  · rename_i hSome
    rw [hNone] at hSome
    cases hSome
  · exact frames_join queue frame hNone

/-- A frame that joins is recorded only when there are then more frames than the
pool has. -/
theorem notices_unpin_of_not_mem {queue : Queue} {frame : Frame}
    (hUsed : frame ∉ queue.frames) :
    (queue.unpin frame).2 =
      if queue.capacity < queue.frames.length + 1 then
        [.overCapacity (queue.frames.length + 1) queue.capacity]
      else [] := by
  have hNone := not_mem_frames_iff.mp hUsed
  have hSize : (queue.join frame hNone).size = queue.frames.length + 1 := by
    rw [size_eq_length_frames, frames_join]
    simp
  unfold unpin
  split
  · rename_i hSome
    rw [hNone] at hSome
    cases hSome
  · simp only [hSize]

@[simp] theorem capacity_unpin (queue : Queue) (frame : Frame) :
    (queue.unpin frame).1.capacity = queue.capacity := by
  unfold unpin
  split <;> rfl

/-- Pinning takes the frame out and keeps the order of the others. -/
@[simp] theorem frames_pin (queue : Queue) (frame : Frame) :
    (queue.pin frame).frames = queue.frames.erase frame := by
  unfold pin
  split
  · rename_i hNone
    rw [List.erase_of_not_mem (not_mem_frames_iff.mpr hNone)]
  · exact frames_leave queue _ frame _

@[simp] theorem capacity_pin (queue : Queue) (frame : Frame) :
    (queue.pin frame).capacity = queue.capacity := by
  unfold pin
  split <;> rfl

/-- Nothing comes out of a queue in which no frame waits. -/
theorem victim_of_frames_eq_nil {queue : Queue} (hNone : queue.frames = []) :
    queue.victim = (none, queue, []) := by
  have hOldest : queue.oldest? = none := by
    rw [oldest?_eq_head?, List.map_eq_nil_iff.mp hNone]
    rfl
  unfold victim
  split
  · rfl
  · rename_i hSome
    rw [hOldest] at hSome
    cases hSome

/-- The first frame comes out, and the others stay as they are. -/
theorem victim_of_frames_eq_cons {queue : Queue} {frame : Frame} {rest : List Frame}
    (hFrames : queue.frames = frame :: rest) :
    ∃ after : Queue, queue.victim = (some frame, after, [.evicted frame]) ∧
      after.frames = rest ∧ after.capacity = queue.capacity := by
  obtain ⟨⟨place, first⟩, entries, hEntries, hFirst, hRest⟩ := List.map_eq_cons_iff.mp hFrames
  have hFirst : first = frame := hFirst
  subst hFirst
  have hOldest : queue.oldest? = some (place, first) := by
    rw [oldest?_eq_head?, hEntries]
    rfl
  refine ⟨queue.leave place first (getElem?_of_oldest?_eq_some hOldest), ?_, ?_, rfl⟩
  · unfold victim
    split
    · rename_i hNone
      rw [hOldest] at hNone
      cases hNone
    · rename_i otherPlace other hSome
      rw [hOldest] at hSome
      cases hSome
      rfl
  · rw [frames_leave, hFrames, List.erase_cons_head]

theorem evictOnto_eq (queue : Queue) (frames : List Frame) (notices : List Notice)
    (count : Nat) :
    ∃ after : Queue, queue.evictOnto frames notices count =
        (frames.reverse ++ queue.frames.take count, after,
          notices.reverse ++ (queue.frames.take count).map Notice.evicted) ∧
      after.frames = queue.frames.drop count ∧ after.capacity = queue.capacity := by
  induction count generalizing queue frames notices with
  | zero => exact ⟨queue, by simp [evictOnto], by simp, rfl⟩
  | succ count ih =>
      cases hFrames : queue.frames with
      | nil =>
          refine ⟨queue, ?_, by simp [hFrames], rfl⟩
          simp [evictOnto, victim_of_frames_eq_nil hFrames]
      | cons frame rest =>
          obtain ⟨after, hVictim, hAfter, hCapacity⟩ := victim_of_frames_eq_cons hFrames
          obtain ⟨last, hLast, hLeft, hKept⟩ :=
            ih after (frame :: frames) ([.evicted frame].reverse ++ notices)
          refine ⟨last, ?_, ?_, hKept.trans hCapacity⟩
          · simp only [evictOnto, hVictim]
            rw [hLast, hAfter]
            simp
          · rw [hLeft, hAfter]
            simp

/-- Evicting takes frames from the front and records each. -/
theorem evict_eq (queue : Queue) (count : Nat) :
    ∃ after : Queue, queue.evict count =
        (queue.frames.take count, after, (queue.frames.take count).map Notice.evicted) ∧
      after.frames = queue.frames.drop count ∧ after.capacity = queue.capacity := by
  simpa [evict] using evictOnto_eq queue [] [] count

/-- Draining gives the frames in the order in which they waited, and leaves
none. -/
theorem drain_eq (queue : Queue) :
    ∃ after : Queue, queue.drain = (queue.frames, after, queue.frames.map Notice.evicted) ∧
      after.frames = [] ∧ after.capacity = queue.capacity := by
  simpa [drain, size_eq_length_frames] using evict_eq queue queue.size

end Paging.Eviction.Queue
