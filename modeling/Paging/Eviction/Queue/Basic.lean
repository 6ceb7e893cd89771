import Paging.Eviction.Notice

/-! The frames of a buffer pool that may be evicted, in the order in which they
stopped being used. Frames are found by name and by age, so no operation looks
through the whole queue. What a queue holds is `Queue.frames`. -/
namespace Paging.Eviction

/-- The frames that may be evicted. The capacity is that of the pool; it only
decides when to warn and never keeps a frame out. -/
structure Queue where
  capacity : Nat
  /-- The waiting frames by the places at which they joined, lowest first. -/
  waiting : Std.ExtTreeMap Nat Frame
  /-- The place of every waiting frame. -/
  places : Std.ExtTreeMap Frame Nat
  /-- The place at which the next frame joins. Places are not used again. -/
  next : Nat
  places_iff : ∀ (frame : Frame) (place : Nat),
    places[frame]? = some place ↔ waiting[place]? = some frame
  lt_next : ∀ (place : Nat) (frame : Frame), waiting[place]? = some frame → place < next

namespace Queue

/-- The queue of a pool whose frames are all in use. -/
def empty (capacity : Nat) : Queue where
  capacity := capacity
  waiting := ∅
  places := ∅
  next := 0
  places_iff := by simp
  lt_next := by simp

/-- The waiting frames, the one that has waited longest first. -/
def frames (queue : Queue) : List Frame := queue.waiting.toList.map Prod.snd

/-- How many frames may be evicted. -/
def size (queue : Queue) : Nat := queue.waiting.size

/-- The queue with one more frame at its end. -/
def join (queue : Queue) (frame : Frame) (hUsed : queue.places[frame]? = none) : Queue where
  capacity := queue.capacity
  waiting := queue.waiting.insert queue.next frame
  places := queue.places.insert frame queue.next
  next := queue.next + 1
  places_iff := by
    intro other place
    have hOld := queue.places_iff other place
    rw [Std.ExtTreeMap.getElem?_insert, Std.ExtTreeMap.getElem?_insert]
    by_cases hFrame : frame = other
    · subst hFrame
      have hNone : ¬queue.waiting[place]? = some frame := by simp [← hOld, hUsed]
      by_cases hPlace : queue.next = place
      · simp [hPlace]
      · simp [hPlace, hNone]
    · by_cases hPlace : queue.next = place
      · subst hPlace
        have hNone : ¬queue.waiting[queue.next]? = some other :=
          fun hSome => Nat.lt_irrefl _ (queue.lt_next _ _ hSome)
        simp [hFrame, hOld, hNone]
      · simp [hFrame, hPlace, hOld]
  lt_next := by
    intro place other hSome
    rw [Std.ExtTreeMap.getElem?_insert] at hSome
    by_cases hPlace : queue.next = place
    · omega
    · have hOld := queue.lt_next place other (by simpa [hPlace] using hSome)
      omega

/-- The queue without the frame at a place. -/
def leave (queue : Queue) (place : Nat) (frame : Frame)
    (hWaiting : queue.waiting[place]? = some frame) : Queue where
  capacity := queue.capacity
  waiting := queue.waiting.erase place
  places := queue.places.erase frame
  next := queue.next
  places_iff := by
    intro other otherPlace
    have hOld := queue.places_iff other otherPlace
    have hOwn := (queue.places_iff frame place).mpr hWaiting
    rw [Std.ExtTreeMap.getElem?_erase, Std.ExtTreeMap.getElem?_erase]
    by_cases hFrame : frame = other
    · subst hFrame
      by_cases hPlace : place = otherPlace
      · simp [hPlace]
      · have hNone : ¬queue.waiting[otherPlace]? = some frame := by
          rw [← hOld, hOwn]
          simpa using hPlace
        simp [hPlace, hNone]
    · by_cases hPlace : place = otherPlace
      · subst hPlace
        have hNone : ¬queue.places[other]? = some place := by
          rw [hOld, hWaiting]
          simpa using hFrame
        simp [hFrame, hNone]
      · simp [hFrame, hPlace, hOld]
  lt_next := by
    intro otherPlace other hSome
    rw [Std.ExtTreeMap.getElem?_erase] at hSome
    by_cases hPlace : place = otherPlace
    · simp [hPlace] at hSome
    · exact queue.lt_next otherPlace other (by simpa [hPlace] using hSome)

/-- The frame that has waited longest, with its place. -/
def oldest? (queue : Queue) : Option (Nat × Frame) :=
  Id.run (forIn queue.waiting none fun entry _ => pure (.done (some entry)))

theorem oldest?_eq_head? (queue : Queue) : queue.oldest? = queue.waiting.toList.head? := by
  rw [oldest?, Std.ExtTreeMap.forIn_eq_forIn_toList]
  cases queue.waiting.toList <;> rfl

theorem getElem?_of_oldest?_eq_some {queue : Queue} {place : Nat} {frame : Frame}
    (hOldest : queue.oldest? = some (place, frame)) : queue.waiting[place]? = some frame := by
  rw [oldest?_eq_head?] at hOldest
  exact Std.ExtTreeMap.mem_toList_iff_getElem?_eq_some.mp (List.mem_of_mem_head? hOldest)

/-- The frame is no longer in use and joins the queue at its end. A frame that
is waiting already keeps its place. -/
def unpin (queue : Queue) (frame : Frame) : Queue × List Notice :=
  match hPlace : queue.places[frame]? with
  | some _ => (queue, [])
  | none =>
    let joined := queue.join frame hPlace
    (joined, if queue.capacity < joined.size then [.overCapacity joined.size queue.capacity] else [])

/-- The frame is in use again and may not be evicted. -/
def pin (queue : Queue) (frame : Frame) : Queue :=
  match hPlace : queue.places[frame]? with
  | none => queue
  | some place => queue.leave place frame ((queue.places_iff frame place).mp hPlace)

/-- Takes the frame that has waited longest out of the queue. -/
def victim (queue : Queue) : Option Frame × Queue × List Notice :=
  match hOldest : queue.oldest? with
  | none => (none, queue, [])
  | some (place, frame) =>
    (some frame, queue.leave place frame (getElem?_of_oldest?_eq_some hOldest),
      [.evicted frame])

/-- Evicts up to `count` times more, after the given frames were evicted with
the given notices, both listed latest first. -/
def evictOnto (queue : Queue) (frames : List Frame) (notices : List Notice) :
    Nat → List Frame × Queue × List Notice
  | 0 => (frames.reverse, queue, notices.reverse)
  | count + 1 =>
    match queue.victim with
    | (none, after, last) => (frames.reverse, after, (last.reverse ++ notices).reverse)
    | (some frame, after, more) =>
      after.evictOnto (frame :: frames) (more.reverse ++ notices) count

/-- Evicts up to `count` times and stops early when nothing is left. -/
def evict (queue : Queue) (count : Nat) : List Frame × Queue × List Notice :=
  queue.evictOnto [] [] count

/-- Evicts until nothing is left. -/
def drain (queue : Queue) : List Frame × Queue × List Notice := queue.evict queue.size

end Queue

end Paging.Eviction
