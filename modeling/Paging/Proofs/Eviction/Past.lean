import Mathlib.Data.Nat.Find
import Paging.Eviction.Operation

/-! What the calls to an eviction queue, and the answers they got, say about the
frames. Nothing here looks into a queue: whether a frame may be evicted, and since
when, is read off the past alone. -/
namespace Paging.Eviction

/-- What a user of an eviction queue calls. -/
inductive Call
  | unpin (frame : Frame)
  | pin (frame : Frame)
  | victim
  deriving DecidableEq

/-- The operation that is called. -/
def Call.operation : Call → Operation
  | unpin frame => .unpin frame
  | pin frame => .pin frame
  | victim => .victim

/-- A call and the answer that it got. -/
structure Event where
  call : Call
  reply : Reply
  deriving DecidableEq

/-- Whether the frame was unpinned. -/
def Event.Unpins (frame : Frame) (event : Event) : Prop := event.call = .unpin frame

/-- Whether the frame was evicted. -/
def Event.Evicts (frame : Frame) (event : Event) : Prop := event = ⟨.victim, .victim (some frame)⟩

/-- Whether the frame was pinned or evicted. -/
def Event.Removes (frame : Frame) (event : Event) : Prop :=
  event.call = .pin frame ∨ event.Evicts frame

theorem Event.not_removes_of_unpins {frame other : Frame} {event : Event}
    (hUnpins : event.Unpins frame) : ¬event.Removes other := by
  rintro (hPins | rfl)
  · rw [Unpins, hPins] at hUnpins
    cases hUnpins
  · cases hUnpins

/-- Something of a kind happened at a place of the past. -/
def HappensAt (past : List Event) (P : Event → Prop) (place : Nat) : Prop :=
  ∃ event, past[place]? = some event ∧ P event

/-- Some unpinning of the frame was followed by no pinning and no eviction of it. -/
def Evictable (past : List Event) (frame : Frame) : Prop :=
  ∃ place, HappensAt past (Event.Unpins frame) place ∧
    ∀ later, place < later → ¬HappensAt past (Event.Removes frame) later

/-- The place of the first unpinning of the frame since it was last pinned or
evicted. Unpinning it again afterwards makes no difference. -/
structure JoinedAt (past : List Event) (frame : Frame) (place : Nat) : Prop where
  unpinned : HappensAt past (Event.Unpins frame) place
  kept : ∀ later, place < later → ¬HappensAt past (Event.Removes frame) later
  first : ∀ earlier, earlier < place → HappensAt past (Event.Unpins frame) earlier →
    ∃ between, earlier < between ∧ between < place ∧
      HappensAt past (Event.Removes frame) between

/-- The frame may be evicted, and none that may be evicted has waited longer. -/
def IsOldest (past : List Event) (frame : Frame) : Prop :=
  ∃ place, JoinedAt past frame place ∧
    ∀ other later, JoinedAt past other later → place ≤ later

theorem HappensAt.lt_length {past : List Event} {P : Event → Prop} {place : Nat}
    (hHappens : HappensAt past P place) : place < past.length := by
  obtain ⟨event, hEvent, -⟩ := hHappens
  exact (List.getElem?_eq_some_iff.mp hEvent).1

theorem happensAt_append {past : List Event} {last : Event} {P : Event → Prop} {place : Nat} :
    HappensAt (past ++ [last]) P place ↔
      HappensAt past P place ∨ (place = past.length ∧ P last) := by
  constructor
  · rintro ⟨event, hEvent, hP⟩
    rw [List.getElem?_append] at hEvent
    split at hEvent
    · exact Or.inl ⟨event, hEvent, hP⟩
    · rename_i hPlace
      obtain ⟨hSingle, rfl⟩ := List.getElem?_eq_some_iff.mp hEvent
      rw [List.length_singleton] at hSingle
      exact Or.inr ⟨by omega, by simpa using hP⟩
  · rintro (hHappens | ⟨rfl, hP⟩)
    · obtain ⟨event, hEvent, hP⟩ := hHappens
      have hPlace := (List.getElem?_eq_some_iff.mp hEvent).1
      exact ⟨event, by rw [List.getElem?_append_left hPlace, hEvent], hP⟩
    · exact ⟨last, by simp, hP⟩

theorem happensAt_append_of_not {past : List Event} {last : Event} {P : Event → Prop}
    (hLast : ¬P last) {place : Nat} :
    HappensAt (past ++ [last]) P place ↔ HappensAt past P place := by
  rw [happensAt_append]
  exact or_iff_left fun hBoth => hLast hBoth.2

/-- A frame joined in one place only. -/
theorem JoinedAt.unique {past : List Event} {frame : Frame} {place other : Nat}
    (hPlace : JoinedAt past frame place) (hOther : JoinedAt past frame other) :
    place = other := by
  rcases Nat.lt_trichotomy place other with hLess | hSame | hMore
  · obtain ⟨between, hAfter, -, hRemoved⟩ := hOther.first place hLess hPlace.unpinned
    exact absurd hRemoved (hPlace.kept between hAfter)
  · exact hSame
  · obtain ⟨between, hAfter, -, hRemoved⟩ := hPlace.first other hMore hOther.unpinned
    exact absurd hRemoved (hOther.kept between hAfter)

/-- A place has one frame that joined in it. -/
theorem JoinedAt.frame_unique {past : List Event} {frame other : Frame} {place : Nat}
    (hFrame : JoinedAt past frame place) (hOther : JoinedAt past other place) :
    frame = other := by
  obtain ⟨event, hEvent, hUnpins⟩ := hFrame.unpinned
  obtain ⟨same, hSame, hAlso⟩ := hOther.unpinned
  rw [hEvent] at hSame
  cases hSame
  rw [Event.Unpins, hUnpins] at hAlso
  exact Call.unpin.inj hAlso

/-- What may be evicted joined somewhere: in the first of the places from which on
it was not removed. -/
theorem evictable_iff {past : List Event} {frame : Frame} :
    Evictable past frame ↔ ∃ place, JoinedAt past frame place := by
  constructor
  · intro hEvictable
    classical
    -- Before the least place of this kind every unpinning was undone.
    obtain ⟨hUnpinned, hKept⟩ := Nat.find_spec hEvictable
    refine ⟨Nat.find hEvictable, hUnpinned, hKept, fun earlier hEarlier hAlso => ?_⟩
    by_contra hNone
    refine Nat.find_min hEvictable hEarlier ⟨hAlso, fun later hLater hRemoved => ?_⟩
    rcases Nat.lt_trichotomy later (Nat.find hEvictable) with hBefore | hHere | hAfter
    · exact hNone ⟨later, hLater, hBefore, hRemoved⟩
    · rw [hHere] at hRemoved
      obtain ⟨event, hEvent, hUnpins⟩ := hUnpinned
      obtain ⟨same, hSame, hRemoves⟩ := hRemoved
      rw [hEvent] at hSame
      cases hSame
      exact Event.not_removes_of_unpins hUnpins hRemoves
    · exact hKept later hAfter hRemoved
  · rintro ⟨place, hJoined⟩
    exact ⟨place, hJoined.unpinned, hJoined.kept⟩

/-- Nothing that was just removed has joined anywhere. -/
theorem not_joinedAt_append_of_removes {past : List Event} {last : Event} {frame : Frame}
    (hRemoves : last.Removes frame) (place : Nat) : ¬JoinedAt (past ++ [last]) frame place := by
  intro hJoined
  have hRemoved : HappensAt (past ++ [last]) (Event.Removes frame) past.length :=
    happensAt_append.mpr (Or.inr ⟨rfl, hRemoves⟩)
  rcases happensAt_append.mp hJoined.unpinned with hBefore | ⟨-, hUnpins⟩
  · exact hJoined.kept past.length hBefore.lt_length hRemoved
  · exact Event.not_removes_of_unpins hUnpins hRemoves

/-- An event that does not remove a frame leaves it where it joined. If the event
unpins the frame, and it could not be evicted before, then this is where it joins. -/
theorem joinedAt_append {past : List Event} {last : Event} {frame : Frame}
    (hKeeps : ¬last.Removes frame) {place : Nat} :
    JoinedAt (past ++ [last]) frame place ↔ JoinedAt past frame place ∨
      (place = past.length ∧ last.Unpins frame ∧ ¬Evictable past frame) := by
  constructor
  · rintro ⟨hUnpinned, hKept, hFirst⟩
    simp only [happensAt_append_of_not hKeeps] at hKept hFirst
    rcases happensAt_append.mp hUnpinned with hBefore | ⟨rfl, hUnpins⟩
    · exact Or.inl ⟨hBefore, hKept, fun earlier hEarlier hAlso =>
        hFirst earlier hEarlier (happensAt_append.mpr (Or.inl hAlso))⟩
    · refine Or.inr ⟨rfl, hUnpins, ?_⟩
      rintro ⟨earlier, hAlso, hStill⟩
      obtain ⟨between, hAfter, -, hRemoved⟩ :=
        hFirst earlier hAlso.lt_length (happensAt_append.mpr (Or.inl hAlso))
      exact hStill between hAfter hRemoved
  · rintro (hJoined | ⟨rfl, hUnpins, hNot⟩)
    · refine ⟨happensAt_append.mpr (Or.inl hJoined.unpinned), ?_, ?_⟩
      · simpa only [happensAt_append_of_not hKeeps] using hJoined.kept
      · intro earlier hEarlier hAlso
        simp only [happensAt_append_of_not hKeeps]
        have hInside := hJoined.unpinned.lt_length
        rcases happensAt_append.mp hAlso with hBefore | ⟨hEnd, -⟩
        · exact hJoined.first earlier hEarlier hBefore
        · omega
    · refine ⟨happensAt_append.mpr (Or.inr ⟨rfl, hUnpins⟩), ?_, ?_⟩
      · intro later hLater
        rw [happensAt_append_of_not hKeeps]
        intro hRemoved
        exact Nat.lt_asymm hLater hRemoved.lt_length
      · intro earlier hEarlier hAlso
        simp only [happensAt_append_of_not hKeeps]
        rcases happensAt_append.mp hAlso with hBefore | ⟨hEnd, -⟩
        · by_contra hNone
          refine hNot ⟨earlier, hBefore, fun later hLater hRemoved => ?_⟩
          exact hNone ⟨later, hLater, hRemoved.lt_length, hRemoved⟩
        · omega

end Paging.Eviction
