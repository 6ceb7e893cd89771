import Mathlib
import Paging.Proofs.Pager.Numbering
import Paging.Proofs.Session.History

/-! Page numbers in the order in which they are asked for. Whoever asks, and whatever
else is done in between, a slot hands out the numbers one after the other from where
it was made to start, and nothing once they are used up. -/
namespace Paging

namespace Instruction

/-- The page number at which an instruction makes a slot of a pager start, if it does.
A new pager starts all its slots at the first page. -/
def starts? (number : Nat) (fd : Descriptor) : Instruction → Option PageNo
  | .build other config =>
    if other = number then (Pager.create config).toOption.map fun _ => .first else none
  | .perform other (.setNextPage slot page) =>
    if other = number ∧ slot = fd then some page else none
  | _ => none

/-- The instruction lets a slot of a pager count on: it does not make the slot start
anew, and it does not put an end to the pager. -/
def LetsCount (number : Nat) (fd : Descriptor) (instruction : Instruction) : Prop :=
  instruction.starts? number fd = none ∧ instruction ≠ .drop number

instance (number : Nat) (fd : Descriptor) (instruction : Instruction) :
    Decidable (instruction.LetsCount number fd) :=
  inferInstanceAs (Decidable (_ ∧ _))

theorem letsCount_of_mem_singly {instruction single : Instruction} {number : Nat}
    {fd : Descriptor} (hCount : instruction.LetsCount number fd)
    (hSingle : single ∈ instruction.singly) : single.LetsCount number fd := by
  rcases mem_singly_cases hSingle with rfl | ⟨_, _, rfl⟩ | ⟨_, _, rfl⟩ | ⟨_, _, rfl⟩
  · exact hCount
  all_goals exact ⟨rfl, by simp⟩

/-- How many page numbers of a slot some instructions ask for. -/
def requests (number : Nat) (fd : Descriptor) (instructions : List Instruction) : Nat :=
  (instructions.flatMap singly).count (.perform number (.allocatePage fd))

/-- The workers' requests are all made, in whatever order. -/
theorem requests_of_interleaves {workers : List (List Instruction)}
    {instructions : List Instruction} (hOrder : Schedule.Interleaves workers instructions)
    (number : Nat) (fd : Descriptor) :
    requests number fd instructions = (workers.map (requests number fd)).sum := by
  rw [requests, (hOrder.perm.flatMap_right singly).count_eq, List.flatten_eq_flatMap,
    List.flatMap_assoc, List.count_flatMap]
  rfl

end Instruction

/-- The answer to a request for a page number of a slot, if the moment is one. -/
def Moment.allocation? (number : Nat) (fd : Descriptor) (moment : Moment) :
    Option (Except Error Reply) :=
  match moment.answer with
  | .performed result _ =>
    if moment.instruction = .perform number (.allocatePage fd) then some result else none
  | _ => none

namespace Session

/-- A request for a page number gets what the slot stands at, and the slot moves on. -/
theorem step_request {session : Session} {number : Nat} {pager : Pager}
    (hPager : session.pagers[number]? = some pager) {fd : Descriptor}
    (hSlot : fd.index < pager.counters.slots) :
    ∃ after, (session.step (.perform number (.allocatePage fd))).2.pagers[number]? = some after ∧
      after.counters.slots = pager.counters.slots ∧
      (after.counters.count fd).number.toNat =
        min ((pager.counters.count fd).number.toNat + 1) (UInt32.size - 1) ∧
      Moment.allocation? number fd ⟨session, .perform number (.allocatePage fd)⟩ =
        some ((handedOut fd (pager.counters.count fd).number.toNat).map .page) := by
  obtain ⟨hResult, hCount⟩ := Pager.allocatePage_of_lt_slots hSlot session.volume
  refine ⟨(pager.perform session.volume (.allocatePage fd)).pager, by simp [step, hPager],
    (Pager.perform_parts pager session.volume _).1, hCount, ?_⟩
  simp [Moment.allocation?, Moment.answer, step, hPager, Pager.perform, Outcome.map, hResult]

/-- A pager that may count on is still there after the step, as it was or with an operation
performed. -/
theorem pager_step_of_letsCount {session : Session} {number : Nat} {pager : Pager}
    (hPager : session.pagers[number]? = some pager) {fd : Descriptor}
    {instruction : Instruction} (hSingle : instruction.isSingle = true)
    (hCount : instruction.LetsCount number fd) :
    (session.step instruction).2.pagers[number]? = some pager ∨
    ∃ operation, instruction = .perform number operation ∧
      (session.step instruction).2.pagers[number]? =
        some (pager.perform session.volume operation).pager := by
  rcases session.pagers_step_cases hSingle number with
    hSame | ⟨config, created, rfl, hCreate, -⟩ | ⟨hDrop, -⟩ |
      ⟨operation, performer, hPerform, hPerformer, hAfter⟩
  · exact Or.inl (hSame.trans hPager)
  · have hStarts := hCount.1
    simp [Instruction.starts?, hCreate, Except.toOption] at hStarts
  · exact absurd hDrop hCount.2
  · rw [hPager] at hPerformer
    cases hPerformer
    exact Or.inr ⟨operation, hPerform, hAfter⟩

/-- Whatever else is done, the slot stays where it stands. -/
theorem step_of_letsCount {session : Session} {number : Nat} {pager : Pager}
    (hPager : session.pagers[number]? = some pager) {fd : Descriptor}
    {instruction : Instruction} (hSingle : instruction.isSingle = true)
    (hCount : instruction.LetsCount number fd)
    (hOther : instruction ≠ .perform number (.allocatePage fd)) :
    ∃ after, (session.step instruction).2.pagers[number]? = some after ∧
      after.counters.slots = pager.counters.slots ∧
      after.counters.count fd = pager.counters.count fd ∧
      Moment.allocation? number fd ⟨session, instruction⟩ = none := by
  have hNone : Moment.allocation? number fd ⟨session, instruction⟩ = none := by
    unfold Moment.allocation?
    split
    · rw [if_neg hOther]
    · rfl
  cases pager_step_of_letsCount hPager hSingle hCount with
  | inl hSame => exact ⟨pager, hSame, rfl, rfl, hNone⟩
  | inr hPerformed =>
      obtain ⟨operation, rfl, hAfter⟩ := hPerformed
      refine ⟨_, hAfter, (Pager.perform_parts pager session.volume operation).1, ?_, hNone⟩
      refine Pager.count_perform pager session.volume (fun hSame => hOther (hSame ▸ rfl)) ?_
      intro page hSame
      have hStarts := hCount.1
      simp [Instruction.starts?, hSame] at hStarts

/-- What a slot hands out in a run of single operations, and where it then stands. -/
theorem requests_moments {session : Session} {number : Nat} {pager : Pager}
    (hPager : session.pagers[number]? = some pager) {fd : Descriptor}
    (hSlot : fd.index < pager.counters.slots) {singles : List Instruction}
    (hSingle : ∀ single ∈ singles, single.isSingle = true)
    (hCount : ∀ single ∈ singles, single.LetsCount number fd) {start calls : Nat}
    (hStart : (pager.counters.count fd).number.toNat = start)
    (hCalls : singles.count (.perform number (.allocatePage fd)) = calls) :
    ∃ after, (session.run singles).2.pagers[number]? = some after ∧
      after.counters.slots = pager.counters.slots ∧
      (after.counters.count fd).number.toNat = min (start + calls) (UInt32.size - 1) ∧
      (session.moments singles).filterMap (Moment.allocation? number fd) =
        (List.range calls).map fun step => (handedOut fd (start + step)).map .page := by
  induction singles generalizing session pager start calls with
  | nil =>
      subst hStart hCalls
      have hBound := (pager.counters.count fd).toNat_le
      exact ⟨pager, hPager, rfl, (Nat.min_eq_left hBound).symm, rfl⟩
  | cons instruction rest ih =>
      have hRest : ∀ single ∈ rest, single.isSingle = true :=
        fun single hMember => hSingle single (List.mem_cons_of_mem _ hMember)
      have hLater : ∀ single ∈ rest, single.LetsCount number fd :=
        fun single hMember => hCount single (List.mem_cons_of_mem _ hMember)
      by_cases hRequest : instruction = .perform number (.allocatePage fd)
      · obtain ⟨next, hNext, hSlots, hMoved, hFirst⟩ := step_request hPager hSlot
        rw [← hRequest] at hNext hFirst
        obtain ⟨after, hAfter, hSame, hStands, hOthers⟩ :=
          ih hNext (hSlots ▸ hSlot) hRest hLater hMoved rfl
        rw [hRequest, List.count_cons_self] at hCalls
        rw [hStart] at hFirst hStands hOthers
        refine ⟨after, by rw [run_cons]; exact hAfter, hSame.trans hSlots, ?_, ?_⟩
        · rw [hStands, min_min_add, ← hCalls, Nat.add_assoc, Nat.add_comm 1]
        · rw [moments, List.filterMap_cons_some hFirst, hOthers, ← hCalls,
            List.range_succ_eq_map, List.map_cons, List.map_map]
          congr 1
          refine List.map_congr_left fun step _ => ?_
          rw [handedOut_min_add, Function.comp_apply, Nat.succ_eq_add_one, Nat.add_assoc,
            Nat.add_comm 1 step]
      · obtain ⟨next, hNext, hSlots, hStays, hNone⟩ :=
          step_of_letsCount hPager (hSingle _ List.mem_cons_self)
            (hCount _ List.mem_cons_self) hRequest
        rw [List.count_cons_of_ne hRequest] at hCalls
        obtain ⟨after, hAfter, hSame, hStands, hOthers⟩ :=
          ih hNext (hSlots ▸ hSlot) hRest hLater (by rw [hStays, hStart]) hCalls
        refine ⟨after, by rw [run_cons]; exact hAfter, hSame.trans hSlots, hStands, ?_⟩
        rw [moments, List.filterMap_cons_none hNone, hOthers]

/-- Where a slot stands when it was just made to start, and how many slots a new pager
has. -/
theorem count_of_starts? {session : Session} {opening : Instruction} {number : Nat}
    {fd : Descriptor} {start : PageNo} {pager : Pager}
    (hStart : opening.starts? number fd = some start)
    (hPager : (session.step opening).2.pagers[number]? = some pager)
    (hSlot : fd.index < pager.counters.slots) :
    pager.counters.count fd = start ∧
      ∀ config, opening = .build number config → pager.counters.slots = config.maxOpenFiles := by
  cases opening with
  | build other config =>
      simp only [Instruction.starts?] at hStart
      split at hStart
      · rename_i hSame
        subst hSame
        cases hCreate : Pager.create config with
        | error fault => simp [hCreate, Except.toOption] at hStart
        | ok created =>
            simp [hCreate, Except.toOption] at hStart
            simp [step, hCreate] at hPager
            subst hPager hStart
            obtain ⟨hSlots, hCount⟩ := Pager.counters_of_create_eq_ok hCreate
            exact ⟨hCount fd, fun other hBuild => by cases hBuild; exact hSlots⟩
      · cases hStart
  | perform other operation =>
      refine ⟨?_, by simp⟩
      cases operation with
      | setNextPage slot page =>
          simp only [Instruction.starts?] at hStart
          split at hStart
          · rename_i hSame
            obtain ⟨rfl, rfl⟩ := hSame
            cases hStart
            cases hBefore : session.pagers[other]? with
            | none => simp [step, hBefore] at hPager
            | some before =>
                simp [step, hBefore] at hPager
                subst hPager
                rw [(Pager.perform_parts before session.volume _).1] at hSlot
                exact Pager.count_setNextPage hSlot session.volume start
          · cases hStart
      | _ => cases hStart
  | _ => cases hStart

/-- The page numbers that are handed out grow, and none of them is the number that no
page has. -/
theorem pagesOf_handedOut (fd : Descriptor) (start calls : Nat) :
    let pages := pagesOf
      ((List.range calls).map fun step => (handedOut fd (start + step)).map .page)
    pages.Pairwise (fun page later => page.number < later.number) ∧
      PageNo.invalid ∉ pages := by
  have hPage : ∀ (count : Nat) (page : PageNo),
      (handedOut fd count).toOption = some page → handedOut fd count = .ok page := by
    intro count page hSome
    cases hOut : handedOut fd count with
    | error error => simp [hOut, Except.toOption] at hSome
    | ok found =>
        simp [hOut, Except.toOption] at hSome
        rw [hSome]
  intro pages
  have hPages : pages = (List.range calls).filterMap
      fun step => (handedOut fd (start + step)).toOption := by
    simp only [pages, pagesOf, List.filterMap_map]
    refine List.filterMap_congr fun step _ => ?_
    simp only [Function.comp_apply]
    cases handedOut fd (start + step) <;> rfl
  rw [hPages]
  refine ⟨?_, fun hMember => ?_⟩
  · rw [List.pairwise_filterMap]
    refine List.pairwise_lt_range.imp fun hLess page hFirst later hSecond => ?_
    have hNumber := (handedOut_eq_ok (hPage _ page hFirst)).1
    have hOther := (handedOut_eq_ok (hPage _ later hSecond)).1
    rw [UInt32.lt_iff_toNat_lt]
    omega
  · obtain ⟨step, -, hInvalid⟩ := List.mem_filterMap.mp hMember
    obtain ⟨hNumber, hLeft⟩ := handedOut_eq_ok (hPage _ _ hInvalid)
    have hLast : PageNo.invalid.number.toNat = UInt32.size - 1 := rfl
    omega

end Session

/-- Whatever several workers do with any number of pagers, in whatever order their
steps take effect, a slot that was made to start at a page number, by being new or
by being set, hands out that number and those after it, each once and in order, up
to the last that a page can have; every request after that is refused, and the count
stays. What the slot hands out next is what it tells. Nothing else that is done moves
the count, and a descriptor without a slot is refused without any effect. -/
theorem page_numbers_in_order (volume : Volume) (earlier : List Instruction)
    {opening : Instruction} {workers : List (List Instruction)} {instructions : List Instruction}
    (hOrder : Schedule.Interleaves workers instructions) {number : Nat} {fd : Descriptor}
    {start : PageNo} {pager : Pager} (hStart : opening.starts? number fd = some start)
    (hPager : (Session.run ⟨∅, volume⟩ (earlier ++ [opening])).2.pagers[number]? = some pager)
    (hSlot : fd.index < pager.counters.slots)
    (hCount : ∀ worker ∈ workers, ∀ instruction ∈ worker, instruction.LetsCount number fd) :
    let session := (Session.run ⟨∅, volume⟩ (earlier ++ [opening])).2
    let final := (session.run instructions).2
    let results := (session.history instructions).filterMap (Moment.allocation? number fd)
    let calls := (workers.map (Instruction.requests number fd)).sum
    (∀ config, opening = .build number config → pager.counters.slots = config.maxOpenFiles) ∧
    results = (List.range calls).map
      (fun step => (handedOut fd (start.number.toNat + step)).map .page) ∧
    (Session.pagesOf results).Pairwise (fun page later => page.number < later.number) ∧
    PageNo.invalid ∉ Session.pagesOf results ∧
    ∃ after, final.pagers[number]? = some after ∧
      after.counters.slots = pager.counters.slots ∧
      (after.counters.count fd).number.toNat =
        min (start.number.toNat + calls) (UInt32.size - 1) ∧
      (after.nextPage final.volume fd).result = .ok (after.counters.count fd) ∧
      (after.allocatePage final.volume fd).result =
        (if (after.counters.count fd).isValid then .ok (after.counters.count fd)
          else .error (.pageSpaceExhausted fd)) ∧
      ∀ (other : Descriptor) (page : PageNo), pager.counters.slots ≤ other.index →
        let refused {α : Type} : Outcome α :=
          after.unchanged final.volume (.error (.invalidDescriptor other))
        after.allocatePage final.volume other = refused ∧
        after.nextPage final.volume other = refused ∧
        after.setNextPage final.volume other page = refused := by
  intro session final results calls
  have hOpened : (Session.run ⟨∅, volume⟩ (earlier ++ [opening])).2 =
      ((Session.run ⟨∅, volume⟩ earlier).2.step opening).2 := by
    simp [Session.run_append]
  obtain ⟨hStands, hSlots⟩ := Session.count_of_starts? hStart (hOpened ▸ hPager) hSlot
  have hCalls : (instructions.flatMap Instruction.singly).count
      (.perform number (.allocatePage fd)) = calls :=
    Instruction.requests_of_interleaves hOrder number fd
  have hSingly : ∀ single ∈ instructions.flatMap Instruction.singly,
      single.isSingle = true ∧ single.LetsCount number fd := by
    intro single hSingle
    obtain ⟨instruction, hInstruction, hMember⟩ := List.mem_flatMap.mp hSingle
    obtain ⟨worker, hWorker, hIn⟩ := hOrder.exists_worker_of_mem hInstruction
    exact ⟨Instruction.isSingle_of_mem_singly hMember,
      Instruction.letsCount_of_mem_singly (hCount worker hWorker instruction hIn) hMember⟩
  obtain ⟨after, hAfter, hSame, hEnd, hResults⟩ :=
    Session.requests_moments hPager hSlot (fun single hSingle => (hSingly single hSingle).1)
      (fun single hSingle => (hSingly single hSingle).2)
      (congrArg (fun page => page.number.toNat) hStands) hCalls
  obtain ⟨hGrow, hValid⟩ := Session.pagesOf_handedOut fd start.number.toNat calls
  rw [← hResults] at hGrow hValid
  rw [← Session.run_singly] at hAfter
  have hLater : fd.index < after.counters.slots := hSame ▸ hSlot
  refine ⟨hSlots, hResults, hGrow, hValid, after, hAfter, hSame, hEnd, ?_, ?_, ?_⟩
  · simp [Pager.nextPage, Pager.unchanged, PageCounters.next, hLater]
  · rw [(Pager.allocatePage_of_lt_slots hLater final.volume).1, PageNo.handedOut_toNat]
  · intro other page hNoSlot
    exact Pager.invalidDescriptor_of_slots_le (hSame ▸ hNoSlot) final.volume page

/-- Two workers ask for three numbers of a slot that has two left, and one of them closes
the file in between. -/
theorem page_numbers_in_order_two_left :
    let earlier : List Instruction :=
      [.build 0 { maxOpenFiles := 2 }, .perform 0 (.createFile ⟨"f"⟩),
        .perform 0 (.openFile ⟨"f"⟩)]
    let opening : Instruction := .perform 0 (.setNextPage ⟨0⟩ ⟨4294967293⟩)
    let workers : List (List Instruction) :=
      [[.perform 0 (.allocatePage ⟨0⟩), .perform 0 (.closeFile ⟨0⟩)],
        [.perform 0 (.allocatePage ⟨0⟩), .perform 0 (.allocatePage ⟨0⟩)]]
    let session := (Session.run ⟨∅, .empty⟩ (earlier ++ [opening])).2
    session.pagers[0]?.map (fun pager => pager.counters.slots) = some 2 ∧
    (session.history (Schedule.takingTurns workers)).filterMap (Moment.allocation? 0 ⟨0⟩) =
      [.ok (.page ⟨4294967293⟩), .ok (.page ⟨4294967294⟩),
        .error (.pageSpaceExhausted ⟨0⟩)] := by
  intro earlier opening workers session
  have hSlots : session.pagers[0]?.map (fun pager => pager.counters.slots) = some 2 := by
    decide +kernel +revert
  obtain ⟨pager, hPager, hTwo⟩ := Option.map_eq_some_iff.mp hSlots
  have hSlot : (⟨0⟩ : Descriptor).index < pager.counters.slots := by
    rw [hTwo]
    decide
  obtain ⟨-, hResults, -⟩ := page_numbers_in_order .empty earlier
    (Schedule.Interleaves.takingTurns workers) (rfl : opening.starts? 0 ⟨0⟩ = some ⟨4294967293⟩)
    hPager hSlot (by decide)
  refine ⟨hSlots, ?_⟩
  rw [hResults]
  rfl

end Paging
