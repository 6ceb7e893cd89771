import Paging.Proofs.PageNumbers
import Paging.Proofs.Session.Names

/-! The page numbers of one file. A number is meant to be one page of one file for good, but
numbers are counted by slot, and a file may be closed and opened again in another slot, where
nothing tells which numbers it has. Main statement: through one descriptor a file never gets
the same number twice, however often it and other files come and go. Through another
descriptor it may get one twice. -/
namespace Paging

/-- Behind a place at which something is found, a list has shown more of it than before. -/
theorem length_filterMap_take_lt {α β : Type} {list : List α} {found? : α → Option β}
    {place later : Nat} (hLess : place < later) (hPlace : place < list.length) {found : β}
    (hFound : found? list[place] = some found) :
    ((list.take place).filterMap found?).length < ((list.take later).filterMap found?).length := by
  have hMore : (list.take (place + 1)).Sublist (list.take later) :=
    List.take_sublist_take_left hLess
  have hCounted := (hMore.filterMap found?).length_le
  rw [List.take_add_one, List.getElem?_eq_getElem hPlace, List.filterMap_append,
    Option.toList_some, List.filterMap_cons_some hFound, List.length_append] at hCounted
  exact hCounted

/-- The page number that the pager hands out at the moment for the file with the path,
which is open then, and the descriptor under which it is open. -/
def Moment.granted? (number : Nat) (path : Path) (moment : Moment) :
    Option (Descriptor × PageNo) :=
  match moment.instruction, moment.answer with
  | .perform other (.allocatePage fd), .performed (.ok (.page page)) _ =>
    if other = number ∧ (moment.before.openFile? number fd).map OpenFile.path = some path then
      some (fd, page)
    else none
  | _, _ => none

namespace Moment

variable {number : Nat} {fd : Descriptor} {page : PageNo} {moment : Moment}

/-- What is handed out for a file is handed out to a request for a number of its slot. -/
theorem allocation?_of_granted? {path : Path}
    (hGranted : moment.granted? number path = some (fd, page)) :
    moment.allocation? number fd = some (.ok (.page page)) := by
  unfold granted? at hGranted
  split at hGranted
  · rename_i other slot found buffer hInstruction hAnswer
    split at hGranted
    · rename_i hOpen
      cases hGranted
      rw [allocation?, hAnswer, hInstruction, hOpen.1]
      exact if_pos rfl
    · cases hGranted
  · cases hGranted

/-- A slot that the pager does not have hands nothing out. -/
theorem lt_slots_of_allocation? {pager : Pager}
    (hPager : moment.before.pagers[number]? = some pager)
    (hAllocated : moment.allocation? number fd = some (.ok (.page page))) :
    fd.index < pager.counters.slots := by
  by_contra hNoSlot
  have hRefused :=
    (Pager.invalidDescriptor_of_slots_le (Nat.not_lt.mp hNoSlot) moment.before.volume page).1
  unfold allocation? at hAllocated
  split at hAllocated
  · rename_i result buffer hAnswer
    split at hAllocated
    · rename_i hInstruction
      simp [answer, hInstruction, Session.step, hPager, Pager.perform, hRefused, Outcome.map,
        Pager.unchanged, Except.map] at hAnswer
      rw [← hAnswer.1] at hAllocated
      cases hAllocated
    · cases hAllocated
  · cases hAllocated

end Moment

namespace Session

variable {session : Session} {number : Nat} {pager : Pager} {instructions : List Instruction}

/-- A pager that may count on keeps its slots. -/
theorem slots_step {fd : Descriptor} {instruction : Instruction}
    (hPager : session.pagers[number]? = some pager) (hSingle : instruction.isSingle = true)
    (hCount : instruction.LetsCount number fd) :
    ∃ after, (session.step instruction).2.pagers[number]? = some after ∧
      after.counters.slots = pager.counters.slots := by
  cases pager_step_of_letsCount hPager hSingle hCount with
  | inl hSame => exact ⟨pager, hSame, rfl⟩
  | inr hPerformed =>
      obtain ⟨operation, -, hAfter⟩ := hPerformed
      exact ⟨_, hAfter, (Pager.perform_parts pager session.volume operation).1⟩

/-- At every moment of a run in which the pager may count on it has the slots that it had
at first. -/
theorem slots_of_history {fd : Descriptor} (hPager : session.pagers[number]? = some pager)
    (hCount : ∀ instruction ∈ instructions, instruction.LetsCount number fd) :
    ∀ moment ∈ session.history instructions, ∃ met,
      moment.before.pagers[number]? = some met ∧ met.counters.slots = pager.counters.slots := by
  have hKept : ∀ moment ∈ session.history instructions,
      (∃ met, moment.before.pagers[number]? = some met ∧
        met.counters.slots = pager.counters.slots) →
      ∃ left, moment.after.pagers[number]? = some left ∧
        left.counters.slots = pager.counters.slots := by
    intro moment hMoment hMet
    obtain ⟨met, hMet, hSlots⟩ := hMet
    obtain ⟨instruction, hInstruction, hMember⟩ := mem_singly_of_mem_history hMoment
    have hLets := Instruction.letsCount_of_mem_singly (hCount instruction hInstruction) hMember
    obtain ⟨left, hLeft, hSame⟩ := slots_step hMet (isSingle_of_mem_history hMoment) hLets
    exact ⟨left, hLeft, hSame.trans hSlots⟩
  exact (invariant_of_history (P := fun session => ∃ met, session.pagers[number]? = some met ∧
    met.counters.slots = pager.counters.slots) ⟨pager, hPager, rfl⟩ hKept).1

/-- A new pager hands out, slot by slot, the numbers from the first one on. -/
theorem allocations_of_history {fd : Descriptor} (hPager : session.pagers[number]? = some pager)
    (hNew : pager.counters.count fd = .first) (hSlot : fd.index < pager.counters.slots)
    (hCount : ∀ instruction ∈ instructions, instruction.LetsCount number fd) :
    ∃ calls, (session.history instructions).filterMap (Moment.allocation? number fd) =
      (List.range calls).map fun step => (handedOut fd step).map .page := by
  have hSingle : ∀ single ∈ instructions.flatMap Instruction.singly,
      single.isSingle = true ∧ single.LetsCount number fd := by
    intro single hMember
    obtain ⟨instruction, hInstruction, hMember⟩ := List.mem_flatMap.mp hMember
    exact ⟨Instruction.isSingle_of_mem_singly hMember,
      Instruction.letsCount_of_mem_singly (hCount instruction hInstruction) hMember⟩
  have hStart : (pager.counters.count fd).number.toNat = 0 := by
    rw [hNew]
    rfl
  obtain ⟨after, -, -, -, hResults⟩ := requests_moments hPager hSlot
    (fun single hMember => (hSingle single hMember).1)
    (fun single hMember => (hSingle single hMember).2) hStart rfl
  simp only [Nat.zero_add] at hResults
  exact ⟨_, hResults⟩

/-- What a new pager hands out under a descriptor is the number of the requests for a
number of that slot that were made before, whatever file was open there. -/
theorem number_of_granted {path : Path} {fd : Descriptor} {page : PageNo}
    (hPager : session.pagers[number]? = some pager)
    (hNew : pager.counters.count fd = .first)
    (hCount : ∀ instruction ∈ instructions, instruction.LetsCount number fd)
    {before after : List Moment} {moment : Moment}
    (hHistory : session.history instructions = before ++ moment :: after)
    (hGranted : moment.granted? number path = some (fd, page)) :
    page.number.toNat = (before.filterMap (Moment.allocation? number fd)).length := by
  have hAllocated := Moment.allocation?_of_granted? hGranted
  obtain ⟨met, hMet, hSlots⟩ := slots_of_history hPager hCount moment (by simp [hHistory])
  have hSlot := hSlots ▸ Moment.lt_slots_of_allocation? hMet hAllocated
  obtain ⟨calls, hResults⟩ := allocations_of_history hPager hNew hSlot hCount
  have hPlace : ((session.history instructions).filterMap (Moment.allocation? number fd))[
      (before.filterMap (Moment.allocation? number fd)).length]? = some (.ok (.page page)) := by
    rw [hHistory, List.filterMap_append, List.filterMap_cons_some hAllocated,
      List.getElem?_append_right (Nat.le_refl _), Nat.sub_self, List.getElem?_cons_zero]
  rw [hResults, List.getElem?_map] at hPlace
  obtain ⟨step, hStep, hPage⟩ := Option.map_eq_some_iff.mp hPlace
  obtain ⟨hLess, hSame⟩ := List.getElem?_eq_some_iff.mp hStep
  rw [List.getElem_range] at hSame
  cases hOut : handedOut fd step with
  | error error =>
      rw [hOut] at hPage
      cases hPage
  | ok found =>
      rw [hOut] at hPage
      cases hPage
      rw [(handedOut_eq_ok hOut).1, hSame]

end Session

/-- Let a pager count its page numbers from the start, whatever is done with it and around
it. Every number that it hands out for a file is the number of the requests that were made
before for a number of the same slot, whatever was open there. So under one descriptor a
file never gets a number twice, and it gets them in growing order, also when it was closed
in between and other files were open in its place. -/
theorem page_numbers_of_one_file (volume : Volume) (earlier : List Instruction)
    {number : Nat} {config : Config} {pager : Pager} (hCreate : Pager.create config = .ok pager)
    {instructions : List Instruction}
    (hCount : ∀ instruction ∈ instructions, ∀ fd, instruction.LetsCount number fd) :
    let session := (Session.run ⟨∅, volume⟩ (earlier ++ [.build number config])).2
    let history := session.history instructions
    (∀ path fd page before moment after, history = before ++ moment :: after →
      moment.granted? number path = some (fd, page) →
      page.number.toNat = (before.filterMap (Moment.allocation? number fd)).length) ∧
    ∀ path, (history.filterMap (Moment.granted? number path)).Pairwise
      fun grant later => grant.1 = later.1 → grant.2.number < later.2.number := by
  intro session history
  have hPager : session.pagers[number]? = some pager := by
    simp [session, Session.run_append, Session.step, hCreate]
  have hNumber : ∀ path fd page before moment after, history = before ++ moment :: after →
      moment.granted? number path = some (fd, page) →
      page.number.toNat = (before.filterMap (Moment.allocation? number fd)).length :=
    fun path fd page before moment after hHistory hGranted =>
      Session.number_of_granted hPager ((Pager.counters_of_create_eq_ok hCreate).2 fd)
        (fun instruction hMember => hCount instruction hMember fd) hHistory hGranted
  refine ⟨hNumber, fun path => ?_⟩
  rw [List.pairwise_filterMap, List.pairwise_iff_getElem]
  rintro place later hPlace hLater hLess ⟨fd, page⟩ hGranted ⟨other, next⟩ hNext hSame
  obtain rfl : fd = other := hSame
  have hSplit : ∀ (place : Nat) (hPlace : place < history.length),
      history = history.take place ++ history[place] :: history.drop (place + 1) := by
    intro place hPlace
    rw [List.getElem_cons_drop, List.take_append_drop]
  have hFirst := hNumber path fd page _ _ _ (hSplit place hPlace) hGranted
  have hSecond := hNumber path fd next _ _ _ (hSplit later hLater) hNext
  -- Up to the later moment one more request was made for the slot, the earlier one itself.
  have hMore := length_filterMap_take_lt hLess hPlace (Moment.allocation?_of_granted? hGranted)
  show page.number < next.number
  rw [UInt32.lt_iff_toNat_lt, hFirst, hSecond]
  exact hMore

/-- A file that is opened again in its old slot goes on after the numbers that another
file got there in the meantime. -/
theorem page_numbers_of_one_file_reopened :
    let instructions : List Instruction :=
      [.perform 0 (.createFile ⟨"a"⟩), .perform 0 (.createFile ⟨"b"⟩),
        .perform 0 (.openFile ⟨"a"⟩), .perform 0 (.allocatePage ⟨0⟩),
        .perform 0 (.closeFile ⟨0⟩), .perform 0 (.openFile ⟨"b"⟩),
        .perform 0 (.allocatePage ⟨0⟩), .perform 0 (.closeFile ⟨0⟩),
        .perform 0 (.openFile ⟨"a"⟩), .perform 0 (.allocatePage ⟨0⟩)]
    let session := (Session.run ⟨∅, .empty⟩ [.build 0 { maxOpenFiles := 2 }]).2
    let grants := (session.history instructions).filterMap (Moment.granted? 0 ⟨"a"⟩)
    grants = [(⟨0⟩, ⟨0⟩), (⟨0⟩, ⟨2⟩)] ∧
      grants.Pairwise fun grant later => grant.1 = later.1 → grant.2.number < later.2.number := by
  intro instructions session grants
  have hGrants : grants = [(⟨0⟩, ⟨0⟩), (⟨0⟩, ⟨2⟩)] := by decide +kernel +revert
  obtain ⟨pager, hCreate⟩ : ∃ pager, Pager.create { maxOpenFiles := 2 } = .ok pager := ⟨_, rfl⟩
  have hCount : ∀ instruction ∈ instructions, ∀ fd, instruction.LetsCount 0 fd := by
    simp [instructions, Instruction.LetsCount, Instruction.starts?]
  exact ⟨hGrants, (page_numbers_of_one_file .empty [] hCreate hCount).2 ⟨"a"⟩⟩

/-- What nobody looks out for: a file that is opened again in another slot goes on in the
count of that slot. It gets a number that it has already, for a page that is in use, and what
comes into a slot that was used before does not start at the first number. -/
theorem page_numbers_repeat_in_another_slot :
    let instructions : List Instruction :=
      [.perform 0 (.createFile ⟨"a"⟩), .perform 0 (.createFile ⟨"b"⟩),
        .perform 0 (.openFile ⟨"a"⟩), .perform 0 (.openFile ⟨"b"⟩),
        .perform 0 (.allocatePage ⟨1⟩), .perform 0 (.closeFile ⟨0⟩),
        .perform 0 (.closeFile ⟨1⟩), .perform 0 (.openFile ⟨"b"⟩),
        .perform 0 (.allocatePage ⟨0⟩), .perform 0 (.closeFile ⟨0⟩),
        .perform 0 (.openFile ⟨"a"⟩), .perform 0 (.allocatePage ⟨0⟩)]
    let session := (Session.run ⟨∅, .empty⟩ [.build 0 { maxOpenFiles := 2 }]).2
    let pages (path : Path) : List PageNo :=
      ((session.history instructions).filterMap (Moment.granted? 0 path)).map Prod.snd
    (∀ instruction ∈ instructions, ∀ fd, instruction.LetsCount 0 fd) ∧
      pages ⟨"b"⟩ = [⟨0⟩, ⟨0⟩] ∧ ¬(pages ⟨"b"⟩).Nodup ∧
      pages ⟨"a"⟩ = [⟨1⟩] ∧ (pages ⟨"a"⟩).head? ≠ some .first := by
  intro instructions session pages
  have hPages : pages ⟨"b"⟩ = [⟨0⟩, ⟨0⟩] ∧ pages ⟨"a"⟩ = [⟨1⟩] := by decide +kernel +revert
  obtain ⟨hTwice, hLater⟩ := hPages
  have hCount : ∀ instruction ∈ instructions, ∀ fd, instruction.LetsCount 0 fd := by
    simp [instructions, Instruction.LetsCount, Instruction.starts?]
  have hSame : ¬(pages ⟨"b"⟩).Nodup := by
    rw [hTwice]
    decide
  have hFirst : (pages ⟨"a"⟩).head? ≠ some .first := by
    rw [hLater]
    decide
  exact ⟨hCount, hTwice, hSame, hLater, hFirst⟩

end Paging
