import Mathlib
import Paging.Proofs.LogSeparation

/-! Following the log. Someone polls the log of a pager piece by piece, each time from where
the last piece ended, while others append to it. Main statement: what was collected is at
every time the beginning of the log, no poll goes wrong once the log can be opened, and
when nothing more is appended so many polls reach the end as there are pieces left. -/
namespace Paging

/-- A pager that reads its log has it open afterwards. -/
theorem Pager.log_readLog_of_access {pager : Pager} {volume : Volume} {access : LogAccess}
    (hAccess : pager.accessLog volume = .ok access) {buffer : Array UInt8} {count : Nat}
    (hCount : count ≤ buffer.size) (offset : Nat) :
    (pager.readLog volume buffer count offset).pager.log = some access.inode := by
  have hLog : access.pager.log = some access.inode := by rw [(accessLog_eq_ok hAccess).1]
  rw [readLog, if_neg (Nat.not_lt.mpr hCount), hAccess]
  dsimp only
  split
  · exact hLog
  · split
    · exact hLog
    · exact hLog

/-- Nothing is done to the file at the moment but that bytes are appended to it, and the
pager has no other file as its log. -/
structure Moment.OnlyAppends (number : Nat) (inode : Inode) (moment : Moment) : Prop where
  noPage : moment.pageWrites inode = []
  inside : moment.filledOutside? ≠ some inode
  log : moment.after.logOf? number = none ∨ moment.after.logOf? number = some inode

instance (number : Nat) (inode : Inode) (moment : Moment) :
    Decidable (moment.OnlyAppends number inode) :=
  decidable_of_iff
    (moment.pageWrites inode = [] ∧ moment.filledOutside? ≠ some inode ∧
      (moment.after.logOf? number = none ∨ moment.after.logOf? number = some inode))
    ⟨fun hAll => ⟨hAll.1, hAll.2.1, hAll.2.2⟩, fun hOnly => ⟨hOnly.noPage, hOnly.inside, hOnly.log⟩⟩

/-- How far someone has come who polls the log of a pager, and the session in which that
is done. -/
structure Polling where
  session : Session
  /-- The place in the log from which the next poll reads. -/
  offset : Nat := 0
  /-- The bytes that the polls gave, one poll after the other. -/
  collected : List UInt8 := []
  /-- How many polls were answered. -/
  answered : Nat := 0

namespace Polling

/-- The first poll is still to come, after any earlier instructions. -/
def start (earlier : List Instruction) : Polling where
  session := (Session.empty.run earlier).2

/-- What is done next: a poll of at most `count` bytes, or whatever else goes on in the
meantime. -/
inductive Step
  | poll (buffer : Array UInt8) (count : Nat)
  | meanwhile (instruction : Instruction)

/-- The step is a poll. -/
def Step.isPoll : Step → Bool
  | .poll .. => true
  | .meanwhile _ => false

/-- The instruction that is given to the session. -/
def instruction (number : Nat) (polling : Polling) : Step → Instruction
  | .poll buffer count => .perform number (.readLog buffer count polling.offset)
  | .meanwhile instruction => instruction

/-- What the session answers. -/
def answer (number : Nat) (polling : Polling) (step : Step) : Answer :=
  (polling.session.step (polling.instruction number step)).1.answer

/-- What a poll makes of its answer: as many bytes as were read are taken from the front of
the buffer. Any other answer gives nothing. -/
def hear (polling : Polling) : Answer → Polling
  | .performed (.ok (.logRead (some count))) (some buffer) =>
    { polling with
      offset := polling.offset + count
      collected := polling.collected ++ buffer.toList.take count
      answered := polling.answered + 1 }
  | _ => polling

/-- What is come to after one step. -/
def step (number : Nat) (polling : Polling) (step : Step) : Polling :=
  let session := (polling.session.step (polling.instruction number step)).2
  match step with
  | .poll .. => { polling.hear (polling.answer number step) with session }
  | .meanwhile _ => { polling with session }

/-- What is come to after several steps. -/
def run (number : Nat) (polling : Polling) (steps : List Step) : Polling :=
  steps.foldl (step number) polling

/-- The instructions that are given to the session in several steps. -/
def instructions (number : Nat) (polling : Polling) : List Step → List Instruction
  | [] => []
  | step :: rest =>
    polling.instruction number step :: (polling.step number step).instructions number rest

/-- The bytes of a file in the session. -/
def bytes (inode : Inode) (polling : Polling) : List UInt8 :=
  (polling.session.volume.content inode).toList

/-- What was collected is the beginning of the log, up to where the next poll reads. -/
structure Follows (inode : Inode) (polling : Polling) : Prop where
  held : polling.session.Held
  offset_le : polling.offset ≤ (polling.bytes inode).length
  collected_eq : polling.collected = (polling.bytes inode).take polling.offset

variable {polling : Polling} {number : Nat} {inode : Inode} {buffer : Array UInt8} {count : Nat}

theorem session_step (number : Nat) (polling : Polling) (step : Step) :
    (polling.step number step).session =
      (polling.session.step (polling.instruction number step)).2 := by
  cases step <;> rfl

theorem session_run (number : Nat) (polling : Polling) (steps : List Step) :
    (polling.run number steps).session =
      (polling.session.run (polling.instructions number steps)).2 := by
  induction steps generalizing polling with
  | nil => rfl
  | cons step rest ih =>
      rw [instructions, Session.run_cons, ← session_step]
      exact ih (polling.step number step)

/-- A poll that cannot open the log is told so. -/
theorem answer_of_fault {pager : Pager} {fault : Fault}
    (hPager : polling.session.pagers[number]? = some pager)
    (hFault : pager.accessLog polling.session.volume = .error fault)
    (hCount : count ≤ buffer.size) :
    polling.answer number (.poll buffer count) =
      .performed (.error (.io fault)) (some buffer) := by
  have hEnough : ¬buffer.size < count := Nat.not_lt.mpr hCount
  simp [answer, instruction, Session.step, hPager, Pager.perform, Pager.readLog, hEnough, hFault,
    Outcome.map, Pager.unchanged, Except.map]

/-- A poll that finds the log or can open it gets the bytes that are left, as far as it
asked for them. -/
theorem Follows.answer_of_access (hFollows : polling.Follows inode) {pager : Pager}
    {access : Pager.LogAccess} (hPager : polling.session.pagers[number]? = some pager)
    (hAccess : pager.accessLog polling.session.volume = .ok access)
    (hCount : count ≤ buffer.size)
    (hOnly : Moment.OnlyAppends number inode
      ⟨polling.session, polling.instruction number (.poll buffer count)⟩) :
    ∃ filled : Array UInt8,
      polling.answer number (.poll buffer count) = .performed (.ok (.logRead (some
        (min count ((polling.bytes inode).length - polling.offset))))) (some filled) ∧
      filled.toList.take (min count ((polling.bytes inode).length - polling.offset)) =
        ((polling.bytes inode).drop polling.offset).take count := by
  have hOpened := Pager.log_readLog_of_access hAccess hCount polling.offset
  have hInode : access.inode = inode := by
    have hLog : (Moment.mk polling.session
        (polling.instruction number (.poll buffer count))).after.logOf? number =
          some access.inode := by
      rw [(Moment.after_of_perform rfl hPager).2.1]
      exact hOpened
    have hOwn := hOnly.log
    rw [hLog] at hOwn
    cases hOwn with
    | inl hNone => cases hNone
    | inr hSome => exact Option.some.inj hSome
  subst hInode
  have hBytes : polling.bytes access.inode = (access.volume.content access.inode).toList := by
    rw [(Pager.accessLog_extends hAccess).content_eq, bytes]
  obtain ⟨hResult, hBuffer, -⟩ :=
    Pager.readLog_of_access hAccess hCount polling.offset hBytes rfl
  obtain ⟨filled, hFilled, hList⟩ := Option.map_eq_some_iff.mp hBuffer
  rw [if_neg (Nat.not_lt.mpr hFollows.offset_le), List.length_take, List.length_drop] at hResult
  refine ⟨filled, ?_, ?_⟩
  · simp [answer, instruction, Session.step, hPager, Pager.perform, hResult, hFilled,
      Outcome.map, Except.map]
  · have hLength : min count ((polling.bytes access.inode).length - polling.offset) =
        (((polling.bytes access.inode).drop polling.offset).take count).length := by
      rw [List.length_take, List.length_drop]
    rw [hList, hLength, List.take_left']
    rfl

/-- Everything that a step can do as long as others only append: bytes may come to the end
of the log, and a poll that is answered gets the next bytes that are there. -/
theorem Follows.step_cases (hFollows : polling.Follows inode) (step : Step)
    (hSize : ∀ buffer count, step = .poll buffer count → count ≤ buffer.size)
    (hOnly : ∀ moment ∈ polling.session.history [polling.instruction number step],
      moment.OnlyAppends number inode) :
    (polling.step number step).bytes inode = polling.bytes inode ++
      ((polling.session.history [polling.instruction number step]).flatMap
        (Moment.appends inode)).flatten ∧
    (((polling.step number step).offset = polling.offset ∧
        (polling.step number step).collected = polling.collected ∧
        (polling.step number step).answered = polling.answered) ∨
      ∃ buffer count, step = .poll buffer count ∧
        (polling.step number step).offset =
          polling.offset + min count ((polling.bytes inode).length - polling.offset) ∧
        (polling.step number step).collected =
          polling.collected ++ ((polling.bytes inode).drop polling.offset).take count ∧
        (polling.step number step).answered = polling.answered + 1) := by
  constructor
  · rw [← foldl_leave_of_pageWrites fun moment hMoment => (hOnly moment hMoment).noPage]
    have hContent := Session.content_run hFollows.held _ fun moment hMoment =>
      (hOnly moment hMoment).inside
    rw [Session.run_cons, Session.run_nil, ← session_step] at hContent
    exact hContent
  · cases step with
    | meanwhile instruction => exact Or.inl ⟨rfl, rfl, rfl⟩
    | poll buffer count =>
        have hCount := hSize buffer count rfl
        have hMoment := hOnly ⟨polling.session, polling.instruction number (.poll buffer count)⟩
          List.mem_cons_self
        cases hPager : polling.session.pagers[number]? with
        | none =>
            have hAnswer : polling.answer number (.poll buffer count) = .noPager := by
              simp [answer, instruction, Session.step, hPager]
            simp [Polling.step, hAnswer, hear]
        | some pager =>
            cases hAccess : pager.accessLog polling.session.volume with
            | error fault =>
                have hAnswer := answer_of_fault hPager hAccess hCount
                simp [Polling.step, hAnswer, hear]
            | ok access =>
                obtain ⟨filled, hAnswer, hTaken⟩ :=
                  hFollows.answer_of_access hPager hAccess hCount hMoment
                refine Or.inr ⟨buffer, count, rfl, ?_⟩
                simp [Polling.step, hAnswer, hear, hTaken]

/-- A step leaves what was collected the beginning of the log. -/
theorem Follows.step (hFollows : polling.Follows inode) (step : Step)
    (hSize : ∀ buffer count, step = .poll buffer count → count ≤ buffer.size)
    (hOnly : ∀ moment ∈ polling.session.history [polling.instruction number step],
      moment.OnlyAppends number inode) :
    (polling.step number step).Follows inode := by
  have hHeld : (polling.step number step).session.Held := by
    rw [session_step]
    simpa using hFollows.held.run [polling.instruction number step]
  obtain ⟨hBytes, hCases⟩ := hFollows.step_cases step hSize hOnly
  have hOffset := hFollows.offset_le
  rcases hCases with ⟨hSame, hCollected, -⟩ | ⟨buffer, count, -, hMoved, hCollected, -⟩
  · refine ⟨hHeld, ?_, ?_⟩
    · rw [hBytes, hSame, List.length_append]
      omega
    · rw [hCollected, hSame, hBytes, List.take_append_of_le_length hOffset, hFollows.collected_eq]
  · refine ⟨hHeld, ?_, ?_⟩
    · rw [hBytes, hMoved, List.length_append]
      omega
    · have hInside : polling.offset + min count ((polling.bytes inode).length - polling.offset) ≤
          (polling.bytes inode).length := by omega
      have hTaken : ((polling.bytes inode).drop polling.offset).take count =
          ((polling.bytes inode).drop polling.offset).take
            (min count ((polling.bytes inode).length - polling.offset)) := by
        rw [List.take_eq_take_iff, List.length_drop, Nat.min_assoc, Nat.min_self]
      rw [hCollected, hMoved, hBytes, List.take_append_of_le_length hInside, List.take_add,
        ← hFollows.collected_eq, hTaken]

theorem history_cons (number : Nat) (polling : Polling) (step : Step) (rest : List Step) :
    polling.session.history (polling.instructions number (step :: rest)) =
      polling.session.history [polling.instruction number step] ++
        (polling.step number step).session.history
          ((polling.step number step).instructions number rest) := by
  rw [session_step, instructions]
  exact Session.history_append polling.session [polling.instruction number step] _

theorem instructions_append (number : Nat) (polling : Polling) (first rest : List Step) :
    polling.instructions number (first ++ rest) =
      polling.instructions number first ++
        (polling.run number first).instructions number rest := by
  induction first generalizing polling with
  | nil => rfl
  | cons step first ih => exact congrArg (List.cons _) (ih (polling.step number step))

/-- Whatever is done, what was collected is the beginning of the log. -/
theorem Follows.run (hFollows : polling.Follows inode) {steps : List Step}
    (hSize : ∀ buffer count, .poll buffer count ∈ steps → count ≤ buffer.size)
    (hOnly : ∀ moment ∈ polling.session.history (polling.instructions number steps),
      moment.OnlyAppends number inode) :
    (polling.run number steps).Follows inode := by
  induction steps generalizing polling with
  | nil => exact hFollows
  | cons step rest ih =>
      rw [history_cons, List.forall_mem_append] at hOnly
      have hStep : ∀ buffer count, step = .poll buffer count → count ≤ buffer.size :=
        fun buffer count hPoll => hSize buffer count (hPoll ▸ List.mem_cons_self)
      exact ih (hFollows.step step hStep hOnly.1)
        (fun buffer count hPoll => hSize buffer count (List.mem_cons_of_mem step hPoll)) hOnly.2

/-- While nothing is appended, the log stays as it is, and every answered poll gets at least
the least number of bytes that is asked for, or all that are left. -/
theorem Follows.progress (hFollows : polling.Follows inode) {steps : List Step} {least : Nat}
    (hSize : ∀ buffer count, .poll buffer count ∈ steps → least ≤ count ∧ count ≤ buffer.size)
    (hOnly : ∀ moment ∈ polling.session.history (polling.instructions number steps),
      moment.OnlyAppends number inode ∧ (moment.appends inode).flatten = []) :
    (polling.run number steps).bytes inode = polling.bytes inode ∧
      ∃ answers, (polling.run number steps).answered = polling.answered + answers ∧
        min (polling.bytes inode).length (polling.offset + least * answers) ≤
          (polling.run number steps).offset := by
  induction steps generalizing polling with
  | nil => exact ⟨rfl, 0, rfl, Nat.min_le_right _ _⟩
  | cons step rest ih =>
      rw [history_cons, List.forall_mem_append] at hOnly
      have hStep : ∀ buffer count, step = .poll buffer count → count ≤ buffer.size :=
        fun buffer count hPoll => (hSize buffer count (hPoll ▸ List.mem_cons_self)).2
      have hFirst : ∀ moment ∈ polling.session.history [polling.instruction number step],
          moment.OnlyAppends number inode := fun moment hMoment => (hOnly.1 moment hMoment).1
      obtain ⟨hKept, answers, hAnswered, hReached⟩ := ih (hFollows.step step hStep hFirst)
        (fun buffer count hPoll => hSize buffer count (List.mem_cons_of_mem step hPoll)) hOnly.2
      obtain ⟨hBytes, hCases⟩ := hFollows.step_cases step hStep hFirst
      have hNothing : ((polling.session.history [polling.instruction number step]).flatMap
          (Moment.appends inode)).flatten = [] := by
        rw [List.flatten_eq_nil_iff]
        intro bytes hMember
        obtain ⟨moment, hMoment, hBytes⟩ := List.mem_flatMap.mp hMember
        exact List.flatten_eq_nil_iff.mp (hOnly.1 moment hMoment).2 bytes hBytes
      rw [hNothing, List.append_nil] at hBytes
      rw [hBytes] at hKept hReached
      have hOffset := hFollows.offset_le
      refine ⟨hKept, ?_⟩
      -- What the rest of the steps reach is counted from where this step ends.
      rcases hCases with ⟨hSame, -, hCounted⟩ | ⟨buffer, count, hPoll, hMoved, -, hCounted⟩
      · rw [hSame] at hReached
        exact ⟨answers, hAnswered.trans (by rw [hCounted]), hReached⟩
      · have hLeast := (hSize buffer count (hPoll ▸ List.mem_cons_self)).1
        rw [hMoved] at hReached
        refine ⟨answers + 1, hAnswered.trans (by rw [hCounted]; omega), ?_⟩
        rw [Nat.mul_add_one]
        exact Nat.le_trans (by omega) hReached

/-- The log that a pager has open stays its log in a step that does not replace it. -/
theorem logOf?_step (hLog : polling.session.logOf? number = some inode) {step : Step}
    (hKeeps : (polling.instruction number step).Keeps number) :
    (polling.step number step).session.logOf? number = some inode := by
  have hMoments : ∀ moment ∈ polling.session.history [polling.instruction number step],
      moment.before.logOf? number = some inode → moment.after.logOf? number = some inode := by
    intro moment hMoment hOpen
    obtain ⟨instruction, hInstruction, hSingle⟩ := Session.mem_singly_of_mem_history hMoment
    rw [List.mem_singleton.mp hInstruction] at hSingle
    exact Moment.logOf?_after (Session.isSingle_of_mem_history hMoment) hOpen
      (Instruction.keeps_of_mem_singly hKeeps hSingle)
  have hKept := (Session.invariant_of_history
    (P := fun session => session.logOf? number = some inode) hLog hMoments).2
  rw [Session.run_cons, Session.run_nil, ← session_step] at hKept
  exact hKept

/-- A pager that is not replaced and whose log is open answers every poll. -/
theorem Follows.answered_run (hFollows : polling.Follows inode) {steps : List Step}
    (hLog : polling.session.logOf? number = some inode)
    (hKeeps : ∀ instruction ∈ polling.instructions number steps, instruction.Keeps number)
    (hSize : ∀ buffer count, .poll buffer count ∈ steps → count ≤ buffer.size)
    (hOnly : ∀ moment ∈ polling.session.history (polling.instructions number steps),
      moment.OnlyAppends number inode) :
    (polling.run number steps).answered = polling.answered + steps.countP Step.isPoll := by
  induction steps generalizing polling with
  | nil => rfl
  | cons step rest ih =>
      rw [history_cons, List.forall_mem_append] at hOnly
      rw [instructions, List.forall_mem_cons] at hKeeps
      have hStep : ∀ buffer count, step = .poll buffer count → count ≤ buffer.size :=
        fun buffer count hPoll => hSize buffer count (hPoll ▸ List.mem_cons_self)
      have hRest := ih (hFollows.step step hStep hOnly.1) (logOf?_step hLog hKeeps.1) hKeeps.2
        (fun buffer count hPoll => hSize buffer count (List.mem_cons_of_mem step hPoll)) hOnly.2
      have hCounted : (polling.step number step).answered =
          polling.answered + if step.isPoll then 1 else 0 := by
        cases step with
        | meanwhile instruction => rfl
        | poll buffer count =>
            obtain ⟨pager, hPager, hOpen⟩ := Option.bind_eq_some_iff.mp hLog
            have hAccess : pager.accessLog polling.session.volume =
                .ok ⟨inode, pager, polling.session.volume, []⟩ := by simp [Pager.accessLog, hOpen]
            obtain ⟨filled, hAnswer, -⟩ := hFollows.answer_of_access hPager hAccess
              (hStep buffer count rfl) (hOnly.1 _ List.mem_cons_self)
            simp [Polling.step, hAnswer, hear, Step.isPoll]
      rw [List.countP_cons, Nat.add_comm (rest.countP _), ← Nat.add_assoc, ← hCounted]
      exact hRest

end Polling

/-- Someone starts to poll a log at its beginning, each time with room for at least one
byte, and others go on working in between, but do nothing to the log other than append to
it. At every time the bytes that were collected are the beginning of the log, up to where
the next poll reads. That poll fails exactly when the log cannot be opened, and otherwise
tells how much it read, which is nothing exactly at the end of the log. From there on, if
nothing more is appended, as many answered polls as there are pieces left of the least
size that is asked for reach the end, and what was collected is the whole log. And a pager
that is not replaced and whose log is open answers them all. -/
theorem polling_follows_log (earlier : List Instruction) (number : Nat) (inode : Inode)
    (first rest : List Polling.Step)
    (hSize : ∀ buffer count, .poll buffer count ∈ first ++ rest → 1 ≤ count ∧ count ≤ buffer.size)
    (hOnly : ∀ moment ∈ (Polling.start earlier).session.history
      ((Polling.start earlier).instructions number (first ++ rest)),
      moment.OnlyAppends number inode) :
    let polling := (Polling.start earlier).run number first
    let final := (Polling.start earlier).run number (first ++ rest)
    let log := polling.bytes inode
    (polling.offset ≤ log.length ∧ polling.collected = log.take polling.offset) ∧
    (∀ buffer count later pager, rest = .poll buffer count :: later →
      polling.session.pagers[number]? = some pager →
      let answer := polling.answer number (.poll buffer count)
      (∀ fault, pager.accessLog polling.session.volume = .error fault →
        answer = .performed (.error (.io fault)) (some buffer)) ∧
      ∀ access, pager.accessLog polling.session.volume = .ok access →
        ∃ read filled, answer = .performed (.ok (.logRead (some read))) (some filled) ∧
          (read = 0 ↔ polling.offset = log.length)) ∧
    (∀ least, 0 < least → (∀ buffer count, .poll buffer count ∈ rest → least ≤ count) →
      (∀ moment ∈ polling.session.history (polling.instructions number rest),
        (moment.appends inode).flatten = []) →
      polling.answered + (log.length - polling.offset) ⌈/⌉ least ≤ final.answered →
      final.offset = log.length ∧ final.collected = log ∧ final.bytes inode = log) ∧
    (polling.session.logOf? number = some inode →
      (∀ instruction ∈ polling.instructions number rest, instruction.Keeps number) →
      final.answered = polling.answered + rest.countP Polling.Step.isPoll) := by
  intro polling final log
  have hStart : (Polling.start earlier).Follows inode :=
    ⟨Session.held_empty.run earlier, Nat.zero_le _, rfl⟩
  have hFinal : final = polling.run number rest := List.foldl_append
  rw [Polling.instructions_append, Session.history_append, List.forall_mem_append,
    ← Polling.session_run] at hOnly
  have hFollows : polling.Follows inode := hStart.run (fun buffer count hPoll =>
    (hSize buffer count (List.mem_append_left rest hPoll)).2) hOnly.1
  have hRest : ∀ buffer count, .poll buffer count ∈ rest → 1 ≤ count ∧ count ≤ buffer.size :=
    fun buffer count hPoll => hSize buffer count (List.mem_append_right first hPoll)
  refine ⟨⟨hFollows.offset_le, hFollows.collected_eq⟩, ?_, ?_, ?_⟩
  · rintro buffer count later pager rfl hPager
    obtain ⟨hSome, hCount⟩ := hRest buffer count List.mem_cons_self
    rw [Polling.history_cons, List.forall_mem_append] at hOnly
    refine ⟨fun fault hFault => Polling.answer_of_fault hPager hFault hCount, ?_⟩
    intro access hAccess
    obtain ⟨filled, hAnswer, -⟩ := hFollows.answer_of_access hPager hAccess hCount
      (hOnly.2.1 _ List.mem_cons_self)
    have hOffset : polling.offset ≤ log.length := hFollows.offset_le
    refine ⟨_, filled, hAnswer, ?_⟩
    change min count (log.length - polling.offset) = 0 ↔ _
    omega
  · intro least hLeast hPolls hNothing hMany
    obtain ⟨hBytes, answers, hAnswered, hReached⟩ := hFollows.progress
      (fun buffer count hPoll => ⟨hPolls buffer count hPoll, (hRest buffer count hPoll).2⟩)
      fun moment hMoment => ⟨hOnly.2 moment hMoment, hNothing moment hMoment⟩
    have hEnd : (polling.run number rest).Follows inode :=
      hFollows.run (fun buffer count hPoll => (hRest buffer count hPoll).2) hOnly.2
    rw [← hFinal] at hBytes hAnswered hReached hEnd
    have hBytes : final.bytes inode = log := hBytes
    have hLeft : log.length - polling.offset ≤ least * answers :=
      (ceilDiv_le_iff_le_mul hLeast).mp (by omega)
    have hOffset : final.offset = log.length := by
      have hInside := hEnd.offset_le
      rw [hBytes] at hInside
      have hReached : min log.length (polling.offset + least * answers) ≤ final.offset := hReached
      omega
    refine ⟨hOffset, ?_, hBytes⟩
    rw [hEnd.collected_eq, hBytes, hOffset, List.take_length]
  · intro hLog hKeeps
    rw [hFinal]
    exact hFollows.answered_run hLog hKeeps
      (fun buffer count hPoll => (hRest buffer count hPoll).2) hOnly.2

/-- Two records are polled in pieces that divide neither of them. The second one comes after
the first poll, and two polls more reach its end. -/
theorem polling_follows_log_two_records :
    let earlier : List Instruction :=
      [.build 0 { maxOpenFiles := 2 }, .perform 0 (.appendLog #[1, 2, 3, 4, 5] 5)]
    let first : List Polling.Step :=
      [.poll #[0, 0, 0] 2, .meanwhile (.perform 0 (.appendLog #[6, 7, 8, 9] 3))]
    let rest : List Polling.Step := [.poll #[0, 0, 0] 3, .poll #[0, 0, 0, 0] 4]
    let polling := (Polling.start earlier).run 0 first
    let final := (Polling.start earlier).run 0 (first ++ rest)
    polling.collected = [1, 2] ∧ final.answered = 3 ∧
      final.collected = [1, 2, 3, 4, 5, 6, 7, 8] := by
  intro earlier first rest polling final
  have hOnly : ∀ moment ∈ (Polling.start earlier).session.history
      ((Polling.start earlier).instructions 0 (first ++ rest)), moment.OnlyAppends 0 ⟨0⟩ := by
    decide +kernel +revert
  have hLog : polling.bytes ⟨0⟩ = [1, 2, 3, 4, 5, 6, 7, 8] ∧ polling.offset = 2 ∧
      polling.answered = 1 ∧ polling.session.logOf? 0 = some ⟨0⟩ := by decide +kernel +revert
  have hKeeps : ∀ instruction ∈ polling.instructions 0 rest, instruction.Keeps 0 := by
    decide +kernel +revert
  have hNothing : ∀ moment ∈ polling.session.history (polling.instructions 0 rest),
      (moment.appends ⟨0⟩).flatten = [] := by decide +kernel +revert
  have hSize : ∀ buffer count, .poll buffer count ∈ first ++ rest →
      1 ≤ count ∧ count ≤ buffer.size := by
    intro buffer count hPoll
    simp only [first, rest, List.mem_append, List.mem_cons, List.not_mem_nil, or_false,
      Polling.Step.poll.injEq, reduceCtorEq] at hPoll
    rcases hPoll with ⟨rfl, rfl⟩ | ⟨rfl, rfl⟩ | ⟨rfl, rfl⟩ <;> decide
  have hLeast : ∀ buffer count, .poll buffer count ∈ rest → 3 ≤ count := by
    intro buffer count hPoll
    simp only [rest, List.mem_cons, List.not_mem_nil, or_false, Polling.Step.poll.injEq] at hPoll
    rcases hPoll with ⟨-, rfl⟩ | ⟨-, rfl⟩ <;> decide
  obtain ⟨hBytes, hOffset, hOne, hOpen⟩ := hLog
  obtain ⟨⟨-, hCollected⟩, -, hEnd, hAnswered⟩ :=
    polling_follows_log earlier 0 ⟨0⟩ first rest hSize hOnly
  have hThree : final.answered = 3 := by
    have hTwo : rest.countP Polling.Step.isPoll = 2 := rfl
    rw [hAnswered hOpen hKeeps, hOne, hTwo]
  have hMany : polling.answered + ((polling.bytes ⟨0⟩).length - polling.offset) ⌈/⌉ 3 ≤
      final.answered := by
    rw [hThree, hOne, hBytes, hOffset]
    decide
  have hAll := (hEnd 3 (by decide) hLeast hNothing hMany).2.1
  rw [hBytes] at hAll
  rw [hBytes, hOffset] at hCollected
  exact ⟨hCollected, hThree, hAll⟩

end Paging
