import Paging.Session

/-! Runs of a session taken apart. What several workers do together is a list of
single operations, so every run is a list of moments at each of which one pager
performs one operation, pagers come or go, or someone else touches the volume. -/
namespace Paging

/-- What is done in an interleaving is done by one of the workers. -/
theorem Schedule.Interleaves.exists_worker_of_mem {Step : Type} {workers : List (List Step)}
    {steps : List Step} (hSteps : Interleaves workers steps) {step : Step}
    (hStep : step ∈ steps) : ∃ worker ∈ workers, step ∈ worker := by
  induction hSteps with
  | done workers hDone => cases hStep
  | step before after first rest steps later ih =>
      have hMoved : first :: rest ∈ before ++ (first :: rest) :: after := by simp
      rcases List.mem_cons.mp hStep with rfl | hStep
      · exact ⟨_, hMoved, List.mem_cons_self⟩
      · obtain ⟨worker, hWorker, hMember⟩ := ih hStep
        simp only [List.mem_append, List.mem_cons] at hWorker
        rcases hWorker with hBefore | rfl | hAfter
        · exact ⟨worker, by simp [hBefore], hMember⟩
        · exact ⟨_, hMoved, List.mem_cons_of_mem _ hMember⟩
        · exact ⟨worker, by simp [hAfter], hMember⟩

theorem Schedule.mem_of_mem_takingTurns_alike {Step : Type} {workers : Nat} {steps : List Step}
    {step : Step} (hStep : step ∈ takingTurns (alike workers steps)) : step ∈ steps := by
  obtain ⟨worker, hWorker, hMember⟩ :=
    (Interleaves.takingTurns (alike workers steps)).exists_worker_of_mem hStep
  exact List.eq_of_mem_replicate hWorker ▸ hMember

/-- The single operations that an instruction comes down to, in the order in which
they take effect. -/
def Instruction.singly : Instruction → List Instruction
  | .allocateTogether number fd workers each =>
    (Schedule.takingTurns
      (Schedule.alike workers (List.replicate each (.allocatePage fd)))).map (.perform number)
  | .appendTogether number data workers each =>
    (Schedule.takingTurns
      (Schedule.alike workers (List.replicate each (.appendLog data data.size)))).map
        (.perform number)
  | .ensureOpenTogether number path workers =>
    (Schedule.takingTurns (Schedule.alike workers [.ensureOpen path])).map (.perform number)
  | instruction => [instruction]

/-- Whether an instruction is not the work of several workers. -/
def Instruction.isSingle : Instruction → Bool
  | .allocateTogether .. => false
  | .appendTogether .. => false
  | .ensureOpenTogether .. => false
  | _ => true

theorem Instruction.isSingle_of_mem_singly {instruction single : Instruction}
    (hSingle : single ∈ instruction.singly) : single.isSingle = true := by
  cases instruction <;> simp only [singly, List.mem_map, List.mem_singleton] at hSingle
  case allocateTogether | appendTogether | ensureOpenTogether =>
    obtain ⟨_, _, rfl⟩ := hSingle
    rfl
  all_goals
    rw [hSingle]
    rfl

/-- Work done together is made of allocations, of appends or of calls that make sure
that a file is open, and any other instruction stands for itself. -/
theorem Instruction.mem_singly_cases {instruction single : Instruction}
    (hSingle : single ∈ instruction.singly) :
    single = instruction ∨
    (∃ number fd, single = .perform number (.allocatePage fd)) ∨
    (∃ number data, single = .perform number (.appendLog data data.size)) ∨
    (∃ number path, single = .perform number (.ensureOpen path)) := by
  cases instruction with
  | allocateTogether number fd workers each =>
      obtain ⟨operation, hOperation, rfl⟩ := List.mem_map.mp hSingle
      have hSame := List.eq_of_mem_replicate (Schedule.mem_of_mem_takingTurns_alike hOperation)
      exact Or.inr (Or.inl ⟨number, fd, by rw [hSame]⟩)
  | appendTogether number data workers each =>
      obtain ⟨operation, hOperation, rfl⟩ := List.mem_map.mp hSingle
      have hSame := List.eq_of_mem_replicate (Schedule.mem_of_mem_takingTurns_alike hOperation)
      exact Or.inr (Or.inr (Or.inl ⟨number, data, by rw [hSame]⟩))
  | ensureOpenTogether number path workers =>
      obtain ⟨operation, hOperation, rfl⟩ := List.mem_map.mp hSingle
      have hSame := List.mem_singleton.mp (Schedule.mem_of_mem_takingTurns_alike hOperation)
      exact Or.inr (Or.inr (Or.inr ⟨number, path, by rw [hSame]⟩))
  | build | drop | perform | replaceOutside | readOutside =>
      exact Or.inl (List.mem_singleton.mp hSingle)

/-- One step of a session: the instruction, and the session that it meets. -/
structure Moment where
  before : Session
  instruction : Instruction

namespace Moment

/-- The session that the step leaves. -/
def after (moment : Moment) : Session := (moment.before.step moment.instruction).2

/-- What the session answers. -/
def answer (moment : Moment) : Answer := (moment.before.step moment.instruction).1.answer

end Moment

namespace Session

/-- Following one list of instructions after another. -/
theorem run_append (session : Session) (first second : List Instruction) :
    (session.run (first ++ second)).2 = ((session.run first).2.run second).2 := by
  rw [run, trace_append]
  rfl

theorem insert_of_getElem?_eq_some {pagers : Std.ExtTreeMap Nat Pager} {number : Nat}
    {pager : Pager} (hPager : pagers[number]? = some pager) :
    pagers.insert number pager = pagers := by
  ext other found
  by_cases hSame : number = other
  · simp [← hSame, hPager]
  · simp [Std.ExtTreeMap.getElem?_insert, hSame]

theorem insert_insert (pagers : Std.ExtTreeMap Nat Pager) (number : Nat) (first second : Pager) :
    (pagers.insert number first).insert number second = pagers.insert number second := by
  ext other found
  simp only [Std.ExtTreeMap.getElem?_insert]
  split <;> rfl

/-- Operations of one pager, followed one by one, leave what the pager itself
leaves when it performs them all. -/
theorem run_map_perform {session : Session} {number : Nat} {pager : Pager}
    (hPager : session.pagers[number]? = some pager) (operations : List Operation) :
    (session.run (operations.map (.perform number))).2 =
      ⟨session.pagers.insert number (pager.run session.volume operations).2.1,
        (pager.run session.volume operations).2.2⟩ := by
  induction operations generalizing session pager with
  | nil =>
      rw [List.map_nil, run_nil, Pager.run_nil, insert_of_getElem?_eq_some hPager]
  | cons operation rest ih =>
      simp only [List.map_cons, run_cons, step, hPager]
      rw [ih Std.ExtTreeMap.getElem?_insert_self]
      simp only [insert_insert, Pager.run_cons]

theorem run_map_perform_of_eq_none {session : Session} {number : Nat}
    (hNone : session.pagers[number]? = none) (operations : List Operation) :
    (session.run (operations.map (.perform number))).2 = session := by
  induction operations with
  | nil => rfl
  | cons operation rest ih => simpa [run_cons, step, hNone] using ih

/-- Work done together comes to what its single operations come to. -/
theorem step_together (session : Session) (number : Nat) (workers : List (List Operation))
    (answer : List (Except Error Reply) → Answer) :
    (session.together number workers answer).2 =
      (session.run ((Schedule.takingTurns workers).map (.perform number))).2 := by
  unfold together
  split
  · rename_i hNone
    rw [run_map_perform_of_eq_none hNone]
  · rename_i pager hPager
    rw [run_map_perform hPager]

theorem step_singly (session : Session) (instruction : Instruction) :
    (session.step instruction).2 = (session.run instruction.singly).2 := by
  cases instruction with
  | allocateTogether number fd workers each => exact step_together ..
  | appendTogether number data workers each => exact step_together ..
  | ensureOpenTogether number path workers => exact step_together ..
  | build number config => rfl
  | drop number => rfl
  | perform number operation => rfl
  | replaceOutside path bytes => rfl
  | readOutside path most => rfl

/-- Every run comes to what its single operations come to. -/
theorem run_singly (session : Session) (instructions : List Instruction) :
    (session.run instructions).2 =
      (session.run (instructions.flatMap Instruction.singly)).2 := by
  induction instructions generalizing session with
  | nil => rfl
  | cons instruction rest ih =>
      rw [run_cons, List.flatMap_cons, run_append, ← step_singly]
      exact ih _

/-- The moments of a run in order. -/
def moments (session : Session) : List Instruction → List Moment
  | [] => []
  | instruction :: rest =>
    ⟨session, instruction⟩ :: moments (session.step instruction).2 rest

/-- The moments of a run in order, with the work of several workers taken apart
into the single operations of which it is made. -/
def history (session : Session) (instructions : List Instruction) : List Moment :=
  session.moments (instructions.flatMap Instruction.singly)

theorem moments_append (session : Session) (first second : List Instruction) :
    session.moments (first ++ second) =
      session.moments first ++ (session.run first).2.moments second := by
  induction first generalizing session with
  | nil => rfl
  | cons instruction rest ih => simp [moments, ih]

/-- What happens in one run after another. -/
theorem history_append (session : Session) (first second : List Instruction) :
    session.history (first ++ second) =
      session.history first ++ (session.run first).2.history second := by
  rw [history, List.flatMap_append, moments_append, ← run_singly]
  rfl

theorem mem_of_mem_moments {session : Session} {instructions : List Instruction}
    {moment : Moment} (hMoment : moment ∈ session.moments instructions) :
    moment.instruction ∈ instructions := by
  induction instructions generalizing session with
  | nil => cases hMoment
  | cons instruction rest ih =>
      rcases List.mem_cons.mp hMoment with rfl | hMoment
      · exact List.mem_cons_self
      · exact List.mem_cons_of_mem _ (ih hMoment)

/-- What happens at a moment of a history is one of the single operations that some
instruction of the run comes down to. -/
theorem mem_singly_of_mem_history {session : Session} {instructions : List Instruction}
    {moment : Moment} (hMoment : moment ∈ session.history instructions) :
    ∃ instruction ∈ instructions, moment.instruction ∈ instruction.singly :=
  List.mem_flatMap.mp (mem_of_mem_moments hMoment)

theorem isSingle_of_mem_history {session : Session} {instructions : List Instruction}
    {moment : Moment} (hMoment : moment ∈ session.history instructions) :
    moment.instruction.isSingle = true := by
  obtain ⟨instruction, -, hSingle⟩ := mem_singly_of_mem_history hMoment
  exact Instruction.isSingle_of_mem_singly hSingle

/-- Something that holds of a session and is kept by every moment of a run holds
of the session that the run leaves. -/
theorem invariant_of_moments {P : Session → Prop} {session : Session}
    {instructions : List Instruction} (hStart : P session)
    (hMoments : ∀ moment ∈ session.moments instructions, P moment.before → P moment.after) :
    P (session.run instructions).2 := by
  induction instructions generalizing session with
  | nil => exact hStart
  | cons instruction rest ih =>
      rw [run_cons]
      exact ih (hMoments ⟨session, instruction⟩ List.mem_cons_self hStart)
        fun moment hMoment => hMoments moment (List.mem_cons_of_mem _ hMoment)

/-- Something that holds of a session and is kept by every moment of a history is met by
every moment, and holds of the session that the run leaves. -/
theorem invariant_of_history {P : Session → Prop} {session : Session}
    {instructions : List Instruction} (hStart : P session)
    (hMoments : ∀ moment ∈ session.history instructions, P moment.before → P moment.after) :
    (∀ moment ∈ session.history instructions, P moment.before) ∧
      P (session.run instructions).2 := by
  rw [run_singly]
  unfold history at hMoments ⊢
  generalize instructions.flatMap Instruction.singly = singles at hMoments ⊢
  induction singles generalizing session with
  | nil => exact ⟨fun moment hMoment => (List.not_mem_nil hMoment).elim, hStart⟩
  | cons single rest ih =>
      rw [moments, List.forall_mem_cons] at hMoments ⊢
      obtain ⟨hBefore, hFinal⟩ := ih (hMoments.1 hStart) hMoments.2
      rw [run_cons]
      exact ⟨⟨hStart, hBefore⟩, hFinal⟩

/-- Something that holds of a session and is kept by every single operation holds
of the session that any run leaves. -/
theorem invariant_of_single {P : Session → Prop}
    (hStep : ∀ session instruction, instruction.isSingle = true → P session →
      P (session.step instruction).2)
    {session : Session} (hStart : P session) (instructions : List Instruction) :
    P (session.run instructions).2 := by
  rw [run_singly]
  exact invariant_of_moments hStart fun moment hMoment =>
    hStep moment.before moment.instruction (isSingle_of_mem_history hMoment)

/-- Everything that a single operation can do to a session: put a new pager in
place, drop one, let one perform an operation, change a file from outside, or
nothing. -/
theorem step_cases (session : Session) {instruction : Instruction}
    (hSingle : instruction.isSingle = true) :
    (session.step instruction).2 = session ∨
    (∃ number config pager, instruction = .build number config ∧
      Pager.create config = .ok pager ∧
      (session.step instruction).2 =
        { session with pagers := session.pagers.insert number pager }) ∨
    (∃ number, instruction = .drop number ∧
      (session.step instruction).2 = { session with pagers := session.pagers.erase number }) ∨
    (∃ number operation pager, instruction = .perform number operation ∧
      session.pagers[number]? = some pager ∧
      (session.step instruction).2 =
        ⟨session.pagers.insert number (pager.perform session.volume operation).pager,
          (pager.perform session.volume operation).volume⟩) ∨
    (∃ path bytes volume, instruction = .replaceOutside path bytes ∧
      session.volume.replaceFile path bytes = .ok volume ∧
      (session.step instruction).2 = { session with volume }) := by
  cases instruction with
  | allocateTogether => cases hSingle
  | appendTogether => cases hSingle
  | ensureOpenTogether => cases hSingle
  | build number config =>
      cases hCreate : Pager.create config with
      | error fault => exact Or.inl (by simp [step, hCreate])
      | ok pager =>
          exact Or.inr (Or.inl ⟨number, config, pager, rfl, hCreate, by simp [step, hCreate]⟩)
  | drop number => exact Or.inr (Or.inr (Or.inl ⟨number, rfl, rfl⟩))
  | perform number operation =>
      cases hPager : session.pagers[number]? with
      | none => exact Or.inl (by simp [step, hPager])
      | some pager =>
          refine Or.inr (Or.inr (Or.inr (Or.inl ⟨number, operation, pager, rfl, hPager, ?_⟩)))
          simp [step, hPager]
  | replaceOutside path bytes =>
      cases hReplace : session.volume.replaceFile path bytes with
      | error fault => exact Or.inl (by simp [step, hReplace])
      | ok volume =>
          refine Or.inr (Or.inr (Or.inr (Or.inr ⟨path, bytes, volume, rfl, hReplace, ?_⟩)))
          simp [step, hReplace]
  | readOutside path most => exact Or.inl rfl

/-- What a single operation can do to the pager with a number. -/
theorem pagers_step_cases (session : Session) {instruction : Instruction}
    (hSingle : instruction.isSingle = true) (number : Nat) :
    (session.step instruction).2.pagers[number]? = session.pagers[number]? ∨
    (∃ config pager, instruction = .build number config ∧ Pager.create config = .ok pager ∧
      (session.step instruction).2.pagers[number]? = some pager) ∨
    (instruction = .drop number ∧ (session.step instruction).2.pagers[number]? = none) ∨
    ∃ operation pager, instruction = .perform number operation ∧
      session.pagers[number]? = some pager ∧
      (session.step instruction).2.pagers[number]? =
        some (pager.perform session.volume operation).pager := by
  rcases session.step_cases hSingle with hAfter | ⟨other, config, pager, hBuild, hCreate, hAfter⟩ |
    ⟨other, hDrop, hAfter⟩ | ⟨other, operation, pager, hPerform, hPager, hAfter⟩ |
      ⟨_, _, _, -, -, hAfter⟩ <;> rw [hAfter]
  · exact Or.inl rfl
  · by_cases hOther : other = number
    · subst hOther
      exact Or.inr (Or.inl ⟨config, pager, hBuild, hCreate, Std.ExtTreeMap.getElem?_insert_self⟩)
    · exact Or.inl (by simp [Std.ExtTreeMap.getElem?_insert, hOther])
  · by_cases hOther : other = number
    · subst hOther
      exact Or.inr (Or.inr (Or.inl ⟨hDrop, Std.ExtTreeMap.getElem?_erase_self⟩))
    · exact Or.inl (by simp [Std.ExtTreeMap.getElem?_erase, hOther])
  · by_cases hOther : other = number
    · subst hOther
      exact Or.inr (Or.inr (Or.inr
        ⟨operation, pager, hPerform, hPager, Std.ExtTreeMap.getElem?_insert_self⟩))
    · exact Or.inl (by simp [Std.ExtTreeMap.getElem?_insert, hOther])
  · exact Or.inl rfl

/-- What a single operation can do to the volume. -/
theorem volume_step_cases (session : Session) {instruction : Instruction}
    (hSingle : instruction.isSingle = true) :
    (session.step instruction).2.volume = session.volume ∨
    (∃ number operation pager, instruction = .perform number operation ∧
      session.pagers[number]? = some pager ∧
      (session.step instruction).2.volume = (pager.perform session.volume operation).volume) ∨
    ∃ path bytes, instruction = .replaceOutside path bytes ∧
      session.volume.replaceFile path bytes = .ok (session.step instruction).2.volume := by
  rcases session.step_cases hSingle with hAfter | ⟨_, _, _, -, -, hAfter⟩ | ⟨_, -, hAfter⟩ |
    ⟨number, operation, pager, hPerform, hPager, hAfter⟩ |
      ⟨path, bytes, volume, hReplace, hDone, hAfter⟩ <;> rw [hAfter]
  · exact Or.inl rfl
  · exact Or.inl rfl
  · exact Or.inl rfl
  · exact Or.inr (Or.inl ⟨number, operation, pager, hPerform, hPager, rfl⟩)
  · exact Or.inr (Or.inr ⟨path, bytes, hReplace, hDone⟩)

/-- Every pager in use has the property. -/
def AllPagers (P : Pager → Prop) (session : Session) : Prop :=
  ∀ (number : Nat) (pager : Pager), session.pagers[number]? = some pager → P pager

theorem AllPagers.insert {P : Pager → Prop} {session : Session} (hPagers : session.AllPagers P)
    {number : Nat} {pager : Pager} (hPager : P pager) (volume : Volume) :
    AllPagers P ⟨session.pagers.insert number pager, volume⟩ := by
  intro other found hFound
  simp only [Std.ExtTreeMap.getElem?_insert] at hFound
  split at hFound
  · exact Option.some.inj hFound ▸ hPager
  · exact hPagers other found hFound

theorem AllPagers.erase {P : Pager → Prop} {session : Session} (hPagers : session.AllPagers P)
    (number : Nat) : AllPagers P { session with pagers := session.pagers.erase number } := by
  intro other found hFound
  simp only [Std.ExtTreeMap.getElem?_erase] at hFound
  split at hFound
  · cases hFound
  · exact hPagers other found hFound

theorem allPagers_of_pagers_empty (P : Pager → Prop) (volume : Volume) :
    AllPagers P ⟨∅, volume⟩ := by
  intro number pager hPager
  simp at hPager

/-- Something that holds of every new pager, and that every operation keeps on any
volume, holds of every pager in use. -/
theorem allPagers_run {P : Pager → Prop}
    (hCreate : ∀ config pager, Pager.create config = .ok pager → P pager)
    (hPerform : ∀ pager volume operation, P pager → P (pager.perform volume operation).pager)
    {session : Session} (hStart : session.AllPagers P) (instructions : List Instruction) :
    (session.run instructions).2.AllPagers P := by
  refine invariant_of_single (fun session instruction hSingle hPagers => ?_) hStart instructions
  rcases session.step_cases hSingle with hSame | ⟨number, config, pager, -, hCreated, hAfter⟩ |
    ⟨number, -, hAfter⟩ | ⟨number, operation, pager, -, hPager, hAfter⟩ |
      ⟨path, bytes, volume, -, -, hAfter⟩
  · rwa [hSame]
  · rw [hAfter]
    exact hPagers.insert (hCreate config pager hCreated) _
  · rw [hAfter]
    exact hPagers.erase number
  · rw [hAfter]
    exact hPagers.insert (hPerform pager _ operation (hPagers number pager hPager)) _
  · rw [hAfter]
    exact hPagers

end Session

end Paging
