import Paging.Proofs.FileOpening
import Paging.Proofs.OnePath
import Paging.Proofs.Path.Respelling
import Paging.Proofs.Session.Names

/-! The spellings of a path at the table of open files. The table goes by what the spellings of
a path have in common, and keeps the one by which a file was opened. Main statement:
`spellings_agree`. -/
namespace Paging

namespace Pager

variable {pager : Pager} {volume : Volume}

/-- A path that is entered is told its descriptor, and this is recorded. -/
theorem Enters.perform_eq {path : Path} {fd : Descriptor} {table : OpenTable}
    (hEnters : pager.Enters volume path fd table) {operation : Operation}
    (hOpening : operation = .openFile path ∨ operation = .ensureOpen path) :
    pager.perform volume operation =
      { result := .ok (.descriptor fd), pager := { pager with table }, volume,
        events := [.opened path fd] } := by
  obtain ⟨hNew, inode, hOpen, hInsert⟩ := hEnters
  have hFound : volume.isFile path = true := Volume.isFile_iff.mpr ⟨inode, hOpen⟩
  have hTracked := openTracked_of_insert hNew hOpen hInsert
  rcases hOpening with rfl | rfl
  · simp [perform, openFile, hFound, hTracked, Outcome.map, Except.map]
  · simp [perform, ensureOpen, hNew, hFound, hTracked, Outcome.map, Except.map]

/-- A file that is in the table only after a path was entered is the one that was entered. -/
theorem Enters.gains (hNumbered : pager.table.Numbered) {path : Path} {new fd : Descriptor}
    {table : OpenTable} (hEnters : pager.Enters volume path new table) {file : OpenFile}
    (hBefore : pager.table.file? fd ≠ some file) (hAfter : table.file? fd = some file) :
    new = fd ∧ path = file.path ∧ pager.table.Gains fd file table := by
  obtain ⟨hUnknown, inode, -, hInsert⟩ := hEnters
  have hGains := (hNumbered.insert hUnknown hInsert).2.2.1
  rw [hGains.file?_eq] at hAfter
  split at hAfter
  · rename_i hNew
    subst hNew
    cases hAfter
    exact ⟨rfl, rfl, hGains⟩
  · exact absurd hAfter hBefore

/-- A file that is open only after an operation was entered by it: the operation opened its
path, under a descriptor that was free. -/
theorem entered_of_perform (hNumbered : pager.table.Numbered) {operation : Operation}
    {fd : Descriptor} {file : OpenFile} (hBefore : pager.table.file? fd ≠ some file)
    (hAfter : (pager.perform volume operation).pager.table.file? fd = some file) :
    (operation = .openFile file.path ∨ operation = .ensureOpen file.path) ∧
      pager.table.file? fd = none ∧
      pager.Enters volume file.path fd (pager.perform volume operation).pager.table := by
  rcases perform_records pager volume operation with
    ⟨hSame, -⟩ | ⟨path, new, hOpening, hEnters, -⟩ | ⟨closed, gone, -, hGone, hLeft, -⟩
  · rw [hSame] at hAfter
    exact absurd hAfter hBefore
  · obtain ⟨rfl, rfl, hGains⟩ := hEnters.gains hNumbered hBefore hAfter
    exact ⟨hOpening, hGains.free, hEnters⟩
  · rw [hLeft] at hAfter
    exact absurd ((OpenTable.gains_remove hGone).file?_of_some hAfter) hBefore

/-- The table of a pager takes all spellings of a path for one, and tells the one by which the
file was opened. -/
structure SpellsAlike (pager : Pager) : Prop where
  isOpen_eq : ∀ path other, path.SameAs other →
    pager.table.isOpen path = pager.table.isOpen other
  /-- Every spelling of a path that is open is told one descriptor, and none is destroyed. -/
  told : ∀ path, pager.table.isOpen path = true → ∃ fd, ∀ other, path.SameAs other →
    ∀ volume, pager.ensureOpen volume other = pager.unchanged volume (.ok fd) ∧
      pager.destroyFile volume other =
        { pager.unchanged volume (.error (.fileNotClosed other)) with
          events := [.refusedDestroy other] }
  log_kept : pager.log.isSome → ∀ path, path.SameAs pager.logPath →
    ∀ volume, pager.destroyFile volume path =
      { pager.unchanged volume (.error (.fileNotClosed path)) with
        events := [.refusedDestroy path] }
  file_unique : ∀ fd other file same, pager.table.file? fd = some file →
    pager.table.file? other = some same → file.path.SameAs same.path → fd = other
  pathOf_eq : ∀ fd file, pager.table.file? fd = some file →
    ∀ volume, pager.pathOf volume fd = pager.unchanged volume (.ok file.path)

/-- A table whose parts agree goes by what the spellings of a path have in common. -/
theorem spellsAlike (hCoherent : pager.table.Coherent) : pager.SpellsAlike where
  isOpen_eq := by
    intro path other hSame
    rw [Bool.eq_iff_iff, OpenTable.isOpen_iff, OpenTable.isOpen_iff,
      pager.table.descriptor?_eq_of_sameAs hSame]
  told := by
    intro path hOpen
    obtain ⟨fd, hKnown⟩ := OpenTable.isOpen_iff.mp hOpen
    refine ⟨fd, fun other hSame volume => ?_⟩
    rw [pager.table.descriptor?_eq_of_sameAs hSame] at hKnown
    have hGuards := guards_of_isOpen (OpenTable.isOpen_iff.mpr ⟨fd, hKnown⟩)
    exact ⟨ensureOpen_of_known hKnown, destroyFile_of_guards hGuards volume⟩
  log_kept := by
    intro hLog path hSame volume
    obtain ⟨inode, hInode⟩ := Option.isSome_iff_exists.mp hLog
    exact destroyFile_of_guards (guards_of_log hInode hSame) volume
  file_unique := by
    intro fd other file same hFile hOther hSame
    exact hCoherent.descriptor_unique hFile hOther hSame
  pathOf_eq := by
    intro fd file hFile volume
    simp only [pathOf, hFile]

end Pager

/-- At the moment a pager is asked to open the path of the file, and does so under a descriptor
that was free. -/
structure Moment.Opens (number : Nat) (fd : Descriptor) (file : OpenFile) (moment : Moment) :
    Prop where
  asked : moment.instruction = .perform number (.openFile file.path) ∨
    moment.instruction = .perform number (.ensureOpen file.path)
  free : moment.before.openFile? number fd = none
  told : (moment.before.step moment.instruction).1 =
    ⟨.performed (.ok (.descriptor fd)) none, [.opened file.path fd]⟩
  entered : moment.after.openFile? number fd = some file

/-- A file that is open after a moment was open before, or it is opened then. -/
theorem Moment.opens_of_openFile?_after {moment : Moment}
    (hSingle : moment.instruction.isSingle = true)
    (hNumbered : moment.before.AllPagers fun pager => pager.table.Numbered)
    {number : Nat} {fd : Descriptor} {file : OpenFile}
    (hAfter : moment.after.openFile? number fd = some file) :
    moment.before.openFile? number fd = some file ∨ moment.Opens number fd file := by
  by_cases hBefore : moment.before.openFile? number fd = some file
  · exact Or.inl hBefore
  · right
    obtain ⟨operation, hInstruction⟩ : ∃ operation,
        moment.instruction = .perform number operation := by
      rcases (openFile?_after hSingle hAfter).resolve_left hBefore with ⟨hAsked | hAsked, -⟩
      · exact ⟨_, hAsked⟩
      · exact ⟨_, hAsked⟩
    cases hPager : moment.before.pagers[number]? with
    | none =>
        have hSame : moment.after = moment.before := by
          simp [after, hInstruction, Session.step, hPager]
        exact absurd (hSame ▸ hAfter) hBefore
    | some pager =>
        have hLeft := hAfter
        simp only [after, hInstruction, Session.step, hPager, Session.openFile?,
          Std.ExtTreeMap.getElem?_insert_self, Option.bind_some] at hLeft
        have hNew : pager.table.file? fd ≠ some file := fun hFile =>
          hBefore (Session.openFile?_eq_some.mpr ⟨pager, hPager, hFile⟩)
        obtain ⟨hOpening, hFree, hEnters⟩ :=
          Pager.entered_of_perform (hNumbered number pager hPager) hNew hLeft
        refine ⟨?_, ?_, ?_, hAfter⟩
        · rcases hOpening with rfl | rfl
          · exact Or.inl hInstruction
          · exact Or.inr hInstruction
        · simp [Session.openFile?, hPager, hFree]
        · simp only [hInstruction, Session.step, hPager]
          rw [hEnters.perform_eq hOpening]

namespace Session

/-- A file that is open after a run of single operations was open at its start, or it was opened
at some moment and has been open ever since. -/
theorem opens_of_openFile?_run {session : Session}
    (hNumbered : session.AllPagers fun pager => pager.table.Numbered)
    {singles : List Instruction} (hSingles : ∀ single ∈ singles, single.isSingle = true)
    {number : Nat} {fd : Descriptor} {file : OpenFile}
    (hFinal : (session.run singles).2.openFile? number fd = some file) :
    (session.openFile? number fd = some file ∧
      ∀ moment ∈ session.moments singles, moment.after.openFile? number fd = some file) ∨
    ∃ before moment later, session.moments singles = before ++ moment :: later ∧
      moment.Opens number fd file ∧
      ∀ other ∈ later, other.after.openFile? number fd = some file := by
  induction singles generalizing session with
  | nil => exact Or.inl ⟨hFinal, fun moment hMoment => (List.not_mem_nil hMoment).elim⟩
  | cons single rest ih =>
      obtain ⟨hSingle, hRest⟩ := List.forall_mem_cons.mp hSingles
      rw [run_cons] at hFinal
      have hNext : (session.step single).2.AllPagers fun pager => pager.table.Numbered :=
        hNumbered.numbered [single]
      rcases ih hNext hRest hFinal with
        ⟨hOpen, hLater⟩ | ⟨before, moment, later, hMoments, hOpens, hLater⟩
      · have hFirst : (Moment.after ⟨session, single⟩).openFile? number fd = some file := hOpen
        rcases Moment.opens_of_openFile?_after hSingle hNumbered hFirst with hBefore | hOpens
        · exact Or.inl ⟨hBefore, List.forall_mem_cons.mpr ⟨hFirst, hLater⟩⟩
        · exact Or.inr ⟨[], _, _, rfl, hOpens, hLater⟩
      · exact Or.inr ⟨⟨session, single⟩ :: before, moment, later, by rw [moments, hMoments]; rfl,
          hOpens, hLater⟩

end Session

namespace Workplace.Numbered

/-- A file that is open only after a move was entered by it: the move opened its path. -/
theorem entered_of_step {workplace : Workplace} (hNumbered : workplace.Numbered) {move : Move}
    {fd : Descriptor} {file : OpenFile} (hBefore : workplace.pager.table.file? fd ≠ some file)
    (hAfter : (workplace.step move).2.pager.table.file? fd = some file) :
    opening? (workplace, move) = some file.path ∧ entered (workplace, move) = [(fd, file)] := by
  rcases workplace.step_records move with
    ⟨hSame, -⟩ | ⟨worker, path, new, hMove, -, hEnters, -⟩ | ⟨-, closed, gone, -, -, hGone, hLeft, -⟩
  · rw [hSame] at hAfter
    exact absurd hAfter hBefore
  · obtain ⟨rfl, rfl, hGains⟩ := hEnters.gains hNumbered.table hBefore hAfter
    refine ⟨?_, hGains.beyond_eq.1⟩
    rcases hMove with rfl | ⟨rfl, hFound⟩
    · rfl
    · simp only [opening?, hFound]
  · rw [hLeft] at hAfter
    exact absurd ((OpenTable.gains_remove hGone).file?_of_some hAfter) hBefore

/-- A file that is open after some moves was open before them, or one of them opened its path
and entered it. -/
theorem entered_of_run {workplace : Workplace} (hNumbered : workplace.Numbered)
    {moves : List Move} {fd : Descriptor} {file : OpenFile}
    (hFile : (workplace.run moves).2.pager.table.file? fd = some file) :
    workplace.pager.table.file? fd = some file ∨
    ∃ meeting ∈ workplace.meetings moves, opening? meeting = some file.path ∧
      entered meeting = [(fd, file)] := by
  induction moves generalizing workplace with
  | nil => exact Or.inl hFile
  | cons move rest ih =>
      rw [run_cons] at hFile
      rcases ih (hNumbered.step move) hFile with hAfter | ⟨meeting, hMeeting, hEntered⟩
      · by_cases hBefore : workplace.pager.table.file? fd = some file
        · exact Or.inl hBefore
        · exact Or.inr ⟨_, List.mem_cons_self, hNumbered.entered_of_step hBefore hAfter⟩
      · exact Or.inr ⟨meeting, List.mem_cons_of_mem _ hMeeting, hEntered⟩

end Workplace.Numbered

/-- Being the same is an equivalence of paths: the least one by which spellings agree that add or
leave out slashes and dots that do not matter. The root, a dot at the front and double dots do
matter. In every state that a run of a session leads to, also while workers are in the middle of
their operations, the table takes all spellings of a path for one, whether it asks for a file,
destroys one or keeps the log. What it tells as the path of a file is, to the letter, what it was
asked for by the one call that entered the file, whichever spellings have come up since. -/
theorem spellings_agree :
    Equivalence Path.SameAs ∧
    (∀ path other : Path,
      (path.SameAs other ↔ Relation.EqvGen Path.Respells path other) ∧
      (path.SameAs other ↔ path.isRooted = other.isRooted ∧
        path.startsWithDot = other.startsWithDot ∧ path.steps = other.steps)) ∧
    ∀ (start : Volume) (earlier : List Instruction) (number : Nat) (pager : Pager),
      (Session.run ⟨∅, start⟩ earlier).2.pagers[number]? = some pager →
      (∀ fd file, pager.table.file? fd = some file →
        ∃ before moment later,
          Session.history ⟨∅, start⟩ earlier = before ++ moment :: later ∧
          moment.Opens number fd file ∧
          ∀ other ∈ later, other.after.openFile? number fd = some file) ∧
      ∀ (present : Volume) (moves : List Move),
        let workplace := Workplace.quiet pager present
        let reached := (workplace.run moves).2.pager
        reached.SpellsAlike ∧
        ∀ fd file, reached.table.file? fd = some file →
          pager.table.file? fd = some file ∨
          ∃ meeting ∈ workplace.meetings moves,
            Workplace.opening? meeting = some file.path ∧
            Workplace.entered meeting = [(fd, file)] := by
  refine ⟨Setoid.iseqv, fun path other => ⟨Path.sameAs_iff_eqvGen, Path.sameAs_iff⟩, ?_⟩
  intro start earlier number pager hPager
  constructor
  · intro fd file hFile
    have hFinal : (Session.run ⟨∅, start⟩ earlier).2.openFile? number fd = some file :=
      Session.openFile?_eq_some.mpr ⟨pager, hPager, hFile⟩
    rw [Session.run_singly] at hFinal
    have hSingles : ∀ single ∈ earlier.flatMap Instruction.singly, single.isSingle = true := by
      intro single hSingle
      obtain ⟨instruction, -, hOf⟩ := List.mem_flatMap.mp hSingle
      exact Instruction.isSingle_of_mem_singly hOf
    rcases Session.opens_of_openFile?_run (Session.allPagers_of_pagers_empty _ start) hSingles
      hFinal with ⟨hStart, -⟩ | hOpened
    · rw [Session.openFile?_of_pagers_empty] at hStart
      cases hStart
    · exact hOpened
  · intro present moves workplace reached
    have hStart : workplace.Numbered :=
      Workplace.numbered_quiet (Session.numbered_run start earlier number pager hPager) present
    exact ⟨Pager.spellsAlike (hStart.run moves).table.coherent,
      fun fd file hFile => hStart.entered_of_run hFile⟩

/-- A file is opened with a slash too many, and asked for without it. In every spelling it is
told one descriptor and not destroyed, nor is the log, and it goes by the path with the slash.
A dot at the front and two dots make other paths. -/
theorem spellings_agree_respelled :
    let earlier : List Instruction :=
      [.build 0 { maxOpenFiles := 2, logPath := ⟨"log"⟩ }, .perform 0 (.createDirectory ⟨"d"⟩),
        .perform 0 (.createFile ⟨"d/f"⟩), .perform 0 (.openFile ⟨"d//f"⟩),
        .perform 0 (.appendLog #[1] 1), .perform 0 (.ensureOpen ⟨"d/f"⟩)]
    let session := (Session.run ⟨∅, .empty⟩ earlier).2
    let file : OpenFile := ⟨⟨"d//f"⟩, ⟨⟨0⟩, 0⟩⟩
    (∃ moment ∈ Session.history ⟨∅, .empty⟩ earlier, moment.Opens 0 ⟨0⟩ file) ∧
    (∃ pager ∈ session.pagers[0]?,
      (∃ fd, (pager.ensureOpen session.volume ⟨"d/f"⟩).result = .ok fd ∧
        (pager.ensureOpen session.volume ⟨"d/./f/"⟩).result = .ok fd) ∧
      (pager.destroyFile session.volume ⟨"d/./f/"⟩).volume = session.volume ∧
      (pager.destroyFile session.volume ⟨"log/."⟩).result = .error (.fileNotClosed ⟨"log/."⟩) ∧
      (pager.pathOf session.volume ⟨0⟩).result = .ok ⟨"d//f"⟩) ∧
    ¬Path.SameAs ⟨"./f"⟩ ⟨"f"⟩ ∧ ¬Path.SameAs ⟨"d/../f"⟩ ⟨"f"⟩ := by
  intro earlier session file
  have hFile : session.openFile? 0 ⟨0⟩ = some file := by decide +kernel +revert
  obtain ⟨pager, hPager, hTracked⟩ := Session.openFile?_eq_some.mp hFile
  have hLog : ∀ pager ∈ session.pagers[0]?, pager.log.isSome ∧ pager.logPath = ⟨"log"⟩ ∧
      pager.table.isOpen ⟨"d/f"⟩ = true := by decide +kernel +revert
  obtain ⟨hOpened, hPath, hKnown⟩ := hLog pager hPager
  obtain ⟨-, hPaths, hStates⟩ := spellings_agree
  obtain ⟨hOpenings, hReached⟩ := hStates .empty earlier 0 pager hPager
  have hAlike : pager.SpellsAlike := (hReached session.volume []).1
  obtain ⟨before, moment, later, hHistory, hOpens, -⟩ := hOpenings ⟨0⟩ file hTracked
  obtain ⟨fd, hTold⟩ := hAlike.told ⟨"d/f"⟩ hKnown
  have hRespelled := hTold ⟨"d/./f/"⟩ (by decide) session.volume
  refine ⟨⟨moment, by simp [hHistory], hOpens⟩, ⟨pager, hPager, ⟨fd, ?_, ?_⟩, ?_, ?_, ?_⟩, ?_, ?_⟩
  · rw [(hTold ⟨"d/f"⟩ (.refl _) session.volume).1]
    rfl
  · rw [hRespelled.1]
    rfl
  · rw [hRespelled.2]
    rfl
  · rw [hAlike.log_kept hOpened ⟨"log/."⟩ (by rw [hPath]; decide) session.volume]
    rfl
  · rw [hAlike.pathOf_eq ⟨0⟩ file hTracked session.volume]
    rfl
  · rw [(hPaths _ _).2]
    decide
  · rw [(hPaths _ _).2]
    decide

end Paging
