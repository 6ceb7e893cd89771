import Paging.Proofs.OpenTable.LeastDescriptor

/-! Two ways of opening a file. One looks for the file before it looks into the table, the
other looks into the table first; they differ only for a path that is open and leads to no
file any more. -/
namespace Paging

/-- Every file can be opened, and nothing else can. -/
theorem Volume.isFile_iff {volume : Volume} {path : Path} :
    volume.isFile path = true ↔ ∃ inode, volume.openFile path = .ok inode := by
  unfold isFile openFile
  cases volume.status path with
  | error fault => simp
  | ok node => cases node <;> simp

namespace Pager

variable {pager : Pager} {volume : Volume} {path : Path} {fd : Descriptor}

/-- The descriptor of a path that is open is told again, however full the table is. -/
theorem openTracked_of_known (hKnown : pager.table.descriptor? path = some fd) :
    pager.openTracked volume path = pager.unchanged volume (.ok fd) := by
  simp only [openTracked, hKnown]

theorem ensureOpen_of_known (hKnown : pager.table.descriptor? path = some fd) :
    pager.ensureOpen volume path = pager.unchanged volume (.ok fd) := by
  simp only [ensureOpen, hKnown]

theorem openFile_of_known (hKnown : pager.table.descriptor? path = some fd)
    (hFile : volume.isFile path = true) :
    pager.openFile volume path = pager.unchanged volume (.ok fd) := by
  rw [openFile, if_pos hFile, openTracked_of_known hKnown]

/-- What is no file is not found, even when it is open. -/
theorem openFile_of_not_isFile (hNone : volume.isFile path = false) :
    pager.openFile volume path = pager.unchanged volume (.error (.fileNotFound path)) := by
  simp [openFile, hNone]

/-- For a path that is not open it makes no difference where one looks first. -/
theorem openFile_eq_ensureOpen (hNew : pager.table.descriptor? path = none) :
    pager.openFile volume path = pager.ensureOpen volume path := by
  simp only [openFile, ensureOpen, hNew]

/-- A table in which all places are taken lets no new path in. -/
theorem openTracked_of_full (hNew : pager.table.descriptor? path = none)
    (hFull : pager.table.count = pager.table.capacity) :
    pager.openTracked volume path =
      { pager.unchanged volume (.error (.tooManyOpenFiles pager.table.capacity)) with
        events := [.tableFull path] } := by
  have hIsFull : pager.table.isFull = true := by simp [OpenTable.isFull, hFull]
  simp only [openTracked, hNew, hIsFull, if_true]

/-- A new path that is entered in the table is told its descriptor, and that is recorded. -/
theorem openTracked_of_insert (hNew : pager.table.descriptor? path = none) {inode : Inode}
    (hOpen : volume.openFile path = .ok inode) {table : OpenTable}
    (hInsert : pager.table.insert path inode = .ok (fd, table)) :
    pager.openTracked volume path =
      { result := .ok fd, pager := { pager with table }, volume, events := [.opened path fd] } := by
  have hRoom := OpenTable.count_lt_of_insert_eq_ok hNew hInsert
  have hNotFull : pager.table.isFull = false := by simp [OpenTable.isFull, hRoom]
  simp [openTracked, hNew, hNotFull, hOpen, hInsert]

/-- As long as there is room, a new path that leads to a file is entered under the least
free descriptor. -/
theorem Sound.openTracked_of_room (hSound : pager.Sound)
    (hNew : pager.table.descriptor? path = none)
    (hRoom : pager.table.count < pager.table.capacity) {inode : Inode}
    (hOpen : volume.openFile path = .ok inode) :
    ∃ fd table, pager.table.IsLeastFree fd ∧ table.descriptor? path = some fd ∧
      pager.openTracked volume path =
        { result := .ok fd, pager := { pager with table }, volume, events := [.opened path fd] } := by
  have hOrderly := hSound.coherent.orderly (Or.inl hSound.capacity_lt)
  obtain ⟨fd, table, hInsert, hKnown, hLeast, -⟩ := hOrderly.insert_least path inode hNew hRoom
  exact ⟨fd, table, hLeast, hKnown, openTracked_of_insert hNew hOpen hInsert⟩

end Pager

/-- In every pager that a run can lead to, both ways of opening a path have the same outcome
(result, pager, volume and records), unless the path is open and leads to no file any more:
then the one that looks for the file first does not find it, and the other tells the
descriptor, both without any effect. A path that is open and leads to a file is told its
descriptor, even when the table is full. A path that is not open and leads to no file is not
found. A file that is not open is refused when there are as many open files as slots, and
otherwise gets the least descriptor that is free, which both ways tell again from then on
without any further effect. -/
theorem openings_agree (start : Volume) (instructions : List Instruction) {number : Nat}
    {pager : Pager}
    (hPager : (Session.run ⟨∅, start⟩ instructions).2.pagers[number]? = some pager)
    (path : Path) :
    let volume := (Session.run ⟨∅, start⟩ instructions).2.volume
    let opened := pager.openFile volume path
    let ensured := pager.ensureOpen volume path
    let known := pager.table.descriptor? path
    let found := volume.isFile path
    let slots := pager.counters.slots
    (known = none ∨ found = true → opened = ensured) ∧
    (∀ fd, known = some fd → found = true → opened = pager.unchanged volume (.ok fd)) ∧
    (known = none → found = false →
      opened = pager.unchanged volume (.error (.fileNotFound path))) ∧
    (known = none → found = true → pager.table.count = slots →
      opened = { pager.unchanged volume (.error (.tooManyOpenFiles slots)) with
        events := [.tableFull path] }) ∧
    (known = none → found = true → pager.table.count ≠ slots →
      ∃ fd table, pager.table.IsLeastFree fd ∧
        opened =
          { result := .ok fd, pager := { pager with table }, volume, events := [.opened path fd] } ∧
        opened.pager.openFile volume path = opened.pager.unchanged volume (.ok fd) ∧
        opened.pager.ensureOpen volume path = opened.pager.unchanged volume (.ok fd)) ∧
    (∀ fd, known = some fd → found = false →
      opened = pager.unchanged volume (.error (.fileNotFound path)) ∧
      ensured = pager.unchanged volume (.ok fd)) ∧
    (opened ≠ ensured ↔ known ≠ none ∧ found = false) := by
  intro volume opened ensured known found slots
  have hSound : pager.Sound := Session.sound_run start instructions number pager hPager
  have hSlots : slots = pager.table.capacity := hSound.slots_eq
  have hAgree : known = none ∨ found = true → opened = ensured := by
    intro hCase
    cases hKnown : known with
    | none => exact Pager.openFile_eq_ensureOpen hKnown
    | some fd =>
        have hFound : found = true := hCase.resolve_left (by simp [hKnown])
        exact (Pager.openFile_of_known hKnown hFound).trans
          (Pager.ensureOpen_of_known hKnown).symm
  have hDiffer : ∀ fd, known = some fd → found = false →
      opened = pager.unchanged volume (.error (.fileNotFound path)) ∧
      ensured = pager.unchanged volume (.ok fd) := by
    intro fd hKnown hNone
    exact ⟨Pager.openFile_of_not_isFile hNone, Pager.ensureOpen_of_known hKnown⟩
  refine ⟨hAgree, fun fd hKnown hFound => Pager.openFile_of_known hKnown hFound,
    fun _ hNone => Pager.openFile_of_not_isFile hNone, ?full, ?room, hDiffer, ?differ⟩
  case full =>
    intro hNew hFound hFull
    rw [hSlots] at hFull ⊢
    exact (if_pos hFound).trans (Pager.openTracked_of_full hNew hFull)
  case room =>
    intro hNew hFound hRoom
    obtain ⟨inode, hOpen⟩ := Volume.isFile_iff.mp hFound
    have hLess : pager.table.count < pager.table.capacity :=
      Nat.lt_of_le_of_ne hSound.coherent.count_le_capacity (hSlots ▸ hRoom)
    obtain ⟨fd, table, hLeast, hKnown, hOutcome⟩ := hSound.openTracked_of_room hNew hLess hOpen
    have hOpened : opened = _ := (if_pos hFound).trans hOutcome
    refine ⟨fd, table, hLeast, hOpened, ?_⟩
    rw [hOpened]
    exact ⟨Pager.openFile_of_known hKnown hFound, Pager.ensureOpen_of_known hKnown⟩
  case differ =>
    constructor
    · intro hOther
      have hNeither := not_or.mp fun hCase => hOther (hAgree hCase)
      exact ⟨hNeither.1, Bool.eq_false_iff.mpr hNeither.2⟩
    · intro hBoth hSame
      obtain ⟨fd, hKnown⟩ := Option.ne_none_iff_exists'.mp hBoth.1
      obtain ⟨hOpened, hEnsured⟩ := hDiffer fd hKnown hBoth.2
      have hResults := congrArg Outcome.result (hOpened.symm.trans (hSame.trans hEnsured))
      cases hResults

/-- A file that is open is destroyed by another spelling of its path. The path is then found
by one way of opening only, and another file is opened by both. -/
theorem openings_agree_unlinked :
    let instructions : List Instruction :=
      [.build 0 { maxOpenFiles := 2 }, .perform 0 (.createFile ⟨"f"⟩),
        .perform 0 (.openFile ⟨"f"⟩), .perform 0 (.destroyFile ⟨"./f"⟩),
        .perform 0 (.createFile ⟨"g"⟩)]
    let session := (Session.run ⟨∅, .empty⟩ instructions).2
    ∃ pager, session.pagers[0]? = some pager ∧
      (pager.openFile session.volume ⟨"f"⟩).result = .error (.fileNotFound ⟨"f"⟩) ∧
      (pager.ensureOpen session.volume ⟨"f"⟩).result = .ok ⟨0⟩ ∧
      pager.openFile session.volume ⟨"g"⟩ = pager.ensureOpen session.volume ⟨"g"⟩ := by
  intro instructions session
  have hState : session.pagers[0]?.map (fun pager =>
      (pager.table.descriptor? ⟨"f"⟩, pager.table.descriptor? ⟨"g"⟩)) = some (some ⟨0⟩, none) := by
    decide +kernel +revert
  have hGone : session.volume.isFile ⟨"f"⟩ = false := by decide +kernel +revert
  obtain ⟨pager, hPager, hTold⟩ := Option.map_eq_some_iff.mp hState
  obtain ⟨hKnown, hNew⟩ := Prod.mk.inj hTold
  obtain ⟨-, -, -, -, -, hDiffer, -⟩ := openings_agree .empty instructions hPager ⟨"f"⟩
  obtain ⟨hOpened, hEnsured⟩ := hDiffer ⟨0⟩ hKnown hGone
  exact ⟨pager, hPager, congrArg Outcome.result hOpened, congrArg Outcome.result hEnsured,
    (openings_agree .empty instructions hPager ⟨"g"⟩).1 (Or.inl hNew)⟩

end Paging
