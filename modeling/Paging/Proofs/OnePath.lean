import Paging.Proofs.Workplace.Openings

/-! Several workers at one path, who make, open, close and destroy the file there. The look
before an opening may be out of date by the time of the opening, two workers may be past the
guard of the path at once, and the file may be made anew before they go on; the path leads
to its open file all the same. -/
namespace Paging

namespace Workplace

/-- The path that a move opens at the workplace that it meets, if it brings an opening to its
end. -/
def opening? (meeting : Workplace × Move) : Option Path :=
  match meeting.2 with
  | .start _ (.openFile path) => some path
  | .start _ (.ensureOpen path) => some path
  | .start .. => none
  | .finish worker =>
    match meeting.1.unfinished[worker]? with
    | some (.opening path) => some path
    | _ => none

/-- The descriptor that a move tells for a path. -/
def told? (path : Path) (meeting : Workplace × Move) : Option Descriptor :=
  match (meeting.1.step meeting.2).1 with
  | some ⟨.ok (.descriptor fd), _, _⟩ => if opening? meeting = some path then some fd else none
  | _ => none

/-- A descriptor that is told for a path is the one under which the path is then open. -/
theorem descriptor?_of_told? {workplace : Workplace} {move : Move} {path : Path}
    {fd : Descriptor} (hTold : told? path (workplace, move) = some fd) :
    (workplace.step move).2.pager.table.descriptor? path = some fd := by
  obtain ⟨report, hReport, hResult, hOpening⟩ : ∃ report,
      (workplace.step move).1 = some report ∧ report.result = .ok (.descriptor fd) ∧
        opening? (workplace, move) = some path := by
    simp only [told?] at hTold
    split at hTold
    · rename_i hSome
      split at hTold
      · rename_i hOpening
        cases hTold
        exact ⟨_, hSome, rfl, hOpening⟩
      · cases hTold
    · cases hTold
  rcases workplace.step_cases move with hSame | ⟨_, _, _, -, -, -, hStep⟩ |
    ⟨worker, operation, rfl, -, -, hStep⟩ | ⟨worker, unfinished, rfl, -, hFound, hStep⟩
  · rw [hSame] at hReport
    cases hReport
  · rw [hStep] at hReport
    cases hReport
  · rw [hStep] at hReport ⊢
    cases hReport
    refine (Pager.descriptor?_perform_of_opening ?_ hResult).1
    cases operation with
    | openFile other =>
        cases hOpening
        exact Or.inl rfl
    | ensureOpen other =>
        cases hOpening
        exact Or.inr rfl
    | _ => cases hOpening
  · rw [hStep] at hReport ⊢
    cases hReport
    simp only [opening?, hFound] at hOpening
    cases unfinished with
    | opening other =>
        cases hOpening
        exact Pager.descriptor?_openTracked (Pager.result_of_map_descriptor hResult)
    | closing | destroying => cases hOpening

/-- An open file keeps its path known as long as it is not taken out. -/
theorem Numbered.descriptor?_step {workplace : Workplace} (hNumbered : workplace.Numbered)
    {move : Move} {path : Path} {fd : Descriptor}
    (hKnown : workplace.pager.table.descriptor? path = some fd)
    (hKept : ∀ entry ∈ removed (workplace, move), ¬entry.2.path.SameAs path) :
    (workplace.step move).2.pager.table.descriptor? path = some fd := by
  rcases workplace.step_records move with ⟨hSame, -⟩ |
    ⟨-, other, new, -, -, ⟨hNew, inode, -, hInsert⟩, -⟩ |
    ⟨worker, closed, file, -, -, hFile, hAfter, -⟩
  · rwa [hSame]
  · rw [(hNumbered.table.insert hNew hInsert).2.2.2, if_neg]
    · exact hKnown
    · intro hSame
      rw [OpenTable.descriptor?, hSame, ← OpenTable.descriptor?, hKnown] at hNew
      cases hNew
  · have hRemoved : removed (workplace, move) = [(closed, file)] := by
      rw [removed, hAfter]
      exact (OpenTable.gains_remove hFile).beyond_eq.1
    have hOther := hKept (closed, file) (by rw [hRemoved]; exact List.mem_singleton_self _)
    rw [hAfter, (hNumbered.table.remove hFile).2.2, if_neg hOther]
    exact hKnown

/-- What is told for a path in a run that does not take its file out is the descriptor that
the path has at the end. -/
theorem Numbered.descriptor?_of_told? {workplace : Workplace} (hNumbered : workplace.Numbered)
    {moves : List Move} {path : Path}
    (hKept : ∀ meeting ∈ workplace.meetings moves, ∀ entry ∈ removed meeting,
      ¬entry.2.path.SameAs path)
    {fd : Descriptor}
    (hTold : workplace.pager.table.descriptor? path = some fd ∨
      ∃ meeting ∈ workplace.meetings moves, told? path meeting = some fd) :
    (workplace.run moves).2.pager.table.descriptor? path = some fd := by
  induction moves generalizing workplace with
  | nil =>
      rcases hTold with hKnown | ⟨meeting, hMeeting, -⟩
      · exact hKnown
      · cases hMeeting
  | cons move rest ih =>
      rw [meetings, List.forall_mem_cons] at hKept
      rw [run_cons]
      refine ih (hNumbered.step move) hKept.2 ?_
      rcases hTold with hKnown | ⟨meeting, hMeeting, hTold⟩
      · exact Or.inl (hNumbered.descriptor?_step hKnown hKept.1)
      · rcases List.mem_cons.mp hMeeting with rfl | hLater
        · exact Or.inl (Workplace.descriptor?_of_told? hTold)
        · exact Or.inr ⟨meeting, hLater, hTold⟩

/-- A file that is open after a move was open before, or its path led to it and a worker has
opened it while nobody was about to destroy a file. -/
theorem Numbered.file?_of_step {workplace : Workplace} (hNumbered : workplace.Numbered)
    {move : Move} {fd : Descriptor} {file : OpenFile}
    (hFile : (workplace.step move).2.pager.table.file? fd = some file) :
    workplace.pager.table.file? fd = some file ∨
    ∃ worker, (move = .start worker (.ensureOpen file.path) ∨
        move = .finish worker ∧ workplace.unfinished[worker]? = some (.opening file.path)) ∧
      workplace.isLocked = false ∧
      workplace.volume.openFile file.path = .ok file.handle.inode := by
  rcases workplace.step_records move with ⟨hSame, -⟩ |
    ⟨worker, other, new, hBy, hLocked, ⟨hNew, inode, hOpen, hInsert⟩, -⟩ |
    ⟨-, closed, gone, -, -, hGone, hAfter, -⟩
  · rw [hSame] at hFile
    exact Or.inl hFile
  · have hGains := (hNumbered.table.insert hNew hInsert).2.2.1
    rw [hGains.file?_eq] at hFile
    split at hFile
    · cases hFile
      exact Or.inr ⟨worker, hBy, hLocked, hOpen⟩
    · exact Or.inl hFile
  · rw [hAfter] at hFile
    exact Or.inl ((OpenTable.gains_remove hGone).file?_of_some hFile)

/-- A path that is open leads to its file, and nobody is about to destroy it; who is in the
middle of opening or destroying it goes by this very path. -/
structure PathNamed (path : Path) (workplace : Workplace) : Prop where
  numbered : workplace.Numbered
  leads : ∀ fd file, workplace.pager.table.file? fd = some file → file.path.SameAs path →
    workplace.volume.openFile path = .ok file.handle.inode
  destroying : ∀ (worker : Nat) (other : Path),
    workplace.unfinished[worker]? = some (.destroying other) → other = path ∧
      ∀ fd file, workplace.pager.table.file? fd = some file → ¬file.path.SameAs path
  opening : ∀ (worker : Nat) (other : Path),
    workplace.unfinished[worker]? = some (.opening other) → other.SameAs path → other = path

namespace PathNamed

variable {path : Path} {workplace : Workplace} (hNamed : workplace.PathNamed path)
include hNamed

/-- As long as the path is open, nobody is about to destroy anything, whoever wants to is
refused, and no move changes what the path leads to. -/
theorem kept_while_open {fd : Descriptor} {file : OpenFile}
    (hFile : workplace.pager.table.file? fd = some file) (hPath : file.path.SameAs path) :
    workplace.isLocked = false ∧
    (∀ worker : Nat, workplace.unfinished[worker]? = none →
      workplace.step (.start worker (.destroyFile path)) =
        (some ⟨.error (.fileNotClosed path), [.refusedDestroy path], none⟩, workplace)) ∧
    ∀ move : Move, move.OnPath path →
      (workplace.step move).2.volume.openFile path = .ok file.handle.inode := by
  refine ⟨?_, fun worker hFree => ?_, fun move hMove => ?_⟩
  · rw [← Bool.not_eq_true, isLocked_iff]
    rintro ⟨worker, other, hFound⟩
    exact (hNamed.destroying worker other hFound).2 fd file hFile hPath
  · have hOpen := hNamed.numbered.table.coherent.isOpen_of_file? hFile hPath
    exact step_destroyFile_of_guards hFree (Pager.guards_of_isOpen hOpen)
  · have hDirectory : ∀ worker other, move ≠ .start worker (.destroyDirectory other) := by
      rintro worker other rfl
      exact hMove
    rcases workplace.step_keepsNames hDirectory with hKeeps | ⟨worker, other, -, hFound, -⟩
    · exact hKeeps.openFile (hNamed.leads fd file hFile hPath)
    · exact ((hNamed.destroying worker other hFound).2 fd file hFile hPath).elim

/-- Whoever gets past the guard of the path does so while it is not open. -/
theorem not_open_of_guards (hGuards : workplace.pager.guards path = false) (fd : Descriptor)
    (file : OpenFile) (hFile : workplace.pager.table.file? fd = some file) :
    ¬file.path.SameAs path := by
  intro hPath
  have hOpen := hNamed.numbered.table.coherent.isOpen_of_file? hFile hPath
  rw [Pager.guards_of_isOpen hOpen] at hGuards
  cases hGuards

/-- Who comes to open the path finds the file that it leads to after the move. -/
theorem leads_step {move : Move} (hMove : move.OnPath path) {fd : Descriptor} {file : OpenFile}
    (hFile : (workplace.step move).2.pager.table.file? fd = some file)
    (hPath : file.path.SameAs path) :
    (workplace.step move).2.volume.openFile path = .ok file.handle.inode := by
  rcases hNamed.numbered.file?_of_step hFile with hBefore | ⟨worker, hBy, -, hOpen⟩
  · exact (hNamed.kept_while_open hBefore hPath).2.2 move hMove
  · have hSpelling : file.path = path := by
      rcases hBy with rfl | ⟨-, hOpening⟩
      · exact hMove hPath
      · exact hNamed.opening worker _ hOpening hPath
    have hDirectory : ∀ worker other, move ≠ .start worker (.destroyDirectory other) := by
      rintro worker other rfl
      exact hMove
    rw [hSpelling] at hOpen
    rcases workplace.step_keepsNames hDirectory with hKeeps | ⟨other, _, hFinish, hDestroying, -⟩
    · exact hKeeps.openFile hOpen
    · -- The worker who opens the path cannot be the one who destroys it.
      rcases hBy with rfl | ⟨rfl, hOpening⟩
      · cases hFinish
      · cases hFinish
        rw [hOpening] at hDestroying
        cases hDestroying

/-- Whoever is about to destroy the path after a move keeps it from being opened. -/
theorem destroying_step {move : Move} (hMove : move.OnPath path) {worker : Nat} {other : Path}
    (hFound : (workplace.step move).2.unfinished[worker]? = some (.destroying other)) :
    other = path ∧ ∀ fd file, (workplace.step move).2.pager.table.file? fd = some file →
      ¬file.path.SameAs path := by
  rcases unfinished_step hFound with hBefore | ⟨operation, rfl, -, hBegin⟩
  · obtain ⟨hOther, hNotOpen⟩ := hNamed.destroying worker other hBefore
    refine ⟨hOther, fun fd file hFile => ?_⟩
    rcases hNamed.numbered.file?_of_step hFile with hSame | ⟨_, -, hLocked, -⟩
    · exact hNotOpen fd file hSame
    · rw [(isLocked_iff _).mpr ⟨worker, other, hBefore⟩] at hLocked
      cases hLocked
  · rcases Pager.begin_eq_inl hBegin with ⟨_, -, hOther, -⟩ | ⟨_, _, -, hOther, -⟩ |
      ⟨_, rfl, hDestroying, hGuards⟩
    · cases hOther
    · cases hOther
    · cases hDestroying
      obtain rfl : other = path := hMove
      refine ⟨rfl, fun fd file hFile => ?_⟩
      rcases hNamed.numbered.file?_of_step hFile with hSame | ⟨_, hBy | hBy, -⟩
      · exact hNamed.not_open_of_guards hGuards fd file hSame
      · cases hBy
      · cases hBy.1

theorem opening_step {move : Move} (hMove : move.OnPath path) {worker : Nat} {other : Path}
    (hFound : (workplace.step move).2.unfinished[worker]? = some (.opening other))
    (hSame : other.SameAs path) : other = path := by
  rcases unfinished_step hFound with hBefore | ⟨operation, rfl, -, hBegin⟩
  · exact hNamed.opening worker other hBefore hSame
  · rcases Pager.begin_eq_inl hBegin with ⟨_, rfl, hOpening, -⟩ | ⟨_, _, -, hOther, -⟩ |
      ⟨_, -, hOther, -⟩
    · cases hOpening
      exact hMove hSame
    · cases hOther
    · cases hOther

theorem step {move : Move} (hMove : move.OnPath path) :
    (workplace.step move).2.PathNamed path where
  numbered := hNamed.numbered.step move
  leads := fun _ _ hFile hPath => hNamed.leads_step hMove hFile hPath
  destroying := fun _ _ hFound => hNamed.destroying_step hMove hFound
  opening := fun _ _ hFound hSame => hNamed.opening_step hMove hFound hSame

omit hNamed in
theorem run (hNamed : workplace.PathNamed path) {moves : List Move}
    (hMoves : ∀ move ∈ moves, move.OnPath path) : (workplace.run moves).2.PathNamed path := by
  induction moves generalizing workplace with
  | nil => exact hNamed
  | cons move rest ih =>
      rw [List.forall_mem_cons] at hMoves
      rw [run_cons]
      exact ih (hNamed.step hMoves.1) hMoves.2

end PathNamed

end Workplace

/-- Several workers make, open, close and destroy the file at one path, and do other things
beside that destroy nothing and do not open the path in another spelling, their moves
falling in any order. Whenever the path is open it leads to the very file that is open,
nobody is past the guard of a file to destroy, whoever wants to destroy the path is refused,
and no move that may follow changes what the path leads to. All that is told for the path
while its file is not taken out is the one descriptor that the path then has. -/
theorem one_path_named (volume : Volume) (earlier : List Instruction) {number : Nat}
    {pager : Pager} (hPager : (Session.run ⟨∅, volume⟩ earlier).2.pagers[number]? = some pager)
    {present : Volume} {path : Path}
    (hPresent : ∀ fd file, pager.table.file? fd = some file → file.path.SameAs path →
      present.openFile path = .ok file.handle.inode)
    {moves : List Move} (hMoves : ∀ move ∈ moves, move.OnPath path) :
    let start := Workplace.quiet pager present
    let final := (start.run moves).2
    (∀ fd file, final.pager.table.file? fd = some file → file.path.SameAs path →
      final.volume.openFile path = .ok file.handle.inode ∧
      (∀ (worker : Nat) (other : Path), final.unfinished[worker]? ≠ some (.destroying other)) ∧
      (∀ worker : Nat, final.unfinished[worker]? = none →
        final.step (.start worker (.destroyFile path)) =
          (some ⟨.error (.fileNotClosed path), [.refusedDestroy path], none⟩, final)) ∧
      ∀ move : Move, move.OnPath path →
        (final.step move).2.volume.openFile path = .ok file.handle.inode) ∧
    ∀ first second, moves = first ++ second →
      let meetings := (start.run first).2.meetings second
      (∀ meeting ∈ meetings, ∀ entry ∈ Workplace.removed meeting, ¬entry.2.path.SameAs path) →
      ∀ meeting ∈ meetings, ∀ fd, Workplace.told? path meeting = some fd →
        final.pager.table.descriptor? path = some fd := by
  intro start final
  have hNumbered : start.Numbered :=
    Workplace.numbered_quiet (Session.numbered_run volume earlier number pager hPager) present
  have hStart : start.PathNamed path := by
    refine ⟨hNumbered, hPresent, fun worker other hFound => ?_, fun worker other hFound => ?_⟩
    · simp [start, Workplace.quiet] at hFound
    · simp [start, Workplace.quiet] at hFound
  have hFinal : final.PathNamed path := hStart.run hMoves
  constructor
  · intro fd file hFile hPath
    obtain ⟨hLocked, hRefused, hKept⟩ := hFinal.kept_while_open hFile hPath
    refine ⟨hFinal.leads fd file hFile hPath, fun worker other hFound => ?_, hRefused, hKept⟩
    rw [(Workplace.isLocked_iff _).mpr ⟨worker, other, hFound⟩] at hLocked
    cases hLocked
  · rintro first second rfl meetings hKept meeting hMeeting fd hTold
    simp only [final, Workplace.run_append]
    exact (hNumbered.run first).descriptor?_of_told? hKept (Or.inr ⟨meeting, hMeeting, hTold⟩)

/-- Two workers are past the guard of the path at once, and a third has seen the file that
they then destroy, the second after it was made anew. It is made once more before the
third opens it, who finds what is there by then; another is told the same descriptor. -/
theorem one_path_named_made_anew :
    let path : Path := ⟨"f"⟩
    let earlier : List Instruction := [.build 0 { maxOpenFiles := 1 }]
    let pager : Pager := ⟨.empty 1, .initial 1, ⟨"db.log"⟩, none, .zero⟩
    let first : List Move :=
      [.start 3 (.createFile path), .start 0 (.openFile path), .start 1 (.destroyFile path),
        .start 2 (.destroyFile path), .finish 1, .start 3 (.createFile path), .finish 2,
        .start 3 (.createFile path)]
    let second : List Move :=
      [.finish 0, .start 1 (.destroyFile path), .start 2 (.ensureOpen path)]
    let start := Workplace.quiet pager .empty
    let final := (start.run (first ++ second)).2
    (Session.run ⟨∅, .empty⟩ earlier).2.pagers[0]? = some pager ∧
      final.pager.table.file? ⟨0⟩ = some ⟨path, ⟨⟨2⟩, 0⟩⟩ ∧
      final.volume.openFile path = .ok ⟨2⟩ ∧
      ((start.run first).2.meetings second).map (Workplace.told? path) =
        [final.pager.table.descriptor? path, none, final.pager.table.descriptor? path] := by
  intro path earlier pager first second start final
  have hMoves : ∀ move ∈ first ++ second, move.OnPath path := by decide +kernel +revert
  have hFile : final.pager.table.file? ⟨0⟩ = some ⟨path, ⟨⟨2⟩, 0⟩⟩ := by decide +kernel +revert
  have hKept : ∀ meeting ∈ (start.run first).2.meetings second,
      ∀ entry ∈ Workplace.removed meeting, ¬entry.2.path.SameAs path := by
    decide +kernel +revert
  have hTold : ((start.run first).2.meetings second).map (Workplace.told? path) =
      [some ⟨0⟩, none, some ⟨0⟩] := by
    decide +kernel +revert
  have hPager : (Session.run ⟨∅, .empty⟩ earlier).2.pagers[0]? = some pager := by
    rfl
  obtain ⟨hOpen, hSame⟩ := one_path_named .empty earlier hPager
    (by simp [pager, OpenTable.empty, OpenTable.file?]) hMoves
  have hMember : some ⟨0⟩ ∈ ((start.run first).2.meetings second).map (Workplace.told? path) := by
    rw [hTold]
    exact List.mem_cons_self
  simp only [final, start] at hFile hKept hTold hMember ⊢
  obtain ⟨meeting, hMeeting, hFirst⟩ := List.mem_map.mp hMember
  have hKnown := hSame first second rfl hKept meeting hMeeting ⟨0⟩ hFirst
  obtain ⟨hLeads, -⟩ := hOpen ⟨0⟩ ⟨path, ⟨⟨2⟩, 0⟩⟩ hFile (Path.SameAs.refl path)
  refine ⟨hPager, hFile, hLeads, ?_⟩
  rw [hTold, hKnown]

end Paging
