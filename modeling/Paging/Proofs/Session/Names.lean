import Paging.Proofs.Pager.Naming
import Paging.Proofs.Session.Files

/-! Names and open files from one moment of a session to the next. -/
namespace Paging

/-- The file that a pager has open under a descriptor, with its path. -/
def Session.openFile? (session : Session) (number : Nat) (fd : Descriptor) : Option OpenFile :=
  session.pagers[number]?.bind fun pager => pager.table.file? fd

theorem Session.openFile?_eq_some {session : Session} {number : Nat} {fd : Descriptor}
    {file : OpenFile} :
    session.openFile? number fd = some file ↔
      ∃ pager, session.pagers[number]? = some pager ∧ pager.table.file? fd = some file :=
  Option.bind_eq_some_iff

theorem Session.openFile?_of_pagers_empty (number : Nat) (fd : Descriptor) (volume : Volume) :
    Session.openFile? ⟨∅, volume⟩ number fd = none := by
  simp [openFile?]

/-- What is open as a file is what the descriptor stands for. -/
theorem Session.fileOf?_eq_map (session : Session) (number : Nat) (fd : Descriptor) :
    session.fileOf? number fd =
      (session.openFile? number fd).map fun file => file.handle.inode := by
  simp only [fileOf?, openFile?, Pager.handle?]
  cases session.pagers[number]? <;> simp [Function.comp_def]

/-- Directories that names lead to are there after every run. -/
theorem Session.grounded_run (instructions : List Instruction) :
    (Session.empty.run instructions).2.volume.Grounded := by
  refine invariant_of_single (P := fun session => session.volume.Grounded)
    (fun session instruction hSingle hGrounded => ?_) Volume.grounded_empty instructions
  rcases session.volume_step_cases hSingle with
    hSame | ⟨number, operation, performer, -, -, hAfter⟩ | ⟨path, bytes, -, hReplace⟩
  · rwa [hSame]
  · rw [hAfter]
    exact performer.perform_grounded hGrounded operation
  · obtain ⟨made, opened, hMade, hAfter⟩ := Volume.replaceFile_eq_ok hReplace
    rw [hAfter]
    exact (hGrounded.openOrCreate hMade).setContent made _

namespace Moment

/-- What happens at the moment takes away no name that the path needs. -/
def Spares (path : Path) (moment : Moment) : Prop :=
  match moment.instruction with
  | .perform number operation =>
    ∀ pager ∈ moment.before.pagers[number]?, pager.Spares moment.before.volume path operation
  | _ => True

instance (path : Path) (moment : Moment) : Decidable (moment.Spares path) := by
  unfold Spares
  split <;> infer_instance

/-- At the moment a path that leads to the file is to be opened as a page file. -/
def OpensPages (inode : Inode) (moment : Moment) : Prop :=
  match moment.instruction with
  | .perform _ (.openFile path) => (moment.before.volume.openFile path).toOption = some inode
  | .perform _ (.ensureOpen path) => (moment.before.volume.openFile path).toOption = some inode
  | _ => False

instance (inode : Inode) (moment : Moment) : Decidable (moment.OpensPages inode) := by
  unfold OpensPages
  split <;> infer_instance

/-- A path leads to the file that it led to after every moment that spares it. -/
theorem volume_openFile_after {moment : Moment} (hSingle : moment.instruction.isSingle = true)
    {path : Path} {inode : Inode} (hOpen : moment.before.volume.openFile path = .ok inode)
    (hSpares : moment.Spares path) : moment.after.volume.openFile path = .ok inode := by
  unfold Moment.after
  rcases moment.before.volume_step_cases hSingle with
    hSame | ⟨number, operation, performer, hInstruction, hPerformer, hAfter⟩ |
      ⟨other, bytes, -, hReplace⟩
  · rwa [hSame]
  · rw [Spares, hInstruction] at hSpares
    rw [hAfter]
    exact Pager.openFile_perform hOpen (hSpares performer hPerformer)
  · obtain ⟨made, opened, hMade, hAfter⟩ := Volume.replaceFile_eq_ok hReplace
    have hKeeps := (Volume.openOrCreate_keepsNames hMade).trans
      (opened.keepsNames_setContent made (.ofBytes bytes))
    rw [hAfter]
    exact hKeeps.openFile hOpen

/-- A file that is open after a moment was open before, or its pager opened its path then,
which led to it. -/
theorem openFile?_after {moment : Moment} (hSingle : moment.instruction.isSingle = true)
    {number : Nat} {fd : Descriptor} {file : OpenFile}
    (hFile : moment.after.openFile? number fd = some file) :
    moment.before.openFile? number fd = some file ∨
      ((moment.instruction = .perform number (.openFile file.path) ∨
        moment.instruction = .perform number (.ensureOpen file.path)) ∧
        file.NamedOn moment.before.volume) := by
  obtain ⟨pager, hPager, hTracked⟩ := Session.openFile?_eq_some.mp hFile
  unfold Moment.after at hPager
  rcases moment.before.pagers_step_cases hSingle number with
    hSame | ⟨config, created, -, hCreate, hAfter⟩ | ⟨-, hAfter⟩ |
      ⟨operation, performer, hInstruction, hPerformer, hAfter⟩
  · exact Or.inl (Session.openFile?_eq_some.mpr ⟨pager, hSame ▸ hPager, hTracked⟩)
  · rw [hAfter] at hPager
    cases hPager
    rw [(Pager.create_eq_ok hCreate).1] at hTracked
    simp [OpenTable.file?, OpenTable.empty] at hTracked
  · rw [hAfter] at hPager
    cases hPager
  · rw [hAfter] at hPager
    cases hPager
    rcases Pager.file_of_perform hTracked with hBefore | ⟨hOpening, hNamed⟩
    · exact Or.inl (Session.openFile?_eq_some.mpr ⟨performer, hPerformer, hBefore⟩)
    · refine Or.inr ⟨?_, hNamed⟩
      rw [hInstruction]
      simpa using hOpening

end Moment

end Paging
