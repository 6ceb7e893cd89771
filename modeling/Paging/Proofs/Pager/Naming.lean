import Paging.Proofs.Pager.Holding
import Paging.Proofs.Volume.Grounded
import Paging.Proofs.Volume.Spellings

/-! Open files and the names that lead to them. A pager enters a file under a path that
leads to it. Destroying files and directories is all that can take a name away, and it
goes by the paths that it is given, not by the files that are open. -/
namespace Paging

/-- Whether an operation may take names away. -/
def Operation.removes : Operation → Bool
  | .destroyFile _ => true
  | .destroyDirectory _ => true
  | _ => false

/-- The path by which a file was opened leads to the very file that its handle reads and
writes. -/
def OpenFile.NamedOn (file : OpenFile) (volume : Volume) : Prop :=
  volume.openFile file.path = .ok file.handle.inode

theorem OpenFile.namedOn_iff {file : OpenFile} {volume : Volume} :
    (volume.openFile file.path).toOption = some file.handle.inode ↔ file.NamedOn volume := by
  unfold NamedOn
  cases volume.openFile file.path <;> simp [Except.toOption]

instance (file : OpenFile) (volume : Volume) : Decidable (file.NamedOn volume) :=
  decidable_of_iff _ OpenFile.namedOn_iff

namespace Pager

theorem unlinkFile_extends (pager : Pager) (volume : Volume) (path : Path) :
    volume.Extends (pager.unlinkFile volume path).volume := by
  rcases (pager.unlinkFile_cases volume path).2 with ⟨hSame, -⟩ | ⟨-, hUnlink⟩
  · rw [hSame]
    exact Volume.Extends.refl volume
  · exact Volume.unlink_extends hUnlink

theorem unlinkFile_grounded (pager : Pager) {volume : Volume} (hGrounded : volume.Grounded)
    (path : Path) : (pager.unlinkFile volume path).volume.Grounded := by
  rcases (pager.unlinkFile_cases volume path).2 with ⟨hSame, -⟩ | ⟨-, hUnlink⟩
  · rwa [hSame]
  · exact hGrounded.unlink hUnlink

theorem accessLog_keepsNames {pager : Pager} {volume : Volume} {access : LogAccess}
    (hAccess : pager.accessLog volume = .ok access) : volume.KeepsNames access.volume := by
  rcases (accessLog_eq_ok hAccess).2 with ⟨-, hSame⟩ | ⟨-, hOpen⟩
  · rw [hSame]
    exact Volume.KeepsNames.refl volume
  · exact Volume.openOrCreate_keepsNames hOpen

/-- No operation but destroying takes a name away. -/
theorem perform_keepsNames (pager : Pager) (volume : Volume) {operation : Operation}
    (hKeeps : operation.removes = false) :
    volume.KeepsNames (pager.perform volume operation).volume := by
  have hLeaves := perform_leaves pager volume operation
  generalize (pager.perform volume operation).volume = after at hLeaves ⊢
  cases hLeaves with
  | same => exact Volume.KeepsNames.refl volume
  | written _ inode content => exact volume.keepsNames_setContent inode content
  | accessed hAccess => exact accessLog_keepsNames hAccess
  | appended _ hAccess content =>
      exact (accessLog_keepsNames hAccess).trans (Volume.keepsNames_setContent _ _ _)
  | made hCreate => exact Volume.createFile_keepsNames hCreate
  | madeDirectories path => exact volume.createDirectories_keepsNames path
  | unlinked hDestroys | removed hDestroys =>
      rw [hDestroys] at hKeeps
      cases hKeeps

/-- Directories that names lead to are there after every operation. -/
theorem perform_grounded (pager : Pager) {volume : Volume} (hGrounded : volume.Grounded)
    (operation : Operation) : (pager.perform volume operation).volume.Grounded := by
  have hAccessed : ∀ {access : LogAccess}, pager.accessLog volume = .ok access →
      access.volume.Grounded := by
    intro access hAccess
    rcases (accessLog_eq_ok hAccess).2 with ⟨-, hSame⟩ | ⟨-, hOpen⟩
    · rwa [hSame]
    · exact hGrounded.openOrCreate hOpen
  have hLeaves := perform_leaves pager volume operation
  generalize (pager.perform volume operation).volume = after at hLeaves ⊢
  cases hLeaves with
  | same => exact hGrounded
  | written _ inode content => exact hGrounded.setContent inode content
  | accessed hAccess => exact hAccessed hAccess
  | appended _ hAccess content => exact (hAccessed hAccess).setContent _ content
  | made hCreate => exact hGrounded.createFile hCreate
  | madeDirectories path => exact hGrounded.createDirectories path
  | unlinked _ hUnlink => exact hGrounded.unlink hUnlink
  | removed => exact hGrounded.removeDirectories _

/-- The operation takes away no name that the path needs: a file that it destroys has
another name than the one that the path leads to, and a directory that it destroys is
none through which the path passes. -/
def Spares (pager : Pager) (volume : Volume) (path : Path) : Operation → Prop
  | .destroyFile other =>
    (pager.destroyFile volume other).result.isOk = true →
      volume.nameOf? other ≠ volume.nameOf? path
  | .destroyDirectory other =>
    ∀ directory ∈ (volume.directoryAt other).toOption, ¬volume.Passes path directory
  | _ => True

instance (pager : Pager) (volume : Volume) (path : Path) (operation : Operation) :
    Decidable (pager.Spares volume path operation) := by
  unfold Spares
  split <;> infer_instance

/-- A path leads to the file that it led to after every operation that spares it. -/
theorem openFile_perform {pager : Pager} {volume : Volume} {path : Path} {inode : Inode}
    (hOpen : volume.openFile path = .ok inode) {operation : Operation}
    (hSpares : pager.Spares volume path operation) :
    (pager.perform volume operation).volume.openFile path = .ok inode := by
  cases operation with
  | destroyFile other =>
      simp only [perform, Outcome.map]
      rcases (destroyFile_cases pager volume other).2 with ⟨hSame, -⟩ | ⟨-, hResult, hUnlink⟩
      · rwa [hSame]
      · exact (Volume.openFile_unlink_iff hUnlink hOpen).mpr (hSpares (by rw [hResult]; rfl))
  | destroyDirectory other =>
      simp only [perform, Outcome.map, (destroyDirectory_eq pager volume other).2]
      refine Volume.openFile_removeDirectories hOpen fun directory hDirectory => ?_
      exact hSpares directory (by rw [hDirectory]; rfl)
  | _ => exact (perform_keepsNames pager volume rfl).openFile hOpen

/-- A file that is open after an operation was open before, or the operation opened its
path, which led to it. -/
theorem file_of_perform {pager : Pager} {volume : Volume} {operation : Operation}
    {fd : Descriptor} {file : OpenFile}
    (hFile : (pager.perform volume operation).pager.table.file? fd = some file) :
    pager.table.file? fd = some file ∨
      ((operation = .openFile file.path ∨ operation = .ensureOpen file.path) ∧
        file.NamedOn volume) := by
  rcases perform_pager pager volume operation with ⟨_, hAfter⟩ | ⟨-, _, _, hAfter⟩ |
    ⟨-, _, -, hAfter⟩ | ⟨path, inode, hOpening, hOpen, hAfter⟩ | ⟨closed, -, hAfter⟩ <;>
    rw [hAfter] at hFile
  · exact Or.inl hFile
  · exact Or.inl hFile
  · exact Or.inl hFile
  · rcases OpenTable.file_of_apply hFile with hBefore | hInsert
    · exact Or.inl hBefore
    · cases hInsert
      exact Or.inr ⟨hOpening, hOpen⟩
  · rcases OpenTable.file_of_apply hFile with hBefore | hInsert
    · exact Or.inl hBefore
    · cases hInsert

/-- A path that is open, in any spelling, is guarded. -/
theorem guards_of_isOpen {pager : Pager} {path : Path} (hOpen : pager.table.isOpen path = true) :
    pager.guards path = true := by
  simp [guards, hOpen]

/-- Once the log is open, its path is guarded, in any spelling. -/
theorem guards_of_log {pager : Pager} {inode : Inode} (hLog : pager.log = some inode)
    {path : Path} (hSame : path.SameAs pager.logPath) : pager.guards path = true := by
  simp [guards, hLog, hSame]

/-- A path that is guarded is not destroyed. -/
theorem destroyFile_of_guards {pager : Pager} {path : Path} (hGuards : pager.guards path = true)
    (volume : Volume) :
    pager.destroyFile volume path =
      { pager.unchanged volume (.error (.fileNotClosed path)) with
        events := [.refusedDestroy path] } := by
  simp [destroyFile, hGuards]

/-- The descriptor that an opening tells is the one under which the path is then open. -/
theorem descriptor?_openTracked {pager : Pager} {volume : Volume} {path : Path} {fd : Descriptor}
    (hResult : (pager.openTracked volume path).result = .ok fd) :
    (pager.openTracked volume path).pager.table.descriptor? path = some fd := by
  revert hResult
  unfold openTracked
  split
  · rename_i hKnown
    rintro ⟨⟩
    exact hKnown
  · rename_i hNew
    split
    · rintro ⟨⟩
    · split
      · rintro ⟨⟩
      · rintro ⟨⟩
      · split
        · rintro ⟨⟩
        · rename_i hInsert
          rintro ⟨⟩
          simp only [OpenTable.insert, hNew] at hInsert
          split at hInsert
          · cases hInsert
          · cases hInsert
            simp [OpenTable.descriptor?]

theorem result_of_map_descriptor {outcome : Outcome Descriptor} {fd : Descriptor}
    (hMapped : (outcome.map Reply.descriptor).result = .ok (.descriptor fd)) :
    outcome.result = .ok fd := by
  cases hOutcome : outcome.result with
  | error error => simp [Outcome.map, hOutcome, Except.map] at hMapped
  | ok told =>
      simp [Outcome.map, hOutcome, Except.map] at hMapped
      rw [hMapped]

/-- Both ways of opening tell the descriptor under which the path is then open. The one
that looks for the file first has found one. -/
theorem descriptor?_perform_of_opening {pager : Pager} {volume : Volume} {path : Path}
    {operation : Operation} (hOpening : operation = .openFile path ∨ operation = .ensureOpen path)
    {fd : Descriptor} (hResult : (pager.perform volume operation).result = .ok (.descriptor fd)) :
    (pager.perform volume operation).pager.table.descriptor? path = some fd ∧
      (operation = .openFile path → volume.isFile path = true) := by
  rcases hOpening with rfl | rfl
  · have hOpened := result_of_map_descriptor hResult
    revert hOpened
    simp only [perform, Outcome.map, openFile]
    split
    · rename_i hFile
      exact fun hOpened => ⟨descriptor?_openTracked hOpened, fun _ => hFile⟩
    · rintro ⟨⟩
  · have hOpened := result_of_map_descriptor hResult
    revert hOpened
    simp only [perform, Outcome.map, ensureOpen]
    split
    · rename_i hKnown
      rintro ⟨⟩
      exact ⟨hKnown, by simp⟩
    · split
      · exact fun hOpened => ⟨descriptor?_openTracked hOpened, by simp⟩
      · rintro ⟨⟩

end Pager

end Paging
