import Paging.Proofs.OpenTable.LeastDescriptor
import Paging.Proofs.Session.Names

/-! Open files and their names through a run. A file keeps the name by which it was
opened until a path of another spelling is destroyed that leads there, or a directory
on the way; nobody looks out for that. -/
namespace Paging

/-- A path leads to its open file after a run that spared it for as long as the file was
open. -/
theorem Session.namedOn_run {session : Session} {instructions : List Instruction} {number : Nat}
    {fd : Descriptor} {file : OpenFile}
    (hStart : session.openFile? number fd = some file → file.NamedOn session.volume)
    (hSpares : ∀ moment ∈ session.history instructions,
      moment.before.openFile? number fd = some file → moment.Spares file.path)
    (hFile : (session.run instructions).2.openFile? number fd = some file) :
    file.NamedOn (session.run instructions).2.volume := by
  refine (invariant_of_history (P := fun session =>
    session.openFile? number fd = some file → file.NamedOn session.volume)
    hStart fun moment hMoment hBefore hAfter => ?_).2 hFile
  have hSingle := isSingle_of_mem_history hMoment
  rcases Moment.openFile?_after hSingle hAfter with hOpen | ⟨hOpening, hNamed⟩
  · exact Moment.volume_openFile_after hSingle (hBefore hOpen) (hSpares moment hMoment hOpen)
  · -- Opening a file takes no name away.
    refine Moment.volume_openFile_after hSingle hNamed ?_
    rcases hOpening with hOpening | hOpening <;> simp [Moment.Spares, hOpening, Pager.Spares]

/-- What an opening tells is open by then under a path that is the same. It was open
before, or its path leads to it; and if its path leads to it, no other file is found by
the path that was asked for. -/
theorem Pager.Sound.file_of_opening {pager : Pager} (hSound : pager.Sound) {volume : Volume}
    {path : Path} {operation : Operation} {fd : Descriptor}
    (hOpening : operation = .openFile path ∨ operation = .ensureOpen path)
    (hResult : (pager.perform volume operation).result = .ok (.descriptor fd)) :
    ∃ file, (pager.perform volume operation).pager.table.file? fd = some file ∧
      path.SameAs file.path ∧ (pager.table.file? fd = some file ∨ file.NamedOn volume) ∧
      (file.NamedOn volume → ∀ inode, volume.openFile path = .ok inode →
        inode = file.handle.inode) := by
  have hKnown := (Pager.descriptor?_perform_of_opening hOpening hResult).1
  have hCoherent := (hSound.perform volume operation).coherent
  obtain ⟨file, hFile, hPath⟩ := (hCoherent.byPath_iff _ _).mp hKnown
  have hSame : path.SameAs file.path := hPath.symm
  exact ⟨file, hFile, hSame, (Pager.file_of_perform hFile).imp_right And.right,
    fun hNamed inode hOpen => Volume.openFile_eq_of_sameAs hSame hOpen hNamed⟩

/-- Whatever several pagers do on one volume, the path by which a file was opened leads to
that very file, as long as nothing that was done since took one of the names away that it
needs. A path that is open, in any spelling that is the same, is never destroyed. What
is not looked out for is a path that is not the same and leads to the same name, and a
directory in which the path looks a name up: when such a file or directory is destroyed,
the open file has lost its name. A descriptor that is told for a path is that of a file
open under a path that is the same; it was open before, or its path leads to it, and as
long as its path does, the path that was asked for leads to no other file. -/
theorem open_files_named (volume : Volume) (instructions : List Instruction) :
    let start : Session := ⟨∅, volume⟩
    let session := (start.run instructions).2
    ∀ (number : Nat) (pager : Pager), session.pagers[number]? = some pager →
      (∀ fd file, pager.table.file? fd = some file →
        ((∀ moment ∈ start.history instructions,
            moment.before.openFile? number fd = some file → moment.Spares file.path) →
          file.NamedOn session.volume) ∧
        (∀ path, path.SameAs file.path → pager.destroyFile session.volume path =
          { pager.unchanged session.volume (.error (.fileNotClosed path)) with
            events := [.refusedDestroy path] }) ∧
        (file.NamedOn session.volume → ∀ other,
          ((pager.destroyFile session.volume other).result = .ok () →
            (file.NamedOn (pager.destroyFile session.volume other).volume ↔
              session.volume.nameOf? other ≠ session.volume.nameOf? file.path)) ∧
          ∀ directory name, session.volume.directoryAt other = .ok directory →
            (directory, name) ∈ session.volume.lookups [] file.path.segments →
            ¬file.NamedOn (pager.destroyDirectory session.volume other).volume)) ∧
      ∀ path operation fd, operation = .openFile path ∨ operation = .ensureOpen path →
        (pager.perform session.volume operation).result = .ok (.descriptor fd) →
        (operation = .openFile path → session.volume.isFile path = true) ∧
        ∃ file, (pager.perform session.volume operation).pager.table.file? fd = some file ∧
          path.SameAs file.path ∧
          (pager.table.file? fd = some file ∨ file.NamedOn session.volume) ∧
          (file.NamedOn session.volume → ∀ inode, session.volume.openFile path = .ok inode →
            inode = file.handle.inode) := by
  intro start session number pager hPager
  have hSound : pager.Sound := Session.sound_run volume instructions number pager hPager
  refine ⟨fun fd file hFile => ⟨fun hSpares => ?_, fun path hSame => ?_, fun hNamed other => ?_⟩,
    fun path operation fd hOpening hResult => ?_⟩
  · refine Session.namedOn_run (fun hOpen => ?_) hSpares
      (Session.openFile?_eq_some.mpr ⟨pager, hPager, hFile⟩)
    rw [Session.openFile?_of_pagers_empty] at hOpen
    cases hOpen
  · refine Pager.destroyFile_of_guards (Pager.guards_of_isOpen ?_) session.volume
    have hKnown := (hSound.coherent.byPath_iff _ _).mpr ⟨file, hFile, hSame.symm⟩
    rw [OpenTable.isOpen, Std.ExtTreeMap.contains_eq_isSome_getElem?, hKnown]
    rfl
  · refine ⟨fun hResult => ?_, fun directory name hDirectory hLook => ?_⟩
    · rcases (Pager.destroyFile_cases pager session.volume other).2 with
        ⟨-, hFailed⟩ | ⟨-, -, hUnlink⟩
      · exact absurd hResult hFailed
      · exact Volume.openFile_unlink_iff hUnlink hNamed
    · rw [OpenFile.NamedOn, (Pager.destroyDirectory_eq pager session.volume other).2]
      exact Volume.openFile_removeDirectories_ne hDirectory hLook _
  · exact ⟨(Pager.descriptor?_perform_of_opening hOpening hResult).2,
      hSound.file_of_opening hOpening hResult⟩

/-- A file stays open by its name while another is destroyed, and is not destroyed by
another spelling that is the same. -/
theorem open_files_named_beside_destroyed :
    let instructions : List Instruction :=
      [.build 0 { maxOpenFiles := 2 }, .perform 0 (.createFile ⟨"f"⟩),
        .perform 0 (.openFile ⟨"f"⟩), .perform 0 (.createFile ⟨"g"⟩),
        .perform 0 (.destroyFile ⟨"./g"⟩), .perform 0 (.destroyFile ⟨"f//."⟩)]
    let session := (Session.run ⟨∅, .empty⟩ instructions).2
    session.openFile? 0 ⟨0⟩ = some ⟨⟨"f"⟩, ⟨⟨0⟩, 0⟩⟩ ∧
      session.volume.openFile ⟨"f"⟩ = .ok ⟨0⟩ := by
  intro instructions session
  have hFile : session.openFile? 0 ⟨0⟩ = some ⟨⟨"f"⟩, ⟨⟨0⟩, 0⟩⟩ := by decide +kernel +revert
  obtain ⟨pager, hPager, hTracked⟩ := Session.openFile?_eq_some.mp hFile
  have hNamed := ((open_files_named .empty instructions 0 pager hPager).1 _ _ hTracked).1
    (by decide +kernel +revert)
  exact ⟨hFile, hNamed⟩

/-- What is not looked out for: the file that is open under `f` is destroyed by the path
`./f`, and the file that is open under `d/f` with its directory. Both stay open, and the
descriptor that is told for `f`, made anew, still writes to the file that is gone. -/
theorem open_file_loses_name :
    let instructions : List Instruction :=
      [.build 0 { maxOpenFiles := 2 }, .perform 0 (.createFile ⟨"f"⟩),
        .perform 0 (.openFile ⟨"f"⟩), .perform 0 (.createDirectory ⟨"d"⟩),
        .perform 0 (.createFile ⟨"d/f"⟩), .perform 0 (.openFile ⟨"d/f"⟩),
        .perform 0 (.destroyFile ⟨"./f"⟩), .perform 0 (.destroyDirectory ⟨"d"⟩),
        .perform 0 (.createFile ⟨"f"⟩)]
    let session := (Session.run ⟨∅, .empty⟩ instructions).2
    (∃ file ∈ session.openFile? 0 ⟨0⟩, ¬file.NamedOn session.volume) ∧
      (∃ file ∈ session.openFile? 0 ⟨1⟩, ¬file.NamedOn session.volume) ∧
      session.pagers[0]?.bind (fun pager =>
        (pager.openFile session.volume ⟨"f"⟩).result.toOption) = some ⟨0⟩ := by
  decide +kernel

end Paging
