import Paging.Proofs.Pager.Transfers

/-! Pagers and the volume they work on. Whatever a pager has open is on its volume,
with or without a name, and stays there through every operation of any pager. -/
namespace Paging

/-- Whether an operation may change bytes of a file. -/
def Operation.writes : Operation → Bool
  | .writePage .. => true
  | .appendLog .. => true
  | _ => false

namespace Pager

/-- All that the pager has open is on the volume. -/
structure HeldBy (pager : Pager) (volume : Volume) : Prop where
  handles : ∀ (fd : Descriptor) (handle : Handle), pager.handle? fd = some handle →
    handle.inode.index < volume.contents.size
  log : ∀ inode : Inode, pager.log = some inode → inode.index < volume.contents.size

theorem HeldBy.mono {pager : Pager} {volume after : Volume} (hHeld : pager.HeldBy volume)
    (hSize : volume.contents.size ≤ after.contents.size) : pager.HeldBy after where
  handles := fun fd handle hHandle => Nat.lt_of_lt_of_le (hHeld.handles fd handle hHandle) hSize
  log := fun inode hLog => Nat.lt_of_lt_of_le (hHeld.log inode hLog) hSize

theorem heldBy_of_create_eq_ok {config : Config} {pager : Pager}
    (hCreate : Pager.create config = .ok pager) (volume : Volume) : pager.HeldBy volume := by
  rw [(create_eq_ok hCreate).1]
  refine ⟨fun fd handle hHandle => ?_, by simp⟩
  simp [handle?, OpenTable.file?, OpenTable.empty] at hHandle

/-- A log that is in use, and one that is only now opened, is on the volume. -/
theorem HeldBy.index_lt_of_accessLog {pager : Pager} {volume : Volume}
    (hHeld : pager.HeldBy volume) (hVolume : volume.Held) {access : LogAccess}
    (hAccess : pager.accessLog volume = .ok access) :
    access.inode.index < access.volume.contents.size := by
  rcases (accessLog_eq_ok hAccess).2 with ⟨hLog, hSame⟩ | ⟨-, hOpen⟩
  · rw [hSame]
    exact hHeld.log access.inode hLog
  · exact (Volume.openOrCreate_extends hOpen).2 hVolume

/-- What an operation can make of a volume: nothing else, files that were given bytes, the
log opened, with or without bytes appended, a new file or new directories, or names that
were taken away by destroying. -/
inductive Leaves (pager : Pager) (volume : Volume) (operation : Operation) : Volume → Prop
  | same : Leaves pager volume operation volume
  | written (hWrites : operation.writes = true) (inode : Inode) (content : Content) :
      Leaves pager volume operation (volume.setContent inode content)
  | accessed {access : LogAccess} (hAccess : pager.accessLog volume = .ok access) :
      Leaves pager volume operation access.volume
  | appended (hWrites : operation.writes = true) {access : LogAccess}
      (hAccess : pager.accessLog volume = .ok access) (content : Content) :
      Leaves pager volume operation (access.volume.setContent access.inode content)
  | made {path : Path} {inode : Inode} {made : Volume}
      (hCreate : volume.createFile path = .ok (inode, made)) :
      Leaves pager volume operation made
  | madeDirectories (path : Path) :
      Leaves pager volume operation (volume.createDirectories path).2
  | unlinked {path : Path} {left : Volume} (hDestroys : operation = .destroyFile path)
      (hUnlink : volume.unlink path = .ok left) : Leaves pager volume operation left
  | removed {path : Path} (hDestroys : operation = .destroyDirectory path) :
      Leaves pager volume operation (volume.removeDirectories path).2

theorem leaves_of_eq {pager : Pager} {volume after : Volume} {operation : Operation}
    (hSame : after = volume) : pager.Leaves volume operation after := by
  rw [hSame]
  exact .same

theorem leaves_writePage (pager : Pager) (volume : Volume) (fd : Descriptor) (page : PageNo)
    (data : Array UInt8) (count : Nat) :
    pager.Leaves volume (.writePage fd page data count)
      (pager.writePage volume fd page data count).volume := by
  rcases writePage_cases pager volume fd page data count with
    ⟨hSame, -⟩ | ⟨handle, content, -, hAfter, -⟩
  · exact leaves_of_eq hSame
  · rw [hAfter]
    exact .written rfl _ _

theorem leaves_appendLog (pager : Pager) (volume : Volume) (data : Array UInt8) (count : Nat) :
    pager.Leaves volume (.appendLog data count) (pager.appendLog volume data count).volume := by
  rcases appendLog_cases pager volume data count with
    ⟨hSame, -⟩ | ⟨access, hAccess, -, ⟨hAfter, -⟩ | ⟨content, hAfter, -⟩⟩
  · exact leaves_of_eq hSame
  · rw [hAfter]
    exact .accessed hAccess
  · rw [hAfter]
    exact .appended rfl hAccess _

theorem leaves_readLog (pager : Pager) (volume : Volume) (buffer : Array UInt8)
    (count offset : Nat) :
    pager.Leaves volume (.readLog buffer count offset)
      (pager.readLog volume buffer count offset).volume := by
  rcases readLog_cases pager volume buffer count offset with
    ⟨hSame, -⟩ | ⟨access, hAccess, hAfter, -⟩
  · exact leaves_of_eq hSame
  · rw [hAfter]
    exact .accessed hAccess

theorem leaves_createDirectory (pager : Pager) (volume : Volume) (path : Path) :
    pager.Leaves volume (.createDirectory path) (pager.createDirectory volume path).volume := by
  rw [(createDirectory_eq pager volume path).2]
  exact .madeDirectories path

theorem leaves_destroyDirectory (pager : Pager) (volume : Volume) (path : Path) :
    pager.Leaves volume (.destroyDirectory path) (pager.destroyDirectory volume path).volume := by
  rw [(destroyDirectory_eq pager volume path).2]
  exact .removed rfl

theorem leaves_createFile (pager : Pager) (volume : Volume) (path : Path) :
    pager.Leaves volume (.createFile path) (pager.createFile volume path).volume := by
  rcases (createFile_cases pager volume path).2 with hSame | ⟨inode, hMade⟩
  · exact leaves_of_eq hSame
  · exact .made hMade

theorem leaves_destroyFile (pager : Pager) (volume : Volume) (path : Path) :
    pager.Leaves volume (.destroyFile path) (pager.destroyFile volume path).volume := by
  rcases (destroyFile_cases pager volume path).2 with ⟨hSame, -⟩ | ⟨-, -, hUnlink⟩
  · exact leaves_of_eq hSame
  · exact .unlinked rfl hUnlink

theorem perform_leaves (pager : Pager) (volume : Volume) (operation : Operation) :
    pager.Leaves volume operation (pager.perform volume operation).volume := by
  cases operation with
  | writePage fd page data count => exact leaves_writePage pager volume fd page data count
  | appendLog data count => exact leaves_appendLog pager volume data count
  | readLog buffer count offset => exact leaves_readLog pager volume buffer count offset
  | createDirectory path => exact leaves_createDirectory pager volume path
  | destroyDirectory path => exact leaves_destroyDirectory pager volume path
  | createFile path => exact leaves_createFile pager volume path
  | destroyFile path => exact leaves_destroyFile pager volume path
  | readPage fd page buffer count =>
      exact leaves_of_eq (readPage_pager pager volume fd page buffer count).1
  | allocatePage fd => exact leaves_of_eq (allocatePage_pager pager volume fd).1
  | setNextPage fd page => exact leaves_of_eq (setNextPage_pager pager volume fd page).1
  | openFile path => exact leaves_of_eq (openFile_cases pager volume path).1
  | ensureOpen path => exact leaves_of_eq (ensureOpen_cases pager volume path).1
  | closeFile fd => exact leaves_of_eq (closeFile_eq pager volume fd).1
  | syncFile fd => exact leaves_of_eq (syncFile_eq pager volume fd).2
  | pathOf fd => exact leaves_of_eq (pathOf_eq pager volume fd).2
  | nextPage | releasePage | isDirectory | isFile | isOpen | extent | openCount | syncLog
  | logPath | statistics | resetStatistics => exact .same

/-- No operation but a write and an append changes a byte of any file. -/
theorem perform_extends (pager : Pager) (volume : Volume) {operation : Operation}
    (hReads : operation.writes = false) :
    volume.Extends (pager.perform volume operation).volume := by
  have hLeaves := perform_leaves pager volume operation
  generalize (pager.perform volume operation).volume = after at hLeaves ⊢
  cases hLeaves with
  | same => exact Volume.Extends.refl volume
  | written hWrites | appended hWrites =>
      rw [hReads] at hWrites
      cases hWrites
  | accessed hAccess => exact accessLog_extends hAccess
  | made hCreate => exact Volume.createFile_extends hCreate
  | madeDirectories path => exact volume.createDirectories_extends path
  | unlinked _ hUnlink => exact Volume.unlink_extends hUnlink
  | removed => exact volume.removeDirectories_extends _

/-- What the volume holds, it holds after every operation. -/
theorem perform_held (pager : Pager) (volume : Volume) (operation : Operation) :
    volume.contents.size ≤ (pager.perform volume operation).volume.contents.size ∧
      (volume.Held → (pager.perform volume operation).volume.Held) := by
  cases hWrites : operation.writes with
  | false =>
      have hExtends := perform_extends pager volume hWrites
      exact ⟨hExtends.size_le, hExtends.held⟩
  | true =>
      have hLeaves := perform_leaves pager volume operation
      generalize (pager.perform volume operation).volume = after at hLeaves ⊢
      cases hLeaves with
      | same => exact ⟨Nat.le_refl _, id⟩
      | written _ inode content =>
          rw [Volume.size_contents_setContent]
          exact ⟨Nat.le_refl _, fun hHeld => hHeld.setContent _ _⟩
      | accessed hAccess =>
          have hExtends := accessLog_extends hAccess
          exact ⟨hExtends.size_le, hExtends.held⟩
      | appended _ hAccess content =>
          have hExtends := accessLog_extends hAccess
          rw [Volume.size_contents_setContent]
          exact ⟨hExtends.size_le, fun hHeld => (hExtends.held hHeld).setContent _ _⟩
      | made hCreate =>
          have hExtends := Volume.createFile_extends hCreate
          exact ⟨hExtends.size_le, hExtends.held⟩
      | madeDirectories path =>
          have hExtends := volume.createDirectories_extends path
          exact ⟨hExtends.size_le, hExtends.held⟩
      | unlinked hDestroys | removed hDestroys =>
          rw [hDestroys] at hWrites
          cases hWrites

/-- An operation leaves the log as it was, open or not, or opens it. -/
theorem perform_log (pager : Pager) (volume : Volume) (operation : Operation) :
    (pager.perform volume operation).pager.log = pager.log ∨
    ∃ access, pager.accessLog volume = .ok access ∧
      (pager.perform volume operation).pager.log = some access.inode ∧
      access.volume.contents.size ≤
        (pager.perform volume operation).volume.contents.size := by
  cases operation with
  | appendLog data count =>
      simp only [perform, Outcome.map]
      rcases appendLog_cases pager volume data count with
        ⟨-, hLog, -⟩ | ⟨access, hAccess, hLog, ⟨hAfter, -⟩ | ⟨content, hAfter, -⟩⟩
      · exact Or.inl hLog
      · exact Or.inr ⟨access, hAccess, hLog, Nat.le_of_eq (by rw [hAfter])⟩
      · refine Or.inr ⟨access, hAccess, hLog, Nat.le_of_eq ?_⟩
        rw [hAfter, Volume.size_contents_setContent]
  | readLog buffer count offset =>
      simp only [perform, Outcome.map]
      rcases readLog_cases pager volume buffer count offset with
        ⟨-, hLog⟩ | ⟨access, hAccess, hAfter, hLog⟩
      · exact Or.inl hLog
      · exact Or.inr ⟨access, hAccess, hLog, Nat.le_of_eq (by rw [hAfter])⟩
  | _ => exact Or.inl ((perform_parts pager volume _).2.2 rfl)

/-- A log that is open stays the pager's log through every operation. -/
theorem log_perform {pager : Pager} {inode : Inode} (hLog : pager.log = some inode)
    (volume : Volume) (operation : Operation) :
    (pager.perform volume operation).pager.log = some inode := by
  rcases perform_log pager volume operation with hSame | ⟨access, hAccess, hOpened, -⟩
  · rw [hSame, hLog]
  · rcases (accessLog_eq_ok hAccess).2 with ⟨hFound, -⟩ | ⟨hNone, -⟩
    · rw [hOpened, ← hFound, hLog]
    · rw [hLog] at hNone
      cases hNone

theorem handle?_eq_some {pager : Pager} {fd : Descriptor} {handle : Handle} :
    pager.handle? fd = some handle ↔
      ∃ file, pager.table.byDescriptor[fd]? = some file ∧ file.handle = handle := by
  simp [handle?, OpenTable.file?]

/-- A pager that changes its table by one change has nothing else open than before, but for the
file that it enters. -/
theorem HeldBy.apply {pager : Pager} {volume : Volume} (hHeld : pager.HeldBy volume)
    (change : OpenTable.Change)
    (hInsert : ∀ path inode, change = .insert path inode → inode.index < volume.contents.size) :
    HeldBy { pager with table := pager.table.apply change } volume where
  handles := by
    intro fd handle hHandle
    obtain ⟨file, hFile, rfl⟩ := handle?_eq_some.mp hHandle
    rcases OpenTable.file_of_apply hFile with hBefore | hEntered
    · exact hHeld.handles fd file.handle (handle?_eq_some.mpr ⟨file, hBefore, rfl⟩)
    · exact hInsert _ _ hEntered
  log := hHeld.log

/-- What is open goes by the table alone. -/
theorem HeldBy.handles_of_table_eq {pager after : Pager} {volume : Volume}
    (hHeld : pager.HeldBy volume) (hTable : after.table = pager.table) (fd : Descriptor)
    (handle : Handle) (hHandle : after.handle? fd = some handle) :
    handle.inode.index < volume.contents.size := by
  rw [handle?, hTable] at hHandle
  exact hHeld.handles fd handle hHandle

/-- What a pager has open, and its volume, go together after every operation. -/
theorem HeldBy.perform {pager : Pager} {volume : Volume} (hHeld : pager.HeldBy volume)
    (hVolume : volume.Held) (operation : Operation) :
    (pager.perform volume operation).pager.HeldBy (pager.perform volume operation).volume := by
  have hSize := (perform_held pager volume operation).1
  have hMono := hHeld.mono hSize
  refine ⟨?_, fun inode hLog => ?_⟩
  · rcases (perform_parts pager volume operation).2.1 with
      hSame | ⟨path, inode, hOpen, hAfter⟩ | ⟨closed, -, hAfter⟩
    · exact hMono.handles_of_table_eq hSame
    · refine (hMono.apply (.insert path inode) ?_).handles_of_table_eq hAfter
      rintro _ _ ⟨⟩
      exact Nat.lt_of_lt_of_le (hVolume.index_lt_of_openFile hOpen) hSize
    · refine (hMono.apply (.remove closed) ?_).handles_of_table_eq hAfter
      rintro _ _ ⟨⟩
  · rcases perform_log pager volume operation with hSame | ⟨access, hAccess, hOpened, hAfter⟩
    · exact hMono.log inode (hSame ▸ hLog)
    · rw [hOpened] at hLog
      cases hLog
      exact Nat.lt_of_lt_of_le (hHeld.index_lt_of_accessLog hVolume hAccess) hAfter

end Pager

end Paging
