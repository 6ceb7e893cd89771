import Paging.Proofs.OpenTable.Coherence
import Paging.Session

/-! Which parts of a pager its operations change. Only opening and closing change
the table, each by at most one change; the slots are never more or fewer. -/
namespace Paging

/-- Whether an operation goes to the log, which it opens if need be. -/
def Operation.usesLog : Operation → Bool
  | .appendLog .. => true
  | .readLog .. => true
  | _ => false

/-- Whether an operation may change where a slot stands. -/
def Operation.numbers : Operation → Bool
  | .allocatePage _ => true
  | .setNextPage .. => true
  | _ => false

namespace Pager

/-- A new pager has nothing open, and its limit is one that descriptors can count. -/
theorem create_eq_ok {config : Config} {pager : Pager} (hCreate : create config = .ok pager) :
    pager = ⟨.empty config.maxOpenFiles, .initial config.maxOpenFiles, config.logPath, none,
      .zero⟩ ∧ config.maxOpenFiles < UInt32.size := by
  unfold create at hCreate
  split at hCreate
  · cases hCreate
  · split at hCreate
    · cases hCreate
    · rename_i hFits
      cases hCreate
      exact ⟨rfl, Nat.not_le.mp hFits⟩

/-- Opening a file changes the table by at most one insertion, and nothing else
of the pager. -/
theorem openTracked_cases (pager : Pager) (volume : Volume) (path : Path) :
    (pager.openTracked volume path).volume = volume ∧
      ((pager.openTracked volume path).pager = pager ∨
        ∃ inode, volume.openFile path = .ok inode ∧ (pager.openTracked volume path).pager =
          { pager with table := pager.table.apply (.insert path inode) }) := by
  unfold openTracked
  split
  · exact ⟨rfl, Or.inl rfl⟩
  · split
    · exact ⟨rfl, Or.inl rfl⟩
    · split
      · exact ⟨rfl, Or.inl rfl⟩
      · exact ⟨rfl, Or.inl rfl⟩
      · rename_i inode hOpen
        split
        · exact ⟨rfl, Or.inl rfl⟩
        · rename_i hInsert
          exact ⟨rfl, Or.inr ⟨inode, hOpen, by simp [OpenTable.apply, hInsert]⟩⟩

theorem openFile_cases (pager : Pager) (volume : Volume) (path : Path) :
    (pager.openFile volume path).volume = volume ∧
      ((pager.openFile volume path).pager = pager ∨
        ∃ inode, volume.openFile path = .ok inode ∧ (pager.openFile volume path).pager =
          { pager with table := pager.table.apply (.insert path inode) }) := by
  unfold openFile
  split
  · exact openTracked_cases pager volume path
  · exact ⟨rfl, Or.inl rfl⟩

theorem ensureOpen_cases (pager : Pager) (volume : Volume) (path : Path) :
    (pager.ensureOpen volume path).volume = volume ∧
      ((pager.ensureOpen volume path).pager = pager ∨
        ∃ inode, volume.openFile path = .ok inode ∧ (pager.ensureOpen volume path).pager =
          { pager with table := pager.table.apply (.insert path inode) }) := by
  unfold ensureOpen
  split
  · exact ⟨rfl, Or.inl rfl⟩
  · split
    · exact openTracked_cases pager volume path
    · exact ⟨rfl, Or.inl rfl⟩

/-- Closing takes the descriptor out of the table. A descriptor that is not in
use is taken out in vain. -/
theorem closeFile_eq (pager : Pager) (volume : Volume) (fd : Descriptor) :
    (pager.closeFile volume fd).volume = volume ∧ (pager.closeFile volume fd).pager =
      { pager with table := pager.table.apply (.remove fd) } := by
  cases hFile : pager.table.file? fd with
  | none => simp [closeFile, handle?, hFile, unchanged, OpenTable.apply, OpenTable.remove]
  | some file => simp [closeFile, handle?, hFile, release, OpenTable.apply, OpenTable.remove]

theorem createDirectory_eq (pager : Pager) (volume : Volume) (path : Path) :
    (pager.createDirectory volume path).pager = pager ∧
      (pager.createDirectory volume path).volume = (volume.createDirectories path).2 := by
  unfold createDirectory
  split <;> simp_all [unchanged]

theorem destroyDirectory_eq (pager : Pager) (volume : Volume) (path : Path) :
    (pager.destroyDirectory volume path).pager = pager ∧
      (pager.destroyDirectory volume path).volume = (volume.removeDirectories path).2 := by
  unfold destroyDirectory
  split <;> simp_all [unchanged]

theorem createFile_cases (pager : Pager) (volume : Volume) (path : Path) :
    (pager.createFile volume path).pager = pager ∧
      ((pager.createFile volume path).volume = volume ∨
        ∃ inode, volume.createFile path = .ok (inode, (pager.createFile volume path).volume)) := by
  unfold createFile
  split
  · rename_i inode made hMade
    exact ⟨rfl, Or.inr ⟨inode, hMade⟩⟩
  · exact ⟨rfl, Or.inl rfl⟩
  · exact ⟨rfl, Or.inl rfl⟩

/-- Taking a name away leaves the pager as it is, and changes nothing when it fails. -/
theorem unlinkFile_cases (pager : Pager) (volume : Volume) (path : Path) :
    (pager.unlinkFile volume path).pager = pager ∧
      (((pager.unlinkFile volume path).volume = volume ∧
        (pager.unlinkFile volume path).result ≠ .ok ()) ∨
      ((pager.unlinkFile volume path).result = .ok () ∧
        volume.unlink path = .ok (pager.unlinkFile volume path).volume)) := by
  unfold unlinkFile
  split
  · rename_i hUnlink
    exact ⟨rfl, Or.inr ⟨rfl, hUnlink⟩⟩
  · exact ⟨rfl, Or.inl ⟨rfl, by simp [unchanged]⟩⟩

/-- Destroying a file leaves the pager as it is. It succeeds when the path is unlinked,
which is not tried when the pager guards it, and changes nothing otherwise. -/
theorem destroyFile_cases (pager : Pager) (volume : Volume) (path : Path) :
    (pager.destroyFile volume path).pager = pager ∧
      (((pager.destroyFile volume path).volume = volume ∧
        (pager.destroyFile volume path).result ≠ .ok ()) ∨
      (pager.guards path = false ∧ (pager.destroyFile volume path).result = .ok () ∧
        volume.unlink path = .ok (pager.destroyFile volume path).volume)) := by
  unfold destroyFile
  split
  · exact ⟨rfl, Or.inl ⟨rfl, by simp [unchanged]⟩⟩
  · rename_i hGuards
    obtain ⟨hPager, hVolume⟩ := pager.unlinkFile_cases volume path
    exact ⟨hPager, hVolume.imp_right fun hUnlink => ⟨by simpa using hGuards, hUnlink⟩⟩

theorem syncFile_eq (pager : Pager) (volume : Volume) (fd : Descriptor) :
    (pager.syncFile volume fd).pager = pager ∧ (pager.syncFile volume fd).volume = volume := by
  unfold syncFile
  split <;> exact ⟨rfl, rfl⟩

theorem pathOf_eq (pager : Pager) (volume : Volume) (fd : Descriptor) :
    (pager.pathOf volume fd).pager = pager ∧ (pager.pathOf volume fd).volume = volume := by
  unfold pathOf
  split <;> exact ⟨rfl, rfl⟩

/-- Moving pages changes nothing of a pager but its counts. -/
theorem writePage_pager (pager : Pager) (volume : Volume) (fd : Descriptor) (page : PageNo)
    (data : Array UInt8) (count : Nat) :
    ∃ statistics,
      (pager.writePage volume fd page data count).pager = { pager with statistics } := by
  unfold writePage
  split
  · exact ⟨_, rfl⟩
  · split
    · exact ⟨_, rfl⟩
    · split
      · exact ⟨_, rfl⟩
      · split <;> exact ⟨_, rfl⟩

theorem readPage_pager (pager : Pager) (volume : Volume) (fd : Descriptor) (page : PageNo)
    (buffer : Array UInt8) (count : Nat) :
    (pager.readPage volume fd page buffer count).volume = volume ∧ ∃ statistics,
      (pager.readPage volume fd page buffer count).pager = { pager with statistics } := by
  unfold readPage
  split
  · exact ⟨rfl, _, rfl⟩
  · split
    · exact ⟨rfl, _, rfl⟩
    · dsimp only
      split <;> exact ⟨rfl, _, rfl⟩

/-- An access to the log either finds it open or opens what its path leads to, and
changes nothing else of a pager. -/
theorem accessLog_eq_ok {pager : Pager} {volume : Volume} {access : LogAccess}
    (hAccess : pager.accessLog volume = .ok access) :
    access.pager = { pager with log := some access.inode } ∧
      ((pager.log = some access.inode ∧ access.volume = volume) ∨
        (pager.log = none ∧
          volume.openOrCreate pager.logPath = .ok (access.inode, access.volume))) := by
  unfold accessLog at hAccess
  split at hAccess
  · rename_i inode hLog
    cases hAccess
    exact ⟨by rw [← hLog], Or.inl ⟨hLog, rfl⟩⟩
  · rename_i hLog
    split at hAccess
    · cases hAccess
    · rename_i inode opened hOpen
      cases hAccess
      exact ⟨rfl, Or.inr ⟨hLog, hOpen⟩⟩

/-- Appending changes nothing of a pager but its counts and what it knows of the
log. -/
theorem appendLog_pager (pager : Pager) (volume : Volume) (data : Array UInt8) (count : Nat) :
    ∃ log statistics,
      (pager.appendLog volume data count).pager = { pager with log, statistics } := by
  unfold appendLog
  split
  · exact ⟨_, _, rfl⟩
  · split
    · exact ⟨_, _, rfl⟩
    · rename_i access hAccess
      have hPager := (accessLog_eq_ok hAccess).1
      split
      · exact ⟨_, _, hPager⟩
      · split
        · exact ⟨_, _, by rw [hPager]⟩
        · exact ⟨_, _, hPager⟩

theorem readLog_pager (pager : Pager) (volume : Volume) (buffer : Array UInt8)
    (count offset : Nat) :
    ∃ log statistics,
      (pager.readLog volume buffer count offset).pager = { pager with log, statistics } := by
  unfold readLog
  split
  · exact ⟨_, _, rfl⟩
  · split
    · exact ⟨_, _, rfl⟩
    · rename_i access hAccess
      have hPager := (accessLog_eq_ok hAccess).1
      dsimp only
      split
      · exact ⟨_, _, hPager⟩
      · split
        · exact ⟨_, _, by rw [hPager]⟩
        · exact ⟨_, _, hPager⟩

/-- Handing out page numbers changes nothing of a pager but the counts of its
slots. -/
theorem allocatePage_pager (pager : Pager) (volume : Volume) (fd : Descriptor) :
    (pager.allocatePage volume fd).volume = volume ∧ ∃ counters,
      (pager.allocatePage volume fd).pager = { pager with counters } ∧
        counters.slots = pager.counters.slots := by
  unfold allocatePage
  split
  · rename_i page counters hAllocated
    refine ⟨rfl, counters, rfl, ?_⟩
    simp only [PageCounters.allocate] at hAllocated
    split at hAllocated
    · cases hAllocated
    · split at hAllocated
      · cases hAllocated
      · cases hAllocated
        rfl
  · exact ⟨rfl, _, rfl, rfl⟩
  · exact ⟨rfl, _, rfl, rfl⟩

theorem setNextPage_pager (pager : Pager) (volume : Volume) (fd : Descriptor) (page : PageNo) :
    (pager.setNextPage volume fd page).volume = volume ∧ ∃ counters,
      (pager.setNextPage volume fd page).pager = { pager with counters } ∧
        counters.slots = pager.counters.slots := by
  unfold setNextPage
  split
  · rename_i counters hSet
    refine ⟨rfl, counters, rfl, ?_⟩
    simp only [PageCounters.set] at hSet
    split at hSet
    · cases hSet
      rfl
    · cases hSet
  · exact ⟨rfl, _, rfl, rfl⟩

/-- All that an operation can do to a pager: count a transfer, use the log, count a slot
on, enter the path that it was to open and that led to a file, or take out the descriptor
that it was to close. Nothing else of the pager changes then. -/
theorem perform_pager (pager : Pager) (volume : Volume) (operation : Operation) :
    (∃ statistics,
      (pager.perform volume operation).pager = { pager with statistics }) ∨
    (operation.usesLog = true ∧ ∃ log statistics,
      (pager.perform volume operation).pager = { pager with log, statistics }) ∨
    (operation.numbers = true ∧ ∃ counters, counters.slots = pager.counters.slots ∧
      (pager.perform volume operation).pager = { pager with counters }) ∨
    (∃ path inode, (operation = .openFile path ∨ operation = .ensureOpen path) ∧
      volume.openFile path = .ok inode ∧ (pager.perform volume operation).pager =
        { pager with table := pager.table.apply (.insert path inode) }) ∨
    ∃ fd, operation = .closeFile fd ∧
      (pager.perform volume operation).pager =
        { pager with table := pager.table.apply (.remove fd) } := by
  cases operation with
  | openFile path =>
      rcases (openFile_cases pager volume path).2 with hSame | ⟨inode, hOpen, hAfter⟩
      · exact Or.inl ⟨_, hSame⟩
      · exact Or.inr (Or.inr (Or.inr (Or.inl ⟨path, inode, Or.inl rfl, hOpen, hAfter⟩)))
  | ensureOpen path =>
      rcases (ensureOpen_cases pager volume path).2 with hSame | ⟨inode, hOpen, hAfter⟩
      · exact Or.inl ⟨_, hSame⟩
      · exact Or.inr (Or.inr (Or.inr (Or.inl ⟨path, inode, Or.inr rfl, hOpen, hAfter⟩)))
  | closeFile fd =>
      exact Or.inr (Or.inr (Or.inr (Or.inr ⟨fd, rfl, (closeFile_eq pager volume fd).2⟩)))
  | writePage fd page data count =>
      exact Or.inl (writePage_pager pager volume fd page data count)
  | readPage fd page buffer count =>
      exact Or.inl (readPage_pager pager volume fd page buffer count).2
  | appendLog data count =>
      exact Or.inr (Or.inl ⟨rfl, appendLog_pager pager volume data count⟩)
  | readLog buffer count offset =>
      exact Or.inr (Or.inl ⟨rfl, readLog_pager pager volume buffer count offset⟩)
  | allocatePage fd =>
      obtain ⟨-, counters, hAfter, hSlots⟩ := allocatePage_pager pager volume fd
      exact Or.inr (Or.inr (Or.inl ⟨rfl, counters, hSlots, hAfter⟩))
  | setNextPage fd page =>
      obtain ⟨-, counters, hAfter, hSlots⟩ := setNextPage_pager pager volume fd page
      exact Or.inr (Or.inr (Or.inl ⟨rfl, counters, hSlots, hAfter⟩))
  | createDirectory path => exact Or.inl ⟨_, (createDirectory_eq pager volume path).1⟩
  | destroyDirectory path => exact Or.inl ⟨_, (destroyDirectory_eq pager volume path).1⟩
  | createFile path => exact Or.inl ⟨_, (createFile_cases pager volume path).1⟩
  | destroyFile path => exact Or.inl ⟨_, (destroyFile_cases pager volume path).1⟩
  | syncFile fd => exact Or.inl ⟨_, (syncFile_eq pager volume fd).1⟩
  | pathOf fd => exact Or.inl ⟨_, (pathOf_eq pager volume fd).1⟩
  | nextPage | releasePage | isDirectory | isFile | isOpen | extent | openCount | syncLog
  | logPath | statistics | resetStatistics => exact Or.inl ⟨_, rfl⟩

/-- What an operation leaves of a pager, part by part: the table changes by at most
one insertion of a path that led to a file or by the removal of the descriptor
that was to be closed, no slot comes or goes, and the log is opened by none but
those who use it. -/
theorem perform_parts (pager : Pager) (volume : Volume) (operation : Operation) :
    (pager.perform volume operation).pager.counters.slots = pager.counters.slots ∧
    ((pager.perform volume operation).pager.table = pager.table ∨
    (∃ path inode, volume.openFile path = .ok inode ∧
      (pager.perform volume operation).pager.table = pager.table.apply (.insert path inode)) ∨
    (∃ fd, operation = .closeFile fd ∧
      (pager.perform volume operation).pager.table = pager.table.apply (.remove fd))) ∧
    (operation.usesLog = false → (pager.perform volume operation).pager.log = pager.log) := by
  rcases perform_pager pager volume operation with ⟨_, hAfter⟩ | ⟨hLog, _, _, hAfter⟩ |
    ⟨-, _, hSlots, hAfter⟩ | ⟨path, inode, -, hOpen, hAfter⟩ | ⟨fd, hClose, hAfter⟩ <;> rw [hAfter]
  · exact ⟨rfl, Or.inl rfl, fun _ => rfl⟩
  · exact ⟨rfl, Or.inl rfl, fun hNoLog => by simp [hLog] at hNoLog⟩
  · exact ⟨hSlots, Or.inl rfl, fun _ => rfl⟩
  · exact ⟨rfl, Or.inr (Or.inl ⟨path, inode, hOpen, rfl⟩), fun _ => rfl⟩
  · exact ⟨rfl, Or.inr (Or.inr ⟨fd, hClose, rfl⟩), fun _ => rfl⟩

/-- No operation moves the log elsewhere, and none but handing out and setting page
numbers changes where a slot stands. -/
theorem perform_settings (pager : Pager) (volume : Volume) (operation : Operation) :
    (pager.perform volume operation).pager.logPath = pager.logPath ∧
    (operation.numbers = false →
      (pager.perform volume operation).pager.counters = pager.counters) := by
  rcases perform_pager pager volume operation with ⟨_, hAfter⟩ | ⟨-, _, _, hAfter⟩ |
    ⟨hNumbers, _, -, hAfter⟩ | ⟨_, _, -, -, hAfter⟩ | ⟨_, -, hAfter⟩ <;> rw [hAfter]
  case inr.inr.inl => exact ⟨rfl, fun hOther => by simp [hNumbers] at hOther⟩
  all_goals exact ⟨rfl, fun _ => rfl⟩

end Pager

end Paging
