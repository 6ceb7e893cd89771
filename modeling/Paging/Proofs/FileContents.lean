import Paging.Proofs.Pager.Failing
import Paging.Proofs.Session.Files
import Paging.Proofs.Session.Names
import Paging.Proofs.Volume.Newcomers

/-! What operations do to the files of a volume, seen file by file. A file is filled through
a descriptor that stands for it or as a log, and in no other way, and it comes into being by
being made or by a first look at the log. -/
namespace Paging

/-- Whether an operation may change anything of a volume. A read of the log may, since it
makes the file of a log that is not open. -/
def Operation.touches (logOpen : Bool) : Operation → Bool
  | .writePage .. => true
  | .createDirectory _ => true
  | .destroyDirectory _ => true
  | .createFile _ => true
  | .destroyFile _ => true
  | .appendLog .. => true
  | .readLog .. => !logOpen
  | _ => false

namespace Pager

/-- What an operation makes of the bytes of a file. A page write puts the bytes that it has
moved over those of the file that its descriptor stands for, and an append puts the bytes
that it has moved behind those of the log. -/
def fill (pager : Pager) (outcome : Outcome Reply) (inode : Inode) (file : List UInt8) :
    Operation → List UInt8
  | .writePage fd page data count =>
    if (pager.handle? fd).map Handle.inode = some inode then
      overwrite file page.offset (data.toList.take (movedBy count outcome.result))
    else file
  | .appendLog data count =>
    if outcome.pager.log = some inode then
      file ++ data.toList.take (movedBy count outcome.result)
    else file
  | _ => file

/-- Making a file either fails and changes nothing, or makes it. -/
theorem createFile_ends (pager : Pager) (volume : Volume) (path : Path) :
    ((∃ error, (pager.createFile volume path).result = .error error) ∧
      (pager.createFile volume path).volume = volume) ∨
    ((pager.createFile volume path).result = .ok () ∧
      ∃ inode, volume.createFile path = .ok (inode, (pager.createFile volume path).volume)) := by
  unfold createFile
  split
  · rename_i inode made hMade
    exact Or.inr ⟨rfl, inode, hMade⟩
  · exact Or.inl ⟨⟨_, rfl⟩, rfl⟩
  · exact Or.inl ⟨⟨_, rfl⟩, rfl⟩

/-- Making a file where the path leads to something already changes nothing. -/
theorem createFile_of_status {volume : Volume} {path : Path} {node : Node}
    (hStatus : volume.status path = .ok node) (pager : Pager) :
    ∃ error, pager.createFile volume path = pager.unchanged volume (.error error) ∧
      ∀ inode, node = .file inode → error = .fileExists path := by
  obtain ⟨fault, hFault, hFile⟩ := Volume.createFile_of_status hStatus
  unfold createFile
  rw [hFault]
  by_cases hExists : fault = .exists
  · subst hExists
    exact ⟨_, rfl, fun _ _ => rfl⟩
  · refine ⟨.io fault, ?_, fun inode hNode => absurd (hFile inode hNode) hExists⟩
    split
    · rename_i hMade
      cases hMade
    · rename_i hSame
      exact absurd (Except.error.inj hSame) hExists
    · rename_i hSame
      rw [Except.error.inj hSame]

/-- A log that is open is read without a change of the volume. -/
theorem readLog_of_log {pager : Pager} (hOpen : pager.log.isSome = true) (volume : Volume)
    (buffer : Array UInt8) (count offset : Nat) :
    (pager.readLog volume buffer count offset).volume = volume := by
  rcases pager.readLog_cases volume buffer count offset with
    ⟨hSame, -⟩ | ⟨access, hAccess, hAfter, -⟩
  · exact hSame
  · rw [hAfter]
    rcases (accessLog_eq_ok hAccess).2 with ⟨-, hSame⟩ | ⟨hNone, -⟩
    · exact hSame
    · rw [hNone] at hOpen
      cases hOpen

/-- An operation that may not change anything of the volume does not. -/
theorem perform_of_not_touches {pager : Pager} {operation : Operation}
    (hNot : operation.touches pager.log.isSome = false) (volume : Volume) :
    (pager.perform volume operation).volume = volume := by
  cases operation with
  | writePage | createDirectory | destroyDirectory | createFile | destroyFile | appendLog =>
      cases hNot
  | readLog buffer count offset =>
      exact readLog_of_log (by simpa [Operation.touches] using hNot) volume buffer count offset
  | readPage fd page buffer count => exact (readPage_pager pager volume fd page buffer count).1
  | allocatePage fd => exact (allocatePage_pager pager volume fd).1
  | setNextPage fd page => exact (setNextPage_pager pager volume fd page).1
  | openFile path => exact (openFile_cases pager volume path).1
  | ensureOpen path => exact (ensureOpen_cases pager volume path).1
  | closeFile fd => exact (closeFile_eq pager volume fd).1
  | syncFile fd => exact (syncFile_eq pager volume fd).2
  | pathOf fd => exact (pathOf_eq pager volume fd).2
  | nextPage | releasePage | isDirectory | isFile | isOpen | extent | openCount | syncLog
  | logPath | statistics | resetStatistics => rfl

/-- A first look at the log gives no file a name but the one that it makes. -/
theorem accessLog_namesNew {pager : Pager} {volume : Volume} {access : LogAccess}
    (hAccess : pager.accessLog volume = .ok access) : volume.NamesNew access.volume := by
  rcases (accessLog_eq_ok hAccess).2 with ⟨-, hSame⟩ | ⟨-, hOpen⟩
  · rw [hSame]
    exact Volume.NamesNew.refl volume
  · exact Volume.openOrCreate_namesNew hOpen

/-- No operation gives a name to a file that did not have it and was there. -/
theorem perform_namesNew (pager : Pager) (volume : Volume) (operation : Operation) :
    volume.NamesNew (pager.perform volume operation).volume := by
  have hLeaves := perform_leaves pager volume operation
  generalize (pager.perform volume operation).volume = after at hLeaves ⊢
  cases hLeaves with
  | same => exact Volume.NamesNew.refl volume
  | written _ inode content => exact volume.namesNew_setContent inode content
  | accessed hAccess => exact accessLog_namesNew hAccess
  | appended _ hAccess content =>
      exact (accessLog_namesNew hAccess).trans (Volume.namesNew_setContent _ _ _)
  | made hCreate => exact Volume.createFile_namesNew hCreate
  | madeDirectories path => exact (volume.createDirectories_namesNew path).1
  | unlinked _ hUnlink => exact Volume.unlink_namesNew hUnlink
  | removed => exact (volume.removeDirectories_namesNew _).1

/-- A file that was not there when the log was looked at is the log, which was not open. -/
theorem accessLog_brings {pager : Pager} {volume : Volume} (hGrounded : volume.Grounded)
    {access : LogAccess} (hAccess : pager.accessLog volume = .ok access) {inode : Inode}
    (hOld : volume.contents.size ≤ inode.index)
    (hNew : inode.index < access.volume.contents.size) :
    pager.log = none ∧ access.inode = inode ∧
      access.volume.openFile pager.logPath = .ok inode := by
  rcases opensLog_of_accessLog hAccess with ⟨-, hSame⟩ | ⟨-, -, hSame⟩ | ⟨hNone, hCreate⟩
  · rw [hSame] at hNew
    omega
  · rw [hSame] at hNew
    omega
  · obtain ⟨hThis, hLeads⟩ := hGrounded.createFile_brings hCreate hOld hNew
    exact ⟨hNone, hThis, hLeads⟩

/-- An operation that neither makes a file nor uses the log brings none, whatever it does to
names and to bytes. -/
theorem size_contents_perform (pager : Pager) (volume : Volume) {operation : Operation}
    (hCreates : ∀ path, operation ≠ .createFile path) (hLog : operation.usesLog = false) :
    (pager.perform volume operation).volume.contents.size = volume.contents.size := by
  by_cases hTouches : operation.touches pager.log.isSome = true
  case neg => rw [perform_of_not_touches (by simpa using hTouches)]
  cases operation with
  | createFile path => exact absurd rfl (hCreates path)
  | appendLog | readLog => cases hLog
  | writePage fd page data count =>
      simp only [perform, Outcome.map]
      rcases pager.writePage_cases volume fd page data count with
        ⟨hSame, -⟩ | ⟨handle, content, -, hAfter, -⟩
      · rw [hSame]
      · rw [hAfter, Volume.size_contents_setContent]
  | createDirectory path =>
      simp only [perform, Outcome.map, (createDirectory_eq pager volume path).2,
        (volume.createDirectories_namesNew path).2]
  | destroyDirectory path =>
      simp only [perform, Outcome.map, (destroyDirectory_eq pager volume path).2,
        (volume.removeDirectories_namesNew path).2]
  | destroyFile path =>
      simp only [perform, Outcome.map]
      rcases (destroyFile_cases pager volume path).2 with ⟨hSame, -⟩ | ⟨-, -, hUnlink⟩
      · rw [hSame]
      · obtain ⟨directory, name, named, -, -, hLeft⟩ := Volume.unlink_eq_ok hUnlink
        rw [hLeft, Volume.contents_setEntries]
  | _ => cases hTouches

/-- A file that was not there before the path was created is the one that it leads to now. -/
theorem createFile_brings (pager : Pager) {volume : Volume} (hGrounded : volume.Grounded)
    (path : Path) {inode : Inode} (hOld : volume.contents.size ≤ inode.index)
    (hNew : inode.index < (pager.createFile volume path).volume.contents.size) :
    (pager.createFile volume path).result = .ok () ∧
      (pager.createFile volume path).volume.openFile path = .ok inode := by
  rcases pager.createFile_ends volume path with ⟨-, hSame⟩ | ⟨hResult, made, hMade⟩
  · rw [hSame] at hNew
    omega
  · exact ⟨hResult, (hGrounded.createFile_brings hMade hOld hNew).2⟩

theorem appendLog_brings (pager : Pager) {volume : Volume} (hGrounded : volume.Grounded)
    (data : Array UInt8) (count : Nat) {inode : Inode}
    (hOld : volume.contents.size ≤ inode.index)
    (hNew : inode.index < (pager.appendLog volume data count).volume.contents.size) :
    pager.log = none ∧ (pager.appendLog volume data count).pager.log = some inode ∧
      (pager.appendLog volume data count).volume.openFile pager.logPath = .ok inode := by
  rcases pager.appendLog_cases volume data count with
    ⟨hSame, -⟩ | ⟨access, hAccess, hLog, ⟨hAfter, -⟩ | ⟨content, hAfter, -⟩⟩
  · rw [hSame] at hNew
    omega
  · rw [hAfter] at hNew ⊢
    obtain ⟨hNone, hThis, hLeads⟩ := accessLog_brings hGrounded hAccess hOld hNew
    exact ⟨hNone, hThis ▸ hLog, hLeads⟩
  · rw [hAfter, Volume.size_contents_setContent] at hNew
    rw [hAfter]
    obtain ⟨hNone, hThis, hLeads⟩ := accessLog_brings hGrounded hAccess hOld hNew
    -- Bytes that are appended leave every name where it leads.
    exact ⟨hNone, hThis ▸ hLog, (Volume.keepsNames_setContent _ _ content).openFile hLeads⟩

theorem readLog_brings (pager : Pager) {volume : Volume} (hGrounded : volume.Grounded)
    (buffer : Array UInt8) (count offset : Nat) {inode : Inode}
    (hOld : volume.contents.size ≤ inode.index)
    (hNew : inode.index < (pager.readLog volume buffer count offset).volume.contents.size) :
    pager.log = none ∧ (pager.readLog volume buffer count offset).pager.log = some inode ∧
      (pager.readLog volume buffer count offset).volume.openFile pager.logPath = .ok inode := by
  rcases pager.readLog_cases volume buffer count offset with
    ⟨hSame, -⟩ | ⟨access, hAccess, hAfter, hLog⟩
  · rw [hSame] at hNew
    omega
  · rw [hAfter] at hNew ⊢
    obtain ⟨hNone, hThis, hLeads⟩ := accessLog_brings hGrounded hAccess hOld hNew
    exact ⟨hNone, hThis ▸ hLog, hLeads⟩

/-- Where a file comes from that was not there before an operation. -/
theorem perform_brings (pager : Pager) {volume : Volume} (hGrounded : volume.Grounded)
    (operation : Operation) {inode : Inode} (hOld : volume.contents.size ≤ inode.index)
    (hNew : inode.index < (pager.perform volume operation).volume.contents.size) :
    (∃ path, operation = .createFile path ∧
      (pager.perform volume operation).result = .ok .done ∧
      (pager.perform volume operation).volume.openFile path = .ok inode) ∨
    (operation.usesLog = true ∧ pager.log = none ∧
      (pager.perform volume operation).pager.log = some inode ∧
      (pager.perform volume operation).volume.openFile pager.logPath = .ok inode) := by
  cases operation with
  | createFile path =>
      obtain ⟨hResult, hLeads⟩ := pager.createFile_brings hGrounded path hOld hNew
      have hDone : (pager.perform volume (.createFile path)).result = .ok .done := by
        simp [perform, Outcome.map, hResult, Except.map]
      exact Or.inl ⟨path, rfl, hDone, hLeads⟩
  | appendLog data count =>
      exact Or.inr ⟨rfl, pager.appendLog_brings hGrounded data count hOld hNew⟩
  | readLog buffer count offset =>
      exact Or.inr ⟨rfl, pager.readLog_brings hGrounded buffer count offset hOld hNew⟩
  | _ =>
      rw [size_contents_perform pager volume (by simp) rfl] at hNew
      omega

end Pager

/-- What an operation makes of the bytes of every file. -/
theorem Session.Held.perform_fill {session : Session} (hHeld : session.Held) {number : Nat}
    {pager : Pager} (hPager : session.pagers[number]? = some pager) (operation : Operation)
    (inode : Inode) :
    ((pager.perform session.volume operation).volume.content inode).toList =
      pager.fill (pager.perform session.volume operation) inode
        (session.volume.content inode).toList operation := by
  let moment : Moment := ⟨session, .perform number operation⟩
  have hInstruction : moment.instruction = .perform number operation := rfl
  have hBytes := Moment.content_after_perform hHeld hInstruction hPager inode
  obtain ⟨hVolume, hLog, hMoved⟩ := Moment.after_of_perform hInstruction hPager
  have hFile : ∀ fd, moment.before.fileOf? number fd = (pager.handle? fd).map Handle.inode := by
    intro fd
    simp [moment, Session.fileOf?, hPager]
  rw [hVolume] at hBytes
  rw [hBytes, Moment.leave]
  cases operation with
  | writePage fd page data count =>
      simp only [Moment.pageWrites, Moment.appends, hInstruction, hFile, hMoved, Pager.fill]
      split <;> simp [overwriteAll, moment]
  | appendLog data count =>
      simp only [Moment.pageWrites, Moment.appends, hInstruction, hLog, hMoved, Pager.fill]
      split <;> simp [overwriteAll, moment]
  | _ => simp [Moment.pageWrites, Moment.appends, moment, overwriteAll, Pager.fill]

/-- Whatever went before, an operation with any arguments that ends in any way does this to
the files of the volume. The bytes of every file stay as they were, but for those that a page
write moves into the one file of its descriptor and for those that an append moves to the end
of the log. A file comes into being only where creating it succeeded, and is empty, or at the
first look at the log, and holds no more than what was appended to it then. No other file
gets a name that it did not have. Creating a file at a path that leads to something fails and
changes nothing, so no file is ever emptied by it. Operations that neither write, create nor
destroy, among them a read of a log that is open, leave the whole volume as it was. -/
theorem files_framed (earlier : List Instruction) {number : Nat} {pager : Pager}
    (hPager : (Session.empty.run earlier).2.pagers[number]? = some pager)
    (operation : Operation) :
    let volume := (Session.empty.run earlier).2.volume
    let outcome := pager.perform volume operation
    let after := outcome.volume
    (∀ inode, (after.content inode).toList =
      pager.fill outcome inode (volume.content inode).toList operation) ∧
    (∀ inode : Inode, volume.contents.size ≤ inode.index → inode.index < after.contents.size →
      (∃ path, operation = .createFile path ∧ outcome.result = .ok .done ∧
        after.openFile path = .ok inode ∧ (after.content inode).toList = []) ∨
      (operation.usesLog = true ∧ pager.log = none ∧ outcome.pager.log = some inode ∧
        after.openFile pager.logPath = .ok inode ∧
        (after.content inode).toList = pager.fill outcome inode [] operation)) ∧
    volume.NamesNew after ∧
    (∀ path node, operation = .createFile path → volume.status path = .ok node →
      (∃ error, outcome.result = .error error ∧
        ∀ inode, node = .file inode → error = .fileExists path) ∧
      outcome.pager = pager ∧ after = volume) ∧
    (operation.touches pager.log.isSome = false → after = volume) := by
  intro volume outcome after
  have hFill := (Session.held_empty.run earlier).perform_fill hPager operation
  refine ⟨hFill, ?_, pager.perform_namesNew volume operation, ?_,
    fun hNot => Pager.perform_of_not_touches hNot volume⟩
  · intro inode hOld hNew
    have hEmpty : (volume.content inode).toList = [] := by
      simp [Volume.content, Array.getD, Nat.not_lt.mpr hOld, Content.toList, Content.toArray,
        Content.read]
    have hBytes := hFill inode
    rw [hEmpty] at hBytes
    rcases pager.perform_brings (Session.grounded_run earlier) operation hOld hNew with
      ⟨path, hCreate, hResult, hLeads⟩ | ⟨hUses, hNone, hLog, hLeads⟩
    · refine Or.inl ⟨path, hCreate, hResult, hLeads, ?_⟩
      rw [hBytes, hCreate]
      rfl
    · exact Or.inr ⟨hUses, hNone, hLog, hLeads, hBytes⟩
  · intro path node hCreate hStatus
    obtain ⟨error, hEnds, hFile⟩ := Pager.createFile_of_status hStatus pager
    have hOutcome : outcome = pager.unchanged volume (.error error) := by
      simp [outcome, hCreate, Pager.perform, hEnds, Outcome.map, Pager.unchanged, Except.map]
    simp only [after, hOutcome]
    exact ⟨⟨error, rfl, hFile⟩, rfl, rfl⟩

/-- A first append makes the log and fills it, and the bytes of the file that was there before
stay as they were. -/
theorem files_framed_first_append :
    let earlier : List Instruction :=
      [.build 0 { maxOpenFiles := 1 }, .perform 0 (.createFile ⟨"f"⟩),
        .perform 0 (.openFile ⟨"f"⟩), .perform 0 (.writePage ⟨0⟩ ⟨0⟩ #[7] 1)]
    let volume := (Session.empty.run earlier).2.volume
    ∃ pager ∈ (Session.empty.run earlier).2.pagers[0]?,
      let outcome := pager.perform volume (.appendLog #[1, 2] 2)
      (outcome.volume.content ⟨0⟩).toList = [7] ∧
        outcome.volume.openFile pager.logPath = .ok ⟨1⟩ ∧
        (outcome.volume.content ⟨1⟩).toList = [1, 2] := by
  intro earlier volume
  have hSome : (Session.empty.run earlier).2.pagers[0]?.isSome := by decide +kernel +revert
  have hEvaluated : ∀ pager ∈ (Session.empty.run earlier).2.pagers[0]?,
      let outcome := pager.perform volume (.appendLog #[1, 2] 2)
      pager.fill outcome ⟨0⟩ (volume.content ⟨0⟩).toList (.appendLog #[1, 2] 2) = [7] ∧
        pager.fill outcome ⟨1⟩ [] (.appendLog #[1, 2] 2) = [1, 2] ∧
        volume.contents.size = 1 ∧ outcome.volume.contents.size = 2 := by
    decide +kernel +revert
  obtain ⟨pager, hPager⟩ := Option.isSome_iff_exists.mp hSome
  obtain ⟨hOld, hLog, hSize, hMore⟩ := hEvaluated pager hPager
  obtain ⟨hBytes, hBrings, -⟩ := files_framed earlier hPager (.appendLog #[1, 2] 2)
  refine ⟨pager, hPager, (hBytes ⟨0⟩).trans hOld, ?_⟩
  rcases hBrings ⟨1⟩ (Nat.le_of_eq hSize) (by rw [hMore]; decide) with
    ⟨path, hCreate, -⟩ | ⟨-, -, -, hLeads, hNew⟩
  · cases hCreate
  · exact ⟨hLeads, hNew.trans hLog⟩

end Paging
