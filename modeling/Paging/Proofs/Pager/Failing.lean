import Paging.Proofs.Pager.Holding

/-! What a failed operation leaves behind. Most leave everything as it was; a write that
comes up short has written what it says, and making or destroying a directory may have
stopped half way. -/
namespace Paging

namespace Error

/-- Whether an error says that an operation was refused before anything was done. -/
def isRefusal : Error → Bool
  | io _ => false
  | shortTransfer .. => false
  | directory .. => false
  | _ => true

/-- Whether an error says that a write moved too few bytes. -/
def isShortWrite : Error → Bool
  | shortTransfer .writePage _ _ => true
  | shortTransfer .writeLog _ _ => true
  | _ => false

end Error

/-- Whether a failed operation may have done a part of its work. -/
def Operation.mayStopHalfway : Operation → Bool
  | .writePage .. => true
  | .appendLog .. => true
  | .createDirectory _ => true
  | .destroyDirectory _ => true
  | _ => false

/-- Entering a file in a table fails only when the table is full. -/
theorem OpenTable.insert_eq_error {table : OpenTable} {path : Path} {inode : Inode}
    {error : Error} (hInsert : table.insert path inode = .error error) :
    error = .tooManyOpenFiles table.capacity := by
  unfold insert at hInsert
  split at hInsert
  · cases hInsert
  · split at hInsert
    · rename_i other hTake
      cases hInsert
      unfold takeFree at hTake
      split at hTake
      · cases hTake
        rfl
      · split at hTake <;> cases hTake
    · cases hInsert

namespace PageCounters

theorem next_eq_error {counters : PageCounters} {fd : Descriptor} {error : Error}
    (hNext : counters.next fd = .error error) : error = .invalidDescriptor fd := by
  unfold next at hNext
  split at hNext <;> cases hNext
  rfl

theorem set_eq_error {counters : PageCounters} {fd : Descriptor} {page : PageNo} {error : Error}
    (hSet : counters.set fd page = .error error) : error = .invalidDescriptor fd := by
  unfold set at hSet
  split at hSet <;> cases hSet
  rfl

theorem allocate_eq_error {counters : PageCounters} {fd : Descriptor} {error : Error}
    (hAllocate : counters.allocate fd = .error error) :
    error = .invalidDescriptor fd ∨ error = .pageSpaceExhausted fd := by
  unfold allocate at hAllocate
  split at hAllocate
  · rename_i hNext
    cases hAllocate
    exact Or.inl (next_eq_error hNext)
  · split at hAllocate <;> cases hAllocate
    exact Or.inr rfl

end PageCounters

/-- A path is above another if it is what is left of it without some of its last
components. -/
inductive Path.IsAbove (ancestor : Path) : Path → Prop
  | parent {path : Path} (hParent : path.parent? = some ancestor) : IsAbove ancestor path
  | above {path parent : Path} (hParent : path.parent? = some parent)
      (hAbove : IsAbove ancestor parent) : IsAbove ancestor path

namespace Volume

/-- Directories are made at the paths, one after the other. -/
inductive Makes : Volume → List Path → Volume → Prop
  | nothing (volume : Volume) : Makes volume [] volume
  | next {volume made after : Volume} {path : Path} {rest : List Path}
      (hMade : volume.createDirectory path = .ok made) (hRest : Makes made rest after) :
      Makes volume (path :: rest) after

theorem Makes.append {volume middle after : Volume} {first second : List Path}
    (hFirst : volume.Makes first middle) (hSecond : middle.Makes second after) :
    volume.Makes (first ++ second) after := by
  induction hFirst with
  | nothing => exact hSecond
  | next hMade _ ih => exact .next hMade (ih hSecond)

/-- Settling an attempt to make a directory has made that directory or nothing, and nothing
when it fails. -/
theorem settle_makes (volume : Volume) (path : Path) {attempt : Except Fault Volume}
    (hAttempt : ∀ made, attempt = .ok made → volume.createDirectory path = .ok made) :
    ∃ made, volume.Makes made (volume.settle path attempt).2 ∧
      ∀ new ∈ made, new = path ∧ (volume.settle path attempt).1 = .ok () := by
  cases attempt with
  | ok made =>
      refine ⟨[path], .next (hAttempt made rfl) (.nothing made), fun new hNew => ?_⟩
      exact ⟨List.mem_singleton.mp hNew, rfl⟩
  | error fault =>
      have hSame : (volume.settle path (.error fault)).2 = volume := by
        simp only [settle]
        split <;> rfl
      exact ⟨[], hSame.symm ▸ .nothing volume, by simp⟩

/-- Making a directory with those above it makes directories above it, and the directory
itself at most when it succeeds. -/
theorem establish_makes (volume : Volume) (path : Path) (height : Nat) :
    ∃ made, volume.Makes made (volume.establish path height).2 ∧
      ∀ new ∈ made, new.IsAbove path ∨
        (new = path ∧ (volume.establish path height).1 = .ok ()) := by
  have hSettle : ∀ (volume : Volume) (path : Path) {attempt : Except Fault Volume},
      (∀ made, attempt = .ok made → volume.createDirectory path = .ok made) →
      ∃ made, volume.Makes made (volume.settle path attempt).2 ∧ ∀ new ∈ made,
        new.IsAbove path ∨ (new = path ∧ (volume.settle path attempt).1 = .ok ()) := by
    intro volume path attempt hAttempt
    obtain ⟨made, hMakes, hNew⟩ := volume.settle_makes path hAttempt
    exact ⟨made, hMakes, fun new hMember => Or.inr (hNew new hMember)⟩
  induction height generalizing path with
  | zero => exact hSettle volume path fun _ => id
  | succ height ih =>
      unfold establish
      split
      · split
        · exact hSettle volume path (by rintro made ⟨⟩)
        · rename_i parent hParent
          obtain ⟨made, hMakes, hAbove⟩ := ih parent
          have hHigher : ∀ new ∈ made, new.IsAbove path := by
            intro new hNew
            rcases hAbove new hNew with hHigher | ⟨rfl, -⟩
            · exact .above hParent hHigher
            · exact .parent hParent
          split
          · rename_i above hOk
            obtain ⟨last, hLast, hNew⟩ := hSettle above path fun _ => id
            rw [hOk] at hMakes
            refine ⟨made ++ last, hMakes.append hLast, fun new hMember => ?_⟩
            rcases List.mem_append.mp hMember with hMember | hMember
            · exact Or.inl (hHigher new hMember)
            · exact hNew new hMember
          · exact ⟨made, hMakes, fun new hNew => Or.inl (hHigher new hNew)⟩
      · exact hSettle volume path fun _ => id

/-- A directory that cannot be made leaves nothing made but directories above it. -/
theorem createDirectories_eq_error {volume after : Volume} {path : Path} {fault : Fault}
    (hFailed : volume.createDirectories path = (.error fault, after)) :
    ∃ made, volume.Makes made after ∧ ∀ new ∈ made, new.IsAbove path := by
  unfold createDirectories at hFailed
  split at hFailed
  · cases hFailed
  · obtain ⟨made, hMakes, hNew⟩ := volume.establish_makes path path.components.length
    rw [hFailed] at hMakes hNew
    refine ⟨made, hMakes, fun new hMember => ?_⟩
    rcases hNew new hMember with hAbove | ⟨-, hDone⟩
    · exact hAbove
    · cases hDone

/-- A directory that cannot be removed is left as it was or emptied. -/
theorem removeDirectories_eq_error {volume after : Volume} {path : Path} {fault : Fault}
    (hFailed : volume.removeDirectories path = (.error fault, after)) :
    after = volume ∨
      ∃ directory, volume.directoryAt path = .ok directory ∧ after = volume.clear directory := by
  unfold removeDirectories at hFailed
  split at hFailed
  · cases hFailed
    exact Or.inl rfl
  · rename_i directory hDirectory
    dsimp only at hFailed
    split at hFailed <;> cases hFailed
    exact Or.inr ⟨directory, hDirectory, rfl⟩

end Volume

/-- A file has these bytes instead of those that it had, and that is all that is different. -/
structure Volume.GivesBytes (volume : Volume) (inode : Inode) (bytes : List UInt8)
    (after : Volume) : Prop where
  directories_eq : after.directories = volume.directories
  bytes_eq : (after.content inode).toList = bytes
  content_eq : ∀ other, other ≠ inode → after.content other = volume.content other

theorem Volume.givesBytes_setContent (volume : Volume) {inode : Inode} {content : Content}
    {bytes : List UInt8} (hHeld : inode.index < volume.contents.size)
    (hBytes : content.toList = bytes) :
    volume.GivesBytes inode bytes (volume.setContent inode content) where
  directories_eq := rfl
  bytes_eq := by rw [content_setContent_self _ _ hHeld, hBytes]
  content_eq := fun _ hOther => content_setContent_of_ne _ _ hOther

namespace Pager

/-- The log is open, or it is opened: its path leads to it, or an empty file is made there. -/
def OpensLog (pager : Pager) (volume : Volume) (inode : Inode) (opened : Volume) : Prop :=
  (pager.log = some inode ∧ opened = volume) ∨
  (pager.log = none ∧ volume.openFile pager.logPath = .ok inode ∧ opened = volume) ∨
  (pager.log = none ∧ volume.createFile pager.logPath = .ok (inode, opened))

theorem opensLog_of_accessLog {pager : Pager} {volume : Volume} {access : LogAccess}
    (hAccess : pager.accessLog volume = .ok access) :
    pager.OpensLog volume access.inode access.volume := by
  rcases (accessLog_eq_ok hAccess).2 with hOpen | ⟨hNone, hOpened⟩
  · exact Or.inl hOpen
  · rcases Volume.openFile_or_createFile_of_openOrCreate hOpened with hFound | hMade
    · exact Or.inr (Or.inl ⟨hNone, hFound⟩)
    · exact Or.inr (Or.inr ⟨hNone, hMade⟩)

/-- What a failed operation leaves of the log that the pager knows, and of the volume. -/
inductive Remains (pager : Pager) (volume : Volume) :
    Operation → Error → Option Inode → Volume → Prop
  /-- Nothing was done. -/
  | nothing {operation : Operation} {error : Error} (hWhole : error.isShortWrite = false) :
      Remains pager volume operation error pager.log volume
  /-- The first `actual` bytes were written over the page. -/
  | shortWrite {fd : Descriptor} {page : PageNo} {data : Array UInt8} {count actual : Nat}
      {handle : Handle} {after : Volume} (hHandle : pager.handle? fd = some handle)
      (hShort : actual < count)
      (hBytes : volume.GivesBytes handle.inode
        (overwrite (volume.content handle.inode).toList page.offset (data.toList.take actual))
        after) :
      Remains pager volume (.writePage fd page data count)
        (.shortTransfer .writePage count actual) pager.log after
  /-- The log was opened, and the first `actual` bytes were put at its end. -/
  | shortAppend {data : Array UInt8} {count actual : Nat} {inode : Inode}
      {opened after : Volume} (hOpens : pager.OpensLog volume inode opened)
      (hShort : actual < count)
      (hBytes : opened.GivesBytes inode
        ((volume.content inode).toList ++ data.toList.take actual) after) :
      Remains pager volume (.appendLog data count)
        (.shortTransfer .writeLog count actual) (some inode) after
  /-- The log was opened, and then the volume refused. -/
  | refusedAppend {data : Array UInt8} {count : Nat} {fault : Fault} {inode : Inode}
      {opened : Volume} (hOpens : pager.OpensLog volume inode opened) :
      Remains pager volume (.appendLog data count) (.io fault) (some inode) opened
  /-- Some directories above the path were made. -/
  | ancestors {path : Path} {made : List Path} {fault : Fault} {after : Volume}
      (hMade : volume.Makes made after) (hAbove : ∀ new ∈ made, new.IsAbove path) :
      Remains pager volume (.createDirectory path) (.directory path fault) pager.log after
  /-- The directory was emptied. -/
  | emptied {path : Path} {directory : Directory} {fault : Fault}
      (hDirectory : volume.directoryAt path = .ok directory) :
      Remains pager volume (.destroyDirectory path) (.directory path fault) pager.log
        (volume.clear directory)

/-- What was refused before anything was done has done nothing. -/
theorem Remains.eq_of_isRefusal {pager : Pager} {volume after : Volume} {operation : Operation}
    {error : Error} {log : Option Inode}
    (hRemains : pager.Remains volume operation error log after)
    (hRefusal : error.isRefusal = true) : log = pager.log ∧ after = volume := by
  cases hRemains with
  | nothing => exact ⟨rfl, rfl⟩
  | shortWrite | shortAppend | refusedAppend | ancestors | emptied => cases hRefusal

/-- A failed operation changes nothing of the pager but perhaps the log that it knows, and
leaves one of the things that may remain. -/
def FailsCleanly (pager : Pager) (volume : Volume) (operation : Operation) {α : Type}
    (outcome : Outcome α) : Prop :=
  ∀ error, outcome.result = .error error →
    outcome.pager = { pager with log := outcome.pager.log } ∧
      pager.Remains volume operation error outcome.pager.log outcome.volume

theorem FailsCleanly.map {pager : Pager} {volume : Volume} {operation : Operation} {α β : Type}
    {outcome : Outcome α} (hFails : pager.FailsCleanly volume operation outcome) (f : α → β) :
    pager.FailsCleanly volume operation (outcome.map f) := by
  intro error hError
  refine hFails error ?_
  cases hResult : outcome.result with
  | ok value => simp [Outcome.map, hResult, Except.map] at hError
  | error other => simpa [Outcome.map, hResult, Except.map] using hError

/-- What ends with an error and without a change, unless it was a short write, fails
cleanly. -/
theorem failsCleanly_of_error {pager : Pager} {volume : Volume} {operation : Operation}
    {α : Type} {outcome : Outcome α} {error : Error} (hError : outcome.result = .error error)
    (hPager : outcome.pager = pager) (hVolume : outcome.volume = volume)
    (hWhole : error.isShortWrite = false) : pager.FailsCleanly volume operation outcome := by
  intro other hOther
  rw [hError] at hOther
  cases hOther
  rw [hPager, hVolume]
  exact ⟨rfl, .nothing hWhole⟩

theorem failsCleanly_of_ok {pager : Pager} {volume : Volume} {operation : Operation}
    {α : Type} {outcome : Outcome α} {value : α} (hDone : outcome.result = .ok value) :
    pager.FailsCleanly volume operation outcome := by
  intro error hError
  rw [hDone] at hError
  cases hError

theorem failsCleanly_writePage {pager : Pager} {volume : Volume} (hHeld : pager.HeldBy volume)
    (fd : Descriptor) (page : PageNo) (data : Array UInt8) (count : Nat) :
    pager.FailsCleanly volume (.writePage fd page data count)
      (pager.writePage volume fd page data count) := by
  unfold writePage
  split
  · exact failsCleanly_of_error rfl rfl rfl rfl
  · rename_i hEnough
    split
    · exact failsCleanly_of_error rfl rfl rfl rfl
    · rename_i handle hHandle
      split
      · exact failsCleanly_of_error rfl rfl rfl rfl
      · rename_i moved written hWrite
        split
        · exact failsCleanly_of_ok rfl
        · rename_i hShort
          rintro error ⟨⟩
          obtain ⟨-, hMoved, content, rfl, hList⟩ := Volume.writeAt_eq_ok hWrite
          have hRoom : moved ≤ (data.extract 0 count).size := hMoved ▸ Nat.min_le_left _ _
          rw [take_extract hRoom] at hList
          rw [size_extract_of_le (Nat.not_lt.mp hEnough)] at hRoom
          exact ⟨rfl, .shortWrite hHandle (Nat.lt_of_le_of_ne hRoom hShort)
            (volume.givesBytes_setContent (hHeld.handles fd handle hHandle) hList)⟩

theorem failsCleanly_appendLog {pager : Pager} {volume : Volume} (hHeld : pager.HeldBy volume)
    (hVolume : volume.Held) (data : Array UInt8) (count : Nat) :
    pager.FailsCleanly volume (.appendLog data count) (pager.appendLog volume data count) := by
  unfold appendLog
  split
  · exact failsCleanly_of_error rfl rfl rfl rfl
  · rename_i hEnough
    split
    · exact failsCleanly_of_error rfl rfl rfl rfl
    · rename_i access hAccess
      have hPager := (accessLog_eq_ok hAccess).1
      have hOpens := opensLog_of_accessLog hAccess
      split
      · rintro error ⟨⟩
        refine ⟨?_, ?_⟩
        · simp [unchanged, hPager]
        · simpa [unchanged, hPager] using Remains.refusedAppend hOpens
      · rename_i moved written hAppend
        split
        · exact failsCleanly_of_ok rfl
        · rename_i hShort
          rintro error ⟨⟩
          obtain ⟨-, hMoved, content, rfl, hList⟩ := Volume.writeAt_eq_ok hAppend
          have hRoom : moved ≤ (data.extract 0 count).size := hMoved ▸ Nat.min_le_left _ _
          rw [take_extract hRoom, ← Content.length_toList, overwrite_length,
            (accessLog_extends hAccess).content_eq] at hList
          rw [size_extract_of_le (Nat.not_lt.mp hEnough)] at hRoom
          refine ⟨?_, ?_⟩
          · simp [hPager]
          · simpa [hPager] using Remains.shortAppend hOpens (Nat.lt_of_le_of_ne hRoom hShort)
              (access.volume.givesBytes_setContent
                (hHeld.index_lt_of_accessLog hVolume hAccess) hList)

theorem failsCleanly_createDirectory (pager : Pager) (volume : Volume) (path : Path) :
    pager.FailsCleanly volume (.createDirectory path) (pager.createDirectory volume path) := by
  unfold createDirectory
  split
  · exact failsCleanly_of_ok rfl
  · rename_i fault after hFailed
    rintro error ⟨⟩
    obtain ⟨made, hMade, hAbove⟩ := Volume.createDirectories_eq_error hFailed
    exact ⟨rfl, .ancestors hMade hAbove⟩

theorem failsCleanly_destroyDirectory (pager : Pager) (volume : Volume) (path : Path) :
    pager.FailsCleanly volume (.destroyDirectory path) (pager.destroyDirectory volume path) := by
  unfold destroyDirectory
  split
  · exact failsCleanly_of_ok rfl
  · rename_i fault after hFailed
    rintro error ⟨⟩
    rcases Volume.removeDirectories_eq_error hFailed with rfl | ⟨directory, hDirectory, rfl⟩
    · exact ⟨rfl, .nothing rfl⟩
    · exact ⟨rfl, .emptied hDirectory⟩

/-- A read of the log that fails has not come to open it. -/
theorem failsCleanly_readLog (pager : Pager) (volume : Volume) (buffer : Array UInt8)
    (count offset : Nat) :
    pager.FailsCleanly volume (.readLog buffer count offset)
      (pager.readLog volume buffer count offset) := by
  by_cases hCount : count ≤ buffer.size
  · cases hAccess : pager.accessLog volume with
    | error fault =>
        have hOutcome : pager.readLog volume buffer count offset =
            { pager.unchanged volume (.error (.io fault)) with buffer := some buffer } := by
          simp [readLog, Nat.not_lt.mpr hCount, hAccess]
        rw [hOutcome]
        exact failsCleanly_of_error rfl rfl rfl rfl
    | ok access => exact failsCleanly_of_ok (readLog_of_access hAccess hCount offset rfl rfl).1
  · unfold readLog
    rw [if_pos (Nat.not_le.mp hCount)]
    exact failsCleanly_of_error rfl rfl rfl rfl

theorem failsCleanly_openTracked (pager : Pager) (volume : Volume) (path : Path)
    (operation : Operation) :
    pager.FailsCleanly volume operation (pager.openTracked volume path) := by
  unfold openTracked
  split
  · exact failsCleanly_of_ok rfl
  · rename_i hNew
    split
    · exact failsCleanly_of_error rfl rfl rfl rfl
    · split
      · exact failsCleanly_of_error rfl rfl rfl rfl
      · exact failsCleanly_of_error rfl rfl rfl rfl
      · split
        · rename_i hInsert
          refine failsCleanly_of_error rfl rfl rfl ?_
          rw [OpenTable.insert_eq_error hInsert]
          rfl
        · exact failsCleanly_of_ok rfl

theorem failsCleanly_openFile (pager : Pager) (volume : Volume) (path : Path) :
    pager.FailsCleanly volume (.openFile path) (pager.openFile volume path) := by
  unfold openFile
  split
  · exact failsCleanly_openTracked pager volume path _
  · exact failsCleanly_of_error rfl rfl rfl rfl

theorem failsCleanly_ensureOpen (pager : Pager) (volume : Volume) (path : Path) :
    pager.FailsCleanly volume (.ensureOpen path) (pager.ensureOpen volume path) := by
  unfold ensureOpen
  split
  · exact failsCleanly_of_ok rfl
  · split
    · exact failsCleanly_openTracked pager volume path _
    · exact failsCleanly_of_error rfl rfl rfl rfl

/-- A read that comes up short has only read: it counts nothing. -/
theorem failsCleanly_readPage (pager : Pager) (volume : Volume) (fd : Descriptor) (page : PageNo)
    (buffer : Array UInt8) (count : Nat) :
    pager.FailsCleanly volume (.readPage fd page buffer count)
      (pager.readPage volume fd page buffer count) := by
  unfold readPage
  split
  · exact failsCleanly_of_error rfl rfl rfl rfl
  · split
    · exact failsCleanly_of_error rfl rfl rfl rfl
    · dsimp only
      split
      · exact failsCleanly_of_ok rfl
      · exact failsCleanly_of_error rfl rfl rfl rfl

theorem failsCleanly_allocatePage (pager : Pager) (volume : Volume) (fd : Descriptor) :
    pager.FailsCleanly volume (.allocatePage fd) (pager.allocatePage volume fd) := by
  unfold allocatePage
  split
  · exact failsCleanly_of_ok rfl
  · exact failsCleanly_of_error rfl rfl rfl rfl
  · rename_i error _ hAllocate
    have hWhole : error.isShortWrite = false := by
      cases PageCounters.allocate_eq_error hAllocate with
      | inl hInvalid => rw [hInvalid]; rfl
      | inr hExhausted => rw [hExhausted]; rfl
    exact failsCleanly_of_error rfl rfl rfl hWhole

theorem failsCleanly_nextPage (pager : Pager) (volume : Volume) (fd : Descriptor) :
    pager.FailsCleanly volume (.nextPage fd) (pager.nextPage volume fd) := by
  cases hNext : pager.counters.next fd with
  | ok page => exact failsCleanly_of_ok hNext
  | error error =>
      have hWhole : error.isShortWrite = false := by
        rw [PageCounters.next_eq_error hNext]
        rfl
      exact failsCleanly_of_error hNext rfl rfl hWhole

theorem failsCleanly_setNextPage (pager : Pager) (volume : Volume) (fd : Descriptor)
    (page : PageNo) :
    pager.FailsCleanly volume (.setNextPage fd page) (pager.setNextPage volume fd page) := by
  unfold setNextPage
  split
  · exact failsCleanly_of_ok rfl
  · rename_i error hSet
    have hWhole : error.isShortWrite = false := by
      rw [PageCounters.set_eq_error hSet]
      rfl
    exact failsCleanly_of_error rfl rfl rfl hWhole

theorem failsCleanly_createFile (pager : Pager) (volume : Volume) (path : Path) :
    pager.FailsCleanly volume (.createFile path) (pager.createFile volume path) := by
  unfold createFile
  split
  · exact failsCleanly_of_ok rfl
  · exact failsCleanly_of_error rfl rfl rfl rfl
  · exact failsCleanly_of_error rfl rfl rfl rfl

theorem failsCleanly_destroyFile (pager : Pager) (volume : Volume) (path : Path) :
    pager.FailsCleanly volume (.destroyFile path) (pager.destroyFile volume path) := by
  unfold destroyFile
  split
  · exact failsCleanly_of_error rfl rfl rfl rfl
  · unfold unlinkFile
    split
    · exact failsCleanly_of_ok rfl
    · exact failsCleanly_of_error rfl rfl rfl rfl

/-- A close does not fail, whether or not the file is still there to be taken out. -/
theorem failsCleanly_closeFile (pager : Pager) (volume : Volume) (fd : Descriptor) :
    pager.FailsCleanly volume (.closeFile fd) (pager.closeFile volume fd) := by
  unfold closeFile
  split
  · exact failsCleanly_of_ok rfl
  · exact failsCleanly_of_ok rfl

theorem failsCleanly_syncFile (pager : Pager) (volume : Volume) (fd : Descriptor) :
    pager.FailsCleanly volume (.syncFile fd) (pager.syncFile volume fd) := by
  unfold syncFile
  split
  · exact failsCleanly_of_error rfl rfl rfl rfl
  · exact failsCleanly_of_ok rfl

theorem failsCleanly_pathOf (pager : Pager) (volume : Volume) (fd : Descriptor) :
    pager.FailsCleanly volume (.pathOf fd) (pager.pathOf volume fd) := by
  unfold pathOf
  split
  · exact failsCleanly_of_error rfl rfl rfl rfl
  · exact failsCleanly_of_ok rfl

/-- Every operation but the four that may stop half way leaves everything as it was when it
fails. -/
theorem failsCleanly_of_whole (pager : Pager) (volume : Volume) {operation : Operation}
    (hWhole : operation.mayStopHalfway = false) :
    pager.FailsCleanly volume operation (pager.perform volume operation) := by
  cases operation with
  | writePage | appendLog | createDirectory | destroyDirectory => cases hWhole
  | readPage fd page buffer count =>
      exact (failsCleanly_readPage pager volume fd page buffer count).map _
  | allocatePage fd => exact (failsCleanly_allocatePage pager volume fd).map _
  | nextPage fd => exact (failsCleanly_nextPage pager volume fd).map _
  | setNextPage fd page => exact (failsCleanly_setNextPage pager volume fd page).map _
  | createFile path => exact (failsCleanly_createFile pager volume path).map _
  | destroyFile path => exact (failsCleanly_destroyFile pager volume path).map _
  | openFile path => exact (failsCleanly_openFile pager volume path).map _
  | ensureOpen path => exact (failsCleanly_ensureOpen pager volume path).map _
  | closeFile fd => exact (failsCleanly_closeFile pager volume fd).map _
  | syncFile fd => exact (failsCleanly_syncFile pager volume fd).map _
  | pathOf fd => exact (failsCleanly_pathOf pager volume fd).map _
  | readLog buffer count offset =>
      exact (failsCleanly_readLog pager volume buffer count offset).map _
  -- What is left asks for something that is always there, or resets it.
  | releasePage | isDirectory | isFile | isOpen | extent | openCount | syncLog | logPath
  | statistics | resetStatistics => exact failsCleanly_of_ok rfl

theorem perform_failsCleanly {pager : Pager} {volume : Volume} (hHeld : pager.HeldBy volume)
    (hVolume : volume.Held) (operation : Operation) :
    pager.FailsCleanly volume operation (pager.perform volume operation) := by
  cases hHalf : operation.mayStopHalfway with
  | false => exact failsCleanly_of_whole pager volume hHalf
  | true =>
      cases operation with
      | writePage fd page data count =>
          exact (failsCleanly_writePage hHeld fd page data count).map _
      | appendLog data count => exact (failsCleanly_appendLog hHeld hVolume data count).map _
      | createDirectory path => exact (failsCleanly_createDirectory pager volume path).map _
      | destroyDirectory path => exact (failsCleanly_destroyDirectory pager volume path).map _
      | _ => cases hHalf

end Pager

end Paging
