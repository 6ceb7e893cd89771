import Paging.Proofs.OpenTable.Coherence
import Paging.Proofs.Pager.Transfers
import Paging.Workplace

/-! Operations that look before each step that could stop them. Where such a step is out of
place they end with a hazard and with no outcome at all, and otherwise they go on as the
operations of a pager do. What these do without looking is therefore safe where the two agree,
and the lemmas here say that they do: page transfers and allocations always, and openings
wherever the table is in step and counts its files in a word. -/
namespace Paging

/-- What would stop a pager in the middle of an operation. -/
inductive Hazard
  /-- Bytes are asked for past the end of a buffer. -/
  | pastBuffer
  /-- A number does not fit in its word. -/
  | pastWord
  /-- More is taken away than there is. -/
  | belowZero
  /-- A path is entered in a table that knows it already. -/
  | knownPath
  /-- A path is entered in a table that is full. -/
  | fullTable
  deriving DecidableEq

namespace Checked

/-- The first `count` bytes of a buffer that has as many. -/
def front (buffer : Array UInt8) (count : Nat) : Except Hazard (Array UInt8) :=
  if count ≤ buffer.size then .ok (buffer.extract 0 count) else .error .pastBuffer

/-- A number that is one of the first `size`. -/
def word (size number : Nat) : Except Hazard Nat :=
  if number < size then .ok number else .error .pastWord

/-- What is left of a number that is large enough. -/
def minus (whole part : Nat) : Except Hazard Nat :=
  if part ≤ whole then .ok (whole - part) else .error .belowZero

theorem front_eq_ok {buffer : Array UInt8} {count : Nat} (hCount : count ≤ buffer.size) :
    front buffer count = .ok (buffer.extract 0 count) := if_pos hCount

theorem word_eq_ok {size number : Nat} (hFits : number < size) : word size number = .ok number :=
  if_pos hFits

theorem minus_eq_ok {whole part : Nat} (hPart : part ≤ whole) :
    minus whole part = .ok (whole - part) := if_pos hPart

end Checked

namespace OpenTable

/-- Takes the lowest free descriptor of a table that is not full. -/
def takeFreeChecked (table : OpenTable) : Except Hazard (Descriptor × OpenTable) :=
  if table.isFull then .error .fullTable
  else match table.lowestReleased? with
    | some fd => return (fd, { table with released := table.released.erase fd })
    | none => do
      let next ← Checked.word UInt32.size (table.watermark.number.toNat + 1)
      return (table.watermark, { table with watermark := ⟨.ofNat next⟩ })

/-- Enters a file under the lowest free descriptor, provided that its path is not known and
the table is not full. -/
def insertChecked (table : OpenTable) (path : Path) (inode : Inode) :
    Except Hazard (Descriptor × OpenTable) :=
  match table.descriptor? path with
  | some _ => .error .knownPath
  | none => do
    let (fd, free) ← table.takeFreeChecked
    return (fd, { free with
      byPath := free.byPath.insert path.components fd
      byDescriptor := free.byDescriptor.insert fd ⟨path, ⟨inode, free.openings⟩⟩
      openings := free.openings + 1 })

end OpenTable

/-- Hands out the next page number of a descriptor. The number after it is only stored when it
fits. -/
def PageCounters.allocateChecked (counters : PageCounters) (fd : Descriptor) :
    Except Hazard (Except Error (PageNo × PageCounters)) :=
  match counters.next fd with
  | .error error => return .error error
  | .ok page =>
    if page = .invalid then return .error (.pageSpaceExhausted fd)
    else do
      let after ← Checked.word UInt32.size (page.number.toNat + 1)
      return .ok (page, { counters with counts := counters.counts.insert fd ⟨.ofNat after⟩ })

namespace Pager

/-- Writes a page, with a look at the place in the file and at the bytes that are taken. -/
def writePageChecked (pager : Pager) (volume : Volume) (fd : Descriptor) (page : PageNo)
    (data : Array UInt8) (count : Nat) : Except Hazard (Outcome Unit) :=
  if data.size < count then
    return pager.unchanged volume (.error (.bufferTooSmall count data.size))
  else match pager.handle? fd with
    | none => return pager.unchanged volume (.error (.fileNotOpen fd))
    | some handle => do
      let offset ← Checked.word UInt64.size (page.number.toNat * pageSize)
      let bytes ← Checked.front data count
      return match volume.writeAt handle.inode offset bytes with
        | .error fault => pager.unchanged volume (.error (.io fault))
        | .ok (moved, written) =>
          if moved = count then
            { result := .ok ()
              pager := { pager with statistics := pager.statistics.addPageWrite count }
              volume := written
              events := [.wrotePage count page fd] }
          else
            { result := .error (.shortTransfer .writePage count moved)
              pager
              volume := written
              events := [.shortPage .writePage page fd moved count] }

/-- Reads a page, with a look at the place in the file and at the part of the buffer that is
filled. -/
def readPageChecked (pager : Pager) (volume : Volume) (fd : Descriptor) (page : PageNo)
    (buffer : Array UInt8) (count : Nat) : Except Hazard (Outcome Unit) :=
  if buffer.size < count then
    return { pager.unchanged volume (.error (.bufferTooSmall count buffer.size)) with
      buffer := some buffer }
  else match pager.handle? fd with
    | none =>
      return { pager.unchanged volume (.error (.fileNotOpen fd)) with buffer := some buffer }
    | some handle => do
      let offset ← Checked.word UInt64.size (page.number.toNat * pageSize)
      let window ← Checked.front buffer count
      let bytes := volume.readAt handle.inode offset window.size
      return if bytes.size = count then
          { result := .ok ()
            pager := { pager with statistics := pager.statistics.addPageRead count }
            volume
            events := [.readPage count page fd]
            buffer := some (fillFront buffer bytes) }
        else
          { result := .error (.shortTransfer .readPage count bytes.size)
            pager
            volume
            events := [.shortPage .readPage page fd bytes.size count]
            buffer := some (fillFront buffer bytes) }

/-- Hands out a page number, with a look at the one that follows. -/
def allocatePageChecked (pager : Pager) (volume : Volume) (fd : Descriptor) :
    Except Hazard (Outcome PageNo) := do
  return match ← pager.counters.allocateChecked fd with
    | .ok (page, counters) => { result := .ok page, pager := { pager with counters }, volume }
    | .error (.pageSpaceExhausted fd) =>
      { pager.unchanged volume (.error (.pageSpaceExhausted fd)) with
        events := [.pageSpaceExhausted fd] }
    | .error error => pager.unchanged volume (.error error)

/-- Appends to the log, with a look at the bytes that are taken. -/
def appendLogChecked (pager : Pager) (volume : Volume) (data : Array UInt8) (count : Nat) :
    Except Hazard (Outcome Unit) :=
  if data.size < count then
    return pager.unchanged volume (.error (.bufferTooSmall count data.size))
  else match pager.accessLog volume with
    | .error fault => return pager.unchanged volume (.error (.io fault))
    | .ok access => do
      let bytes ← Checked.front data count
      return match access.volume.append access.inode bytes with
        | .error fault =>
          { access.pager.unchanged access.volume (.error (.io fault)) with
            events := access.events }
        | .ok (moved, written) =>
          if moved = count then
            { result := .ok ()
              pager :=
                { access.pager with statistics := access.pager.statistics.addLogWrite count }
              volume := written
              events := access.events ++ [.appendedLog count] }
          else
            { result := .error (.shortTransfer .writeLog count moved)
              pager := access.pager
              volume := written
              events := access.events ++ [.shortAppend moved count] }

/-- Reads the log, with a look at how much of it is left and at the part of the buffer that is
filled. -/
def readLogChecked (pager : Pager) (volume : Volume) (buffer : Array UInt8)
    (count offset : Nat) : Except Hazard (Outcome (Option Nat)) :=
  if buffer.size < count then
    return { pager.unchanged volume (.error (.bufferTooSmall count buffer.size)) with
      buffer := some buffer }
  else match pager.accessLog volume with
    | .error fault =>
      return { pager.unchanged volume (.error (.io fault)) with buffer := some buffer }
    | .ok access =>
      let length := (access.volume.content access.inode).length
      if length < offset then
        return {
          result := .ok none
          pager := access.pager
          volume := access.volume
          events := access.events
          buffer := some buffer }
      else do
        let left ← Checked.minus length offset
        let expected := min count left
        let window ← Checked.front buffer expected
        let bytes := access.volume.readAt access.inode offset window.size
        return if bytes.size = expected then
            { result := .ok (some expected)
              pager :=
                { access.pager with statistics := access.pager.statistics.addLogRead expected }
              volume := access.volume
              events := access.events
              buffer := some (fillFront buffer bytes) }
          else
            { result := .error (.shortTransfer .readLog expected bytes.size)
              pager := access.pager
              volume := access.volume
              events := access.events
              buffer := some (fillFront buffer bytes) }

/-- Opens a file that is not open yet, with a look at what entering it in the table does. -/
def openTrackedChecked (pager : Pager) (volume : Volume) (path : Path) :
    Except Hazard (Outcome Descriptor) :=
  match pager.table.descriptor? path with
  | some fd => return pager.unchanged volume (.ok fd)
  | none =>
    if pager.table.isFull then
      return { pager.unchanged volume (.error (.tooManyOpenFiles pager.table.capacity)) with
        events := [.tableFull path] }
    else match volume.openFile path with
      | .error .noEntry => return pager.unchanged volume (.error (.fileNotFound path))
      | .error fault => return pager.unchanged volume (.error (.io fault))
      | .ok inode => do
        let (fd, table) ← pager.table.insertChecked path inode
        return {
          result := .ok fd, pager := { pager with table }, volume, events := [.opened path fd] }

/-- Opens an existing file. -/
def openFileChecked (pager : Pager) (volume : Volume) (path : Path) :
    Except Hazard (Outcome Descriptor) :=
  if volume.isFile path then pager.openTrackedChecked volume path
  else return pager.unchanged volume (.error (.fileNotFound path))

/-- The descriptor of a path, which is opened if it is not open. -/
def ensureOpenChecked (pager : Pager) (volume : Volume) (path : Path) :
    Except Hazard (Outcome Descriptor) :=
  match pager.table.descriptor? path with
  | some fd => return pager.unchanged volume (.ok fd)
  | none =>
    if volume.isFile path then pager.openTrackedChecked volume path
    else return pager.unchanged volume (.error (.fileNotFound path))

/-- Performs one operation. Those that no step of theirs can stop are done as they are. -/
def performChecked (pager : Pager) (volume : Volume) :
    Operation → Except Hazard (Outcome Reply)
  | .writePage fd page data count =>
    (pager.writePageChecked volume fd page data count).map (Outcome.map fun _ => .done)
  | .readPage fd page buffer count =>
    (pager.readPageChecked volume fd page buffer count).map (Outcome.map fun _ => .done)
  | .allocatePage fd => (pager.allocatePageChecked volume fd).map (Outcome.map .page)
  | .openFile path => (pager.openFileChecked volume path).map (Outcome.map .descriptor)
  | .ensureOpen path => (pager.ensureOpenChecked volume path).map (Outcome.map .descriptor)
  | .appendLog data count =>
    (pager.appendLogChecked volume data count).map (Outcome.map fun _ => .done)
  | .readLog buffer count offset =>
    (pager.readLogChecked volume buffer count offset).map (Outcome.map .logRead)
  | operation => .ok (pager.perform volume operation)

/-- Does the rest of an operation that was begun. -/
def completeChecked (pager : Pager) (volume : Volume) :
    Unfinished → Except Hazard (Outcome Reply)
  | .opening path => (pager.openTrackedChecked volume path).map (Outcome.map .descriptor)
  | unfinished => .ok (pager.complete volume unfinished)

end Pager

/-- A table that has room and counts its files in a word hands out a descriptor. -/
theorem OpenTable.Coherent.takeFreeChecked_eq {table : OpenTable} (hCoherent : table.Coherent)
    (hCapacity : table.capacity < UInt32.size) (hRoom : table.isFull = false) :
    ∃ taken, table.takeFreeChecked = .ok taken ∧ table.takeFree = .ok taken := by
  unfold takeFreeChecked takeFree
  rw [hRoom]
  cases hLowest : table.lowestReleased? with
  | some fd => exact ⟨_, rfl, rfl⟩
  | none =>
      -- All descriptors below the watermark are in use, and not all places are taken.
      have hReleased := (size_released_of_lowestReleased?_eq_none hLowest).1
      have hSizes := hCoherent.size_add_size
      have hCount : table.byDescriptor.size < table.capacity :=
        Nat.not_le.mp (of_decide_eq_false hRoom)
      have hNext : table.watermark.number.toNat + 1 < UInt32.size := by
        simp only [Descriptor.index] at hSizes
        omega
      refine ⟨_, ?_, rfl⟩
      simp [Checked.word_eq_ok hNext, bind, Except.bind, pure, Except.pure]

/-- A table that has room and counts its files in a word enters a new path. -/
theorem OpenTable.Coherent.insertChecked_eq {table : OpenTable} (hCoherent : table.Coherent)
    (hCapacity : table.capacity < UInt32.size) {path : Path}
    (hNew : table.descriptor? path = none) (hRoom : table.isFull = false) (inode : Inode) :
    ∃ entered, table.insertChecked path inode = .ok entered ∧
      table.insert path inode = .ok entered := by
  obtain ⟨⟨fd, free⟩, hChecked, hTaken⟩ := hCoherent.takeFreeChecked_eq hCapacity hRoom
  unfold insertChecked insert
  rw [hNew, hChecked, hTaken]
  exact ⟨_, rfl, rfl⟩

-- With one place more than a word counts, the descriptors run out before the places do.
example : (OpenTable.mk UInt32.size ∅ ∅ ∅ ⟨4294967295⟩ 0).insertChecked ⟨"f"⟩ ⟨0⟩ =
    .error .pastWord := rfl

/-- The number after a page fits wherever there is one. -/
theorem PageCounters.allocateChecked_eq (counters : PageCounters) (fd : Descriptor) :
    counters.allocateChecked fd = .ok (counters.allocate fd) := by
  unfold allocateChecked allocate
  cases counters.next fd with
  | error error => rfl
  | ok page =>
      dsimp only
      by_cases hLast : page = .invalid
      · rw [if_pos hLast, (PageNo.next?_eq_none_iff page).mpr hLast]
        rfl
      · have hNext : page.next? = some ⟨page.number + 1⟩ := if_neg hLast
        have hFits : page.number.toNat + 1 < UInt32.size := by
          rw [← PageNo.toNat_of_next?_eq_some hNext]
          exact UInt32.toNat_lt _
        rw [if_neg hLast, hNext, Checked.word_eq_ok hFits]
        simp [bind, Except.bind, pure, Except.pure]

/-- The place of a page in its file fits in a word. -/
theorem Checked.word_offset (page : PageNo) :
    Checked.word UInt64.size (page.number.toNat * pageSize) = .ok page.offset :=
  word_eq_ok (Nat.lt_of_le_of_lt (Nat.le_add_right _ _) page.offset_add_pageSize_lt)

namespace Pager

variable (pager : Pager) (volume : Volume)

theorem writePageChecked_eq (fd : Descriptor) (page : PageNo) (data : Array UInt8) (count : Nat) :
    pager.writePageChecked volume fd page data count =
      .ok (pager.writePage volume fd page data count) := by
  unfold writePageChecked writePage
  by_cases hCount : data.size < count
  · rw [if_pos hCount, if_pos hCount]
    rfl
  · rw [if_neg hCount, if_neg hCount, Checked.word_offset, Checked.front_eq_ok (Nat.not_lt.mp hCount)]
    cases pager.handle? fd <;> rfl

theorem readPageChecked_eq (fd : Descriptor) (page : PageNo) (buffer : Array UInt8) (count : Nat) :
    pager.readPageChecked volume fd page buffer count =
      .ok (pager.readPage volume fd page buffer count) := by
  unfold readPageChecked readPage
  by_cases hCount : buffer.size < count
  · rw [if_pos hCount, if_pos hCount]
    rfl
  · have hWindow := size_extract_of_le (Nat.not_lt.mp hCount)
    rw [if_neg hCount, if_neg hCount, Checked.word_offset, Checked.front_eq_ok (Nat.not_lt.mp hCount)]
    cases pager.handle? fd with
    | none => rfl
    | some handle =>
        simp only [bind, Except.bind, hWindow]
        rfl

theorem allocatePageChecked_eq (fd : Descriptor) :
    pager.allocatePageChecked volume fd = .ok (pager.allocatePage volume fd) := by
  rw [allocatePageChecked, PageCounters.allocateChecked_eq]
  rfl

theorem appendLogChecked_eq (data : Array UInt8) (count : Nat) :
    pager.appendLogChecked volume data count = .ok (pager.appendLog volume data count) := by
  unfold appendLogChecked appendLog
  by_cases hCount : data.size < count
  · rw [if_pos hCount, if_pos hCount]
    rfl
  · rw [if_neg hCount, if_neg hCount, Checked.front_eq_ok (Nat.not_lt.mp hCount)]
    cases pager.accessLog volume <;> rfl

theorem readLogChecked_eq (buffer : Array UInt8) (count offset : Nat) :
    pager.readLogChecked volume buffer count offset =
      .ok (pager.readLog volume buffer count offset) := by
  unfold readLogChecked readLog
  by_cases hCount : buffer.size < count
  · rw [if_pos hCount, if_pos hCount]
    rfl
  · rw [if_neg hCount, if_neg hCount]
    cases pager.accessLog volume with
    | error fault => rfl
    | ok access =>
        dsimp only
        by_cases hPast : (access.volume.content access.inode).length < offset
        · rw [if_pos hPast, if_pos hPast]
          rfl
        · -- What is asked for is at most what the buffer has, whatever is left of the log.
          have hExpected :
              min count ((access.volume.content access.inode).length - offset) ≤ buffer.size := by
            omega
          have hWindow := size_extract_of_le hExpected
          rw [if_neg hPast, if_neg hPast, Checked.minus_eq_ok (Nat.not_lt.mp hPast)]
          simp only [bind, Except.bind, Checked.front_eq_ok hExpected, hWindow]
          rfl

variable {pager}

theorem openTrackedChecked_eq (hCoherent : pager.table.Coherent)
    (hCapacity : pager.table.capacity < UInt32.size) (path : Path) :
    pager.openTrackedChecked volume path = .ok (pager.openTracked volume path) := by
  unfold openTrackedChecked openTracked
  cases hNew : pager.table.descriptor? path with
  | some fd => rfl
  | none =>
      cases hRoom : pager.table.isFull with
      | true => rfl
      | false =>
          simp only [Bool.false_eq_true, if_false]
          cases volume.openFile path with
          | error fault => cases fault <;> rfl
          | ok inode =>
              obtain ⟨entered, hChecked, hEntered⟩ :=
                hCoherent.insertChecked_eq hCapacity hNew hRoom inode
              dsimp only
              rw [hChecked, hEntered]
              rfl

/-- Where the table is in step and counts its files in a word, no operation is stopped. -/
theorem performChecked_eq (hCoherent : pager.table.Coherent)
    (hCapacity : pager.table.capacity < UInt32.size) (operation : Operation) :
    pager.performChecked volume operation = .ok (pager.perform volume operation) := by
  have hOpening := openTrackedChecked_eq volume hCoherent hCapacity
  cases operation with
  | writePage => rw [performChecked, writePageChecked_eq]; rfl
  | readPage => rw [performChecked, readPageChecked_eq]; rfl
  | allocatePage => rw [performChecked, allocatePageChecked_eq]; rfl
  | appendLog => rw [performChecked, appendLogChecked_eq]; rfl
  | readLog => rw [performChecked, readLogChecked_eq]; rfl
  | openFile path =>
      rw [performChecked, perform, openFileChecked, openFile, hOpening]
      cases volume.isFile path <;> rfl
  | ensureOpen path =>
      rw [performChecked, perform, ensureOpenChecked, ensureOpen, hOpening]
      cases pager.table.descriptor? path with
      | some fd => rfl
      | none => cases volume.isFile path <;> rfl
  | _ => rfl

theorem completeChecked_eq (hCoherent : pager.table.Coherent)
    (hCapacity : pager.table.capacity < UInt32.size) (unfinished : Unfinished) :
    pager.completeChecked volume unfinished = .ok (pager.complete volume unfinished) := by
  cases unfinished with
  | opening path =>
      rw [completeChecked, complete, openTrackedChecked_eq volume hCoherent hCapacity]
      rfl
  | closing | destroying => rfl

end Pager

end Paging
