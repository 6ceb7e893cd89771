import Paging.Proofs.Pager.Failing
import Paging.Proofs.Pager.Naming
import Paging.Proofs.Pager.Records

/-! How a pager keeps its log from one operation to the next. The log is taken out of its
place for as long as it is worked with, and opened first when there is none. Main statement:
whatever the work comes to, the log is in its place again, and an operation that cannot open
it has done nothing. -/
namespace Paging

/-- The record tells that the log was opened. -/
def Event.opensLog : Event → Bool
  | .openedLog _ => true
  | _ => false

namespace Operation

/-- The operation comes to work with the log, if the log can be opened: it appends or reads
no more bytes than there is room for in the caller's buffer. -/
def reachesLog : Operation → Bool
  | .appendLog data count => decide (count ≤ data.size)
  | .readLog buffer count _ => decide (count ≤ buffer.size)
  | _ => false

/-- What comes to work with the log is an append or a read with room enough. -/
theorem reachesLog_cases {operation : Operation} (hReaches : operation.reachesLog = true) :
    (∃ data count, operation = .appendLog data count ∧ count ≤ data.size) ∨
    ∃ buffer count offset, operation = .readLog buffer count offset ∧ count ≤ buffer.size := by
  cases operation with
  | appendLog data count => exact Or.inl ⟨data, count, rfl, of_decide_eq_true hReaches⟩
  | readLog buffer count offset =>
      exact Or.inr ⟨buffer, count, offset, rfl, of_decide_eq_true hReaches⟩
  | _ => cases hReaches

/-- The caller's buffer, if the operation reads into one. -/
def buffer? : Operation → Option (Array UInt8)
  | .readPage _ _ buffer _ => some buffer
  | .readLog buffer _ _ => some buffer
  | _ => none

end Operation

/-- What some work with the log comes to. -/
structure LogWork (α : Type) where
  result : Except Error α
  volume : Volume
  /-- What was recorded meanwhile, in order. -/
  events : List Event := []
  /-- The caller's buffer afterwards, if the work reads into one. -/
  buffer : Option (Array UInt8) := none

/-- The outcome with records of what went before in front of its own. -/
def Outcome.following {α : Type} (earlier : List Event) (outcome : Outcome α) : Outcome α :=
  { outcome with events := earlier ++ outcome.events }

namespace Pager

section Work

variable {α : Type}

/-- What there is of some work once the log has been put back into its place. -/
def putBack (taken : Pager) (inode : Inode) (events : List Event) (work : LogWork α) :
    Outcome α where
  result := work.result
  pager := { taken with log := some inode }
  volume := work.volume
  events := events ++ work.events
  buffer := work.buffer

/-- Does some work with the log. The log is taken out of its place, and opened when there is
none, and the work is given the file and nothing else of the pager. When the log cannot be
opened, no work is done and the caller's buffer is left as it is. -/
def withLog (pager : Pager) (volume : Volume) (buffer : Option (Array UInt8))
    (work : Inode → Volume → LogWork α) : Outcome α :=
  let taken : Pager := { pager with log := none }
  match pager.log with
  | some inode => taken.putBack inode [] (work inode volume)
  | none =>
    match volume.openOrCreate pager.logPath with
    | .error fault => { taken.unchanged volume (.error (.io fault)) with buffer }
    | .ok (inode, opened) =>
      taken.putBack inode [.openedLog pager.logPath] (work inode opened)

/-- An append, once the log is at hand. -/
def appendWork (data : Array UInt8) (count : Nat) (inode : Inode) (volume : Volume) :
    LogWork Unit :=
  match volume.append inode (data.extract 0 count) with
  | .error fault => { result := .error (.io fault), volume }
  | .ok (moved, written) =>
    if moved = count then { result := .ok (), volume := written }
    else
      { result := .error (.shortTransfer .writeLog count moved)
        volume := written
        events := [.shortAppend moved count] }

/-- A read, once the log is at hand. -/
def readWork (buffer : Array UInt8) (count offset : Nat) (inode : Inode) (volume : Volume) :
    LogWork (Option Nat) :=
  let length := (volume.content inode).length
  if length < offset then { result := .ok none, volume, buffer := some buffer }
  else
    let expected := min count (length - offset)
    let bytes := volume.readAt inode offset expected
    { result :=
        if bytes.size = expected then .ok (some expected)
        else .error (.shortTransfer .readLog expected bytes.size)
      volume
      buffer := some (fillFront buffer bytes) }

variable {pager : Pager} {volume : Volume}

theorem withLog_of_access {access : LogAccess} (hAccess : pager.accessLog volume = .ok access)
    (buffer : Option (Array UInt8)) (work : Inode → Volume → LogWork α) :
    pager.withLog volume buffer work =
      pager.putBack access.inode access.events (work access.inode access.volume) := by
  cases hLog : pager.log with
  | some inode =>
      simp only [accessLog, hLog] at hAccess
      cases hAccess
      simp [withLog, hLog, putBack]
  | none =>
      cases hOpened : volume.openOrCreate pager.logPath with
      | error fault => simp [accessLog, hLog, hOpened] at hAccess
      | ok found =>
          simp only [accessLog, hLog, hOpened] at hAccess
          cases hAccess
          simp [withLog, hLog, hOpened, putBack]

theorem withLog_of_fault {fault : Fault} (hFault : pager.accessLog volume = .error fault)
    (buffer : Option (Array UInt8)) (work : Inode → Volume → LogWork α) :
    pager.withLog volume buffer work =
      { pager.unchanged volume (.error (.io fault)) with buffer } := by
  cases hLog : pager.log with
  | some inode => simp [accessLog, hLog] at hFault
  | none =>
      have hTaken : ({ pager with log := none } : Pager) = pager := by rw [← hLog]
      cases hOpened : volume.openOrCreate pager.logPath with
      | error other =>
          simp only [accessLog, hLog, hOpened] at hFault
          cases hFault
          simp only [withLog, hLog, hOpened, hTaken]
      | ok found => simp [accessLog, hLog, hOpened] at hFault

/-- Whatever work is done with an open log, the pager is afterwards as it was. -/
theorem withLog_of_log {inode : Inode} (hLog : pager.log = some inode)
    (buffer : Option (Array UInt8)) (work : Inode → Volume → LogWork α) :
    pager.withLog volume buffer work =
      ⟨(work inode volume).result, pager, (work inode volume).volume,
        (work inode volume).events, (work inode volume).buffer⟩ := by
  have hPager : ({ pager with log := some inode } : Pager) = pager := by rw [← hLog]
  simp [withLog, hLog, putBack, hPager]

/-- An append with enough bytes is work with the log, and is counted when the work is done. -/
theorem appendLog_eq_withLog (pager : Pager) (volume : Volume) {data : Array UInt8} {count : Nat}
    (hCount : count ≤ data.size) :
    pager.appendLog volume data count =
      let outcome := pager.withLog volume none (appendWork data count)
      match outcome.result with
      | .ok () =>
        { outcome with
          pager := { outcome.pager with
            statistics := outcome.pager.statistics.addLogWrite count }
          events := outcome.events ++ [.appendedLog count] }
      | .error _ => outcome := by
  unfold appendLog
  rw [if_neg (Nat.not_lt.mpr hCount)]
  cases hAccess : pager.accessLog volume with
  | error fault =>
      rw [withLog_of_fault hAccess]
      rfl
  | ok access =>
      have hPager := (accessLog_eq_ok hAccess).1
      rw [withLog_of_access hAccess]
      dsimp only [putBack, appendWork]
      cases access.volume.append access.inode (data.extract 0 count) with
      | error fault => simp [hPager, unchanged]
      | ok appended =>
          obtain ⟨moved, written⟩ := appended
          by_cases hAll : moved = count
          · simp [hAll, hPager]
          · simp [hAll, hPager]

/-- A read with enough room is work with the log, and is counted when there was something to
tell. -/
theorem readLog_eq_withLog (pager : Pager) (volume : Volume) {buffer : Array UInt8} {count : Nat}
    (hCount : count ≤ buffer.size) (offset : Nat) :
    pager.readLog volume buffer count offset =
      let outcome := pager.withLog volume (some buffer) (readWork buffer count offset)
      match outcome.result with
      | .ok (some moved) =>
        { outcome with
          pager := { outcome.pager with
            statistics := outcome.pager.statistics.addLogRead moved } }
      | _ => outcome := by
  unfold readLog
  rw [if_neg (Nat.not_lt.mpr hCount)]
  cases hAccess : pager.accessLog volume with
  | error fault =>
      rw [withLog_of_fault hAccess]
      rfl
  | ok access =>
      have hPager := (accessLog_eq_ok hAccess).1
      rw [withLog_of_access hAccess]
      dsimp only [putBack, readWork]
      by_cases hPast : (access.volume.content access.inode).length < offset
      · simp [hPast, hPager]
      · simp only [hPast, if_false]
        split
        · simp [hPager]
        · simp [hPager]

end Work

/-- A log that is open is at hand, and nothing is recorded of that. -/
theorem accessLog_of_log {pager : Pager} {inode : Inode} (hLog : pager.log = some inode)
    (volume : Volume) : pager.accessLog volume = .ok ⟨inode, pager, volume, []⟩ := by
  simp [accessLog, hLog]

section Reaching

variable {pager : Pager} {volume : Volume} {access : LogAccess}

/-- Work that opens the log goes on as work that finds it open. -/
theorem withLog_eq_following (hAccess : pager.accessLog volume = .ok access) {α : Type}
    (buffer : Option (Array UInt8)) (work : Inode → Volume → LogWork α) :
    pager.withLog volume buffer work =
      (access.pager.withLog access.volume buffer work).following access.events := by
  have hPager := (accessLog_eq_ok hAccess).1
  have hAgain : access.pager.accessLog access.volume =
      .ok ⟨access.inode, access.pager, access.volume, []⟩ :=
    accessLog_of_log (by rw [hPager]) access.volume
  rw [withLog_of_access hAccess, withLog_of_access hAgain, hPager]
  rfl

/-- An operation that opens the log goes on as one that finds it open. -/
theorem perform_of_access (hAccess : pager.accessLog volume = .ok access) {operation : Operation}
    (hReaches : operation.reachesLog = true) :
    pager.perform volume operation =
      (access.pager.perform access.volume operation).following access.events := by
  rcases Operation.reachesLog_cases hReaches with
    ⟨data, count, rfl, hCount⟩ | ⟨buffer, count, offset, rfl, hCount⟩
  · simp only [perform, appendLog_eq_withLog _ _ hCount, withLog_eq_following hAccess]
    generalize access.pager.withLog access.volume none (appendWork data count) = worked
    rcases worked with ⟨error | done, _, _, _, _⟩
    · rfl
    · simp [Outcome.following, Outcome.map]
  · simp only [perform, readLog_eq_withLog _ _ hCount, withLog_eq_following hAccess]
    generalize access.pager.withLog access.volume (some buffer)
      (readWork buffer count offset) = worked
    rcases worked with ⟨error | (_ | moved), _, _, _, _⟩ <;> rfl

/-- An operation that cannot open the log has done nothing. -/
theorem perform_of_fault {fault : Fault} (hFault : pager.accessLog volume = .error fault)
    {operation : Operation} (hReaches : operation.reachesLog = true) :
    pager.perform volume operation =
      { pager.unchanged volume (.error (.io fault)) with buffer := operation.buffer? } := by
  rcases Operation.reachesLog_cases hReaches with
    ⟨data, count, rfl, hCount⟩ | ⟨buffer, count, offset, rfl, hCount⟩
  · simp only [perform, appendLog_eq_withLog _ _ hCount, withLog_of_fault hFault]
    rfl
  · simp only [perform, readLog_eq_withLog _ _ hCount, withLog_of_fault hFault]
    rfl

end Reaching

/-- No record of an append that finds the log open tells of an opening. -/
theorem opensLog_appendWork (data : Array UInt8) (count : Nat) (inode : Inode)
    (volume : Volume) : (appendWork data count inode volume).events.filter Event.opensLog = [] := by
  unfold appendWork
  split
  · rfl
  · split <;> rfl

/-- Nothing is recorded of a read that finds the log open. -/
theorem events_readWork (buffer : Array UInt8) (count offset : Nat) (inode : Inode)
    (volume : Volume) : (readWork buffer count offset inode volume).events = [] := by
  unfold readWork
  dsimp only
  split <;> rfl

/-- An operation that does not come to work with the log leaves it as it was, and records no
opening of it. -/
theorem perform_of_not_reachesLog (pager : Pager) (volume : Volume) {operation : Operation}
    (hIdle : operation.reachesLog = false) :
    (pager.perform volume operation).pager.log = pager.log ∧
      (pager.perform volume operation).events.filter Event.opensLog = [] := by
  cases hUses : operation.usesLog with
  | false =>
      refine ⟨(perform_parts pager volume operation).2.2 hUses, ?_⟩
      rw [List.filter_eq_nil_iff]
      intro event hEvent hOpens
      have hMay := mayRecord_of_mem_events hEvent
      cases event with
      | openedLog path =>
          -- None but appends and reads of the log have this record.
          cases operation with
          | appendLog | readLog => cases hUses
          | _ => cases hMay
      | _ => cases hOpens
  | true =>
      cases operation with
      | appendLog data count =>
          have hCount : data.size < count := Nat.not_le.mp (of_decide_eq_false hIdle)
          simp [perform, appendLog, hCount, unchanged, Outcome.map]
      | readLog buffer count offset =>
          have hCount : buffer.size < count := Nat.not_le.mp (of_decide_eq_false hIdle)
          simp [perform, readLog, hCount, unchanged, Outcome.map]
      | _ => cases hUses

/-- A log that is open is not opened again. -/
theorem opensLog_perform_of_log {pager : Pager} {inode : Inode} (hLog : pager.log = some inode)
    (volume : Volume) (operation : Operation) :
    (pager.perform volume operation).events.filter Event.opensLog = [] := by
  cases hReaches : operation.reachesLog with
  | false => exact (perform_of_not_reachesLog pager volume hReaches).2
  | true =>
      rcases Operation.reachesLog_cases hReaches with
        ⟨data, count, rfl, hCount⟩ | ⟨buffer, count, offset, rfl, hCount⟩
      · have hNone := opensLog_appendWork data count inode volume
        simp only [perform, Outcome.map, appendLog_eq_withLog _ _ hCount, withLog_of_log hLog]
        split
        · simpa [Event.opensLog] using hNone
        · exact hNone
      · have hNone := events_readWork buffer count offset inode volume
        simp only [perform, Outcome.map, readLog_eq_withLog _ _ hCount, withLog_of_log hLog]
        split <;> simp [hNone]

/-- What is refused for a buffer that is too small has not come to the log, and has changed
nothing. -/
theorem perform_of_bufferTooSmall {pager : Pager} {volume : Volume} (hHeld : pager.HeldBy volume)
    (hVolume : volume.Held) {operation : Operation} {required actual : Nat}
    (hRefused : (pager.perform volume operation).result =
      .error (.bufferTooSmall required actual)) :
    operation.reachesLog = false ∧ (pager.perform volume operation).pager = pager ∧
      (pager.perform volume operation).volume = volume := by
  obtain ⟨hPager, hRemains⟩ := perform_failsCleanly hHeld hVolume operation _ hRefused
  obtain ⟨hLog, hSame⟩ := hRemains.eq_of_isRefusal rfl
  refine ⟨?_, by rw [hPager, hLog], hSame⟩
  cases hReaches : operation.reachesLog with
  | false => rfl
  | true =>
      -- What comes to work with the log fails otherwise, or not at all.
      cases hAccess : pager.accessLog volume with
      | error fault =>
          rw [perform_of_fault hAccess hReaches] at hRefused
          cases hRefused
      | ok access =>
          rcases Operation.reachesLog_cases hReaches with
            ⟨data, count, rfl, hCount⟩ | ⟨buffer, count, offset, rfl, hCount⟩
          · simp only [perform, Outcome.map, appendLog_result hAccess hCount,
              writeResult] at hRefused
            split at hRefused
            · cases hRefused
            · split at hRefused <;> cases hRefused
          · simp only [perform, Outcome.map,
              (readLog_of_access hAccess hCount offset rfl rfl).1] at hRefused
            cases hRefused

/-- The pager has one file as its log. Wherever names lead, no operation takes the log from it
or opens it again, no work that is done with the log does, every append and every read goes to
that file, and the path of the log is guarded. -/
structure WorksOn (pager : Pager) (volume : Volume) (inode : Inode) : Prop where
  keeps : ∀ operation,
    (pager.perform volume operation).pager.log = some inode ∧
      (pager.perform volume operation).events.filter Event.opensLog = []
  putsBack : ∀ {α : Type} (buffer : Option (Array UInt8)) (work : Inode → Volume → LogWork α),
    pager.withLog volume buffer work =
      ⟨(work inode volume).result, pager, (work inode volume).volume,
        (work inode volume).events, (work inode volume).buffer⟩
  appends : ∀ (data : Array UInt8) (count : Nat), count ≤ data.size →
    let outcome := pager.appendLog volume data count
    let log := (volume.content inode).toList
    outcome.result = writeResult .writeLog log.length count ∧
      volume.GivesBytes inode (log ++ data.toList.take (movedBy count outcome.result))
        outcome.volume
  reads : ∀ (buffer : Array UInt8) (count offset : Nat), count ≤ buffer.size →
    let outcome := pager.readLog volume buffer count offset
    let log := (volume.content inode).toList
    let got := (log.drop offset).take count
    outcome.result = .ok (if log.length < offset then none else some got.length) ∧
      outcome.buffer.map Array.toList = some (got ++ buffer.toList.drop got.length) ∧
      outcome.volume = volume
  refuses : ∀ path : Path, path.SameAs pager.logPath →
    pager.destroyFile volume path =
      { pager.unchanged volume (.error (.fileNotClosed path)) with
        events := [.refusedDestroy path] }

theorem worksOn_of_log {pager : Pager} {volume : Volume} {inode : Inode}
    (hLog : pager.log = some inode) (hIndex : inode.index < volume.contents.size) :
    pager.WorksOn volume inode where
  keeps operation :=
    ⟨log_perform hLog volume operation, opensLog_perform_of_log hLog volume operation⟩
  putsBack := withLog_of_log hLog
  appends data count hCount := by
    have hAccess := accessLog_of_log hLog volume
    refine ⟨?_, ?_⟩
    · rw [appendLog_result hAccess hCount, Content.length_toList]
    · rcases appendLog_cases pager volume data count with
        ⟨hSame, -, hNone⟩ | ⟨access, hFound, -, hAppended⟩
      · rw [hSame, hNone, List.take_zero, List.append_nil]
        exact ⟨rfl, rfl, fun _ _ => rfl⟩
      · rw [hAccess] at hFound
        cases hFound
        rcases hAppended with ⟨hSame, hNone⟩ | ⟨content, hAfter, hList⟩
        · rw [hSame, hNone, List.take_zero, List.append_nil]
          exact ⟨rfl, rfl, fun _ _ => rfl⟩
        · rw [hAfter]
          exact volume.givesBytes_setContent hIndex hList
  reads buffer count offset hCount :=
    readLog_of_access (accessLog_of_log hLog volume) hCount offset rfl rfl
  refuses path hSame := destroyFile_of_guards (guards_of_log hLog hSame) volume

/-- How a pager deals with its log: a log that is open is the file that it works on; one that
is not is opened by the operation that comes to work with it, which then goes on as one that
found it open, or cannot be opened, and then that operation has done nothing. What does not
come to work with the log leaves it alone, and whatever is refused for a buffer that is too
small is among that. -/
structure TendsLog (pager : Pager) (volume : Volume) : Prop where
  worksOn : ∀ inode, pager.log = some inode → pager.WorksOn volume inode
  opens : pager.log = none → ∀ inode opened,
    volume.openOrCreate pager.logPath = .ok (inode, opened) →
    let logged : Pager := { pager with log := some inode }
    logged.WorksOn opened inode ∧
    (∀ operation, operation.reachesLog = true →
      pager.perform volume operation =
        (logged.perform opened operation).following [.openedLog pager.logPath]) ∧
    ∀ {α : Type} (buffer : Option (Array UInt8)) (work : Inode → Volume → LogWork α),
      pager.withLog volume buffer work =
        (logged.withLog opened buffer work).following [.openedLog pager.logPath]
  fails : pager.log = none → ∀ fault, volume.openOrCreate pager.logPath = .error fault →
    ∀ operation, operation.reachesLog = true →
      pager.perform volume operation =
        { pager.unchanged volume (.error (.io fault)) with buffer := operation.buffer? }
  leaves : ∀ operation, operation.reachesLog = false →
    (pager.perform volume operation).pager.log = pager.log ∧
      (pager.perform volume operation).events.filter Event.opensLog = []
  refused : ∀ operation required actual,
    (pager.perform volume operation).result = .error (.bufferTooSmall required actual) →
    operation.reachesLog = false ∧ (pager.perform volume operation).pager = pager ∧
      (pager.perform volume operation).volume = volume

theorem tendsLog {pager : Pager} {volume : Volume} (hHeld : pager.HeldBy volume)
    (hVolume : volume.Held) : pager.TendsLog volume where
  worksOn inode hLog := worksOn_of_log hLog (hHeld.log inode hLog)
  opens hNone inode opened hOpened := by
    have hAccess : pager.accessLog volume = .ok ⟨inode, { pager with log := some inode }, opened,
        [.openedLog pager.logPath]⟩ := by
      simp [accessLog, hNone, hOpened]
    exact ⟨worksOn_of_log rfl ((Volume.openOrCreate_extends hOpened).2 hVolume),
      fun operation hReaches => perform_of_access hAccess hReaches,
      fun buffer work => withLog_eq_following hAccess buffer work⟩
  fails hNone fault hFailed operation hReaches := by
    have hFault : pager.accessLog volume = .error fault := by
      simp [accessLog, hNone, hFailed]
    exact perform_of_fault hFault hReaches
  leaves operation hIdle := perform_of_not_reachesLog pager volume hIdle
  refused _ _ _ hRefused := perform_of_bufferTooSmall hHeld hVolume hRefused

/-- Everything that an operation can do to the log, and what it records of that: nothing, or
open a log that is not open. -/
theorem TendsLog.perform_cases {pager : Pager} {volume : Volume} (hTends : pager.TendsLog volume)
    (operation : Operation) :
    ((pager.perform volume operation).pager.log = pager.log ∧
      (pager.perform volume operation).events.filter Event.opensLog = []) ∨
    (pager.log = none ∧ operation.reachesLog = true ∧ ∃ inode,
      (pager.perform volume operation).pager.log = some inode ∧
      (pager.perform volume operation).events.filter Event.opensLog =
        [.openedLog pager.logPath]) := by
  cases hReaches : operation.reachesLog with
  | false => exact Or.inl (hTends.leaves operation hReaches)
  | true =>
      cases hLog : pager.log with
      | some inode => exact Or.inl ((hTends.worksOn inode hLog).keeps operation)
      | none =>
          cases hOpened : volume.openOrCreate pager.logPath with
          | error fault =>
              rw [hTends.fails hLog fault hOpened operation hReaches]
              exact Or.inl ⟨hLog, rfl⟩
          | ok found =>
              obtain ⟨hWorks, hGoesOn, -⟩ := hTends.opens hLog found.1 found.2 hOpened
              obtain ⟨hKept, hNothing⟩ := hWorks.keeps operation
              rw [hGoesOn operation hReaches]
              refine Or.inr ⟨rfl, rfl, found.1, hKept, ?_⟩
              rw [Outcome.following, List.filter_append, hNothing]
              rfl

end Pager

end Paging
