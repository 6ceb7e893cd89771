import Mathlib
import Paging.Proofs.Pager.Records

/-! Completed transfers, told in three ways that agree: by the results of operations, by
what is counted, and by what is recorded. A read of the log is counted and not recorded. -/
namespace Paging

/-- The kind of transfer that an operation completed, going by its result, and how many
bytes it moved. A read past the end of the log is none. -/
def Operation.completed? (result : Except Error Reply) : Operation → Option (Transfer × Nat)
  | .writePage _ _ _ count => if result.isOk then some (.writePage, count) else none
  | .readPage _ _ _ count => if result.isOk then some (.readPage, count) else none
  | .appendLog _ count => if result.isOk then some (.writeLog, count) else none
  | .readLog .. =>
    match result with
    | .ok (.logRead (some count)) => some (.readLog, count)
    | _ => none
  | _ => none

/-- Whether an operation moves bytes between a caller and the volume. -/
def Operation.transfers : Operation → Bool
  | .writePage .. => true
  | .readPage .. => true
  | .appendLog .. => true
  | .readLog .. => true
  | _ => false

/-- The completed transfer that a record tells of. -/
def Event.completed? : Event → Option (Transfer × Nat)
  | .wrotePage count _ _ => some (.writePage, count)
  | .readPage count _ _ => some (.readPage, count)
  | .appendedLog count => some (.writeLog, count)
  | _ => none

/-- Completed transfers that are recorded. -/
def Transfer.recorded (transfers : List (Transfer × Nat)) : List (Transfer × Nat) :=
  transfers.filter fun transfer => transfer.1 ≠ .readLog

namespace Statistics

/-- Counts one completed transfer. -/
def count (statistics : Statistics) : Transfer × Nat → Statistics
  | (.readPage, amount) => statistics.addPageRead amount
  | (.writePage, amount) => statistics.addPageWrite amount
  | (.readLog, amount) => statistics.addLogRead amount
  | (.writeLog, amount) => statistics.addLogWrite amount

/-- How many bytes each completed transfer of one kind moved. -/
def bytesOf (kind : Transfer) (transfers : List (Transfer × Nat)) : List Nat :=
  (transfers.filter fun transfer => transfer.1 = kind).map Prod.snd

/-- The counts that some completed transfers come to: of pages how many there were of each
kind, and of pages and the log how many bytes they moved altogether. -/
def ofTransfers (transfers : List (Transfer × Nat)) : Statistics where
  pagesRead := .ofNat (bytesOf .readPage transfers).length
  pagesWritten := .ofNat (bytesOf .writePage transfers).length
  pageBytesRead := .ofNat (bytesOf .readPage transfers).sum
  pageBytesWritten := .ofNat (bytesOf .writePage transfers).sum
  logBytesWritten := .ofNat (bytesOf .writeLog transfers).sum
  logBytesRead := .ofNat (bytesOf .readLog transfers).sum

theorem bytesOf_concat (kind : Transfer) (transfers : List (Transfer × Nat))
    (transfer : Transfer × Nat) :
    bytesOf kind (transfers ++ [transfer]) =
      bytesOf kind transfers ++ if transfer.1 = kind then [transfer.2] else [] := by
  rw [bytesOf, List.filter_append, List.map_append, ← bytesOf]
  split
  · rename_i hKind
    rw [List.filter_cons_of_pos (by simpa using hKind)]
    rfl
  · rename_i hKind
    rw [List.filter_cons_of_neg (by simpa using hKind)]
    rfl

/-- Counting one transfer more. -/
theorem count_ofTransfers (transfers : List (Transfer × Nat)) (transfer : Transfer × Nat) :
    (ofTransfers transfers).count transfer = ofTransfers (transfers ++ [transfer]) := by
  obtain ⟨kind, amount⟩ := transfer
  cases kind <;>
    simp [ofTransfers, bytesOf_concat, count, addPageRead, addPageWrite, addLogRead, addLogWrite,
      add, UInt64.ofNat_add]

/-- Counting some transfers more. -/
theorem foldl_count (before transfers : List (Transfer × Nat)) :
    transfers.foldl count (ofTransfers before) = ofTransfers (before ++ transfers) := by
  induction transfers generalizing before with
  | nil => rw [List.foldl_nil, List.append_nil]
  | cons transfer rest ih =>
      rw [List.foldl_cons, count_ofTransfers, ih, List.append_assoc, List.singleton_append]

theorem bytesOf_recorded {kind : Transfer} (hKind : kind ≠ .readLog)
    (transfers : List (Transfer × Nat)) :
    bytesOf kind (Transfer.recorded transfers) = bytesOf kind transfers := by
  rw [bytesOf, Transfer.recorded, List.filter_filter, bytesOf]
  congr 2
  funext transfer
  by_cases hSame : transfer.1 = kind
  · simp [hSame, hKind]
  · simp [hSame]

/-- What is recorded comes to the same counts, but for the bytes read of the log. -/
theorem ofTransfers_recorded (transfers : List (Transfer × Nat)) :
    ofTransfers (Transfer.recorded transfers) =
      { ofTransfers transfers with logBytesRead := 0 } := by
  have hNone : bytesOf .readLog (Transfer.recorded transfers) = [] := by
    rw [bytesOf, Transfer.recorded, List.filter_filter, List.map_eq_nil_iff,
      List.filter_eq_nil_iff]
    simp
  simp [ofTransfers, bytesOf_recorded, hNone]

end Statistics

namespace Pager

/-- What is counted and recorded of an operation is the transfer that it completed. -/
def Counts (pager : Pager) (operation : Operation) (outcome : Outcome Reply) : Prop :=
  let completed := (operation.completed? outcome.result).toList
  outcome.pager.statistics = completed.foldl Statistics.count pager.statistics ∧
    outcome.events.filterMap Event.completed? = Transfer.recorded completed

theorem counts_writePage (pager : Pager) (volume : Volume) (fd : Descriptor) (page : PageNo)
    (data : Array UInt8) (count : Nat) :
    pager.Counts (.writePage fd page data count)
      (pager.perform volume (.writePage fd page data count)) := by
  simp only [perform, Outcome.map, writePage]
  repeat' split
  all_goals exact ⟨rfl, rfl⟩

theorem counts_readPage (pager : Pager) (volume : Volume) (fd : Descriptor) (page : PageNo)
    (buffer : Array UInt8) (count : Nat) :
    pager.Counts (.readPage fd page buffer count)
      (pager.perform volume (.readPage fd page buffer count)) := by
  simp only [perform, Outcome.map, readPage]
  repeat' split
  all_goals exact ⟨rfl, rfl⟩

/-- An access to the log counts nothing, and records no transfer. -/
theorem accessLog_counts {pager : Pager} {volume : Volume} {access : LogAccess}
    (hAccess : pager.accessLog volume = .ok access) :
    access.pager.statistics = pager.statistics ∧
      access.events.filterMap Event.completed? = [] := by
  constructor
  · rw [(accessLog_eq_ok hAccess).1]
  · rcases accessLog_events hAccess with hNone | hOpened
    · rw [hNone]
      rfl
    · rw [hOpened]
      rfl

theorem counts_appendLog (pager : Pager) (volume : Volume) (data : Array UInt8) (count : Nat) :
    pager.Counts (.appendLog data count) (pager.perform volume (.appendLog data count)) := by
  simp only [perform, Outcome.map, appendLog]
  split
  · exact ⟨rfl, rfl⟩
  · split
    · exact ⟨rfl, rfl⟩
    · rename_i access hAccess
      obtain ⟨hStatistics, hEvents⟩ := accessLog_counts hAccess
      split
      · exact ⟨hStatistics, hEvents⟩
      · split
        · refine ⟨?_, ?_⟩
          · dsimp only
            rw [hStatistics]
            rfl
          · rw [List.filterMap_append, hEvents]
            rfl
        · refine ⟨hStatistics, ?_⟩
          rw [List.filterMap_append, hEvents]
          rfl

theorem counts_readLog (pager : Pager) (volume : Volume) (buffer : Array UInt8)
    (count offset : Nat) :
    pager.Counts (.readLog buffer count offset)
      (pager.perform volume (.readLog buffer count offset)) := by
  simp only [perform, Outcome.map, readLog]
  split
  · exact ⟨rfl, rfl⟩
  · split
    · exact ⟨rfl, rfl⟩
    · rename_i access hAccess
      obtain ⟨hStatistics, hEvents⟩ := accessLog_counts hAccess
      split
      · exact ⟨hStatistics, hEvents⟩
      · split
        · refine ⟨?_, hEvents⟩
          dsimp only
          rw [hStatistics]
          rfl
        · exact ⟨hStatistics, hEvents⟩

/-- Whatever moves no bytes counts nothing, unless it sets the counts back. -/
theorem statistics_perform {pager : Pager} {volume : Volume} {operation : Operation}
    (hOther : operation.transfers = false) (hReset : operation ≠ .resetStatistics) :
    (pager.perform volume operation).pager.statistics = pager.statistics := by
  cases operation with
  | writePage | readPage | appendLog | readLog => cases hOther
  | resetStatistics => exact absurd rfl hReset
  | openFile path =>
      show (pager.openFile volume path).pager.statistics = _
      rcases (openFile_cases pager volume path).2 with hAfter | ⟨inode, -, hAfter⟩ <;> rw [hAfter]
  | ensureOpen path =>
      show (pager.ensureOpen volume path).pager.statistics = _
      rcases (ensureOpen_cases pager volume path).2 with hAfter | ⟨inode, -, hAfter⟩ <;> rw [hAfter]
  | closeFile fd =>
      show (pager.closeFile volume fd).pager.statistics = _
      rw [(closeFile_eq pager volume fd).2]
  | allocatePage fd =>
      show (pager.allocatePage volume fd).pager.statistics = _
      obtain ⟨-, counters, hAfter, -⟩ := allocatePage_pager pager volume fd
      rw [hAfter]
  | setNextPage fd page =>
      show (pager.setNextPage volume fd page).pager.statistics = _
      obtain ⟨-, counters, hAfter, -⟩ := setNextPage_pager pager volume fd page
      rw [hAfter]
  | createDirectory path => exact congrArg statistics (createDirectory_eq pager volume path).1
  | destroyDirectory path => exact congrArg statistics (destroyDirectory_eq pager volume path).1
  | createFile path => exact congrArg statistics (createFile_cases pager volume path).1
  | destroyFile path => exact congrArg statistics (destroyFile_cases pager volume path).1
  | syncFile fd => exact congrArg statistics (syncFile_eq pager volume fd).1
  | pathOf fd => exact congrArg statistics (pathOf_eq pager volume fd).1
  | nextPage | releasePage | isDirectory | isFile | isOpen | extent | openCount | syncLog
  | logPath | statistics => rfl

/-- Every operation but one counts the transfer that it completed, if it did, and records it
unless it is a read of the log. -/
theorem perform_counts (pager : Pager) (volume : Volume) {operation : Operation}
    (hReset : operation ≠ .resetStatistics) :
    pager.Counts operation (pager.perform volume operation) := by
  cases hTransfers : operation.transfers with
  | true =>
      cases operation with
      | writePage fd page data count => exact counts_writePage pager volume fd page data count
      | readPage fd page buffer count => exact counts_readPage pager volume fd page buffer count
      | appendLog data count => exact counts_appendLog pager volume data count
      | readLog buffer count offset => exact counts_readLog pager volume buffer count offset
      | _ => cases hTransfers
  | false =>
      have hNone : operation.completed? (pager.perform volume operation).result = none := by
        cases operation <;> first | rfl | cases hTransfers
      have hSilent : ∀ event, operation.mayRecord event = true → event.completed? = none := by
        intro event hMay
        cases event with
        | wrotePage =>
            cases operation with
            | writePage => cases hTransfers
            | _ => cases hMay
        | readPage =>
            cases operation with
            | readPage => cases hTransfers
            | _ => cases hMay
        | appendedLog =>
            cases operation with
            | appendLog => cases hTransfers
            | _ => cases hMay
        | _ => rfl
      rw [Counts, hNone, statistics_perform hTransfers hReset, List.filterMap_eq_nil_iff.mpr]
      · exact ⟨rfl, rfl⟩
      · exact fun event hEvent => hSilent event (mayRecord_of_mem_events hEvent)

end Pager

end Paging
