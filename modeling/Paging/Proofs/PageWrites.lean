import Mathlib.Data.List.Basic
import Paging.Proofs.PageStore
import Paging.Proofs.Volume.Overlays

/-! Writes to pages that are all different, by any pagers and under any descriptors, of which
several may stand for one file. Main statement: they may be asked for in any order, and whoever
reads another page cannot tell whether they were asked for at all. -/
namespace Paging

namespace Statistics

theorem addPageWrite_comm (statistics : Statistics) (count other : Nat) :
    (statistics.addPageWrite count).addPageWrite other =
      (statistics.addPageWrite other).addPageWrite count := by
  simp only [addPageWrite, add, mk.injEq, UInt64.add_assoc, true_and, and_true]
  rw [UInt64.add_comm (UInt64.ofNat count)]

end Statistics

/-- The bytes that a write of the first `count` bytes of `data` from `offset` on lays over a
file. There are none when the data has fewer, and otherwise as many as there is room for. -/
def Pager.laid (offset : Nat) (data : Array UInt8) (count : Nat) : Array UInt8 :=
  if data.size < count then #[] else data.extract 0 (Content.room offset count)

/-- Outcomes of which the same is seen still show the same in another form of result. -/
theorem Outcome.report_map_congr {α β : Type} {f : α → β} {outcome other : Outcome α}
    (hReport : other.report = outcome.report) :
    (other.map f).report = (outcome.map f).report := by
  simp only [report, Report.mk.injEq] at hReport
  simp [map, report, hReport]

namespace Pager

theorem size_laid_le (offset : Nat) (data : Array UInt8) (count : Nat) :
    (laid offset data count).size ≤ count := by
  unfold laid Content.room
  split
  · exact Nat.zero_le _
  · rw [Array.size_extract]
    omega

/-- Past the size limit nothing is laid over a file. -/
theorem laid_of_sizeLimit_le {offset : Nat} (hPast : sizeLimit ≤ offset) (data : Array UInt8)
    (count : Nat) : laid offset data count = #[] := by
  have hRoom : Content.room offset count = 0 := by
    rw [Content.room]
    omega
  unfold laid
  split
  · rfl
  · rw [hRoom, Array.extract_zero]

/-- What is written is what has room of the bytes that were asked for. -/
theorem extract_extract_eq_laid (offset : Nat) {data : Array UInt8} {count : Nat}
    (hCount : count ≤ data.size) :
    (data.extract 0 count).extract 0 (Content.room offset count) = laid offset data count := by
  have hRoom : Content.room offset count ≤ count := Nat.min_le_left _ _
  rw [laid, if_neg (Nat.not_lt.mpr hCount), Array.extract_extract]
  congr 1
  omega

/-- A page write lays its bytes over the file that is open under the descriptor. -/
theorem writePage_volume (pager : Pager) (volume : Volume) (fd : Descriptor) (page : PageNo)
    (data : Array UInt8) (count : Nat) :
    (pager.writePage volume fd page data count).volume =
      match pager.handle? fd with
      | none => volume
      | some handle => volume.overlay handle.inode page.offset (laid page.offset data count) := by
  unfold writePage
  cases hHandle : pager.handle? fd with
  | none => split <;> rfl
  | some handle =>
      dsimp only
      split
      · rename_i hShort
        rw [laid, if_pos hShort, Volume.overlay_empty]
        rfl
      · rename_i hCount
        have hSize := size_extract_of_le (Nat.not_lt.mp hCount)
        rw [Volume.writeAt_eq, hSize, extract_extract_eq_laid _ (Nat.not_lt.mp hCount)]
        split
        · rename_i hRefused
          split at hRefused
          · cases hRefused
          · rename_i hPast
            rw [laid_of_sizeLimit_le (by omega), Volume.overlay_empty]
            rfl
        · rename_i hWritten
          split at hWritten
          · cases hWritten
            split <;> rfl
          · cases hWritten

/-- A page write that succeeds is counted, and nothing else of the pager changes. -/
theorem writePage_counted (pager : Pager) (volume : Volume) (fd : Descriptor) (page : PageNo)
    (data : Array UInt8) (count : Nat) :
    ((pager.writePage volume fd page data count).result = .ok () ∧
      (pager.writePage volume fd page data count).pager =
        { pager with statistics := pager.statistics.addPageWrite count }) ∨
    ((∃ error, (pager.writePage volume fd page data count).result = .error error) ∧
      (pager.writePage volume fd page data count).pager = pager) := by
  unfold writePage
  split
  · exact Or.inr ⟨⟨_, rfl⟩, rfl⟩
  · split
    · exact Or.inr ⟨⟨_, rfl⟩, rfl⟩
    · split
      · exact Or.inr ⟨⟨_, rfl⟩, rfl⟩
      · split
        · exact Or.inl ⟨rfl, rfl⟩
        · exact Or.inr ⟨⟨_, rfl⟩, rfl⟩

/-- What a page write answers and records goes by the table, and not by the bytes that the
volume holds. -/
theorem writePage_answer {pager other : Pager} (hTable : other.table = pager.table)
    (volume later : Volume) (fd : Descriptor) (page : PageNo) (data : Array UInt8) (count : Nat) :
    (other.writePage later fd page data count).report =
      (pager.writePage volume fd page data count).report := by
  have hHandle : other.handle? fd = pager.handle? fd := by rw [handle?, hTable, handle?]
  unfold writePage
  rw [hHandle]
  split
  · rfl
  · split
    · rfl
    · rw [Volume.writeAt_eq, Volume.writeAt_eq]
      by_cases hRoom : (data.extract 0 count).size = 0 ∨ page.offset < sizeLimit
      · rw [if_pos hRoom, if_pos hRoom]
        dsimp only
        split <;> rfl
      · rw [if_neg hRoom, if_neg hRoom]
        rfl

/-- What a page read answers and records goes by the table and by the bytes that it finds. -/
theorem readPage_answer {pager other : Pager} (hTable : other.table = pager.table)
    {volume later : Volume} {fd : Descriptor} {page : PageNo} {count : Nat}
    (hBytes : ∀ handle, pager.handle? fd = some handle →
      later.readAt handle.inode page.offset count = volume.readAt handle.inode page.offset count)
    (buffer : Array UInt8) :
    (other.readPage later fd page buffer count).report =
      (pager.readPage volume fd page buffer count).report := by
  have hHandle : other.handle? fd = pager.handle? fd := by rw [handle?, hTable, handle?]
  unfold readPage
  rw [hHandle]
  split
  · rfl
  · split
    · rfl
    · rename_i handle hOpen
      dsimp only
      rw [hBytes handle hOpen]
      split <;> rfl

end Pager

/-- One write to a page, as it is asked of the pager with a number. -/
structure PageWrite where
  pager : Nat
  fd : Descriptor
  page : PageNo
  data : Array UInt8
  count : Nat

namespace PageWrite

/-- The instruction that asks for the write. -/
def instruction (write : PageWrite) : Instruction :=
  .perform write.pager (.writePage write.fd write.page write.data write.count)

/-- The file that is written to and the page in it, if the descriptor is in use. -/
def target? (session : Session) (write : PageWrite) : Option (Inode × PageNo) :=
  (session.fileOf? write.pager write.fd).map fun inode => (inode, write.page)

/-- The bytes that the write lays over the file. -/
def laid (write : PageWrite) : Array UInt8 :=
  Pager.laid write.page.offset write.data write.count

/-- What the write makes of a volume when the descriptor stands for a file. -/
def layOver (write : PageWrite) (volume : Volume) : Option Inode → Volume
  | none => volume
  | some inode => volume.overlay inode write.page.offset write.laid

/-- What the write makes of the pager with a number, going by whether it succeeds. -/
def tally (write : PageWrite) (succeeds : Bool) (number : Nat) (pager : Pager) : Pager :=
  if number = write.pager ∧ succeeds then
    { pager with statistics := pager.statistics.addPageWrite write.count }
  else pager

theorem tally_comm (first second : PageWrite) (succeeds follows : Bool) (number : Nat)
    (pager : Pager) :
    second.tally follows number (first.tally succeeds number pager) =
      first.tally succeeds number (second.tally follows number pager) := by
  unfold tally
  split <;> split <;> simp only [Statistics.addPageWrite_comm]

@[simp] theorem table_tally (write : PageWrite) (succeeds : Bool) (number : Nat)
    (pager : Pager) : (write.tally succeeds number pager).table = pager.table := by
  unfold tally
  split <;> rfl

/-- Two pages that are not the same share no byte of a file, so neither do the bytes that are
laid over them, as far as these are not more than a page's worth. -/
theorem apart_of_page_ne {page other : PageNo} (hOther : page ≠ other) {count more : Nat}
    (hCount : count ≤ pageSize) (hMore : more ≤ pageSize) :
    page.offset + count ≤ other.offset ∨ other.offset + more ≤ page.offset := by
  have hNumber : page.number ≠ other.number := by
    intro hSame
    cases page
    cases other
    exact hOther (congrArg PageNo.mk hSame)
  rcases UInt32.lt_or_lt_of_ne hNumber with hLess | hLess
  · exact Or.inl (by have := PageNo.offset_add_pageSize_le hLess; omega)
  · exact Or.inr (by have := PageNo.offset_add_pageSize_le hLess; omega)

theorem size_laid_le (write : PageWrite) (hSize : write.count ≤ pageSize) :
    write.laid.size ≤ pageSize :=
  Nat.le_trans (Pager.size_laid_le _ _ _) hSize

/-- Writes to different pages may be laid over a volume in either order. -/
theorem layOver_comm {first second : PageWrite} (hFirst : first.count ≤ pageSize)
    (hSecond : second.count ≤ pageSize) (volume : Volume) {file other : Option Inode}
    (hApart : ∀ inode, file = some inode → other = some inode → first.page ≠ second.page) :
    second.layOver (first.layOver volume file) other =
      first.layOver (second.layOver volume other) file := by
  cases file with
  | none => rfl
  | some inode =>
      cases other with
      | none => rfl
      | some another =>
          refine volume.overlay_comm fun hSame => ?_
          exact apart_of_page_ne (hApart inode rfl (congrArg some hSame))
            (first.size_laid_le hFirst) (second.size_laid_le hSecond)

end PageWrite

/-- Whether an operation was performed and did not fail. -/
def Turn.succeeded (turn : Turn) : Bool :=
  match turn.answer with
  | .performed (.ok _) _ => true
  | _ => false

namespace Session

/-- The table of the pager with a number. -/
def tableOf? (session : Session) (number : Nat) : Option OpenTable :=
  session.pagers[number]?.map Pager.table

/-- The pagers of both sessions have the same files open. -/
def SameTables (session other : Session) : Prop :=
  ∀ number, other.tableOf? number = session.tableOf? number

namespace SameTables

variable {session other : Session} (hTables : session.SameTables other)
include hTables

theorem fileOf?_eq (number : Nat) (fd : Descriptor) :
    other.fileOf? number fd = session.fileOf? number fd := by
  have hTable := hTables number
  unfold tableOf? at hTable
  unfold fileOf?
  cases hPager : session.pagers[number]? <;> cases hOther : other.pagers[number]? <;>
    simp_all [Pager.handle?]

theorem target?_eq (write : PageWrite) : write.target? other = write.target? session := by
  rw [PageWrite.target?, hTables.fileOf?_eq, PageWrite.target?]

/-- An operation is answered alike when the pagers answer alike that have the same table. -/
theorem turn_eq {number : Nat} {operation : Operation}
    (hReport : ∀ pager found : Pager, session.pagers[number]? = some pager →
      found.table = pager.table → (found.perform other.volume operation).report =
        (pager.perform session.volume operation).report) :
    (other.step (.perform number operation)).1 = (session.step (.perform number operation)).1 := by
  have hTable := hTables number
  unfold tableOf? at hTable
  cases hPager : session.pagers[number]? with
  | none =>
      have hOther : other.pagers[number]? = none := by simpa [hPager] using hTable
      simp [step, hPager, hOther]
  | some pager =>
      rw [hPager, Option.map_some] at hTable
      obtain ⟨found, hOther, hSame⟩ := Option.map_eq_some_iff.mp hTable
      have hAlike := hReport pager found hPager hSame
      simp only [Outcome.report, Report.mk.injEq] at hAlike
      simp [step, hPager, hOther, hAlike]

/-- A page write is answered alike whatever the volume holds. -/
theorem write_turn_eq (write : PageWrite) :
    (other.step write.instruction).1 = (session.step write.instruction).1 := by
  refine hTables.turn_eq fun pager found hPager hSame => ?_
  exact Outcome.report_map_congr (Pager.writePage_answer hSame session.volume other.volume write.fd
    write.page write.data write.count)

end SameTables

/-- What a page write leaves of the pagers. -/
theorem pagers_step_write (session : Session) (write : PageWrite) (number : Nat) :
    (session.step write.instruction).2.pagers[number]? =
      session.pagers[number]?.map
        (write.tally (session.step write.instruction).1.succeeded number) := by
  by_cases hThis : number = write.pager
  · subst hThis
    cases hPager : session.pagers[write.pager]? with
    | none => simp [PageWrite.instruction, step, hPager]
    | some pager =>
        simp only [PageWrite.instruction, step, hPager, Pager.perform, Outcome.map,
          Std.ExtTreeMap.getElem?_insert_self, Option.map_some, Turn.succeeded, PageWrite.tally,
          true_and]
        rcases pager.writePage_counted session.volume write.fd write.page write.data write.count
          with ⟨hResult, hAfter⟩ | ⟨⟨error, hResult⟩, hAfter⟩
        · rw [hResult, hAfter]
          rfl
        · rw [hResult, hAfter]
          rfl
  · have hSame : write.tally (session.step write.instruction).1.succeeded number = id := by
      funext pager
      simp [PageWrite.tally, hThis]
    rw [hSame, Option.map_id]
    cases hPager : session.pagers[write.pager]? with
    | none => simp [PageWrite.instruction, step, hPager]
    | some pager =>
        simp [PageWrite.instruction, step, hPager, Std.ExtTreeMap.getElem?_insert,
          Ne.symm hThis]

/-- What a page write leaves of the volume. -/
theorem volume_step_write (session : Session) (write : PageWrite) :
    (session.step write.instruction).2.volume =
      write.layOver session.volume (session.fileOf? write.pager write.fd) := by
  cases hPager : session.pagers[write.pager]? with
  | none => simp [PageWrite.instruction, step, fileOf?, hPager, PageWrite.layOver]
  | some pager =>
      simp only [PageWrite.instruction, step, hPager, Pager.perform, Outcome.map,
        Pager.writePage_volume, fileOf?, Option.bind_some]
      cases pager.handle? write.fd <;> rfl

/-- Page writes open and close nothing. -/
theorem sameTables_step_write (session : Session) (write : PageWrite) :
    session.SameTables (session.step write.instruction).2 := by
  intro number
  rw [tableOf?, pagers_step_write, Option.map_map, tableOf?]
  congr 1
  funext pager
  simp

/-- Two page writes to different pages leave the same in either order. -/
theorem step_write_comm (session : Session) {first second : PageWrite}
    (hFirst : first.count ≤ pageSize) (hSecond : second.count ≤ pageSize)
    (hApart : ∀ target, first.target? session = some target →
      second.target? session ≠ some target) :
    ((session.step first.instruction).2.step second.instruction).2 =
      ((session.step second.instruction).2.step first.instruction).2 := by
  have hAfterFirst := session.sameTables_step_write first
  have hAfterSecond := session.sameTables_step_write second
  have hPagers : ((session.step first.instruction).2.step second.instruction).2.pagers =
      ((session.step second.instruction).2.step first.instruction).2.pagers := by
    apply Std.ExtTreeMap.ext_getElem?
    intro number
    rw [pagers_step_write, pagers_step_write, pagers_step_write, pagers_step_write,
      Option.map_map, Option.map_map, hAfterFirst.write_turn_eq, hAfterSecond.write_turn_eq]
    congr 1
    funext pager
    exact PageWrite.tally_comm first second _ _ number pager
  have hVolume : ((session.step first.instruction).2.step second.instruction).2.volume =
      ((session.step second.instruction).2.step first.instruction).2.volume := by
    rw [volume_step_write, volume_step_write, volume_step_write, volume_step_write,
      hAfterFirst.fileOf?_eq, hAfterSecond.fileOf?_eq]
    refine PageWrite.layOver_comm hFirst hSecond session.volume fun inode hFile hOther hPage => ?_
    refine hApart (inode, first.page) ?_ ?_
    · rw [PageWrite.target?, hFile, Option.map_some]
    · rw [PageWrite.target?, hOther, Option.map_some, hPage]
  cases hDone : ((session.step first.instruction).2.step second.instruction).2
  rw [hDone] at hPagers hVolume
  cases hOther : ((session.step second.instruction).2.step first.instruction).2
  rw [hOther] at hPagers hVolume
  rw [mk.injEq]
  exact ⟨hPagers, hVolume⟩

/-- Page writes open and close nothing, however many there are, and each is answered as it
would be if it were the first. -/
theorem run_writes (session : Session) (writes : List PageWrite) :
    session.SameTables (session.run (writes.map PageWrite.instruction)).2 ∧
      (session.run (writes.map PageWrite.instruction)).1 =
        writes.map fun write => (session.step write.instruction).1 := by
  induction writes generalizing session with
  | nil => exact ⟨fun number => rfl, rfl⟩
  | cons write rest ih =>
      have hFirst := session.sameTables_step_write write
      obtain ⟨hTables, hTurns⟩ := ih (session.step write.instruction).2
      rw [List.map_cons, run_cons]
      refine ⟨fun number => (hTables number).trans (hFirst number), ?_⟩
      rw [hTurns, List.map_cons]
      exact congrArg _ (List.map_congr_left fun later _ => hFirst.write_turn_eq later)

/-- The targets of writes are the same before and after one of them. -/
theorem targets_step_write (session : Session) (write : PageWrite) (writes : List PageWrite) :
    writes.filterMap (PageWrite.target? (session.step write.instruction).2) =
      writes.filterMap (PageWrite.target? session) :=
  List.filterMap_congr fun later _ => (session.sameTables_step_write write).target?_eq later

/-- Writes to pages that are all different leave the same in any order. -/
theorem run_writes_perm (session : Session) {ordered writes : List PageWrite}
    (hOrder : ordered.Perm writes) (hSize : ∀ write ∈ ordered, write.count ≤ pageSize)
    (hDistinct : (ordered.filterMap (PageWrite.target? session)).Nodup) :
    (session.run (ordered.map PageWrite.instruction)).2 =
      (session.run (writes.map PageWrite.instruction)).2 := by
  induction hOrder generalizing session with
  | nil => rfl
  | cons write hRest ih =>
      rw [List.map_cons, List.map_cons, run_cons, run_cons]
      refine ih _ (fun later hLater => hSize later (List.mem_cons_of_mem _ hLater)) ?_
      rw [targets_step_write]
      exact hDistinct.sublist ((List.sublist_cons_self write _).filterMap _)
  | swap second first rest =>
      have hApart : ∀ target, first.target? session = some target →
          second.target? session ≠ some target := by
        intro target hTarget hOther
        rw [List.filterMap_cons_some hTarget, List.filterMap_cons_some hOther] at hDistinct
        exact (List.nodup_cons.mp hDistinct).1 List.mem_cons_self
      simp only [List.map_cons, run_cons]
      rw [session.step_write_comm (hSize first (by simp)) (hSize second (by simp)) hApart]
  | trans hFirst hSecond ihFirst ihSecond =>
      rw [ihFirst session hSize hDistinct]
      exact ihSecond session (fun write hWrite => hSize write (hFirst.mem_iff.mpr hWrite))
        ((hFirst.filterMap _).nodup_iff.mp hDistinct)

/-- A page of which all bytes could be read that were asked for is read alike after writes to
other pages. -/
theorem readAt_run_writes (session : Session) {inode : Inode} {page : PageNo} {count : Nat}
    (hCount : count ≤ pageSize)
    (hAll : (session.volume.readAt inode page.offset count).size = count)
    {writes : List PageWrite} (hSize : ∀ write ∈ writes, write.count ≤ pageSize)
    (hOther : ∀ write ∈ writes, write.target? session ≠ some (inode, page)) :
    (session.run (writes.map PageWrite.instruction)).2.volume.readAt inode page.offset count =
      session.volume.readAt inode page.offset count := by
  induction writes generalizing session with
  | nil => rfl
  | cons write rest ih =>
      have hTables := session.sameTables_step_write write
      have hFirst : (session.step write.instruction).2.volume.readAt inode page.offset count =
          session.volume.readAt inode page.offset count := by
        rw [volume_step_write]
        cases hFile : session.fileOf? write.pager write.fd with
        | none => rfl
        | some file =>
            refine session.volume.readAt_overlay hAll fun hSame => ?_
            have hPage : page ≠ write.page := by
              rintro rfl
              refine hOther write List.mem_cons_self ?_
              rw [PageWrite.target?, hFile, Option.map_some, hSame]
            exact PageWrite.apart_of_page_ne hPage hCount
              (write.size_laid_le (hSize write List.mem_cons_self))
      rw [List.map_cons, run_cons, ← hFirst]
      refine ih _ (by rw [hFirst, hAll])
        (fun later hLater => hSize later (List.mem_cons_of_mem _ hLater)) ?_
      intro later hLater
      rw [hTables.target?_eq]
      exact hOther later (List.mem_cons_of_mem _ hLater)

end Session

/-- A page read that succeeds has found all bytes that it was asked for. -/
theorem Pager.size_readAt_of_readPage_eq_ok {pager : Pager} {volume : Volume} {fd : Descriptor}
    {page : PageNo} {buffer : Array UInt8} {count : Nat} {handle : Handle}
    (hHandle : pager.handle? fd = some handle)
    (hRead : (pager.readPage volume fd page buffer count).result = .ok ()) :
    (volume.readAt handle.inode page.offset count).size = count := by
  unfold readPage at hRead
  rw [hHandle] at hRead
  split at hRead
  · cases hRead
  · dsimp only at hRead
    split at hRead
    · assumption
    · cases hRead

/-- Let writes be asked for at any session, each of at most a page's worth of bytes and no two
of them to the same page of the same file, whichever pagers and descriptors they go through,
and whether or not these are in use. In any order each of them is answered as it would be
alone, with the same records, and all of them leave the same session behind, with the same
bytes in every file and the same tables, page numbers and counts. A read of at most a page's
worth of bytes from another page that succeeds before them is answered by the same bytes after
them. -/
theorem page_writes_commute (session : Session) {writes : List PageWrite}
    (hSize : ∀ write ∈ writes, write.count ≤ pageSize)
    (hDistinct : (writes.filterMap (PageWrite.target? session)).Nodup) :
    ∀ ordered : List PageWrite, ordered.Perm writes →
      let asked := session.run (ordered.map PageWrite.instruction)
      asked.1 = ordered.map (fun write => (session.step write.instruction).1) ∧
      asked.2 = (session.run (writes.map PageWrite.instruction)).2 ∧
      ∀ (number : Nat) (fd : Descriptor) (page : PageNo) (buffer : Array UInt8) (count : Nat),
        count ≤ pageSize →
        (∀ inode, session.fileOf? number fd = some inode →
          (inode, page) ∉ writes.filterMap (PageWrite.target? session)) →
        let read : Instruction := .perform number (.readPage fd page buffer count)
        (session.step read).1.succeeded = true →
        (asked.2.step read).1 = (session.step read).1 := by
  intro ordered hOrder asked
  have hOrdered : ∀ write ∈ ordered, write.count ≤ pageSize :=
    fun write hWrite => hSize write (hOrder.mem_iff.mp hWrite)
  obtain ⟨hTables, hTurns⟩ := session.run_writes ordered
  refine ⟨hTurns, ?_, ?_⟩
  · exact session.run_writes_perm hOrder hOrdered ((hOrder.filterMap _).nodup_iff.mpr hDistinct)
  · intro number fd page buffer count hCount hOther read hSucceeds
    refine hTables.turn_eq fun pager found hPager hSame => ?_
    have hRead : (pager.readPage session.volume fd page buffer count).result = .ok () := by
      simp only [read, Session.step, hPager, Pager.perform, Outcome.map, Turn.succeeded]
        at hSucceeds
      cases hResult : (pager.readPage session.volume fd page buffer count).result with
      | ok => rfl
      | error error =>
          rw [hResult] at hSucceeds
          cases hSucceeds
    refine Outcome.report_map_congr
      (Pager.readPage_answer hSame (fun handle hHandle => ?_) buffer)
    have hFile : session.fileOf? number fd = some handle.inode := by
      simp [Session.fileOf?, hPager, hHandle]
    refine session.readAt_run_writes hCount
      (Pager.size_readAt_of_readPage_eq_ok hHandle hRead) hOrdered fun write hWrite hTarget => ?_
    exact hOther handle.inode hFile
      (List.mem_filterMap.mpr ⟨write, hOrder.mem_iff.mp hWrite, hTarget⟩)

/-- A file that is open under two descriptors is written to through both of them, once past
the size limit, and a descriptor that is not in use is tried. The page that was there before
is read as before. -/
theorem page_writes_commute_through_two_descriptors :
    let session := (Session.empty.run
      [.build 0 { maxOpenFiles := 3 }, .perform 0 (.createFile ⟨"f"⟩),
        .perform 0 (.openFile ⟨"f"⟩), .perform 0 (.openFile ⟨"./f"⟩),
        .perform 0 (.writePage ⟨0⟩ ⟨2⟩ #[7, 8] 2)]).2
    let writes : List PageWrite :=
      [⟨0, ⟨0⟩, ⟨1⟩, #[1, 2, 3], 3⟩, ⟨0, ⟨1⟩, ⟨0⟩, #[9], 1⟩, ⟨0, ⟨0⟩, ⟨4000000⟩, #[5], 1⟩,
        ⟨0, ⟨2⟩, ⟨1⟩, #[4], 1⟩]
    let asked := session.run (writes.reverse.map PageWrite.instruction)
    let read : Instruction := .perform 0 (.readPage ⟨1⟩ ⟨2⟩ #[0, 0] 2)
    writes.filterMap (PageWrite.target? session) =
        [(⟨0⟩, ⟨1⟩), (⟨0⟩, ⟨0⟩), (⟨0⟩, ⟨4000000⟩)] ∧
      asked.1.map Turn.succeeded = [false, false, true, true] ∧
      asked.2 = (session.run (writes.map PageWrite.instruction)).2 ∧
      (session.step read).1.succeeded = true ∧
      (asked.2.step read).1 = (session.step read).1 := by
  intro session writes asked read
  have hTargets : writes.filterMap (PageWrite.target? session) =
      [(⟨0⟩, ⟨1⟩), (⟨0⟩, ⟨0⟩), (⟨0⟩, ⟨4000000⟩)] := by decide +kernel +revert
  have hAlone : (writes.reverse.map fun write =>
      (session.step write.instruction).1.succeeded) = [false, false, true, true] := by
    decide +kernel +revert
  have hRead : session.fileOf? 0 ⟨1⟩ = some ⟨0⟩ ∧ (session.step read).1.succeeded = true := by
    decide +kernel +revert
  obtain ⟨hTurns, hSame, hReads⟩ := @page_writes_commute session writes
    (by decide) (by rw [hTargets]; decide) writes.reverse (List.reverse_perm _)
  refine ⟨hTargets, ?_, hSame, hRead.2, ?_⟩
  · rw [show asked.1 = _ from hTurns, List.map_map]
    exact hAlone
  · refine hReads 0 ⟨1⟩ ⟨2⟩ #[0, 0] 2 (by decide) (fun inode hFile => ?_) hRead.2
    rw [← Option.some.inj (hRead.1.symm.trans hFile), hTargets]
    decide

end Paging
