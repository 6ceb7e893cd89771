import Paging.Proofs.PageStore
import Paging.Proofs.Pager.Failing

/-! Writes of pages against the size limit. The limit lies between two pages, so a write of at
most one page is never cut there: it writes all of its bytes or none. Only a write of more than
a page can be. Main statement: `pages_written_whole`. -/
namespace Paging

namespace PageNo

/-- The pages below the size limit are the first 2097152. -/
theorem offset_lt_sizeLimit_iff (page : PageNo) :
    page.offset < sizeLimit ↔ page.number.toNat < 2097152 := by
  rw [offset_def, sizeLimit]
  omega

/-- A page that begins below the size limit ends there at the latest. -/
theorem offset_add_pageSize_le_sizeLimit {page : PageNo} (hBelow : page.offset < sizeLimit) :
    page.offset + pageSize ≤ sizeLimit := by
  rw [offset_lt_sizeLimit_iff] at hBelow
  rw [offset_def, sizeLimit, pageSize]
  omega

end PageNo

/-- A write of at most a page is not cut. -/
theorem writeResult_of_le_pageSize (transfer : Transfer) (page : PageNo) {count : Nat}
    (hPage : count ≤ pageSize) :
    writeResult transfer page.offset count =
      if count = 0 ∨ page.number.toNat < 2097152 then .ok () else .error (.io .tooLarge) := by
  simp only [← PageNo.offset_lt_sizeLimit_iff, writeResult]
  by_cases hBelow : page.offset < sizeLimit
  · have hEnd := PageNo.offset_add_pageSize_le_sizeLimit hBelow
    rw [if_pos (by omega), if_pos (Or.inr hBelow)]
  · by_cases hNone : count = 0
    · rw [if_pos (Or.inl hNone), if_pos (Or.inl hNone)]
    · rw [if_neg (by omega), if_pos (Nat.not_lt.mp hBelow), if_neg (by omega)]

/-- A write is cut when it begins below the size limit and would end past it. -/
theorem writeResult_eq_shortTransfer_iff {transfer told : Transfer}
    {offset count expected actual : Nat} :
    writeResult transfer offset count = .error (.shortTransfer told expected actual) ↔
      (offset < sizeLimit ∧ sizeLimit < offset + count) ∧
        told = transfer ∧ expected = count ∧ actual = sizeLimit - offset := by
  unfold writeResult
  split
  · rename_i hFits
    simp only [reduceCtorEq, false_iff, not_and]
    omega
  · split
    · rename_i hPast
      simp only [Except.error.injEq, reduceCtorEq, false_iff, not_and]
      omega
    · simp only [Except.error.injEq, Error.shortTransfer.injEq]
      constructor
      · rintro ⟨rfl, rfl, rfl⟩
        exact ⟨by omega, rfl, rfl, rfl⟩
      · rintro ⟨-, rfl, rfl, rfl⟩
        exact ⟨rfl, rfl, rfl⟩

namespace Pager

variable {pager : Pager} {volume : Volume} {fd : Descriptor} {handle : Handle}

/-- A write puts the bytes that it has moved over those of the file that is open under the
descriptor. -/
theorem content_writePage (hHandle : pager.handle? fd = some handle)
    (hHeld : handle.inode.index < volume.contents.size) (page : PageNo) (data : Array UInt8)
    (count : Nat) :
    ((pager.writePage volume fd page data count).volume.content handle.inode).toList =
      overwrite (volume.content handle.inode).toList page.offset
        (data.toList.take (movedBy count (pager.writePage volume fd page data count).result)) := by
  rcases writePage_cases pager volume fd page data count with
    ⟨hSame, hNone⟩ | ⟨same, content, hSame, hAfter, hList⟩
  · rw [hSame, hNone, List.take_zero, overwrite_nil]
  · rw [hHandle] at hSame
    cases hSame
    rw [hAfter, Volume.content_setContent_self _ _ hHeld, hList]

/-- What a write has moved, a read of the same place gives back. -/
theorem readPage_writePage (hHandle : pager.handle? fd = some handle)
    (hHeld : handle.inode.index < volume.contents.size) (page : PageNo) {data buffer : Array UInt8}
    {count : Nat} (hData : count ≤ data.size) (hBuffer : count ≤ buffer.size)
    (hWritten : (pager.writePage volume fd page data count).result = .ok ()) :
    let wrote := pager.writePage volume fd page data count
    (wrote.pager.readPage wrote.volume fd page buffer count).result = .ok () ∧
      (wrote.pager.readPage wrote.volume fd page buffer count).buffer.map Array.toList =
        some (data.toList.take count ++ buffer.toList.drop count) := by
  intro wrote
  obtain ⟨statistics, hPager⟩ := pager.writePage_pager volume fd page data count
  have hOpen : wrote.pager.handle? fd = some handle := by
    rw [hPager]
    exact hHandle
  have hLength : (data.toList.take count).length = count := by
    rw [List.length_take, Array.length_toList]
    omega
  have hGot : data.toList.take count =
      ((wrote.volume.content handle.inode).toList.drop page.offset).take count := by
    have hFound := take_drop_overwrite (volume.content handle.inode).toList page.offset
      (data.toList.take count)
    rw [content_writePage hHandle hHeld, hWritten, movedBy]
    rwa [hLength, eq_comm] at hFound
  obtain ⟨hResult, hFront, -⟩ := readPage_of_handle hOpen wrote.volume page hBuffer hGot
  rw [hLength] at hResult hFront
  exact ⟨hResult.trans (if_pos rfl), hFront⟩

/-- A write that the volume refuses leaves everything as it was. -/
theorem writePage_of_io (hHeld : pager.HeldBy volume) {page : PageNo} {data : Array UInt8}
    {count : Nat} {fault : Fault}
    (hRefused : (pager.writePage volume fd page data count).result = .error (.io fault)) :
    (pager.writePage volume fd page data count).pager = pager ∧
      (pager.writePage volume fd page data count).volume = volume := by
  obtain ⟨hPager, hRemains⟩ := failsCleanly_writePage hHeld fd page data count _ hRefused
  generalize (pager.writePage volume fd page data count).pager = after at hPager hRemains ⊢
  generalize (pager.writePage volume fd page data count).volume = left at hRemains ⊢
  generalize hLog : after.log = log at hPager hRemains
  cases hRemains
  exact ⟨hPager, rfl⟩

end Pager

/-- In every state that a session reaches, writing at most one page to an open file is all or
nothing. Either it succeeds, the bytes lie over the file, and a read of as many from the same
page gives just these back, or the volume refuses it, and nothing has changed. Which of the two
it is goes by the number of the page alone, unless there is nothing to write. Only a write of
more than a page may come up short: it does when it begins below the size limit and would end
past it, and then the bytes up to the limit are written. -/
theorem pages_written_whole (earlier : List Instruction) {number : Nat} {pager : Pager}
    {fd : Descriptor} {inode : Inode}
    (hPager : (Session.empty.run earlier).2.pagers[number]? = some pager)
    (hFile : (Session.empty.run earlier).2.fileOf? number fd = some inode) (page : PageNo)
    (data : Array UInt8) (count : Nat) (hCount : count ≤ data.size) :
    let volume := (Session.empty.run earlier).2.volume
    let file := (volume.content inode).toList
    let wrote := pager.writePage volume fd page data count
    let written := (wrote.volume.content inode).toList
    (count ≤ pageSize →
      (wrote.result = .ok () ↔ count = 0 ∨ page.number.toNat < 2097152) ∧
      ((wrote.result = .ok () ∧
          written = overwrite file page.offset (data.toList.take count) ∧
          ∀ buffer : Array UInt8, count ≤ buffer.size →
            let read := wrote.pager.readPage wrote.volume fd page buffer count
            read.result = .ok () ∧
            read.buffer.map Array.toList =
              some (data.toList.take count ++ buffer.toList.drop count)) ∨
        ((∃ fault, wrote.result = .error (.io fault)) ∧
          wrote.pager = pager ∧ wrote.volume = volume))) ∧
    (pageSize < count → ∀ (transfer : Transfer) (expected actual : Nat),
      (wrote.result = .error (.shortTransfer transfer expected actual) ↔
        (page.offset < sizeLimit ∧ sizeLimit < page.offset + count) ∧
          transfer = .writePage ∧ expected = count ∧
          actual = 8589934592 - page.number.toNat * 4096) ∧
      (wrote.result = .error (.shortTransfer transfer expected actual) →
        written = overwrite file page.offset (data.toList.take actual))) := by
  intro volume file wrote written
  obtain ⟨handle, hHandle, rfl⟩ := Session.handle_of_fileOf? hPager hFile
  have hHeld : pager.HeldBy volume :=
    (Session.held_empty.run earlier).pagers number pager hPager
  have hIndex := hHeld.handles fd handle hHandle
  have hResult : wrote.result = writeResult .writePage page.offset count :=
    Pager.writePage_result hHandle volume page hCount
  have hWritten : written = overwrite file page.offset
      (data.toList.take (movedBy count wrote.result)) :=
    Pager.content_writePage hHandle hIndex page data count
  constructor
  · intro hPage
    rw [writeResult_of_le_pageSize _ page hPage] at hResult
    by_cases hFits : count = 0 ∨ page.number.toNat < 2097152
    · rw [if_pos hFits] at hResult
      refine ⟨iff_of_true hResult hFits, Or.inl ⟨hResult, ?_, fun buffer hBuffer => ?_⟩⟩
      · rw [hWritten, hResult, movedBy]
      · exact Pager.readPage_writePage hHandle hIndex page hCount hBuffer hResult
    · rw [if_neg hFits] at hResult
      refine ⟨iff_of_false ?_ hFits, Or.inr ⟨⟨_, hResult⟩, Pager.writePage_of_io hHeld hResult⟩⟩
      rw [hResult]
      intro hDone
      cases hDone
  · intro _ transfer expected actual
    refine ⟨by rw [hResult, writeResult_eq_shortTransfer_iff]; rfl, fun hShort => ?_⟩
    rw [hWritten, hShort, movedBy]

/-- The last page below the limit, the first past it, and two pages of which one is below. -/
theorem pages_written_whole_at_limit :
    let earlier : List Instruction :=
      [.build 0 {}, .perform 0 (.createFile ⟨"f"⟩), .perform 0 (.openFile ⟨"f"⟩)]
    let session := (Session.empty.run earlier).2
    ∀ pager, session.pagers[0]? = some pager →
      (∀ buffer : Array UInt8, 3 ≤ buffer.size →
        let wrote := pager.writePage session.volume ⟨0⟩ ⟨2097151⟩ #[1, 2, 3] 3
        (wrote.pager.readPage wrote.volume ⟨0⟩ ⟨2097151⟩ buffer 3).buffer.map Array.toList =
          some ([1, 2, 3] ++ buffer.toList.drop 3)) ∧
      (pager.writePage session.volume ⟨0⟩ PageNo.invalid #[1, 2, 3] 3).volume = session.volume ∧
      (pager.writePage session.volume ⟨0⟩ PageNo.invalid #[1, 2, 3] 0).result = .ok () ∧
      (pager.writePage session.volume ⟨0⟩ ⟨2097151⟩ (Array.replicate 8192 7) 8192).result =
        .error (.shortTransfer .writePage 8192 4096) := by
  intro earlier session pager hPager
  have hFile : session.fileOf? 0 ⟨0⟩ = some ⟨0⟩ := by decide +kernel +revert
  have hBelow := (pages_written_whole earlier hPager hFile ⟨2097151⟩ #[1, 2, 3] 3
    (by decide)).1 (by decide)
  have hPast := (pages_written_whole earlier hPager hFile PageNo.invalid #[1, 2, 3] 3
    (by decide)).1 (by decide)
  have hNone := (pages_written_whole earlier hPager hFile PageNo.invalid #[1, 2, 3] 0
    (by decide)).1 (by decide)
  have hTwo := (pages_written_whole earlier hPager hFile ⟨2097151⟩ (Array.replicate 8192 7) 8192
    (by simp)).2 (by decide) .writePage 8192 4096
  refine ⟨?_, ?_, hNone.1.mpr (by decide), hTwo.1.mpr (by decide)⟩
  · rcases hBelow.2 with ⟨-, -, hRead⟩ | ⟨⟨fault, hRefused⟩, -⟩
    · exact fun buffer hBuffer => (hRead buffer hBuffer).2
    · rw [hBelow.1.mpr (by decide)] at hRefused
      cases hRefused
  · rcases hPast.2 with ⟨hDone, -⟩ | ⟨-, -, hVolume⟩
    · exact absurd (hPast.1.mp hDone) (by decide)
    · exact hVolume

end Paging
