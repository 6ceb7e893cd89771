import Paging.Proofs.Session.Files

/-! The page store as plain bytes. A file that is written through descriptors alone
holds what was moved there, the later bytes over the earlier, whichever pagers
did it and under whichever descriptors, and reading gives these bytes back. -/
namespace Paging

/-- Nothing is appended to a file that is nobody's log. -/
theorem Moment.appends_of_not_mem_logs {moment : Moment} {inode : Inode}
    (hNoLog : inode ∉ moment.after.logs) : moment.appends inode = [] := by
  unfold appends
  split
  · split
    · rename_i hLog
      exact absurd (Session.mem_logs hLog) hNoLog
    · rfl
  · rfl

theorem Session.handle_of_fileOf? {session : Session} {number : Nat} {fd : Descriptor}
    {inode : Inode} {pager : Pager} (hPager : session.pagers[number]? = some pager)
    (hFile : session.fileOf? number fd = some inode) :
    ∃ handle, pager.handle? fd = some handle ∧ handle.inode = inode := by
  simpa [fileOf?, hPager] using hFile

/-- A file that is no pager's log and that nobody else fills is, after any run, what
the writes through descriptors make of the bytes before the run: each puts the
bytes that it moved at the place of its page, fills a gap before them with
zeros and changes nothing else. Through every descriptor of the file that any
pager has by then, a read gets the bytes that there are, as far as it asks for
them, and succeeds when these are all; a write is cut at the size limit and
refused past it. Bytes that are moved are counted by the results, which the
last part therefore pins down. -/
theorem page_store_refines (earlier instructions : List Instruction) (inode : Inode)
    (hNoLog : ∀ moment ∈ (Session.empty.run earlier).2.history instructions,
      inode ∉ moment.after.logs)
    (hInside : ∀ moment ∈ (Session.empty.run earlier).2.history instructions,
      moment.filledOutside? ≠ some inode) :
    let start := (Session.empty.run earlier).2
    let final := (start.run instructions).2
    let file := (final.volume.content inode).toList
    file = overwriteAll (start.volume.content inode).toList
      ((start.history instructions).flatMap (Moment.pageWrites inode)) ∧
    ∀ (number : Nat) (pager : Pager) (fd : Descriptor) (page : PageNo),
      final.pagers[number]? = some pager → final.fileOf? number fd = some inode →
      (∀ (buffer : Array UInt8) (count : Nat), count ≤ buffer.size →
        let outcome := pager.readPage final.volume fd page buffer count
        let got := (file.drop page.offset).take count
        outcome.result =
          (if count = 0 ∨ page.offset + count ≤ file.length then .ok ()
            else .error (.shortTransfer .readPage count (file.length - page.offset))) ∧
        outcome.buffer.map Array.toList = some (got ++ buffer.toList.drop got.length) ∧
        outcome.volume = final.volume) ∧
      ∀ (data : Array UInt8) (count : Nat), count ≤ data.size →
        (pager.writePage final.volume fd page data count).result =
          writeResult .writePage page.offset count := by
  intro start final file
  have hAppends : ∀ moment ∈ start.history instructions, moment.appends inode = [] :=
    fun moment hMoment => Moment.appends_of_not_mem_logs (hNoLog moment hMoment)
  refine ⟨?_, ?_⟩
  · rw [← foldl_leave_of_appends hAppends]
    exact Session.content_run (Session.held_empty.run earlier) instructions hInside
  · intro number pager fd page hPager hFile
    obtain ⟨handle, hHandle, rfl⟩ := Session.handle_of_fileOf? hPager hFile
    refine ⟨?_, fun data count hCount => Pager.writePage_result hHandle _ page hCount⟩
    intro buffer count hCount outcome got
    obtain ⟨hResult, hBuffer, hVolume⟩ :=
      Pager.readPage_of_handle hHandle final.volume page hCount (rfl : got = _)
    refine ⟨?_, hBuffer, hVolume⟩
    have hLength : got.length = min count (file.length - page.offset) := by
      rw [List.length_take, List.length_drop]
    rw [hResult, hLength]
    split
    · rw [if_pos (by omega)]
    · rename_i hShort
      rw [if_neg (by omega)]
      congr 2
      omega

/-- Two pagers write to one file, the second after the first has closed it. -/
theorem page_store_refines_two_pagers :
    let earlier : List Instruction :=
      [.build 0 { maxOpenFiles := 2 }, .perform 0 (.createFile ⟨"f"⟩)]
    let instructions : List Instruction :=
      [.perform 0 (.openFile ⟨"f"⟩), .perform 0 (.writePage ⟨0⟩ ⟨0⟩ #[1, 2, 3] 3),
        .build 1 { maxOpenFiles := 2 }, .perform 0 (.closeFile ⟨0⟩),
        .perform 1 (.ensureOpen ⟨"./f"⟩), .perform 1 (.writePage ⟨0⟩ ⟨0⟩ #[9] 1)]
    let final := ((Session.empty.run earlier).2.run instructions).2
    (final.volume.content ⟨0⟩).toList = [9, 2, 3] ∧
      ∀ pager, final.pagers[1]? = some pager →
        (pager.readPage final.volume ⟨0⟩ ⟨0⟩ #[7, 7, 7, 7] 4).result =
          .error (.shortTransfer .readPage 4 3) := by
  intro earlier instructions final
  have hEvaluated : final.fileOf? 1 ⟨0⟩ = some ⟨0⟩ ∧
      overwriteAll ((Session.empty.run earlier).2.volume.content ⟨0⟩).toList
        (((Session.empty.run earlier).2.history instructions).flatMap
          (Moment.pageWrites ⟨0⟩)) = [9, 2, 3] := by decide +kernel +revert
  obtain ⟨hFile, hOpen⟩ := page_store_refines earlier instructions ⟨0⟩
    (by decide +kernel +revert) (by decide +kernel +revert)
  have hBytes : (final.volume.content ⟨0⟩).toList = [9, 2, 3] := by
    rw [hFile, hEvaluated.2]
  refine ⟨hBytes, fun pager hPager => ?_⟩
  have hRead := (hOpen 1 pager ⟨0⟩ ⟨0⟩ hPager hEvaluated.1).1 #[7, 7, 7, 7] 4 (by decide)
  rw [hBytes] at hRead
  simpa [PageNo.offset] using hRead.1

end Paging
