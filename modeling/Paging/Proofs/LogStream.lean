import Paging.Proofs.Session.Files

/-! The log as a stream of records. Whoever appends, and whatever is read in between,
the log holds its records one after the other. -/
namespace Paging

/-- A read of the log never comes up short of what it promises. -/
theorem Pager.readLog_ne_shortTransfer (pager : Pager) (volume : Volume) (buffer : Array UInt8)
    (count offset expected actual : Nat) :
    (pager.readLog volume buffer count offset).result ≠
      .error (.shortTransfer .readLog expected actual) := by
  by_cases hCount : count ≤ buffer.size
  · cases hAccess : pager.accessLog volume with
    | error fault => simp [readLog, Nat.not_lt.mpr hCount, hAccess, unchanged]
    | ok access =>
        rw [(readLog_of_access hAccess hCount offset rfl rfl).1]
        simp
  · simp [readLog, Nat.not_le.mp hCount, unchanged]

/-- A file that nobody writes through descriptors and nobody else fills holds, after
any run, the bytes that it held before and behind them those that every append
to it moved, in their order. Reads of the log are part of the run and add
nothing. Every pager whose log this is by then, or comes to be by being asked,
reads it up to its end and gets no answer past the end; its next append is cut
at the size limit and refused past it. -/
theorem log_stream_refines (earlier instructions : List Instruction) (inode : Inode)
    (hNoPage : ∀ moment ∈ (Session.empty.run earlier).2.history instructions,
      moment.pageWrites inode = [])
    (hInside : ∀ moment ∈ (Session.empty.run earlier).2.history instructions,
      moment.filledOutside? ≠ some inode) :
    let start := (Session.empty.run earlier).2
    let final := (start.run instructions).2
    let log := (final.volume.content inode).toList
    log = (start.volume.content inode).toList ++
      ((start.history instructions).flatMap (Moment.appends inode)).flatten ∧
    (∀ (number : Nat) (pager : Pager) (access : Pager.LogAccess),
      final.pagers[number]? = some pager → pager.accessLog final.volume = .ok access →
      access.inode = inode →
      (∀ (buffer : Array UInt8) (count offset : Nat), count ≤ buffer.size →
        let outcome := pager.readLog final.volume buffer count offset
        let got := (log.drop offset).take count
        outcome.result = .ok (if log.length < offset then none
          else some (min count (log.length - offset))) ∧
        outcome.buffer.map Array.toList = some (got ++ buffer.toList.drop got.length) ∧
        (outcome.volume.content inode).toList = log) ∧
      ∀ (data : Array UInt8) (count : Nat), count ≤ data.size →
        (pager.appendLog final.volume data count).result =
          writeResult .writeLog log.length count) ∧
    ∀ (pager : Pager) (volume : Volume) (buffer : Array UInt8) (count offset : Nat)
      (expected actual : Nat), (pager.readLog volume buffer count offset).result ≠
        .error (.shortTransfer .readLog expected actual) := by
  intro start final log
  refine ⟨?_, ?_, Pager.readLog_ne_shortTransfer⟩
  · rw [← foldl_leave_of_pageWrites hNoPage]
    exact Session.content_run (Session.held_empty.run earlier) instructions hInside
  · intro number pager access hPager hAccess hInode
    subst hInode
    have hLog : log = (access.volume.content access.inode).toList := by
      rw [(Pager.accessLog_extends hAccess).content_eq]
    refine ⟨?_, ?_⟩
    · intro buffer count offset hCount outcome got
      obtain ⟨hResult, hBuffer, hVolume⟩ :=
        Pager.readLog_of_access hAccess hCount offset hLog (rfl : got = _)
      refine ⟨?_, hBuffer, by rw [hVolume, hLog]⟩
      rw [hResult, List.length_take, List.length_drop]
    · intro data count hCount
      rw [Pager.appendLog_result hAccess hCount, hLog, Content.length_toList]

/-- Two pagers append to one log, with a read in between, and the log held a byte
before. -/
theorem log_stream_refines_two_pagers :
    let earlier : List Instruction :=
      [.replaceOutside ⟨"db.log"⟩ #[1], .build 0 { maxOpenFiles := 2 }]
    let instructions : List Instruction :=
      [.perform 0 (.readLog #[7] 1 0), .build 1 { maxOpenFiles := 2 },
        .perform 1 (.appendLog #[2, 3] 2), .perform 0 (.readLog #[7] 1 0),
        .perform 0 (.appendLog #[4, 5] 1)]
    let final := ((Session.empty.run earlier).2.run instructions).2
    (final.volume.content ⟨0⟩).toList = [1, 2, 3, 4] ∧
      ∀ pager access, final.pagers[0]? = some pager →
        pager.accessLog final.volume = .ok access → access.inode = ⟨0⟩ →
        (pager.readLog final.volume #[7, 7, 7] 3 2).result = .ok (some 2) := by
  intro earlier instructions final
  have hEvaluated : ((Session.empty.run earlier).2.volume.content ⟨0⟩).toList ++
      (((Session.empty.run earlier).2.history instructions).flatMap
        (Moment.appends ⟨0⟩)).flatten = [1, 2, 3, 4] := by decide +kernel +revert
  obtain ⟨hLog, hOpen, -⟩ := log_stream_refines earlier instructions ⟨0⟩
    (by decide +kernel +revert) (by decide +kernel +revert)
  have hBytes : (final.volume.content ⟨0⟩).toList = [1, 2, 3, 4] := by
    rw [hLog, hEvaluated]
  refine ⟨hBytes, fun pager access hPager hAccess hInode => ?_⟩
  have hRead := (hOpen 0 pager access hPager hAccess hInode).1 #[7, 7, 7] 3 2 (by decide)
  rw [hBytes] at hRead
  exact hRead.1

end Paging
