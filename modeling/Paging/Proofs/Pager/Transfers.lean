import Paging.Proofs.Pager.Parts
import Paging.Proofs.Volume.Bytes
import Paging.Proofs.Volume.Growth

/-! What the four transfers of bytes answer and what they leave of a volume, told
in lists of bytes. -/
namespace Paging

/-- How many of `count` bytes a transfer moved, going by nothing but its result. -/
def movedBy {α : Type} (count : Nat) : Except Error α → Nat
  | .ok _ => count
  | .error (.shortTransfer _ _ actual) => actual
  | .error _ => 0

@[simp] theorem movedBy_map {α β : Type} (count : Nat) (f : α → β) (result : Except Error α) :
    movedBy count (result.map f) = movedBy count result := by
  rcases result with error | value
  · cases error <;> rfl
  · rfl

theorem take_extract {data : Array UInt8} {count moved : Nat}
    (hMoved : moved ≤ (data.extract 0 count).size) :
    (data.extract 0 count).toList.take moved = data.toList.take moved := by
  rw [Array.size_extract] at hMoved
  rw [Array.toList_extract, List.extract, List.drop_zero, List.take_take]
  congr 1
  omega

namespace Volume

theorem writeAt_eq_ok {volume written : Volume} {inode : Inode} {offset moved : Nat}
    {bytes : Array UInt8} (hWrite : volume.writeAt inode offset bytes = .ok (moved, written)) :
    (bytes.size = 0 ∨ offset < sizeLimit) ∧ moved = Content.room offset bytes.size ∧ ∃ content,
      written = volume.setContent inode content ∧
      content.toList = overwrite (volume.content inode).toList offset
        (bytes.toList.take moved) := by
  unfold writeAt at hWrite
  split at hWrite
  · rename_i content hContent
    cases hWrite
    obtain ⟨hOffset, hMoved, hList⟩ := Content.write_eq_ok hContent
    exact ⟨hOffset, hMoved, content, rfl, hList⟩
  · cases hWrite

theorem writeAt_eq_error {volume : Volume} {inode : Inode} {offset : Nat}
    {bytes : Array UInt8} {fault : Fault}
    (hWrite : volume.writeAt inode offset bytes = .error fault) :
    bytes.size ≠ 0 ∧ sizeLimit ≤ offset ∧ fault = .tooLarge := by
  unfold writeAt at hWrite
  split at hWrite
  · cases hWrite
  · rename_i hContent
    cases hWrite
    exact Content.write_eq_error hContent

end Volume

/-- What a write of `count` bytes from `offset` on answers, going by the size limit
alone: it is cut at the limit, and refused when nothing fits below it. -/
def writeResult (transfer : Transfer) (offset count : Nat) : Except Error Unit :=
  if count = 0 ∨ offset + count ≤ sizeLimit then .ok ()
  else if sizeLimit ≤ offset then .error (.io .tooLarge)
  else .error (.shortTransfer transfer count (sizeLimit - offset))

theorem writeResult_of_writeAt_eq_error {volume : Volume} {inode : Inode} {offset : Nat}
    {bytes : Array UInt8} {fault : Fault} (transfer : Transfer)
    (hWrite : volume.writeAt inode offset bytes = .error fault) :
    writeResult transfer offset bytes.size = .error (.io fault) := by
  obtain ⟨hSome, hPast, rfl⟩ := Volume.writeAt_eq_error hWrite
  rw [writeResult, if_neg (by omega), if_pos hPast]

/-- A write that is not refused moves all bytes or comes up short. -/
theorem writeResult_of_writeAt_eq_ok {volume written : Volume} {inode : Inode}
    {offset moved : Nat} {bytes : Array UInt8} (transfer : Transfer)
    (hWrite : volume.writeAt inode offset bytes = .ok (moved, written)) :
    writeResult transfer offset bytes.size =
      if moved = bytes.size then .ok ()
      else .error (.shortTransfer transfer bytes.size moved) := by
  obtain ⟨hOffset, hMoved, -⟩ := Volume.writeAt_eq_ok hWrite
  rw [Content.room] at hMoved
  unfold writeResult
  split
  · rename_i hFits
    rw [if_pos (by omega)]
  · rename_i hCut
    rw [if_neg (by omega), if_neg (by omega)]
    congr 2
    omega

theorem size_extract_of_le {data : Array UInt8} {count : Nat} (hCount : count ≤ data.size) :
    (data.extract 0 count).size = count := by
  rw [Array.size_extract]
  omega

namespace Pager

/-- A write either changes nothing, and has moved nothing, or it writes the bytes
that it has moved over the file that the descriptor stands for. -/
theorem writePage_cases (pager : Pager) (volume : Volume) (fd : Descriptor) (page : PageNo)
    (data : Array UInt8) (count : Nat) :
    ((pager.writePage volume fd page data count).volume = volume ∧
      movedBy count (pager.writePage volume fd page data count).result = 0) ∨
    ∃ handle content, pager.handle? fd = some handle ∧
      (pager.writePage volume fd page data count).volume =
        volume.setContent handle.inode content ∧
      content.toList = overwrite (volume.content handle.inode).toList page.offset
        (data.toList.take
          (movedBy count (pager.writePage volume fd page data count).result)) := by
  unfold writePage
  split
  · exact Or.inl ⟨rfl, rfl⟩
  · split
    · exact Or.inl ⟨rfl, rfl⟩
    · rename_i handle hHandle
      split
      · exact Or.inl ⟨rfl, rfl⟩
      · rename_i moved written hWrite
        obtain ⟨-, hMoved, content, hWritten, hList⟩ := Volume.writeAt_eq_ok hWrite
        have hRoom : moved ≤ (data.extract 0 count).size := hMoved ▸ Nat.min_le_left _ _
        rw [take_extract hRoom] at hList
        refine Or.inr ⟨handle, content, hHandle, ?_⟩
        split
        · rename_i hAll
          subst hAll
          exact ⟨hWritten, hList⟩
        · exact ⟨hWritten, hList⟩

/-- How a write to an open file ends is decided by the size limit alone. -/
theorem writePage_result {pager : Pager} {fd : Descriptor} {handle : Handle}
    (hHandle : pager.handle? fd = some handle) (volume : Volume) (page : PageNo)
    {data : Array UInt8} {count : Nat} (hCount : count ≤ data.size) :
    (pager.writePage volume fd page data count).result =
      writeResult .writePage page.offset count := by
  unfold writePage
  rw [if_neg (by omega), hHandle]
  dsimp only
  split
  · rename_i hWrite
    have hResult := writeResult_of_writeAt_eq_error .writePage hWrite
    rw [size_extract_of_le hCount] at hResult
    exact hResult.symm
  · rename_i hWrite
    have hResult := writeResult_of_writeAt_eq_ok .writePage hWrite
    rw [size_extract_of_le hCount] at hResult
    rw [hResult]
    split <;> rfl

theorem toList_fillFront (buffer front : Array UInt8) :
    (fillFront buffer front).toList = front.toList ++ buffer.toList.drop front.size := by
  rw [fillFront, Array.toList_append, Array.toList_extract, List.extract,
    List.take_of_length_le (by simp)]

/-- Reading an open file gives the bytes that there are, as far as they were asked
for, and leaves the rest of the buffer and the volume alone. -/
theorem readPage_of_handle {pager : Pager} {fd : Descriptor} {handle : Handle}
    (hHandle : pager.handle? fd = some handle) (volume : Volume) (page : PageNo)
    {buffer : Array UInt8} {count : Nat} (hCount : count ≤ buffer.size) {got : List UInt8}
    (hGot : got = ((volume.content handle.inode).toList.drop page.offset).take count) :
    (pager.readPage volume fd page buffer count).result =
      (if got.length = count then .ok ()
        else .error (.shortTransfer .readPage count got.length)) ∧
    (pager.readPage volume fd page buffer count).buffer.map Array.toList =
      some (got ++ buffer.toList.drop got.length) ∧
    (pager.readPage volume fd page buffer count).volume = volume := by
  have hList : (volume.readAt handle.inode page.offset count).toList = got := by
    rw [hGot, Volume.readAt, Content.toList_read]
  have hLength : (volume.readAt handle.inode page.offset count).size = got.length := by
    rw [← hList, Array.length_toList]
  unfold readPage
  rw [if_neg (by omega), hHandle]
  dsimp only
  rw [hLength]
  split <;> exact ⟨rfl, by simp [toList_fillFront, hList, hLength], rfl⟩

/-- A new access to the log leaves every file as it was. -/
theorem accessLog_extends {pager : Pager} {volume : Volume} {access : LogAccess}
    (hAccess : pager.accessLog volume = .ok access) : volume.Extends access.volume := by
  rcases (accessLog_eq_ok hAccess).2 with ⟨-, hSame⟩ | ⟨-, hOpen⟩
  · rw [hSame]
    exact Volume.Extends.refl volume
  · exact (Volume.openOrCreate_extends hOpen).1

/-- An append either fails before the log is open, or it adds the bytes that it has
moved to the end of the log and nothing else. -/
theorem appendLog_cases (pager : Pager) (volume : Volume) (data : Array UInt8) (count : Nat) :
    ((pager.appendLog volume data count).volume = volume ∧
      (pager.appendLog volume data count).pager.log = pager.log ∧
      movedBy count (pager.appendLog volume data count).result = 0) ∨
    ∃ access, pager.accessLog volume = .ok access ∧
      (pager.appendLog volume data count).pager.log = some access.inode ∧
      (((pager.appendLog volume data count).volume = access.volume ∧
        movedBy count (pager.appendLog volume data count).result = 0) ∨
      ∃ content,
        (pager.appendLog volume data count).volume =
          access.volume.setContent access.inode content ∧
        content.toList = (access.volume.content access.inode).toList ++
          data.toList.take (movedBy count (pager.appendLog volume data count).result)) := by
  unfold appendLog
  split
  · exact Or.inl ⟨rfl, rfl, rfl⟩
  · split
    · exact Or.inl ⟨rfl, rfl, rfl⟩
    · rename_i access hAccess
      have hLog : access.pager.log = some access.inode := by rw [(accessLog_eq_ok hAccess).1]
      refine Or.inr ⟨access, hAccess, ?_⟩
      split
      · exact ⟨hLog, Or.inl ⟨rfl, rfl⟩⟩
      · rename_i moved written hAppend
        obtain ⟨-, hMoved, content, hWritten, hList⟩ := Volume.writeAt_eq_ok hAppend
        have hRoom : moved ≤ (data.extract 0 count).size := hMoved ▸ Nat.min_le_left _ _
        rw [take_extract hRoom, ← Content.length_toList, overwrite_length] at hList
        split
        · rename_i hAll
          subst hAll
          exact ⟨hLog, Or.inr ⟨content, hWritten, hList⟩⟩
        · exact ⟨hLog, Or.inr ⟨content, hWritten, hList⟩⟩

/-- How an append to an open log ends is decided by the size limit alone. -/
theorem appendLog_result {pager : Pager} {volume : Volume} {access : LogAccess}
    (hAccess : pager.accessLog volume = .ok access) {data : Array UInt8} {count : Nat}
    (hCount : count ≤ data.size) :
    (pager.appendLog volume data count).result =
      writeResult .writeLog (access.volume.content access.inode).length count := by
  unfold appendLog
  rw [if_neg (by omega), hAccess]
  dsimp only
  -- An append is a write at the end.
  split
  · rename_i hAppend
    have hResult := writeResult_of_writeAt_eq_error .writeLog hAppend
    rw [size_extract_of_le hCount] at hResult
    exact hResult.symm
  · rename_i hAppend
    have hResult := writeResult_of_writeAt_eq_ok .writeLog hAppend
    rw [size_extract_of_le hCount] at hResult
    rw [hResult]
    split <;> rfl

theorem readLog_cases (pager : Pager) (volume : Volume) (buffer : Array UInt8)
    (count offset : Nat) :
    ((pager.readLog volume buffer count offset).volume = volume ∧
      (pager.readLog volume buffer count offset).pager.log = pager.log) ∨
    ∃ access, pager.accessLog volume = .ok access ∧
      (pager.readLog volume buffer count offset).volume = access.volume ∧
      (pager.readLog volume buffer count offset).pager.log = some access.inode := by
  unfold readLog
  split
  · exact Or.inl ⟨rfl, rfl⟩
  · split
    · exact Or.inl ⟨rfl, rfl⟩
    · rename_i access hAccess
      have hLog : access.pager.log = some access.inode := by rw [(accessLog_eq_ok hAccess).1]
      refine Or.inr ⟨access, hAccess, ?_⟩
      dsimp only
      split
      · exact ⟨rfl, hLog⟩
      · split <;> exact ⟨rfl, hLog⟩

/-- Reading the log gives the bytes that there are, as far as they were asked for,
and tells how many they are. Past the end there is no answer. A read never comes
up short of what it promises. -/
theorem readLog_of_access {pager : Pager} {volume : Volume} {access : LogAccess}
    (hAccess : pager.accessLog volume = .ok access) {buffer : Array UInt8} {count : Nat}
    (hCount : count ≤ buffer.size) (offset : Nat) {log got : List UInt8}
    (hLog : log = (access.volume.content access.inode).toList)
    (hGot : got = (log.drop offset).take count) :
    (pager.readLog volume buffer count offset).result =
      .ok (if log.length < offset then none else some got.length) ∧
    (pager.readLog volume buffer count offset).buffer.map Array.toList =
      some (got ++ buffer.toList.drop got.length) ∧
    (pager.readLog volume buffer count offset).volume = access.volume := by
  have hLength : (access.volume.content access.inode).length = log.length := by
    rw [hLog, Content.length_toList]
  have hGotLength : got.length = min count (log.length - offset) := by
    rw [hGot, List.length_take, List.length_drop]
  unfold readLog
  rw [if_neg (by omega), hAccess]
  dsimp only
  rw [hLength]
  split
  · -- Past the end there is nothing to read.
    have hNone : got = [] := List.eq_nil_of_length_eq_zero (by omega)
    exact ⟨rfl, by simp [hNone], rfl⟩
  · have hExpected : (access.volume.readAt access.inode offset
        (min count (log.length - offset))).toList = got := by
      rw [Volume.readAt, Content.toList_read, ← hLog, hGot, ← List.take_take]
      congr 1
      exact List.take_of_length_le (Nat.le_of_eq List.length_drop)
    have hSize : (access.volume.readAt access.inode offset
        (min count (log.length - offset))).size = min count (log.length - offset) := by
      rw [← Array.length_toList, hExpected, hGotLength]
    rw [if_pos hSize]
    exact ⟨by rw [hGotLength], by simp [toList_fillFront, hExpected, hSize, hGotLength], rfl⟩

end Pager

end Paging
