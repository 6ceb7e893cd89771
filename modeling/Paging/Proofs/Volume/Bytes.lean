import Paging.Volume.Content

/-! Contents as plain lists of bytes, and what moving bytes does to the lists.
Nothing here depends on how a content keeps its bytes. -/
namespace Paging

/-- A list of bytes after others were written over it from `offset` on. A gap
before them is filled with zeros, and writing nothing fills no gap. -/
def overwrite (file : List UInt8) (offset : Nat) (bytes : List UInt8) : List UInt8 :=
  if bytes = [] then file
  else file.take offset ++ List.replicate (offset - file.length) 0 ++ bytes ++
    file.drop (offset + bytes.length)

@[simp] theorem overwrite_nil (file : List UInt8) (offset : Nat) :
    overwrite file offset [] = file := by
  simp [overwrite]

theorem overwrite_length (file bytes : List UInt8) :
    overwrite file file.length bytes = file ++ bytes := by
  by_cases hNone : bytes = [] <;> simp [overwrite, hNone]

theorem getElem?_overwrite {file : List UInt8} {offset : Nat} {bytes : List UInt8}
    (hSome : bytes ≠ []) (position : Nat) :
    (overwrite file offset bytes)[position]? =
      if position < offset then some (file.getD position 0)
      else if position < offset + bytes.length then bytes[position - offset]?
      else file[position]? := by
  have hFront : (file.take offset ++ List.replicate (offset - file.length) 0).length = offset := by
    simp only [List.length_append, List.length_take, List.length_replicate]
    omega
  rw [overwrite, if_neg hSome, List.append_assoc, List.getElem?_append, hFront]
  split
  · rename_i hBefore
    rw [List.getElem?_append, List.length_take]
    split
    · rename_i hHeld
      have hInside : position < file.length := by omega
      simp [hBefore, hInside]
    · rename_i hGap
      have hPast : file.length ≤ position := by omega
      have hZero : position - min offset file.length < offset - file.length := by omega
      rw [List.getElem?_replicate, if_pos hZero]
      simp [hPast]
  · rename_i hFrom
    rw [List.getElem?_append]
    split
    · rename_i hInside
      rw [if_pos (by omega)]
    · rename_i hBehind
      rw [if_neg (by omega), List.getElem?_drop]
      congr 1
      omega

/-- What was written over a file is there afterwards. -/
theorem take_drop_overwrite (file : List UInt8) (offset : Nat) (bytes : List UInt8) :
    ((overwrite file offset bytes).drop offset).take bytes.length = bytes := by
  by_cases hNone : bytes = []
  · simp [hNone]
  · apply List.ext_getElem?
    intro position
    rw [List.getElem?_take, List.getElem?_drop, getElem?_overwrite hNone]
    split
    · rw [if_neg (by omega), if_pos (by omega), Nat.add_sub_cancel_left]
    · rename_i hPast
      exact (List.getElem?_eq_none (Nat.not_lt.mp hPast)).symm

namespace Content

/-- All bytes in order, as a list. -/
def toList (content : Content) : List UInt8 := content.toArray.toList

@[simp] theorem length_toList (content : Content) : content.toList.length = content.length := by
  simp [toList, toArray]

theorem getElem?_toList (content : Content) (position : Nat) :
    content.toList[position]? =
      if position < content.length then some (content.byte position) else none := by
  split
  · rename_i hInside
    have hSize : position < content.toArray.size := by simpa [toArray] using hInside
    rw [toList, Array.getElem?_toList, Array.getElem?_eq_getElem hSize]
    simp [toArray, getElem_read]
  · rename_i hPast
    exact List.getElem?_eq_none (by simpa using hPast)

theorem getD_toList (content : Content) (position : Nat) :
    content.toList.getD position 0 = content.byte position := by
  rw [List.getD_eq_getElem?_getD, getElem?_toList]
  split
  · rfl
  · rename_i hPast
    exact (byte_of_length_le (Nat.not_lt.mp hPast)).symm

/-- Laying bytes over a content writes them over its list. -/
theorem toList_overlay (content : Content) (offset : Nat) (bytes : Array UInt8) :
    (content.overlay offset bytes).toList = overwrite content.toList offset bytes.toList := by
  by_cases hNone : bytes.size = 0
  · have hNil : bytes.toList = [] := List.eq_nil_of_length_eq_zero (by simpa using hNone)
    rw [overlay_of_size_eq_zero content offset bytes hNone, hNil, overwrite_nil]
  · have hSome : bytes.toList ≠ [] := fun hNil => hNone (by simpa using congrArg List.length hNil)
    apply List.ext_getElem?
    intro position
    rw [getElem?_overwrite hSome, getElem?_toList, length_overlay, if_neg hNone, byte_overlay,
      getD_toList, getElem?_toList, Array.length_toList, Array.getElem?_toList]
    -- The place is before the new bytes, under them or behind them.
    by_cases hBefore : position < offset
    · rw [if_pos (by omega), if_neg (by omega), if_pos hBefore]
    · by_cases hUnder : position < offset + bytes.size
      · have hInside : position - offset < bytes.size := by omega
        rw [if_pos (by omega), if_pos (by omega), if_neg hBefore, if_pos hUnder]
        simp [Array.getD, hInside]
      · rw [if_neg (by omega : ¬(offset ≤ position ∧ position < offset + bytes.size)),
          if_neg hBefore, if_neg hUnder]
        by_cases hHeld : position < content.length
        · rw [if_pos (by omega), if_pos hHeld]
        · rw [if_neg (by omega), if_neg hHeld]

theorem toList_read (content : Content) (offset count : Nat) :
    (content.read offset count).toList = (content.toList.drop offset).take count := by
  apply List.ext_getElem?
  intro position
  rw [List.getElem?_take, List.getElem?_drop, getElem?_toList, Array.getElem?_toList]
  by_cases hRead : position < (content.read offset count).size
  · have hBounds : position < min count (content.length - offset) := by simpa using hRead
    rw [Array.getElem?_eq_getElem hRead, getElem_read, if_pos (by omega), if_pos (by omega)]
  · have hBounds : ¬position < min count (content.length - offset) := by simpa using hRead
    rw [Array.getElem?_eq_none (by omega)]
    by_cases hAsked : position < count
    · rw [if_pos hAsked, if_neg (by omega)]
    · rw [if_neg hAsked]

/-- Of a write that is not refused, as many bytes as there is room for are written
over the list. -/
theorem write_eq_ok {content after : Content} {offset moved : Nat} {bytes : Array UInt8}
    (hWrite : content.write offset bytes = .ok (moved, after)) :
    (bytes.size = 0 ∨ offset < sizeLimit) ∧ moved = room offset bytes.size ∧
      after.toList = overwrite content.toList offset (bytes.toList.take moved) := by
  unfold write at hWrite
  split at hWrite
  · rename_i hNone
    cases hWrite
    have hNil : bytes.toList = [] := List.eq_nil_of_length_eq_zero (by simpa using hNone)
    exact ⟨Or.inl hNone, by simp [room, hNone], by simp [hNil]⟩
  · split at hWrite
    · cases hWrite
    · rename_i hBelow
      cases hWrite
      refine ⟨Or.inr (Nat.not_le.mp hBelow), rfl, ?_⟩
      rw [toList_overlay, Array.toList_extract]
      simp [List.extract]

theorem write_eq_error {content : Content} {offset : Nat} {bytes : Array UInt8} {fault : Fault}
    (hWrite : content.write offset bytes = .error fault) :
    bytes.size ≠ 0 ∧ sizeLimit ≤ offset ∧ fault = .tooLarge := by
  unfold write at hWrite
  split at hWrite
  · cases hWrite
  · rename_i hSome
    split at hWrite
    · rename_i hPast
      cases hWrite
      exact ⟨hSome, hPast, rfl⟩
    · cases hWrite

end Content

end Paging
