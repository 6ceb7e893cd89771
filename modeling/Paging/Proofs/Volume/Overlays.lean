import Paging.Volume.Files

/-! Bytes that are laid over files, each time at a place of their own. Where two of them
share no place they may be laid in either order, and what is read somewhere else does not
change by them. -/
namespace Paging

namespace Content

/-- Bytes that share no place may be laid over a content in either order, also when one of
them fills the gap that the other has left. -/
theorem overlay_comm (content : Content) {offset other : Nat} {bytes others : Array UInt8}
    (hApart : offset + bytes.size ≤ other ∨ other + others.size ≤ offset) :
    (content.overlay offset bytes).overlay other others =
      (content.overlay other others).overlay offset bytes := by
  apply Content.ext
  · simp only [length_overlay]
    split <;> split <;> omega
  · funext position
    by_cases hHere : offset ≤ position ∧ position < offset + bytes.size
    · have hNotThere : ¬(other ≤ position ∧ position < other + others.size) := by omega
      simp only [byte_overlay, if_pos hHere, if_neg hNotThere]
    · simp only [byte_overlay, if_neg hHere]

/-- Where all bytes could be read that were asked for, the same bytes are read after others
were laid beside them. -/
theorem read_overlay (content : Content) {offset count other : Nat} {bytes : Array UInt8}
    (hAll : (content.read offset count).size = count)
    (hApart : offset + count ≤ other ∨ other + bytes.size ≤ offset) :
    (content.overlay other bytes).read offset count = content.read offset count := by
  rw [size_read] at hAll
  have hSize : ((content.overlay other bytes).read offset count).size = count := by
    rw [size_read, length_overlay]
    split <;> omega
  apply Array.ext (by rw [hSize, size_read, hAll])
  intro position hPosition hRead
  rw [getElem_read, getElem_read, byte_overlay_of_not_mem]
  omega

end Content

namespace Volume

/-- Volumes with the same names and the same files are equal. -/
theorem eq_of_content {volume other : Volume} (hNames : volume.directories = other.directories)
    (hFiles : volume.contents.size = other.contents.size)
    (hContent : ∀ inode, volume.content inode = other.content inode) : volume = other := by
  obtain ⟨directories, contents⟩ := volume
  obtain ⟨names, files⟩ := other
  obtain rfl : directories = names := hNames
  congr 1
  apply Array.ext hFiles
  intro index hIndex hFile
  have hSame := hContent ⟨index⟩
  rw [content, content, Array.getD_eq_getD_getElem?, Array.getD_eq_getD_getElem?,
    Array.getElem?_eq_getElem hIndex, Array.getElem?_eq_getElem hFile] at hSame
  exact hSame

/-- Lays bytes over a file from `offset` on. -/
def overlay (volume : Volume) (inode : Inode) (offset : Nat) (bytes : Array UInt8) : Volume :=
  volume.setContent inode ((volume.content inode).overlay offset bytes)

variable (volume : Volume) {inode other : Inode} {offset place : Nat}
  {bytes others : Array UInt8}

@[simp] theorem size_contents_overlay :
    (volume.overlay inode offset bytes).contents.size = volume.contents.size := by
  simp [overlay, setContent]

theorem content_overlay_of_ne (hOther : other ≠ inode) :
    (volume.overlay inode offset bytes).content other = volume.content other :=
  volume.content_setContent_of_ne _ hOther

theorem content_overlay_self (hHeld : inode.index < volume.contents.size) :
    (volume.overlay inode offset bytes).content inode =
      (volume.content inode).overlay offset bytes :=
  volume.content_setContent_self _ hHeld

/-- A file that the volume does not hold is not made by laying bytes over it. -/
theorem overlay_of_size_le (hNone : volume.contents.size ≤ inode.index) :
    volume.overlay inode offset bytes = volume := by
  simp [overlay, setContent, Array.setIfInBounds, Nat.not_lt.mpr hNone]

/-- Laying no bytes over a file leaves the volume as it is. -/
theorem overlay_empty : volume.overlay inode offset #[] = volume := by
  by_cases hHeld : inode.index < volume.contents.size
  · refine eq_of_content rfl (size_contents_overlay volume) fun other => ?_
    by_cases hOther : other = inode
    · rw [hOther, content_overlay_self volume hHeld, Content.overlay_of_size_eq_zero _ _ _ rfl]
    · exact content_overlay_of_ne volume hOther
  · exact overlay_of_size_le volume (Nat.not_lt.mp hHeld)

/-- Bytes may be laid over files in either order where they share no place of one file. -/
theorem overlay_comm
    (hApart : other = inode → offset + bytes.size ≤ place ∨ place + others.size ≤ offset) :
    (volume.overlay inode offset bytes).overlay other place others =
      (volume.overlay other place others).overlay inode offset bytes := by
  by_cases hSame : other = inode
  · subst hSame
    by_cases hHeld : other.index < volume.contents.size
    · refine eq_of_content rfl (by simp) fun file => ?_
      by_cases hFile : file = other
      · subst hFile
        rw [content_overlay_self _ (by simpa using hHeld), content_overlay_self _ hHeld,
          content_overlay_self _ (by simpa using hHeld), content_overlay_self _ hHeld,
          Content.overlay_comm _ (hApart rfl)]
      · rw [content_overlay_of_ne _ hFile, content_overlay_of_ne _ hFile,
          content_overlay_of_ne _ hFile, content_overlay_of_ne _ hFile]
    · have hNone := Nat.not_lt.mp hHeld
      rw [overlay_of_size_le volume hNone, overlay_of_size_le volume hNone,
        overlay_of_size_le volume hNone]
  · have hIndex : inode.index ≠ other.index := by
      intro hIndex
      exact hSame (congrArg Inode.mk hIndex.symm)
    simp only [overlay, content_setContent_of_ne _ _ hSame,
      content_setContent_of_ne _ _ (Ne.symm hSame)]
    simp only [setContent]
    rw [Array.setIfInBounds_comm _ _ hIndex]

/-- Where all bytes could be read that were asked for, the same bytes are read after others
were laid over another file or beside them. -/
theorem readAt_overlay {count : Nat} (hAll : (volume.readAt inode offset count).size = count)
    (hApart : other = inode → offset + count ≤ place ∨ place + others.size ≤ offset) :
    (volume.overlay other place others).readAt inode offset count =
      volume.readAt inode offset count := by
  by_cases hOther : inode = other
  · subst hOther
    by_cases hHeld : inode.index < volume.contents.size
    · rw [readAt, content_overlay_self volume hHeld]
      exact (volume.content inode).read_overlay hAll (hApart rfl)
    · rw [overlay_of_size_le volume (Nat.not_lt.mp hHeld)]
  · rw [readAt, content_overlay_of_ne volume hOther]
    rfl

/-- A write lays as many bytes over the file as there is room for, and is refused past the
size limit. Whether it is does not depend on what is in the file. -/
theorem writeAt_eq (inode : Inode) (offset : Nat) (bytes : Array UInt8) :
    volume.writeAt inode offset bytes =
      if bytes.size = 0 ∨ offset < sizeLimit then
        .ok (Content.room offset bytes.size,
          volume.overlay inode offset (bytes.extract 0 (Content.room offset bytes.size)))
      else .error .tooLarge := by
  unfold writeAt Content.write
  by_cases hNone : bytes.size = 0
  · have hSame := (volume.content inode).overlay_of_size_eq_zero offset #[] rfl
    simp [hNone, Content.room, overlay, hSame]
  · by_cases hBelow : offset < sizeLimit
    · simp [hNone, hBelow, Nat.not_le.mpr hBelow, overlay]
    · simp [hNone, hBelow, Nat.not_lt.mp hBelow]

end Volume

end Paging
