import Paging.Volume.Blocks
import Paging.Volume.Fault

/-! File contents as sequences of bytes. Contents are compared byte by byte:
how often, and in which order, they were written cannot be told afterwards, nor
how their bytes are kept. -/
namespace Paging

/-- No file grows beyond this many bytes. -/
def sizeLimit : Nat := 8589934592

/-- The bytes of a file, however they are kept. -/
def Content : Type := Quotient Blocks.setoid

namespace Content

/-- How many bytes there are. -/
def length (content : Content) : Nat :=
  content.lift Blocks.length fun blocks other (hSame : blocks.SameBytes other) => hSame.1

/-- The byte at a position. A position at or after the end holds no byte of the
file and reads as zero. -/
def byte (content : Content) : Nat → UInt8 :=
  content.lift Blocks.byte fun blocks other (hSame : blocks.SameBytes other) => hSame.2

/-- No bytes. -/
def empty : Content := Quotient.mk _ .empty

instance : Inhabited Content := ⟨empty⟩

/-- The content with `bytes` laid over it from `offset` on. A gap before them
reads as zeros. Laying no bytes over a content does not lengthen it. -/
def overlay (content : Content) (offset : Nat) (bytes : Array UInt8) : Content :=
  content.lift (fun blocks => Quotient.mk _ (blocks.overlay offset bytes))
    fun blocks other (hSame : blocks.SameBytes other) => Quotient.sound (hSame.overlay offset bytes)

/-- The given bytes and no others. -/
def ofBytes (bytes : Array UInt8) : Content := empty.overlay 0 bytes

/-- How many of `count` bytes written from `offset` on find room below the size
limit. -/
def room (offset count : Nat) : Nat := min count (sizeLimit - offset)

/-- Writes bytes from `offset` on, as far as the size limit allows, and says how
many were written. Writing nothing always succeeds and changes nothing; writing
something at or past the limit is refused. -/
def write (content : Content) (offset : Nat) (bytes : Array UInt8) :
    Except Fault (Nat × Content) :=
  if bytes.size = 0 then .ok (0, content)
  else if sizeLimit ≤ offset then .error .tooLarge
  else
    let moved := room offset bytes.size
    .ok (moved, content.overlay offset (bytes.extract 0 moved))

/-- Writes bytes at the current end. -/
def append (content : Content) (bytes : Array UInt8) : Except Fault (Nat × Content) :=
  content.write content.length bytes

/-- The bytes from `offset` on, at most `count` of them and none past the end.
Reading never fails: it only comes back short. -/
def read (content : Content) (offset count : Nat) : Array UInt8 :=
  Array.ofFn fun position : Fin (min count (content.length - offset)) =>
    content.byte (offset + position)

/-- All bytes in order. -/
def toArray (content : Content) : Array UInt8 := content.read 0 content.length

/-- Contents with the same bytes are equal. -/
@[ext] theorem ext {content other : Content} (hLength : content.length = other.length)
    (hByte : content.byte = other.byte) : content = other := by
  induction content using Quotient.ind
  induction other using Quotient.ind
  exact Quotient.sound ⟨hLength, hByte⟩

theorem byte_of_length_le {content : Content} {position : Nat}
    (hPast : content.length ≤ position) : content.byte position = 0 := by
  induction content using Quotient.ind
  rename_i blocks
  exact blocks.zero_of_length_le position hPast

@[simp] theorem length_empty : empty.length = 0 := rfl

@[simp] theorem byte_empty (position : Nat) : empty.byte position = 0 :=
  byte_of_length_le (Nat.zero_le position)

@[simp] theorem length_overlay (content : Content) (offset : Nat) (bytes : Array UInt8) :
    (content.overlay offset bytes).length =
      if bytes.size = 0 then content.length else max content.length (offset + bytes.size) := by
  induction content using Quotient.ind
  rfl

theorem byte_overlay (content : Content) (offset : Nat) (bytes : Array UInt8) (position : Nat) :
    (content.overlay offset bytes).byte position =
      if offset ≤ position ∧ position < offset + bytes.size then bytes.getD (position - offset) 0
      else content.byte position := by
  induction content using Quotient.ind
  rename_i blocks
  exact blocks.byte_overlay offset bytes position

/-- A position under the overlaid bytes holds the new byte. -/
theorem byte_overlay_of_mem (content : Content) (offset position : Nat) (bytes : Array UInt8)
    (hFrom : offset ≤ position) (hTo : position < offset + bytes.size) :
    (content.overlay offset bytes).byte position = bytes.getD (position - offset) 0 := by
  simp [byte_overlay, hFrom, hTo]

/-- A position beside the overlaid bytes keeps its byte. -/
theorem byte_overlay_of_not_mem (content : Content) (offset position : Nat)
    (bytes : Array UInt8)
    (hOutside : position < offset ∨ offset + bytes.size ≤ position) :
    (content.overlay offset bytes).byte position = content.byte position := by
  have hNot : ¬(offset ≤ position ∧ position < offset + bytes.size) := by omega
  simp only [byte_overlay, hNot, if_false]

/-- Laying no bytes over a content leaves it as it is. -/
theorem overlay_of_size_eq_zero (content : Content) (offset : Nat) (bytes : Array UInt8)
    (hNone : bytes.size = 0) : content.overlay offset bytes = content := by
  apply Content.ext
  · simp [hNone]
  · funext position
    exact byte_overlay_of_not_mem content offset position bytes (by omega)

@[simp] theorem length_ofBytes (bytes : Array UInt8) : (ofBytes bytes).length = bytes.size := by
  simp only [ofBytes, length_overlay, length_empty]
  split <;> omega

@[simp] theorem byte_ofBytes (bytes : Array UInt8) (position : Nat) :
    (ofBytes bytes).byte position = bytes.getD position 0 := by
  by_cases hPosition : position < bytes.size
  · simpa [ofBytes] using byte_overlay_of_mem empty 0 position bytes (Nat.zero_le _) (by omega)
  · rw [byte_of_length_le (by rw [length_ofBytes]; omega)]
    simp [Array.getD, hPosition]

@[simp] theorem size_read (content : Content) (offset count : Nat) :
    (content.read offset count).size = min count (content.length - offset) := by
  simp [read]

/-- A byte that was read is the byte of the file at its place. -/
theorem getElem_read (content : Content) (offset count position : Nat)
    (hPosition : position < (content.read offset count).size) :
    (content.read offset count)[position] = content.byte (offset + position) := by
  simp [read]

end Content

end Paging
