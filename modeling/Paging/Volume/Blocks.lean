import Std.Data.ExtTreeMap

/-! Bytes in blocks, so that a change copies the blocks that it touches and no
others. How the bytes are cut into blocks is told by nothing but the speed. -/
namespace Paging

/-- How many bytes a block holds. -/
abbrev blockSize : Nat := 64

/-- The bytes of a table of numbered blocks, read one block after the other. A
block that is not in the table holds zeros. -/
def blockByte (table : Std.ExtTreeMap Nat (Array UInt8)) (position : Nat) : UInt8 :=
  (table.getD (position / blockSize) #[]).getD (position % blockSize) 0

/-- A number of bytes, kept in blocks. Past the last of them there are zeros. -/
structure Blocks where
  length : Nat
  table : Std.ExtTreeMap Nat (Array UInt8)
  zero_of_length_le : ∀ position, length ≤ position → blockByte table position = 0

namespace Blocks

/-- The byte at a position, or zero past the end. -/
def byte (blocks : Blocks) (position : Nat) : UInt8 := blockByte blocks.table position

/-- No bytes. -/
def empty : Blocks where
  length := 0
  table := ∅
  zero_of_length_le := by simp [blockByte]

/-- The bytes given by a function, except for some that are laid over them from
`offset` on. -/
def layOver (under : Nat → UInt8) (offset : Nat) (bytes : Array UInt8) (position : Nat) :
    UInt8 :=
  if offset ≤ position ∧ position < offset + bytes.size then bytes.getD (position - offset) 0
  else under position

/-- The numbers of the blocks that hold some of `count` bytes from `offset` on. -/
def touched (offset count : Nat) : List Nat :=
  if count = 0 then []
  else
    List.range' (offset / blockSize)
      ((offset + count - 1) / blockSize + 1 - offset / blockSize)

/-- The table with some of its blocks filled anew from a function. -/
def refill (table : Std.ExtTreeMap Nat (Array UInt8)) (byte : Nat → UInt8)
    (numbers : List Nat) : Std.ExtTreeMap Nat (Array UInt8) :=
  numbers.foldl
    (fun table number =>
      table.insert number
        (Array.ofFn fun place : Fin blockSize => byte (number * blockSize + place)))
    table

theorem mem_touched {offset count position : Nat} (hFrom : offset ≤ position)
    (hTo : position < offset + count) : position / blockSize ∈ touched offset count := by
  have hCount : count ≠ 0 := by omega
  have hLow : offset / blockSize ≤ position / blockSize := Nat.div_le_div_right hFrom
  have hHigh : position / blockSize ≤ (offset + count - 1) / blockSize :=
    Nat.div_le_div_right (by omega)
  simp only [touched, hCount, if_false, List.mem_range'_1]
  omega

/-- A block that is filled anew holds the function's bytes, and the others keep
theirs. -/
theorem blockByte_insert (table : Std.ExtTreeMap Nat (Array UInt8)) (byte : Nat → UInt8)
    (number position : Nat) :
    blockByte
        (table.insert number
          (Array.ofFn fun place : Fin blockSize => byte (number * blockSize + place)))
        position =
      if position / blockSize = number then byte position
      else blockByte table position := by
  by_cases hNumber : position / blockSize = number
  · subst hNumber
    have hPlace : position % blockSize < blockSize := Nat.mod_lt _ (by decide)
    have hWhole : position / blockSize * blockSize + position % blockSize = position :=
      Nat.div_add_mod' position blockSize
    simp [blockByte, Array.getD, hPlace, hWhole]
  · have hOther : ¬number = position / blockSize := fun hSame => hNumber hSame.symm
    simp [blockByte, Std.ExtTreeMap.getD_insert, hNumber, hOther]

theorem blockByte_refill (table : Std.ExtTreeMap Nat (Array UInt8)) (byte : Nat → UInt8)
    (numbers : List Nat) (position : Nat) :
    blockByte (refill table byte numbers) position =
      if position / blockSize ∈ numbers then byte position
      else blockByte table position := by
  induction numbers generalizing table with
  | nil => simp [refill]
  | cons number numbers ih =>
      have hRefill : refill table byte (number :: numbers) =
          refill
            (table.insert number
              (Array.ofFn fun place : Fin blockSize => byte (number * blockSize + place)))
            byte numbers := rfl
      rw [hRefill, ih, blockByte_insert]
      by_cases hLater : position / blockSize ∈ numbers
      · simp [hLater]
      · by_cases hNumber : position / blockSize = number <;> simp [hLater, hNumber]

theorem blockByte_overlay (blocks : Blocks) (offset : Nat) (bytes : Array UInt8)
    (position : Nat) :
    blockByte
        (refill blocks.table (layOver blocks.byte offset bytes) (touched offset bytes.size))
        position =
      layOver blocks.byte offset bytes position := by
  rw [blockByte_refill]
  split
  · rfl
  · rename_i hUntouched
    have hOutside : ¬(offset ≤ position ∧ position < offset + bytes.size) :=
      fun hInside => hUntouched (mem_touched hInside.1 hInside.2)
    simp only [layOver, hOutside, if_false]
    rfl

/-- The bytes with others laid over them from `offset` on. A gap before the new
bytes is left to be zeros. Laying no bytes over others does not add to them. -/
def overlay (blocks : Blocks) (offset : Nat) (bytes : Array UInt8) : Blocks where
  length := if bytes.size = 0 then blocks.length else max blocks.length (offset + bytes.size)
  table := refill blocks.table (layOver blocks.byte offset bytes) (touched offset bytes.size)
  zero_of_length_le := by
    intro position hPast
    have hLength : blocks.length ≤ position := by
      split at hPast <;> omega
    have hOutside : ¬(offset ≤ position ∧ position < offset + bytes.size) := by
      split at hPast <;> omega
    rw [blockByte_overlay]
    simp only [layOver, hOutside, if_false]
    exact blocks.zero_of_length_le position hLength

/-- An overlay holds the new bytes where they were laid and the old ones beside
them. -/
theorem byte_overlay (blocks : Blocks) (offset : Nat) (bytes : Array UInt8)
    (position : Nat) :
    (blocks.overlay offset bytes).byte position = layOver blocks.byte offset bytes position :=
  blockByte_overlay blocks offset bytes position

/-- Whether the same bytes are kept, in whatever blocks. -/
def SameBytes (blocks other : Blocks) : Prop :=
  blocks.length = other.length ∧ blocks.byte = other.byte

instance setoid : Setoid Blocks where
  r := SameBytes
  iseqv :=
    { refl := fun _ => ⟨rfl, rfl⟩
      symm := fun hSame => ⟨hSame.1.symm, hSame.2.symm⟩
      trans := fun hFirst hSecond => ⟨hFirst.1.trans hSecond.1, hFirst.2.trans hSecond.2⟩ }

/-- The same bytes stay the same under the same overlay. -/
theorem SameBytes.overlay {blocks other : Blocks} (hSame : blocks.SameBytes other)
    (offset : Nat) (bytes : Array UInt8) :
    (blocks.overlay offset bytes).SameBytes (other.overlay offset bytes) := by
  refine ⟨?_, funext fun position => ?_⟩
  · simp only [Blocks.overlay, hSame.1]
  · rw [byte_overlay, byte_overlay, hSame.2]

end Blocks

end Paging
