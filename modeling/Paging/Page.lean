/-! Page numbers and where pages lie in their files. Main statements: offsets are
far below the end of a 64-bit range, distinct pages do not overlap, and counting
up never wraps around. -/
namespace Paging

/-- Every page holds this many bytes. -/
def pageSize : Nat := 4096

/-- The number of a page within its file. Numbers are 32 bits wide, and the
largest of them stands for no page at all. -/
structure PageNo where
  number : UInt32
  deriving DecidableEq

namespace PageNo

instance : Ord PageNo := ⟨fun a b => compare a.number b.number⟩

/-- The number that no page has. -/
def invalid : PageNo := ⟨0xFFFFFFFF⟩

/-- The first page of a file. -/
def first : PageNo := ⟨0⟩

/-- Whether the number can belong to a page. Being valid does not mean that
any file has a page of this number. -/
def isValid (page : PageNo) : Bool := page ≠ invalid

/-- Where the page begins in its file, in bytes. Pages lie one after the other
with nothing between them, so no two pages share a byte. -/
def offset (page : PageNo) : Nat := page.number.toNat * pageSize

/-- The page after this one, or `none` when the numbers are used up. The
successor never wraps around to the first page. -/
def next? (page : PageNo) : Option PageNo :=
  if page = invalid then none else some ⟨page.number + 1⟩

/-- The written form of a page number. -/
def text (page : PageNo) : String :=
  if page = invalid then "Page(INVALID)" else s!"Page({page.number.toNat})"

theorem offset_def (page : PageNo) : page.offset = page.number.toNat * 4096 := rfl

/-- Even the offset of the number that no page has, with a page's bytes after it,
stays far from the end of a 64-bit range. -/
theorem offset_add_pageSize_lt (page : PageNo) : page.offset + pageSize < UInt64.size := by
  have hNumber := page.number.toNat_lt
  simp only [offset_def, pageSize, UInt64.size]
  omega

/-- Distinct pages begin at least one page apart. -/
theorem offset_add_pageSize_le {page other : PageNo} (hLess : page.number < other.number) :
    page.offset + pageSize ≤ other.offset := by
  have hNumbers := UInt32.lt_iff_toNat_lt.mp hLess
  simp only [offset, pageSize]
  omega

/-- Only the number that stands for no page has no successor. -/
theorem next?_eq_none_iff (page : PageNo) : page.next? = none ↔ page = invalid := by
  simp [next?]

/-- The successor is one larger, without wrapping. -/
theorem toNat_of_next?_eq_some {page after : PageNo} (hNext : page.next? = some after) :
    after.number.toNat = page.number.toNat + 1 := by
  simp only [next?] at hNext
  split at hNext
  · cases hNext
  · rename_i hValid
    cases hNext
    have hBound : page.number.toNat ≠ 4294967295 := by
      intro hLast
      apply hValid
      cases page
      simp only [invalid, mk.injEq]
      exact UInt32.toNat_inj.mp hLast
    have hNumber := page.number.toNat_lt
    rw [UInt32.toNat_add]
    simp only [UInt32.reduceToNat]
    omega

end PageNo

end Paging
