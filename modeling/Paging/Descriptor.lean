import Std.Data.ExtTreeMap

/-! The numbers by which open files are known, with the order that tables of
them are kept in. -/
namespace Paging

/-- The number under which an open file is known. It also names the slot that
counts pages for whatever file is open under it. -/
structure Descriptor where
  number : UInt32
  deriving DecidableEq

namespace Descriptor

instance : Ord Descriptor := ⟨compareOn Descriptor.number⟩

instance : Std.TransOrd Descriptor :=
  inferInstanceAs (Std.TransCmp (compareOn Descriptor.number))

instance : Std.LawfulEqOrd Descriptor where
  eq_of_compare {a b} hEqual := by
    have hCompared : compare a.number b.number = .eq := hEqual
    have hNumber := Std.LawfulEqCmp.eq_of_compare hCompared
    cases a
    cases b
    exact congrArg Descriptor.mk hNumber

/-- The descriptor as an index from zero. -/
def index (fd : Descriptor) : Nat := fd.number.toNat

/-- The written form of a descriptor. -/
def text (fd : Descriptor) : String := s!"Fd({fd.number.toNat})"

/-- Descriptors with equal indices are equal. -/
theorem index_inj {fd other : Descriptor} : fd.index = other.index ↔ fd = other := by
  cases fd
  cases other
  simp [index, UInt32.toNat_inj]

end Descriptor

end Paging
