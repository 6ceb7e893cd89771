import Std.Data.ExtTreeMap

/-! The slots of a buffer pool. -/
namespace Paging

/-- The number of a slot in a buffer pool. Frames are only told apart and
ordered; nothing is ever computed from their numbers. -/
structure Frame where
  number : Nat
  deriving DecidableEq

namespace Frame

instance : Ord Frame := ⟨compareOn Frame.number⟩

instance : Std.TransOrd Frame := inferInstanceAs (Std.TransCmp (compareOn Frame.number))

instance : Std.LawfulEqOrd Frame where
  eq_of_compare {a b} hEqual := by
    have hCompared : compare a.number b.number = .eq := hEqual
    have hNumber := Std.LawfulEqCmp.eq_of_compare hCompared
    cases a
    cases b
    exact congrArg Frame.mk hNumber

/-- The written form of a frame. -/
def text (frame : Frame) : String := s!"Frame({frame.number})"

end Frame

end Paging
