import Paging.Event
import Paging.Frame

/-! What is recorded of the work of an eviction queue. -/
namespace Paging.Eviction

/-- What an eviction queue records about its own work. -/
inductive Notice
  | evicted (frame : Frame)
  /-- A frame was added, and the queue now holds more frames than the pool has. -/
  | overCapacity (tracked capacity : Nat)
  deriving DecidableEq

namespace Notice

/-- An eviction is traced, and having too many frames is a warning. -/
def level : Notice → Level
  | evicted _ => .trace
  | overCapacity .. => .warn

/-- The written form of a notice, without its level. -/
def text : Notice → String
  | evicted frame => s!"lru replacer evicts {frame.text}"
  | overCapacity tracked capacity =>
    s!"lru replacer tracks {tracked} frames, above pool capacity {capacity}"

/-- The written form of a notice, after its level. -/
def line (notice : Notice) : String := s!"{notice.level.text} {notice.text}"

end Notice

end Paging.Eviction
