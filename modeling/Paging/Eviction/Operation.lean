import Paging.Eviction.Queue.Basic
import Paging.Schedule
import Paging.Trace

/-! Runs of operations on an eviction queue, with what each of them answers. -/
namespace Paging.Eviction

/-- What can be asked of an eviction queue. -/
inductive Operation
  | unpin (frame : Frame)
  | pin (frame : Frame)
  | victim
  | capacity
  /-- Evict until nothing is left. -/
  | drain
  /-- Several workers unpin the frames from `low` up to, but not including,
  `high`. The workers deal the frames out among themselves one by one. -/
  | unpinTogether (low high workers : Nat)
  /-- Workers that each evict until nothing is left. Who gets which frame is not
  told, and where there are no workers nothing is evicted. -/
  | evictTogether (workers : Nat)
  deriving DecidableEq

/-- What an eviction queue answers. -/
inductive Reply
  | done
  | victim (frame : Option Frame)
  | capacity (count : Nat)
  | victims (frames : List Frame)
  deriving DecidableEq

/-- What is seen of an operation on an eviction queue: its reply, how many frames
may be evicted afterwards, and its notices. Notices are those of the caller
alone: workers record theirs elsewhere. -/
structure Report where
  reply : Reply
  size : Nat
  notices : List Notice
  deriving DecidableEq

/-- The frames that worker number `worker` of `workers` gets when the frames
from `low` up to `high` are dealt out one by one. -/
def share (low high workers worker : Nat) : List Frame :=
  (List.range' (low + worker) ((high - low - worker + (workers - 1)) / workers) workers).map
    Frame.mk

/-- The most evictions that some workers can make between them, each going on
until nothing is left: no worker evicts more frames than there are. -/
def attempts (workers frames : Nat) : Nat := workers * frames

/-- A worker gets each frame of the range whose distance from the first one
leaves its own number when it is divided by the number of workers. -/
theorem mem_share_iff {low high workers worker : Nat} (hWorker : worker < workers)
    (frame : Frame) :
    frame ∈ share low high workers worker ↔
      low ≤ frame.number ∧ frame.number < high ∧ (frame.number - low) % workers = worker := by
  have hCount : ∀ index, index < (high - low - worker + (workers - 1)) / workers ↔
      workers * index + worker < high - low := by
    intro index
    rw [Nat.lt_iff_add_one_le, Nat.le_div_iff_mul_le (by omega), Nat.add_mul, Nat.mul_comm index]
    omega
  obtain ⟨number⟩ := frame
  simp only [share, List.mem_map, Frame.mk.injEq, exists_eq_right, List.mem_range', hCount]
  constructor
  · rintro ⟨index, hIndex, rfl⟩
    have hDistance : low + worker + workers * index - low = worker + workers * index := by omega
    refine ⟨by omega, by omega, ?_⟩
    rw [hDistance, Nat.add_mul_mod_self_left, Nat.mod_eq_of_lt hWorker]
  · rintro ⟨hLow, hHigh, hNumber⟩
    have hDistance := Nat.div_add_mod (number - low) workers
    exact ⟨(number - low) / workers, by omega, by omega⟩

namespace Queue

/-- The queue after unpinning several frames in order. -/
def unpinAll (queue : Queue) (frames : List Frame) : Queue :=
  frames.foldl (fun current frame => (current.unpin frame).1) queue

/-- A reply together with the number of frames that a queue holds. -/
def report (queue : Queue) (reply : Reply) (notices : List Notice) : Report × Queue :=
  (⟨reply, queue.size, notices⟩, queue)

/-- Performs one operation. -/
def perform (queue : Queue) : Operation → Report × Queue
  | .unpin frame =>
    let (after, notices) := queue.unpin frame
    after.report .done notices
  | .pin frame => (queue.pin frame).report .done []
  | .victim =>
    let (frame, after, notices) := queue.victim
    after.report (.victim frame) notices
  | .capacity => queue.report (.capacity queue.capacity) []
  | .drain =>
    let (frames, after, notices) := queue.drain
    after.report (.victims frames) notices
  | .unpinTogether low high workers =>
    let shares := (List.range workers).map (share low high workers)
    (queue.unpinAll (Schedule.takingTurns shares)).report .done []
  | .evictTogether workers =>
    let (frames, after, _) := queue.evict (attempts workers queue.size)
    after.report (.victims (frames.mergeSort fun a b => a.number ≤ b.number)) []

/-- Performs operations in order. Gives what is seen of each, and the queue that
is left. -/
def run (queue : Queue) (operations : List Operation) : List Report × Queue :=
  trace perform queue operations

@[simp] theorem run_nil (queue : Queue) : queue.run [] = ([], queue) := rfl

@[simp] theorem run_cons (queue : Queue) (operation : Operation) (rest : List Operation) :
    queue.run (operation :: rest) =
      ((queue.perform operation).1 :: ((queue.perform operation).2.run rest).1,
        ((queue.perform operation).2.run rest).2) :=
  trace_cons perform queue operation rest

end Queue

end Paging.Eviction
