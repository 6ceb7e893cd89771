import Paging.Pager.Operation
import Paging.Schedule

/-! Several pagers at work on one volume, with their operations in one order,
and with others changing the volume in between. -/
namespace Paging

/-- The pagers in use, by number, and the volume that they share. -/
structure Session where
  pagers : Std.ExtTreeMap Nat Pager
  volume : Volume

/-- What can be asked of a session. -/
inductive Instruction
  /-- Puts a new pager in the place of the one with this number. -/
  | build (pager : Nat) (config : Config)
  | drop (pager : Nat)
  | perform (pager : Nat) (operation : Operation)
  /-- Workers that each allocate a number of pages. -/
  | allocateTogether (pager : Nat) (fd : Descriptor) (workers each : Nat)
  /-- Workers that each append the same bytes a number of times. -/
  | appendTogether (pager : Nat) (data : Array UInt8) (workers each : Nat)
  /-- Workers that each ask for the descriptor of the same path. -/
  | ensureOpenTogether (pager : Nat) (path : Path) (workers : Nat)
  /-- Someone else makes a file hold these bytes. -/
  | replaceOutside (path : Path) (bytes : Array UInt8)
  /-- Someone else reads a whole file of at most `most` bytes. -/
  | readOutside (path : Path) (most : Nat)
  deriving DecidableEq

/-- What a session answers. -/
inductive Answer
  | built
  | refused (fault : ConfigFault)
  | dropped (existed : Bool)
  /-- There is no pager with the number asked for. -/
  | noPager
  /-- The result of an operation, and the caller's buffer if it reads into one. -/
  | performed (result : Except Error Reply) (buffer : Option (Array UInt8))
  /-- The pages that all workers got, in order of their numbers, and how often none was got. -/
  | allocated (pages : List PageNo) (failures : Nat)
  /-- How many appends succeeded. -/
  | appended (count : Nat)
  /-- The different results that workers got, `none` for a failure. -/
  | ensured (results : List (Option Descriptor))
  | replaced (succeeded : Bool)
  | content (bytes : Option (Array UInt8))

/-- An answer together with what the pager recorded for the caller. Workers
record elsewhere. -/
structure Turn where
  answer : Answer
  events : List Event := []

namespace Session

/-- No pagers, and nothing on the volume. -/
def empty : Session := ⟨∅, .empty⟩

/-- The pages among some results. -/
def pagesOf (results : List (Except Error Reply)) : List PageNo :=
  results.filterMap fun
    | .ok (.page page) => some page
    | _ => none

/-- How many of some results are failures. -/
def failuresOf (results : List (Except Error Reply)) : Nat :=
  results.countP fun
    | .error _ => true
    | .ok _ => false

/-- The descriptors among some results, with `none` in the place of everything else. -/
def descriptorsOf (results : List (Except Error Reply)) : List (Option Descriptor) :=
  results.map fun
    | .ok (.descriptor fd) => some fd
    | _ => none

/-- Lets several workers perform their operations with one pager, taking turns. -/
def together (session : Session) (number : Nat) (workers : List (List Operation))
    (answer : List (Except Error Reply) → Answer) : Turn × Session :=
  match session.pagers[number]? with
  | none => ({ answer := .noPager }, session)
  | some pager =>
    let (reports, left, volume) := pager.run session.volume (Schedule.takingTurns workers)
    ({ answer := answer (reports.map Report.result) },
      ⟨session.pagers.insert number left, volume⟩)

/-- Follows one instruction. -/
def step (session : Session) : Instruction → Turn × Session
  | .build number config =>
    match Pager.create config with
    | .error fault => ({ answer := .refused fault }, session)
    | .ok pager =>
      ({ answer := .built }, { session with pagers := session.pagers.insert number pager })
  | .drop number =>
    ({ answer := .dropped (session.pagers.contains number) },
      { session with pagers := session.pagers.erase number })
  | .perform number operation =>
    match session.pagers[number]? with
    | none => ({ answer := .noPager }, session)
    | some pager =>
      let outcome := pager.perform session.volume operation
      ({ answer := .performed outcome.result outcome.buffer, events := outcome.events },
        ⟨session.pagers.insert number outcome.pager, outcome.volume⟩)
  | .allocateTogether number fd workers each =>
    session.together number (Schedule.alike workers (List.replicate each (.allocatePage fd)))
      fun results =>
        .allocated ((pagesOf results).mergeSort fun a b => a.number ≤ b.number)
          (failuresOf results)
  | .appendTogether number data workers each =>
    session.together number
      (Schedule.alike workers (List.replicate each (.appendLog data data.size)))
      fun results => .appended (results.length - failuresOf results)
  | .ensureOpenTogether number path workers =>
    session.together number (Schedule.alike workers [.ensureOpen path])
      fun results => .ensured (descriptorsOf results).eraseDups
  | .replaceOutside path bytes =>
    match session.volume.replaceFile path bytes with
    | .ok volume => ({ answer := .replaced true }, { session with volume })
    | .error _ => ({ answer := .replaced false }, session)
  | .readOutside path most =>
    ({ answer := .content (session.volume.contentOf? path most) }, session)

/-- Follows instructions in order. Gives every turn and the session that is
left. -/
def run (session : Session) (instructions : List Instruction) : List Turn × Session :=
  trace step session instructions

@[simp] theorem run_nil (session : Session) : session.run [] = ([], session) := rfl

@[simp] theorem run_cons (session : Session) (instruction : Instruction)
    (rest : List Instruction) :
    session.run (instruction :: rest) =
      ((session.step instruction).1 :: ((session.step instruction).2.run rest).1,
        ((session.step instruction).2.run rest).2) :=
  trace_cons step session instruction rest

end Session

/-- What is known about one descriptor of a pager. -/
structure Slot where
  fd : Descriptor
  /-- The path of the file that is open under the descriptor. -/
  path : Option Path
  next : PageNo
  deriving DecidableEq

/-- The first `most` slots of a pager, in order, without those that have no open
file and stand at their start. -/
def Pager.slots (pager : Pager) (most : Nat) : List Slot :=
  (List.range (min pager.counters.slots most)).filterMap fun index =>
    let fd : Descriptor := ⟨UInt32.ofNat index⟩
    let slot : Slot := ⟨fd, (pager.table.file? fd).map OpenFile.path, pager.counters.count fd⟩
    if slot.path.isSome ∨ slot.next ≠ .first then some slot else none

end Paging
