import Paging.Trace

/-! Counts of completed transfers. -/
namespace Paging

/-- Counts of completed transfers. Each count is 64 bits wide and starts over
at zero when it runs out. Transfers that fail are not counted, even when they
moved some bytes. -/
structure Statistics where
  pagesRead : UInt64 := 0
  pagesWritten : UInt64 := 0
  pageBytesRead : UInt64 := 0
  pageBytesWritten : UInt64 := 0
  logBytesWritten : UInt64 := 0
  logBytesRead : UInt64 := 0
  deriving DecidableEq

namespace Statistics

/-- Nothing counted yet. -/
def zero : Statistics := {}

/-- One of the counts. -/
inductive Counter
  | pagesRead
  | pagesWritten
  | pageBytesRead
  | pageBytesWritten
  | logBytesWritten
  | logBytesRead
  deriving DecidableEq

/-- The value of one count. -/
def get (statistics : Statistics) : Counter → UInt64
  | .pagesRead => statistics.pagesRead
  | .pagesWritten => statistics.pagesWritten
  | .pageBytesRead => statistics.pageBytesRead
  | .pageBytesWritten => statistics.pageBytesWritten
  | .logBytesWritten => statistics.logBytesWritten
  | .logBytesRead => statistics.logBytesRead

/-- Raises one count. -/
def add (statistics : Statistics) (counter : Counter) (amount : Nat) : Statistics :=
  let amount := UInt64.ofNat amount
  match counter with
  | .pagesRead => { statistics with pagesRead := statistics.pagesRead + amount }
  | .pagesWritten => { statistics with pagesWritten := statistics.pagesWritten + amount }
  | .pageBytesRead => { statistics with pageBytesRead := statistics.pageBytesRead + amount }
  | .pageBytesWritten =>
    { statistics with pageBytesWritten := statistics.pageBytesWritten + amount }
  | .logBytesWritten => { statistics with logBytesWritten := statistics.logBytesWritten + amount }
  | .logBytesRead => { statistics with logBytesRead := statistics.logBytesRead + amount }

/-- Counts one completed page read of `count` bytes. -/
def addPageRead (statistics : Statistics) (count : Nat) : Statistics :=
  (statistics.add .pagesRead 1).add .pageBytesRead count

/-- Counts one completed page write of `count` bytes. -/
def addPageWrite (statistics : Statistics) (count : Nat) : Statistics :=
  (statistics.add .pagesWritten 1).add .pageBytesWritten count

/-- Counts one completed append of `count` bytes. -/
def addLogWrite (statistics : Statistics) (count : Nat) : Statistics :=
  statistics.add .logBytesWritten count

/-- Counts one completed log read of `count` bytes. -/
def addLogRead (statistics : Statistics) (count : Nat) : Statistics :=
  statistics.add .logBytesRead count

/-- The written form of all counts. -/
def text (statistics : Statistics) : String :=
  s!"DiskStats \x7b pages read: {statistics.pagesRead.toNat} ({statistics.pageBytesRead.toNat} B), " ++
  s!"pages written: {statistics.pagesWritten.toNat} ({statistics.pageBytesWritten.toNat} B), " ++
  s!"log: +{statistics.logBytesWritten.toNat} B / {statistics.logBytesRead.toNat} B read \x7d"

/-- Raising a count adds to that count and to no other. -/
theorem get_add (statistics : Statistics) (counter other : Counter) (amount : Nat) :
    (statistics.add counter amount).get other =
      statistics.get other + if counter = other then UInt64.ofNat amount else 0 := by
  cases counter <;> cases other <;> simp [add, get]

/-- One change to the counts. -/
inductive Change
  | add (counter : Counter) (amount : Nat)
  | reset
  deriving DecidableEq

/-- The counts after one change. -/
def apply (statistics : Statistics) : Change → Statistics
  | .add counter amount => statistics.add counter amount
  | .reset => zero

/-- The counts after each of a list of changes. -/
def trail (statistics : Statistics) (changes : List Change) : List Statistics :=
  (trace (fun current change => (current.apply change, current.apply change)) statistics changes).1

@[simp] theorem trail_nil (statistics : Statistics) : statistics.trail [] = [] := rfl

@[simp] theorem trail_cons (statistics : Statistics) (change : Change) (rest : List Change) :
    statistics.trail (change :: rest) =
      statistics.apply change :: (statistics.apply change).trail rest := by
  simp [trail]

end Statistics

end Paging
