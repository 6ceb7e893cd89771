/-! The ways in which a volume refuses, as causes. The wording is in
`Fault.message` alone. -/
namespace Paging

/-- Why an operation on the volume was refused. -/
inductive Fault
  | noEntry
  | exists
  | notDirectory
  | isDirectory
  | invalidArgument
  | notEmpty
  | tooLarge
  | nameTooLong
  /-- The path holds a character that no path can hold. The volume was never asked. -/
  | nulInPath
  /-- A refusal with words of its own, which the volume itself never gives. -/
  | other (words : String)
  deriving DecidableEq

namespace Fault

/-- The number of the operating system for a fault, when it has one. -/
def number : Fault → Option Nat
  | noEntry => some 2
  | .exists => some 17
  | notDirectory => some 20
  | isDirectory => some 21
  | invalidArgument => some 22
  | notEmpty => some 39
  | tooLarge => some 27
  | nameTooLong => some 36
  | nulInPath => none
  | other _ => none

/-- What the fault is, without its number. -/
def words : Fault → String
  | noEntry => "No such file or directory"
  | .exists => "File exists"
  | notDirectory => "Not a directory"
  | isDirectory => "Is a directory"
  | invalidArgument => "Invalid argument"
  | notEmpty => "Directory not empty"
  | tooLarge => "File too large"
  | nameTooLong => "File name too long"
  | nulInPath => "file name contained an unexpected NUL byte"
  | other words => words

/-- The words of a fault, followed by its number when it has one. -/
def message (fault : Fault) : String :=
  match fault.number with
  | some number => s!"{fault.words} (os error {number})"
  | none => fault.words

end Fault

end Paging
