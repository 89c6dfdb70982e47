import DosText.Bytes

/-! The faults that a command or an input or output call can end in, with their numbers and
messages. -/

namespace DosText

/-- Why a command or a call was abandoned. -/
inductive Fault where
  | languageNotAvailable
  | rangeError
  | writeProtected
  | endOfData
  | fileNotFound
  | volumeMismatch
  | ioError
  | diskFull
  | fileLocked
  | invalidOption
  | noBuffersAvailable
  | fileTypeMismatch
  | programTooLarge
  | notDirectCommand
  deriving DecidableEq, Repr

namespace Fault

/-- Every fault, in the order of the numbers. -/
def all : List Fault :=
  [languageNotAvailable, rangeError, writeProtected, endOfData, fileNotFound, volumeMismatch,
    ioError, diskFull, fileLocked, invalidOption, noBuffersAvailable, fileTypeMismatch,
    programTooLarge, notDirectCommand]

/-- The number by which a program learns of a fault. -/
def number : Fault → Nat
  | languageNotAvailable => 1
  | rangeError => 2
  | writeProtected => 4
  | endOfData => 5
  | fileNotFound => 6
  | volumeMismatch => 7
  | ioError => 8
  | diskFull => 9
  | fileLocked => 10
  | invalidOption => 11
  | noBuffersAvailable => 12
  | fileTypeMismatch => 13
  | programTooLarge => 14
  | notDirectCommand => 15

/-- The text shown for a fault. -/
def message : Fault → Bytes
  | languageNotAvailable => ascii "Language not available"
  | rangeError => ascii "Range error"
  | writeProtected => ascii "Write protected"
  | endOfData => ascii "End of data"
  | fileNotFound => ascii "File not found"
  | volumeMismatch => ascii "Volume mismatch"
  | ioError => ascii "I/O error"
  | diskFull => ascii "Disk full"
  | fileLocked => ascii "File locked"
  | invalidOption => ascii "Invalid option"
  | noBuffersAvailable => ascii "No buffers available"
  | fileTypeMismatch => ascii "File type mismatch"
  | programTooLarge => ascii "Program too large"
  | notDirectCommand => ascii "Not direct command"

/-- The fault that has a number; not every number has one. -/
def ofNumber? (number : Nat) : Option Fault := all.find? (·.number == number)

/-- The text shown for a fault number, known or not. -/
def messageOfNumber (number : Nat) : Bytes :=
  match ofNumber? number with
  | some fault => fault.message
  | none => ascii "Unknown error"

theorem ofNumber?_number (fault : Fault) : ofNumber? fault.number = some fault := by
  cases fault <;> rfl

end Fault

/-- Outcomes can be compared if errors and values can. -/
instance decidableEqOutcome {Error Value : Type} [DecidableEq Error] [DecidableEq Value] :
    DecidableEq (Except Error Value)
  | .ok left, .ok right =>
    if same : left = right then isTrue (congrArg _ same)
    else isFalse fun equal => same (Except.ok.inj equal)
  | .error left, .error right =>
    if same : left = right then isTrue (congrArg _ same)
    else isFalse fun equal => same (Except.error.inj equal)
  | .ok _, .error _ => isFalse fun equal => nomatch equal
  | .error _, .ok _ => isFalse fun equal => nomatch equal

end DosText
