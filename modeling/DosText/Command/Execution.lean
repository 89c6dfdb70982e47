import DosText.Argument
import DosText.Command.Reader
import DosText.TextFile

/-! Executes command lines. -/

namespace DosText

/-- The letters that choose what is traced. -/
def Trace.letters : List Letter := [.input, .commands, .output]

/-- What a tail of arguments chooses to trace. -/
def Arguments.traces (arguments : Arguments) : List Trace :=
  (if arguments.isPresent .input then [.input] else []) ++
    (if arguments.isPresent .commands then [.commands] else []) ++
    (if arguments.isPresent .output then [.output] else [])

/-- The integer that a text is the decimal spelling of: digits, behind a minus sign perhaps. -/
def integer? (text : Bytes) : Option Int :=
  let digits := if text.head? = some (code '-') then text.tail else text
  if digits ≠ [] ∧ digits.all (isDigit 10) then
    let magnitude : Int := digitsValue 10 digits
    some (if text.head? = some (code '-') then -magnitude else magnitude)
  else none

/-- A text without the blanks at its end. -/
def trimBlanks (text : Bytes) : Bytes := (text.reverse.dropWhile isBlank).reverse

namespace Command

variable {Devices : Type}

/-- Reads the arguments of a command. -/
def arguments (tail : Bytes) (allowed : List Letter) : Action Devices Arguments :=
  .ofExcept (Arguments.read tail allowed)

/-- Slot 3 holds the 80-column firmware and slot 0 the built-in screen; there is nothing in
any other slot. -/
def selectSlot (peripherals : Peripherals Devices) (text : Bytes) : Action Devices Unit :=
  match integer? (trimBlanks text) with
  | some 0 => Machine.switchFirmware peripherals.console false
  | some 3 => Machine.switchFirmware peripherals.console true
  | _ => throw .rangeError

/-- Performs a command that has one name. -/
def performNamed (peripherals : Peripherals Devices) (verb : Verb) (name : Name) (tail : Bytes) :
    Action Devices Unit := do
  match verb with
  | .openFile =>
    TextFile.openFile peripherals name ((← arguments tail [.length]).value .length)
  | .appendFile =>
    TextFile.appendFile peripherals name ((← arguments tail [.length]).value .length)
  | .position =>
    TextFile.position peripherals name ((← arguments tail [.record]).value .record)
  | .read =>
    let given ← arguments tail [.record, .byte]
    TextFile.read peripherals name (given.value .record) (given.value .byte)
  | .write =>
    let given ← arguments tail [.record, .byte]
    TextFile.write peripherals name (given.value .record) (given.value .byte)
  | .delete =>
    let _ ← arguments tail []
    TextFile.delete peripherals name
  | .slot =>
    let _ ← arguments tail []
    selectSlot peripherals name

/-- Performs a command. -/
def perform (peripherals : Peripherals Devices) : Command → Action Devices Unit
  | .empty => Machine.update Session.deactivate
  | .monitor tail => do
    let given ← arguments tail Trace.letters
    Machine.update fun session =>
      { session with monitor := given.traces.foldl Monitor.enable session.monitor }
  | .noMonitor tail => do
    let given ← arguments tail Trace.letters
    Machine.update fun session =>
      { session with monitor := given.traces.foldl Monitor.disable session.monitor }
  | .named verb name tail => performNamed peripherals verb name tail
  | .close name tail => do
    let _ ← arguments tail []
    if name = [] then TextFile.closeAll peripherals else TextFile.close peripherals name
  | .rename source target tail => do
    let _ ← arguments tail []
    TextFile.rename peripherals source target

/-- Reads and performs a command line. -/
def obey (peripherals : Peripherals Devices) (line : Bytes) : Action Devices Unit := do
  let command ← Attempt.ofExcept (read line)
  perform peripherals command

/-- Executes a command line. It is echoed first if commands are traced, and what comes of it
is logged. -/
def execute (peripherals : Peripherals Devices) (line : Bytes) : Action Devices Unit := do
  if (← get).session.monitor.traces .commands then
    Machine.echo (line ++ [carriageReturn])
  tryCatch (obey peripherals line) fun fault => do
    Machine.note [Log.error .commands [.text line, .text (ascii " failed: "), .text fault.message,
      .text (ascii " ("), .number fault.number, .text (ascii ")")]]
    throw fault
  Machine.note [Log.info .commands [.text (ascii "Performed \""), .text line, .text (ascii "\"")]]

end Command

end DosText
