import DosText.Command.Execution

/-! The terminal that a program sees. Printed text passes through unless it is a command,
which Ctrl-D begins and a carriage return ends, or is redirected to a file. Input comes from
the console unless it is redirected; then it is queued, and delivered when the queue is next
performed. -/

namespace DosText

/-- What a program asked for: a character or a line. -/
inductive Item where
  | character (byte : UInt8)
  | line (text : Bytes)
  deriving DecidableEq, Repr

/-- An item on its way to the receiver that asked for it. -/
structure Delivery (Receiver : Type) where
  receiver : Receiver
  item : Item

/-- A running system: its machine, the deliveries that wait, and the mask that a reset
restores. -/
structure Dos (Devices Receiver : Type) where
  machine : Machine Devices
  /-- The deliveries that wait, the latest first. -/
  enqueued : List (Delivery Receiver)
  monitor : Monitor

/-- What happens at the terminal; it may end in a fault. -/
abbrev Call (Devices Receiver : Type) := Attempt Fault (Dos Devices Receiver)

namespace Dos

variable {Devices Receiver Value Error : Type}

/-- The system as it starts. -/
def initial (monitor : Monitor) (devices : Devices) : Dos Devices Receiver :=
  ⟨.initial monitor devices, [], monitor⟩

/-- The deliveries that wait, in the order in which they were enqueued. -/
def deliveries (dos : Dos Devices Receiver) : List (Delivery Receiver) := dos.enqueued.reverse

/-- Does something on the machine; the deliveries stay as they are. -/
def within (action : Attempt Error (Machine Devices) Value) :
    Attempt Error (Dos Devices Receiver) Value := fun dos =>
  let done := action dos.machine
  (done.1, { dos with machine := done.2 })

/-- Puts a delivery behind those that wait. -/
def enqueue (delivery : Delivery Receiver) : Attempt Error (Dos Devices Receiver) Unit :=
  modify fun dos => { dos with enqueued := delivery :: dos.enqueued }

/-- Prints a character outside commands: into the active file if output is redirected, and on
the console otherwise. Redirected output is echoed if it is traced. -/
def printPlain (peripherals : Peripherals Devices) (byte : UInt8) : Action Devices Unit := do
  let session := (← get).session
  if session.mode = .write then
    if session.monitor.traces .output then Machine.echo [byte]
    TextFile.writeActiveCharacter peripherals byte
  else Machine.echo [byte]

/-- Prints a character. Ctrl-D begins a command and a carriage return ends it. A command has ended
before it is executed, so that a command that fails leaves none behind. -/
def printByte (peripherals : Peripherals Devices) (byte : UInt8) : Action Devices Unit := do
  let session := (← get).session
  if session.commandMode then
    if byte = carriageReturn then
      Machine.update fun session => { session with commandMode := false, command := [] }
      Command.execute peripherals session.command.reverse
    else Machine.update fun session => { session with command := byte :: session.command }
  else if byte = controlD then
    Machine.update fun session => { session with commandMode := true, command := [] }
  else printPlain peripherals byte

/-- Prints the characters of a text; a fault abandons the rest. -/
def printBytes (peripherals : Peripherals Devices) : Bytes → Action Devices Unit
  | [] => return ()
  | byte :: rest => do
    printByte peripherals byte
    printBytes peripherals rest

/-- Prints the characters of a text. -/
def print (peripherals : Peripherals Devices) (text : Bytes) : Call Devices Receiver Unit :=
  within (printBytes peripherals text)

/-- An item typed at the console goes to its receiver at once, or waits if the console says so. -/
def deliver (peripherals : Peripherals Devices) (delivery : Delivery Receiver) :
    Call Devices Receiver (Option (Delivery Receiver)) := do
  if peripherals.console.deferred then
    enqueue delivery
    return none
  else return some delivery

/-- The next character typed at the console. -/
def typedCharacter (console : Console Devices) : Action Devices UInt8 := fun machine =>
  let typed := console.character machine.devices
  (.ok typed.1, { machine with devices := typed.2 })

/-- The next line typed at the console, which shows the prompt first. -/
def typedLine (console : Console Devices) (prompt : Bytes) : Action Devices Bytes := fun machine =>
  let typed := console.line prompt machine.devices
  (.ok typed.1, { machine with devices := typed.2, shown := machine.shown.append prompt })

/-- Asks for a character. Redirected input is taken from the active file at once, echoed if it is
traced, and waits to be delivered. The delivery that is due at once, if any, is returned. -/
def readCharacter (peripherals : Peripherals Devices) (receiver : Receiver) :
    Call Devices Receiver (Option (Delivery Receiver)) := do
  let session := (← get).machine.session
  if session.mode = .read then
    let byte ← within (TextFile.readActiveCharacter peripherals)
    if session.monitor.traces .input then within (Machine.echo [byte])
    enqueue ⟨receiver, .character byte⟩
    return none
  else
    let byte ← within (typedCharacter peripherals.console)
    deliver peripherals ⟨receiver, .character byte⟩

/-- Asks for a line. Redirected input that is traced is echoed like typed input, behind the
prompt. The delivery that is due at once, if any, is returned. -/
def readLine (peripherals : Peripherals Devices) (prompt : Bytes) (receiver : Receiver) :
    Call Devices Receiver (Option (Delivery Receiver)) := do
  let session := (← get).machine.session
  if session.mode = .read then
    let line ← within (TextFile.readActiveLine peripherals)
    if session.monitor.traces .input then
      within (Machine.echo (prompt ++ line ++ [carriageReturn]))
    enqueue ⟨receiver, .line line⟩
    return none
  else
    let line ← within (typedLine peripherals.console prompt)
    deliver peripherals ⟨receiver, .line line⟩

/-- Switches the firmware of the console. -/
def switchFirmware (peripherals : Peripherals Devices) (active : Bool) :
    Call Devices Receiver Unit :=
  within (Machine.switchFirmware peripherals.console active)

/-- Discards all open files without storing them and begins anew. Deliveries that wait still
wait. -/
def reset : Call Devices Receiver Unit := do
  let dos ← get
  within (Machine.note [Log.info .buffers [.text (ascii "Reset; discarding "),
    .number dos.machine.session.buffers.size, .text (ascii " buffers")]])
  within (Machine.update fun session => { session.reset with monitor := dos.monitor })

end Dos

end DosText
