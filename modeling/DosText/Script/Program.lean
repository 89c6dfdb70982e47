import DosText.Agenda
import DosText.Script.Line
import DosText.Script.Options
import DosText.Storage.Folder
import DosText.Storage.SeedFolder
import DosText.Terminal

/-! A program that runs a script on a system of its own: it prints lines, asks for input and
shows what it is given. Its lines come from a file, or from the same input as what is typed. -/

namespace DosText.Script

/-- What the program runs on: a file system, a script file and an input. Bytes and lines of the
input are taken from one stream. -/
structure System (File Outer : Type) where
  host : Host File Outer
  /-- Opens the script file, and tells whether that worked. -/
  openScript : Bytes → Outer → Bool × Outer
  /-- The next line of the script file, without its line feed, if there is one. -/
  scriptLine : Outer → Option Bytes × Outer
  /-- The next byte of the input, if there is one. -/
  byte : Outer → Option UInt8 × Outer
  /-- The next line of the input, without its line feed, if there is one. Whoever types it sees
  the prompt. -/
  line : Bytes → Outer → Option Bytes × Outer

/-- The devices of the program: files kept in memory, beside what it runs on. -/
structure Devices (Outer : Type) where
  memory : Catalog Name Bytes
  outer : Outer

namespace Devices

variable {Outer : Type}

def memoryPart : Component (Devices Outer) (Catalog Name Bytes) :=
  ⟨Devices.memory, fun memory devices => { devices with memory }⟩

def outerPart : Component (Devices Outer) Outer :=
  ⟨Devices.outer, fun outer devices => { devices with outer }⟩

end Devices

variable {File Outer : Type}

/-- The terminal of the program. The end of the input and the end of a typed line both count
as a carriage return; all input is delivered later. -/
def System.console (system : System File Outer) : Console (Devices Outer) where
  character devices :=
    let (byte?, outer) := system.byte devices.outer
    let byte := match byte? with
      | none => carriageReturn
      | some byte => if byte = lineFeed then carriageReturn else byte
    (byte, { devices with outer })
  line prompt devices :=
    let (line?, outer) := system.line prompt devices.outer
    (line?.getD [], { devices with outer })
  firmware active devices :=
    let state := if active then ascii "enabled" else ascii "disabled"
    (devices, [Log.info .terminal [.text (ascii "80-column firmware "), .text state]])
  deferred := true

/-- The program while it runs. -/
structure State (Outer : Type) where
  dos : Dos (Devices Outer) Unit
  peripherals : Peripherals (Devices Outer)
  /-- Whether lines come from a script file; otherwise they come from the input. -/
  fromFile : Bool
  /-- What the program has written to its output. -/
  output : PackedBytes
  /-- What the program has written to its error output. -/
  messages : PackedBytes

/-- The program after it has ended. -/
structure Ended (Outer : Type) where
  status : Nat
  output : Bytes
  messages : Bytes
  /-- The files that are still open. What they hold is lost. -/
  buffers : Catalog Name Buffer
  /-- The devices as the program leaves them. What they keep in memory goes with the program. -/
  devices : Devices Outer

/-- What the program ran on, as the program leaves it. -/
def Ended.outer (ended : Ended Outer) : Outer := ended.devices.outer

/-- A character as the output shows it: a carriage return begins a new line. -/
def shownByte (byte : UInt8) : UInt8 := if byte = carriageReturn then lineFeed else byte

/-- What the program shows of a delivery. -/
def shownItem : Item → Bytes
  | .character byte => [shownByte byte]
  | .line text => beforeNul text ++ [lineFeed]

/-- How a fault is reported. -/
def report (fault : Fault) : Bytes :=
  [lineFeed, code '?'] ++ fault.message.map upperCase ++ ascii " (" ++ decimal fault.number ++
    [code ')', lineFeed]

namespace State

/-- Moves what the terminal has shown and the log has written to the outputs. -/
def collect (state : State Outer) : State Outer :=
  let machine := state.dos.machine
  let collected := { machine with shown := .empty, log := machine.log.drain.2 }
  { state with
    dos := { state.dos with machine := collected }
    output := state.output.append (machine.shown.toBytes.map shownByte)
    messages := state.messages.append machine.log.drain.1 }

/-- Does something at the terminal, and tells of the fault in which it ends. -/
def attempt (state : State Outer) (call : Call (Devices Outer) Unit Unit) :
    Option Fault × State Outer :=
  let done := call state.dos
  let later := ({ state with dos := done.2 } : State Outer).collect
  match done.1 with
  | .ok () => (none, later)
  | .error fault => (some fault, { later with output := later.output.append (report fault) })

/-- How deliveries are made to the program. It shows each of them, which never fails. -/
def showing : Agenda Empty (State Outer) (Delivery Unit) Item where
  queue state := state.dos.deliveries
  clear state := { state with dos := { state.dos with enqueued := [] } }
  body delivery := [delivery.item]
  order item := .act do
    modify fun state => { state with output := state.output.append (shownItem item) }
    return []
  weight _ := 2

/-- Shows deliveries until none waits. -/
def showDeliveries (state : State Outer) : State Outer := (showing.flush state).2

/-- Asks for a number of characters; a fault abandons the rest. -/
def askCharacters (peripherals : Peripherals (Devices Outer)) :
    Nat → Call (Devices Outer) Unit Unit
  | 0 => return ()
  | count + 1 => do
    let _ ← Dos.readCharacter peripherals ()
    askCharacters peripherals count

/-- What a line of the script does at the terminal. -/
def lineCall (peripherals : Peripherals (Devices Outer)) : Line → Call (Devices Outer) Unit Unit
  | .print text => Dos.print peripherals (text ++ [carriageReturn])
  | .characters count => askCharacters peripherals count
  | .input => do
    let _ ← Dos.readLine peripherals [code '?'] ()

/-- Carries out a line of the script and shows what it was given. -/
def obey (state : State Outer) (text : Bytes) : State Outer :=
  (state.attempt (lineCall state.peripherals (.read text))).2.showDeliveries

/-- Takes the next line of the script. -/
def nextLine (system : System File Outer) (state : State Outer) : Option Bytes × State Outer :=
  let machine := state.dos.machine
  let outer := machine.devices.outer
  let (line?, outer) := if state.fromFile then system.scriptLine outer else system.line [] outer
  let devices := { machine.devices with outer }
  (line?, { state with dos := { state.dos with machine := { machine with devices } } })

/-- Carries out the lines of the script, up to a number of them. -/
def obeyAll (system : System File Outer) : Nat → State Outer → State Outer
  | 0, state => state
  | limit + 1, state =>
    match state.nextLine system with
    | (none, later) => later
    | (some line, later) => obeyAll system limit (later.obey line)

/-- What is done when the script has ended: the command that closes all files is printed. -/
def closing (state : State Outer) : Option Fault × State Outer :=
  state.attempt (Dos.print state.peripherals (controlD :: ascii "CLOSE" ++ [carriageReturn]))

/-- Ends the program: all files are closed, and a fault in that fails the program. -/
def finish (state : State Outer) : Ended Outer :=
  let (fault?, last) := state.closing
  { status := if fault?.isSome then 1 else 0
    output := last.output.toBytes
    messages := last.messages.toBytes
    buffers := last.dos.machine.session.buffers
    devices := last.dos.machine.devices }

end State

/-- The store that the options select, and whether it can be had. -/
def openStore (system : System File Outer) (options : Options) (devices : Devices Outer) :
    Store (Devices Outer) × Reply (Devices Outer) Unit :=
  match options.selection? "store" with
  | some base =>
    let folder := Folder.ofBase base
    (Devices.outerPart.store (folder.store system.host),
      Devices.outerPart.apply (folder.establish system.host) devices)
  | none => (Devices.memoryPart.store Store.memory, ⟨.ok (), devices, []⟩)

/-- The source that the options select. -/
def openSource (system : System File Outer) (options : Options) : Source (Devices Outer) :=
  match options.selection? "seed" with
  | some base => Devices.outerPart.source ((SeedFolder.ofBase base).source system.host)
  | none => Source.none

/-- Opens the script file that the options name, and tells whether they name one. A file that
cannot be opened is named in the error. -/
def openScript (system : System File Outer) (options : Options) (outer : Outer) :
    Except Bytes Bool × Outer :=
  match options.files with
  | [] => (.ok false, outer)
  | file :: _ =>
    match system.openScript file outer with
    | (true, later) => (.ok true, later)
    | (false, later) => (.error file, later)

/-- Starts the program, unless it only shows how it is used or cannot go on. -/
def start (system : System File Outer) (program : Bytes) (arguments : List Bytes) (outer : Outer) :
    Except (Ended Outer) (State Outer) :=
  let options := Options.read arguments
  if (options.selection? "help").isSome || (options.selection? "h").isSome then
    .error ⟨0, usage program, [], .empty, ⟨.empty, outer⟩⟩
  else
    let (store, opened) := openStore system options ⟨.empty, outer⟩
    let log := Log.empty.recordAll opened.report
    match opened.outcome with
    | .error _ =>
      let base := (options.selection? "store").getD []
      let messages := log.drain.1 ++ ascii "Cannot use " ++ base ++ ascii " as a store\n"
      .error ⟨1, [], messages, .empty, opened.devices⟩
    | .ok () =>
      let letters := (options.selection? "monitor").getD []
      let monitor := monitorOfLetters letters
      let messages := log.drain.1 ++ complaints letters
      match openScript system options opened.devices.outer with
      | (.error file, last) =>
        let messages := messages ++ ascii "Cannot open " ++ file ++ [lineFeed]
        .error ⟨1, [], messages, .empty, { opened.devices with outer := last }⟩
      | (.ok fromFile, last) =>
        let machine := Machine.initial monitor { opened.devices with outer := last }
        .ok
          { dos := ⟨{ machine with log := log.drain.2 }, [], monitor⟩
            peripherals :=
              { store
                source := openSource system options
                console := system.console }
            fromFile
            output := .empty
            messages := .ofBytes messages }

end DosText.Script
