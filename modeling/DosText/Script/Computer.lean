import DosText.Host.LineReader
import DosText.Host.OpenFile
import DosText.Script.Program

/-! A computer in memory that the script program can run on: a disk, a script file held open
while its lines are carried out, and an input that is known beforehand. -/

namespace DosText.Script

/-- A disk, the script file if there is one, and the rest of the input. -/
structure Computer where
  disk : Disk
  script : Option LineReader
  input : Bytes

namespace Computer

/-- A computer on which no script file is open. -/
def initial (disk : Disk) (input : Bytes) : Computer := ⟨disk, none, input⟩

/-- Makes a disk call on the disk of a computer. The script file is still held after it. -/
def onDisk {Value : Type} (call : Disk → Value × Disk) (computer : Computer) :
    Value × Computer :=
  let done := call computer.disk
  (done.1, { computer with
    disk := done.2
    script := computer.script.map (·.follow computer.disk done.2) })

/-- What a computer offers to the program. -/
def system : System OpenFile Computer where
  host :=
    { isPresent := fun path => onDisk (Disk.host.isPresent path)
      openFile := fun path access => onDisk (Disk.host.openFile path access)
      fileSize := fun file => onDisk (Disk.host.fileSize file)
      readFile := fun count file => onDisk (Disk.host.readFile count file)
      writeFile := fun bytes file => onDisk (Disk.host.writeFile bytes file)
      flushFile := fun file => onDisk (Disk.host.flushFile file)
      closeFile := fun file computer =>
        (onDisk (fun disk => ((), Disk.host.closeFile file disk)) computer).2
      read := fun path => onDisk (Disk.host.read path)
      remove := fun path => onDisk (Disk.host.remove path)
      makeDirectory := fun path => onDisk (Disk.host.makeDirectory path) }
  openScript path computer :=
    let script := LineReader.openAt path computer.disk
    (script.isSome, { computer with script })
  scriptLine computer :=
    match computer.script with
    | none => (none, computer)
    | some reader =>
      let next := reader.nextLine computer.disk
      (next.1, { computer with script := some next.2 })
  byte computer :=
    match computer.input with
    | [] => (none, computer)
    | first :: rest => (some first, { computer with input := rest })
  line _ computer :=
    if computer.input = [] then (none, computer)
    else
      (some (computer.input.takeWhile (· != lineFeed)),
        { computer with input := (computer.input.dropWhile (· != lineFeed)).tail })

/-- The most lines that a program can take. Each line of the input takes a byte of it at least.
A script file may change while it is read, but lines end at line feeds, and the program writes
none: what it writes and copies leaves each line feed where it was or nearer to the beginning.
So a line that ends in one ends within the size that the disk has at the start, and the last
line may end without one. -/
def lineLimit (state : State Computer) : Nat :=
  let computer := state.dos.machine.devices.outer
  if state.fromFile then computer.disk.size + 1 else computer.input.length

/-- Runs the program from its start to its end. -/
def run (program : Bytes) (arguments : List Bytes) (computer : Computer) : Ended Computer :=
  match start system program arguments computer with
  | .error ended => ended
  | .ok state => (state.obeyAll system (lineLimit state)).finish

end Computer

end DosText.Script
