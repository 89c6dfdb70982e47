import DosText.Script.Transcript

/-! Runs the script program on the host that it is started on. -/

namespace DosText.Main

open DosText.Script

/-- A host path; one that is no UTF-8 text is taken byte by byte. -/
def pathText (path : Bytes) : String :=
  let bytes := (beforeNul path).toByteArray
  (String.fromUTF8? bytes).getD (String.ofList (path.map fun byte => Char.ofNat byte.toNat))

def bytesOfText (text : String) : Bytes := text.toUTF8.toList

/-- Whether an action succeeds. -/
def succeeds (action : IO Unit) : IO Bool := do
  try
    action
    return true
  catch _ => return false

def isPresent (path : String) : IO Bool :=
  succeeds do
    let _ ← IO.FS.realPath path

def readAll (path : String) : IO Host.Reading := do
  try
    return .content (← IO.FS.readBinFile path).toList
  catch _ =>
    try
      let resolved ← IO.FS.realPath path
      return if ← resolved.isDir then .directory else .refused
    catch _ => return .refused

def removeAt (path : String) : IO Host.Removal := do
  try
    IO.FS.removeFile path
    return .done
  catch
    | .noFileOrDirectory _ _ _ => return .absent
    | _ => return if ← succeeds (IO.FS.removeDir path) then .done else .refused

def makeDirectory (path : String) : IO Bool := do
  try
    IO.FS.createDir path
    return true
  catch
    | .alreadyExists _ _ _ => return true
    | _ => return false

def readByte : IO (Option UInt8) := do
  return (← (← IO.getStdin).read 1).toList.head?

/-- The next byte of an open file. A directory has none. -/
def readByteOf (file : IO.FS.Handle) : IO (Option UInt8) := do
  try
    return (← file.read 1).toList.head?
  catch _ => return none

/-- Reads up to the next line feed. The end of the bytes ends a line that has begun. -/
partial def readLine (next : IO (Option UInt8)) (begun : Bytes) : IO (Option Bytes) := do
  match ← next with
  | none => return if begun = [] then none else some begun.reverse
  | some byte =>
    if byte = lineFeed then return some begun.reverse else readLine next (byte :: begun)

/-- A file held open, and the size that it had when it was opened. -/
structure Held where
  handle : IO.FS.Handle
  size : Nat

/-- What the program holds open: the script file, once it is open, and the files of its store,
by their numbers. -/
structure Desk where
  script : IO.Ref (Option IO.FS.Handle)
  files : IO.Ref (Array (Option Held))

def openScript (desk : Desk) (path : String) : IO Bool :=
  succeeds do desk.script.set (some (← IO.FS.Handle.mk path .read))

def scriptLine (desk : Desk) : IO (Option Bytes) := do
  match ← desk.script.get with
  | none => return none
  | some file => readLine (readByteOf file) []

def openFile (desk : Desk) (path : String) (access : Access) : IO (Option Nat) := do
  try
    let handle ← IO.FS.Handle.mk path (match access with | .read => .read | .write => .write)
    let size := (← (← IO.FS.realPath path).metadata).byteSize.toNat
    let files ← desk.files.get
    desk.files.set (files.push (some ⟨handle, size⟩))
    return some files.size
  catch _ => return none

/-- Does something with an open file. There is nothing to do it with once the file is closed, and
it may fail. -/
def withFile {Value : Type} (desk : Desk) (number : Nat) (fallback : Value)
    (action : Held → IO Value) : IO Value := do
  match (← desk.files.get)[number]?.join with
  | none => return fallback
  | some held =>
    try
      action held
    catch _ => return fallback

/-- Lets an open file go; its handle closes it when nothing holds it any more. -/
def closeFile (desk : Desk) (number : Nat) : IO Unit :=
  desk.files.modify fun files => files.set! number none

def write (text : Bytes) : IO Unit := do
  let output ← IO.getStdout
  output.write text.toByteArray
  output.flush

def complain (text : Bytes) : IO Unit := do
  (← IO.getStderr).write text.toByteArray

/-- Finds out what the program wants to know. -/
def answer (desk : Desk) : Question → IO Answer
  | .isPresent path => return .flag (← isPresent (pathText path))
  | .openFile path access => return .file (← openFile desk (pathText path) access)
  | .fileSize file => return .number (← withFile desk file 0 fun held => return held.size)
  | .readFile count file =>
    return .bytes (← withFile desk file [] fun held =>
      return (← held.handle.read count.toUSize).toList)
  | .writeFile bytes file =>
    return .number (← withFile desk file 0 fun held => do
      held.handle.write bytes.toByteArray
      return bytes.length)
  | .flushFile file =>
    return .flag (← withFile desk file false fun held => do
      held.handle.flush
      return true)
  | .closeFile file => do
    closeFile desk file
    return .flag true
  | .read path => return .reading (← readAll (pathText path))
  | .remove path => return .removal (← removeAt (pathText path))
  | .makeDirectory path => return .flag (← makeDirectory (pathText path))
  | .openScript path => return .flag (← openScript desk (pathText path))
  | .scriptLine => return .line (← scriptLine desk)
  | .byte => return .byte (← readByte)
  | .line prompt => do
    write prompt
    return .line (← readLine readByte [])

/-- Runs a piece of the program until it has no question without an answer, and tells how much
of what it shows has been shown already. -/
partial def settle {Value : Type} (desk : Desk) (piece : Transcript → Value)
    (outer : Value → Transcript) (answers : List Answer) (prompted : Nat) :
    IO (Value × Nat) := do
  let result := piece ⟨answers, none⟩
  match (outer result).open? with
  | none => return (result, prompted)
  | some question =>
    let found ← answer desk question
    let shown := match question with
      | .line prompt => prompt.length
      | _ => 0
    settle desk piece outer (answers ++ [found]) (prompted + shown)

/-- Carries out the script line by line, and ends the program. -/
partial def loop (desk : Desk) (state : State Transcript) : IO UInt32 := do
  let ((line?, taken), _) ← settle desk
    (fun outer => (state.within outer).nextLine Transcript.system)
    (fun result => result.2.outer) [] 0
  match line? with
  | some line =>
    let (later, prompted) ← settle desk (fun outer => (taken.within outer).obey line)
      State.outer [] 0
    write (later.output.toBytes.drop prompted)
    complain later.messages.toBytes
    loop desk later.handedOver
  | none =>
    let (ended, _) ← settle desk (fun outer => (taken.within outer).finish) Ended.outer [] 0
    write ended.output
    complain ended.messages
    return ended.status.toUInt32

/-- Runs the program with arguments. -/
def run (program : Bytes) (arguments : List Bytes) : IO UInt32 := do
  let outer : Except (Ended Transcript) (State Transcript) → Transcript
    | .ok state => state.outer
    | .error ended => ended.outer
  let desk : Desk := ⟨← IO.mkRef none, ← IO.mkRef #[]⟩
  let (started, _) ← settle desk (start Transcript.system program arguments) outer [] 0
  match started with
  | .error ended =>
    write ended.output
    complain ended.messages
    return ended.status.toUInt32
  | .ok state =>
    complain state.messages.toBytes
    loop desk state.handedOver

end DosText.Main

def main (arguments : List String) : IO UInt32 := do
  let program := (← IO.appPath).fileName.getD "dostext"
  DosText.Main.run (DosText.Main.bytesOfText program) (arguments.map DosText.Main.bytesOfText)
