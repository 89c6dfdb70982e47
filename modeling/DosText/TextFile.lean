import DosText.Machine

/-! The operations on text files: opening and closing them, moving their pointers, redirecting
input and output to them, and the characters read and written there. A file that is opened
comes from the store, or from the source and is then stored at once; a file that is closed
goes back to the store. -/

namespace DosText.TextFile

variable {Devices : Type}

/-- Offsets in a file are words of 64 bits, so they lie below this. -/
def offsetLimit : Nat := 0x10000000000000000

/-- The offset that lies a number of strides behind a base. Words wrap at the limit, so a division
tells beforehand whether the product is an offset, and a subtraction whether the sum is. -/
def offset (base count stride : Nat) : Action Devices Nat :=
  let largest := offsetLimit - 1
  let distance := count * stride % offsetLimit
  if stride ≠ 0 ∧ largest / stride < count then throw .invalidOption
  else if largest < base ∨ largest - base < distance then throw .invalidOption
  else pure ((base + distance) % offsetLimit)

/-- The open file of a name. -/
def find? (name : Name) : Action Devices (Option Buffer) :=
  return (← get).session.buffers.find? name

/-- The stored content of a name, or its first content, which is stored then. -/
def load (peripherals : Peripherals Devices) (name : Name) : Action Devices (Option Bytes) := do
  let complaint := [Log.error .buffers [.text (ascii "Store failure while loading "), .text name]]
  match ← Machine.demand (peripherals.store.get name) complaint with
  | some content => return some content
  | none =>
    match ← Machine.demand (peripherals.source.fetch name) complaint with
    | some content =>
      Machine.demand (peripherals.store.set name content) complaint
      return some content
    | none => return none

/-- Stores the content of an open file. A file that never had any is not stored. -/
def flush (peripherals : Peripherals Devices) (buffer : Buffer) : Action Devices Unit := do
  match buffer.content with
  | some content =>
    Machine.demand (peripherals.store.set buffer.name content.toBytes)
      [Log.error .buffers [.text (ascii "Store failure while writing "), .text buffer.name]]
  | none => return ()

/-- Stores the contents of open files in turn. -/
def flushAll (peripherals : Peripherals Devices) : List Buffer → Action Devices Unit
  | [] => return ()
  | buffer :: rest => do
    flush peripherals buffer
    flushAll peripherals rest

/-- The content of a name as the system sees it: that of the open file, else the stored one. -/
def contentOf (peripherals : Peripherals Devices) (name : Name) :
    Action Devices (Option Bytes) := do
  match ← find? name with
  | some buffer => return buffer.content.map PackedBytes.toBytes
  | none => load peripherals name

/-- Opens a file with some content, after closing the open file of that name. -/
def install (peripherals : Peripherals Devices) (name : Name) (recordLength : Nat)
    (content : Option Bytes) : Action Devices Buffer := do
  match ← find? name with
  | some existing =>
    flush peripherals existing
    Machine.update (·.discard name)
  | none => pure ()
  let buffer := Buffer.opened name recordLength content
  Machine.update (·.keep buffer)
  Machine.note [Log.info .buffers [.text (ascii "Opened "), .text name,
    .text (ascii "; record length "), .number buffer.recordLength, .text (ascii ", "),
    .text (if content.isSome then ascii "existing file" else ascii "new file")]]
  return buffer

/-- Opens a file, its pointer at the beginning. -/
def openFile (peripherals : Peripherals Devices) (name : Name) (recordLength : Nat) :
    Action Devices Unit := do
  let content ← contentOf peripherals name
  let _ ← install peripherals name recordLength content

/-- Opens a file that exists, its pointer at the end. -/
def appendFile (peripherals : Peripherals Devices) (name : Name) (recordLength : Nat) :
    Action Devices Unit := do
  match ← contentOf peripherals name with
  | none => throw .fileNotFound
  | some content =>
    let buffer ← install peripherals name recordLength (some content)
    Machine.update (·.keep { buffer with
      filePointer := content.length
      recordNumber := content.length / buffer.recordLength })

/-- Closes a file: its content is stored and the file discarded. A file that is not open is
left alone. -/
def close (peripherals : Peripherals Devices) (name : Name) : Action Devices Unit := do
  match ← find? name with
  | none => return ()
  | some buffer =>
    flush peripherals buffer
    Machine.update (·.discard name)
    Machine.note [Log.info .buffers [.text (ascii "Closed "), .text name]]

/-- Closes every file. All are stored before any is discarded, so that after a failure every
file is still open. -/
def closeAll (peripherals : Peripherals Devices) : Action Devices Unit := do
  let machine ← get
  let buffers := machine.session.buffers
  flushAll peripherals (peripherals.platform.visited machine.devices buffers)
  Machine.note [Log.info .buffers [.text (ascii "Closed all "), .number buffers.size,
    .text (ascii " buffers")]]
  Machine.update fun session => session.clear.deactivate

/-- The open file of a name; a file that is not open is opened for sequential access. -/
def openedOrLoaded (peripherals : Peripherals Devices) (name : Name) :
    Action Devices Buffer := do
  match ← find? name with
  | some buffer => return buffer
  | none => install peripherals name 0 (← load peripherals name)

/-- Moves the pointer of a file on by a number of records. -/
def position (peripherals : Peripherals Devices) (name : Name) (records : Nat) :
    Action Devices Unit := do
  let buffer ← openedOrLoaded peripherals name
  let filePointer ← offset buffer.filePointer records buffer.recordLength
  let recordNumber ← offset buffer.recordNumber records 1
  Machine.update (·.keep { buffer with filePointer, recordNumber })

/-- The open file of a name, which must have content; a file that is not open is opened if it
exists. -/
def openedForReading (peripherals : Peripherals Devices) (name : Name) :
    Action Devices Buffer := do
  match ← find? name with
  | some buffer => if buffer.content.isSome then return buffer else throw .fileNotFound
  | none =>
    match ← load peripherals name with
    | none => throw .fileNotFound
    | some content => install peripherals name 0 (some content)

/-- Redirects input to a file, from a byte behind the beginning of a record. -/
def read (peripherals : Peripherals Devices) (name : Name) (record byte : Nat) :
    Action Devices Unit := do
  let buffer ← openedForReading peripherals name
  let filePointer ← offset byte record buffer.recordLength
  Machine.update fun session =>
    (session.keep { buffer with filePointer, recordNumber := record }).activate .read name

/-- Gives an open file that has no content yet the empty content, which is stored. -/
def create (peripherals : Peripherals Devices) (buffer : Buffer) :
    Action Devices PackedBytes := do
  match buffer.content with
  | some content => return content
  | none =>
    Machine.demand (peripherals.store.set buffer.name []) []
    Machine.note [Log.info .buffers [.text (ascii "Created "), .text buffer.name]]
    return .empty

/-- Redirects output to an open file. Where records have a length, output starts at a byte
behind the beginning of a record; otherwise it starts at a byte behind the pointer. -/
def write (peripherals : Peripherals Devices) (name : Name) (record byte : Nat) :
    Action Devices Unit := do
  match ← find? name with
  | none => throw .fileNotFound
  | some buffer =>
    let filePointer ←
      if buffer.recordLength > 1 then offset byte record buffer.recordLength
      else offset buffer.filePointer byte 1
    let content ← create peripherals buffer
    let positioned := { buffer with
      content := some content
      filePointer
      recordNumber := record }
    Machine.update fun session => (session.keep positioned).activate .write name

/-- Deletes a stored file. An open file of that name stays open. -/
def delete (peripherals : Peripherals Devices) (name : Name) : Action Devices Unit := do
  match ← Machine.demand (peripherals.store.get name) [] with
  | none => throw .fileNotFound
  | some _ =>
    Machine.demand (peripherals.store.remove name) []
    Machine.note [Log.info .buffers [.text (ascii "Deleted "), .text name]]

/-- Renames a stored file. Open files keep their names. -/
def rename (peripherals : Peripherals Devices) (source target : Name) : Action Devices Unit := do
  match ← Machine.demand (peripherals.store.get source) [] with
  | none => throw .fileNotFound
  | some content =>
    if source = target then return ()
    else
      Machine.demand (peripherals.store.set target content) []
      Machine.demand (peripherals.store.remove source) []
      Machine.note [Log.info .buffers [.text (ascii "Renamed "), .text source,
        .text (ascii " to "), .text target]]

/-- Reads the next character of an open file. -/
def readCharacter (name : Name) : Action Devices UInt8 := do
  match (← find? name).bind Buffer.readByte with
  | none => throw .endOfData
  | some (byte, buffer) =>
    Machine.update (·.keep buffer)
    return byte

/-- Reads a number of characters of an open file, and hands over those read before a fault, if
there is one. -/
def readCharacters (name : Name) :
    Nat → Attempt Fault (Machine Devices) (Bytes × Option Fault)
  | 0 => return ([], none)
  | count + 1 =>
    tryCatch (do
      let byte ← readCharacter name
      let (bytes, fault?) ← readCharacters name count
      return (byte :: bytes, fault?)) fun fault => return ([], some fault)

/-- Reads the next line of an open file. -/
def readLine (name : Name) : Action Devices Bytes := do
  match (← find? name).bind Buffer.readLine with
  | none => throw .endOfData
  | some (line, buffer) =>
    Machine.update (·.keep buffer)
    return line

/-- Writes a character into an open file, which is not filled up to the limit or beyond. -/
def writeCharacter (name : Name) (limit : Nat) (byte : UInt8) : Action Devices Unit := do
  match ← find? name with
  | none => throw .ioError
  | some buffer =>
    match buffer.writeByte limit byte with
    | some written => Machine.update (·.keep written)
    | none =>
      Machine.note [Log.error .buffers [.text (ascii "Can't extend "), .text name,
        .text (ascii " to "), .number buffer.filePointer, .text (ascii " bytes")]]
      throw .ioError

/-- Writes characters into an open file in turn; a fault abandons the rest. -/
def writeCharacters (name : Name) (text : Bytes)
    (limit : Nat := (Platform.standard : Platform Devices).fillLimit) : Action Devices Unit :=
  match text with
  | [] => return ()
  | byte :: rest => do
    writeCharacter name limit byte
    writeCharacters name rest limit

/-- The active file, for input or output in a mode. That there is one is taken for granted. -/
def active (peripherals : Peripherals Devices) (mode : Mode) : Action Devices Name := do
  match (← get).session.relied? mode with
  | some name => return name
  | none => throw peripherals.platform.unmet

/-- Reads the next character of the active file. -/
def readActiveCharacter (peripherals : Peripherals Devices) : Action Devices UInt8 := do
  readCharacter (← active peripherals .read)

/-- Reads the next line of the active file. -/
def readActiveLine (peripherals : Peripherals Devices) : Action Devices Bytes := do
  readLine (← active peripherals .read)

/-- Writes a character into the active file. -/
def writeActiveCharacter (peripherals : Peripherals Devices) (byte : UInt8) :
    Action Devices Unit := do
  writeCharacter (← active peripherals .write) peripherals.platform.fillLimit byte

/-- What is tried beforehand is exact: nothing wraps, and only an offset beyond the limit is
refused. -/
theorem offset_eq (base count stride : Nat) :
    (offset base count stride : Action Devices Nat) =
      if base + count * stride < offsetLimit then pure (base + count * stride)
      else throw .invalidOption := by
  have positive : 0 < offsetLimit := by decide
  unfold offset
  by_cases long : stride ≠ 0 ∧ (offsetLimit - 1) / stride < count
  · have product := (Nat.div_lt_iff_lt_mul (Nat.pos_of_ne_zero long.1)).mp long.2
    rw [if_pos long, if_neg (by omega)]
  · have product : count * stride < offsetLimit := by
      by_cases still : stride = 0
      · rw [still, Nat.mul_zero]
        exact positive
      · have short : ¬(offsetLimit - 1) / stride < count := fun far => long ⟨still, far⟩
        rw [Nat.div_lt_iff_lt_mul (Nat.pos_of_ne_zero still)] at short
        omega
    rw [if_neg long, Nat.mod_eq_of_lt product]
    by_cases within : base + count * stride < offsetLimit
    · rw [if_neg (by omega), if_pos within, Nat.mod_eq_of_lt within]
    · rw [if_pos (by omega), if_neg within]

end DosText.TextFile
