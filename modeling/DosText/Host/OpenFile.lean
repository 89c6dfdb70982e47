import DosText.Host.Disk

/-! Files held open on a disk, for reading or for being written anew. Written bytes wait in a block
until there is no room for more there, or the file is flushed or closed. -/

namespace DosText

/-- The block in which written bytes wait. -/
inductive Block where
  /-- Nothing was written since the file was opened or a short read ended the block. -/
  | unbegun
  /-- The block takes bytes until it is full. -/
  | filling
  /-- A long read has taken the room of the block. The bytes that come next wait all the same,
  but they are written to the disk before the bytes that follow them are taken. -/
  | withoutRoom
  deriving DecidableEq, Repr

namespace Block

/-- The number of bytes that a block holds. -/
def size : Nat := 4096

/-- The bytes that a block takes besides those that wait in it. -/
def room (block : Block) (pending : Bytes) : Nat :=
  match block with
  | .unbegun => 0
  | .filling => size - pending.length
  | .withoutRoom => 0

/-- What a block is when bytes are written. -/
def begun : Block → Block
  | .unbegun => .filling
  | .filling => .filling
  | .withoutRoom => .withoutRoom

end Block

/-- A file held open. -/
inductive OpenFile where
  /-- The bytes that are still to be read. -/
  | input (remaining : Bytes) (size : Nat)
  /-- A device that gives NULs without end. -/
  | zeros
  /-- The bytes that wait in the block to be written. -/
  | output (location : Location) (block : Block) (pending : Bytes)
  deriving DecidableEq, Repr

namespace OpenFile

/-- How large a file is said to be. -/
def size : OpenFile → Nat
  | input _ size => size
  | zeros => 0
  | output _ _ _ => 0

/-- Writes what waits to the disk, and tells whether the disk took it. Bytes that it does not take
are lost. If anything waited, the block has all its room again. -/
def flush (file : OpenFile) (disk : Disk) : (Bool × OpenFile) × Disk :=
  match file with
  | output location _ (first :: rest) =>
    let (taken, later) := disk.append location (first :: rest)
    ((taken, output location .filling []), later)
  | _ => ((true, file), disk)

/-- Reads up to a number of bytes. A file that is being written gives none; asking for less
than a block writes what waits to the disk and ends the block, and asking for more loses what
waits and the room of the block. -/
def read (file : OpenFile) (count : Nat) (disk : Disk) : (Bytes × OpenFile) × Disk :=
  match file with
  | input remaining size => ((remaining.take count, input (remaining.drop count) size), disk)
  | zeros => ((List.replicate count 0, zeros), disk)
  | output _ .unbegun _ => (([], file), disk)
  | output location _ _ =>
    if count = 0 then (([], file), disk)
    else if count < Block.size then
      match file.flush disk with
      | ((true, _), written) => (([], output location .unbegun []), written)
      | ((false, emptied), unchanged) => (([], emptied), unchanged)
    else (([], output location .withoutRoom []), disk)

/-- Writes bytes to a file for which none wait, and tells how many were taken. Whole blocks go to
the disk and the rest waits. -/
def writeBlocks (location : Location) (block : Block) (bytes : Bytes) (disk : Disk) :
    (Nat × OpenFile) × Disk :=
  let rest := bytes.length % Block.size
  let whole := bytes.length - rest
  if whole = 0 then ((bytes.length, output location block bytes), disk)
  else
    match disk.append location (bytes.take whole) with
    | (true, written) => ((bytes.length, output location .filling (bytes.drop whole)), written)
    | (false, unchanged) => ((0, output location .filling []), unchanged)

/-- Writes bytes, and tells how many were taken. Those for which the block has room wait there; the
others are taken when the block has been written to the disk. A file that is being read takes
none. -/
def write (file : OpenFile) (bytes : Bytes) (disk : Disk) : (Nat × OpenFile) × Disk :=
  match file with
  | output location block pending =>
    let room := block.room pending
    if bytes.length ≤ room then
      ((bytes.length, output location block (pending ++ bytes)), disk)
    else
      match (output location block.begun (pending ++ bytes.take room)).flush disk with
      | ((true, output _ emptied _), written) =>
        let ((taken, left), later) := writeBlocks location emptied (bytes.drop room) written
        ((room + taken, left), later)
      | ((_, left), later) => ((room, left), later)
  | _ => ((0, file), disk)

/-- Closes the file. What waits is written if the disk takes it. -/
def close (file : OpenFile) (disk : Disk) : Disk := (file.flush disk).2

end OpenFile

namespace Disk

/-- The size that a directory reports. -/
def directorySize : Nat := 4096

/-- Opens a file. One that is opened for writing is emptied, or made. -/
def openFile (disk : Disk) (text : Bytes) : Access → Option OpenFile × Disk
  | .read =>
    match disk.locate text with
    | .ok (_, .file content) => (some (.input content content.length), disk)
    | .ok (_, .directory) => (some (.input [] directorySize), disk)
    | .ok (_, .full) => (some .zeros, disk)
    | .ok (_, .sealed) => (none, disk)
    | .error _ => (none, disk)
  | .write =>
    match disk.create text with
    | .ok (location, emptied) => (some (.output location .unbegun []), emptied)
    | .error _ => (none, disk)

/-- The file system of a host whose only device is a disk. -/
def host : Host OpenFile Disk where
  isPresent text disk := (disk.isPresent text, disk)
  openFile text access disk := disk.openFile text access
  fileSize file disk := (file.size, disk)
  readFile count file disk := file.read count disk
  writeFile bytes file disk := file.write bytes disk
  flushFile file disk := file.flush disk
  closeFile file disk := file.close disk
  read text disk := (disk.read text, disk)
  remove text disk := disk.remove text
  makeDirectory text disk :=
    match disk.makeDirectory text with
    | .ok made => (true, made)
    | .error .occupied => (true, disk)
    | .error _ => (false, disk)

end Disk

end DosText
