import DosText.PackedBytes

/-! An open text file in memory: its bytes, the pointer at which it is read and written, and
the distance between its records. -/

namespace DosText

/-- An open file. Offsets count from 0 and records are `recordLength` bytes apart. -/
structure Buffer where
  name : Name
  /-- The bytes of the file; a new file has none until it is first written. -/
  content : Option PackedBytes
  /-- The distance between records; 1 where the file is read and written in sequence. -/
  recordLength : Nat
  /-- The record last asked for; the pointer alone decides where the next byte is. -/
  recordNumber : Nat
  filePointer : Nat
  deriving DecidableEq, Repr

namespace Buffer

/-- A file as it is opened, its pointer at the beginning. A record length of 0 selects
sequential access. -/
def opened (name : Name) (recordLength : Nat) (content : Option Bytes) : Buffer :=
  ⟨name, content.map PackedBytes.ofBytes, max recordLength 1, 0, 0⟩

/-- The bytes of a file; a new file has none. -/
def bytes (buffer : Buffer) : Bytes := (buffer.content.getD .empty).toBytes

/-- The byte at the pointer, and the file with the pointer behind it. At the end of the data
there is none. -/
def readByte (buffer : Buffer) : Option (UInt8 × Buffer) :=
  match (buffer.content.getD .empty).get? buffer.filePointer with
  | none => none
  | some byte => some (byte, { buffer with filePointer := buffer.filePointer + 1 })

/-- The bytes from the pointer to the next line end, and the file with the pointer behind that
line end. At the end of the data there is no line. -/
def readLine (buffer : Buffer) : Option (Bytes × Buffer) :=
  let content := buffer.content.getD .empty
  if content.size ≤ buffer.filePointer then none
  else
    let stop := content.seek isLineEnd buffer.filePointer
    some (content.slice buffer.filePointer stop,
      { buffer with filePointer := min (stop + 1) content.size })

/-- Puts a byte at the pointer and the pointer behind it. A gap between the end of the data and
the pointer is filled with NULs, unless the pointer is at a limit or beyond; then the file is not
written. -/
def writeByte (buffer : Buffer) (limit : Nat) (byte : UInt8) : Option Buffer :=
  let content := buffer.content.getD .empty
  if buffer.filePointer ≤ content.size ∨ buffer.filePointer < limit then
    some { buffer with
      content := some (content.put buffer.filePointer byte)
      filePointer := buffer.filePointer + 1 }
  else none

theorem recordLength_opened_pos (name : Name) (recordLength : Nat) (content : Option Bytes) :
    0 < (opened name recordLength content).recordLength := by
  simp only [opened]
  omega

@[simp] theorem bytes_opened (name : Name) (recordLength : Nat) (content : Option Bytes) :
    (opened name recordLength content).bytes = content.getD [] := by
  cases content <;> simp [opened, bytes]

/-- Reading a byte looks it up at the pointer. -/
theorem readByte_eq (buffer : Buffer) :
    buffer.readByte = buffer.bytes[buffer.filePointer]?.map fun byte =>
      (byte, { buffer with filePointer := buffer.filePointer + 1 }) := by
  unfold readByte bytes
  rw [PackedBytes.get?_eq]
  split <;> simp_all

/-- Reading a line passes over its bytes and the line end, if there is one. -/
theorem readLine_eq (buffer : Buffer) :
    buffer.readLine =
      let remaining := buffer.bytes.drop buffer.filePointer
      let line := remaining.takeWhile (!isLineEnd ·)
      if remaining = [] then none
      else some (line,
        { buffer with
          filePointer := buffer.filePointer + min (line.length + 1) remaining.length }) := by
  simp only [readLine, bytes, PackedBytes.slice_seek]
  simp only [PackedBytes.seek_eq, List.drop_eq_nil_iff, PackedBytes.length_toBytes,
    List.length_drop]
  split
  · rfl
  · congr 3
    omega

/-- Only at the end of the data is there no byte to read. -/
theorem readByte_eq_none_iff (buffer : Buffer) :
    buffer.readByte = none ↔ buffer.bytes.length ≤ buffer.filePointer := by
  simp [readByte_eq]

/-- There is a line to read exactly where there is a byte to read. -/
theorem readLine_eq_none_iff (buffer : Buffer) :
    buffer.readLine = none ↔ buffer.bytes.length ≤ buffer.filePointer := by
  simp [readLine_eq]

/-- Neither has it a line. -/
theorem isSome_of_readLine {buffer moved : Buffer} {line : Bytes}
    (read : buffer.readLine = some (line, moved)) : buffer.content.isSome = true := by
  cases content : buffer.content with
  | some packed => rfl
  | none =>
    have ended := (readLine_eq_none_iff buffer).mpr (by simp [bytes, content])
    cases ended.symm.trans read

/-- Where a byte can be written, it stands at the pointer afterwards; NULs make room for it
beyond the end of the data. -/
theorem bytes_of_writeByte (buffer written : Buffer) (limit : Nat) (byte : UInt8)
    (done : buffer.writeByte limit byte = some written) :
    written.bytes =
      (buffer.bytes ++ List.replicate (buffer.filePointer + 1 - buffer.bytes.length) 0).set
        buffer.filePointer byte := by
  simp only [writeByte] at done
  split at done
  · cases done
    simp [bytes, PackedBytes.toBytes_put]
  · cases done

end Buffer

end DosText
