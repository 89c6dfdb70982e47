import DosText.Bytes

/-! What stores and sources ask of the host's file system. Paths are texts in the host's own form.
A file is opened, read or written piece by piece, and closed. -/

namespace DosText

/-- How a file is opened. -/
inductive Access where
  | read
  /-- The file is made, or emptied, and can be written then. -/
  | write
  deriving DecidableEq, Repr

namespace Host

/-- What is found when a path is opened and read to the end. -/
inductive Reading where
  /-- It cannot be opened. -/
  | refused
  /-- It is a directory, which can be opened but has no bytes. -/
  | directory
  | content (bytes : Bytes)
  deriving DecidableEq, Repr

/-- What becomes of an attempt to remove a file. -/
inductive Removal where
  | done
  /-- There was nothing to remove. -/
  | absent
  | refused
  deriving DecidableEq, Repr

end Host

/-- The file system of the host. A `File` is one that is held open. -/
structure Host (File Devices : Type) where
  /-- Whether something is there. -/
  isPresent : Bytes → Devices → Bool × Devices
  /-- Opens a file if that can be done. -/
  openFile : Bytes → Access → Devices → Option File × Devices
  /-- How large an open file is. -/
  fileSize : File → Devices → Nat × Devices
  /-- The next bytes of an open file, up to a number of them. -/
  readFile : Nat → File → Devices → (Bytes × File) × Devices
  /-- Writes bytes and tells how many of them were taken. They need not be on the host yet. -/
  writeFile : Bytes → File → Devices → (Nat × File) × Devices
  /-- Brings to the host what waits to be written, and tells whether that worked. -/
  flushFile : File → Devices → (Bool × File) × Devices
  closeFile : File → Devices → Devices
  /-- What those find that read a file without holding it open. -/
  read : Bytes → Devices → Host.Reading × Devices
  remove : Bytes → Devices → Host.Removal × Devices
  /-- Makes a directory, and tells whether something is there afterwards. -/
  makeDirectory : Bytes → Devices → Bool × Devices

end DosText
