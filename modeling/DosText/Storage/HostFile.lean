import DosText.Host

/-! Files of the host that are held open, read and written. What cannot be done is a failure, and
a file is closed whatever happened to it. -/

namespace DosText

variable {File Devices : Type}

/-- A file of a host held open, with the size that it had when it was opened. -/
structure HostFile (host : Host File Devices) where
  file : File
  size : Nat

namespace HostFile

/-- Why a file could not be used. -/
inductive Failure where
  | cannotOpen
  | cannotWrite
  deriving DecidableEq, Repr

/-- Opens a file. One that is opened for writing keeps nothing of what it had. -/
def openAt (host : Host File Devices) (path : Bytes) (access : Access) (devices : Devices) :
    Except Failure (HostFile host) × Devices :=
  match host.openFile path access devices with
  | (none, later) => (.error .cannotOpen, later)
  | (some file, later) =>
    let (size, last) := host.fileSize file later
    (.ok ⟨file, size⟩, last)

variable {host : Host File Devices}

/-- Reads up to a number of bytes. -/
def read (held : HostFile host) (count : Nat) (devices : Devices) :
    Bytes × HostFile host × Devices :=
  let ((bytes, file), later) := host.readFile count held.file devices
  (bytes, { held with file }, later)

/-- Writes bytes, all of which have to be taken. -/
def write (held : HostFile host) (bytes : Bytes) (devices : Devices) :
    Except Failure Unit × HostFile host × Devices :=
  let ((taken, file), later) := host.writeFile bytes held.file devices
  (if taken = bytes.length then .ok () else .error .cannotWrite, { held with file }, later)

/-- Brings to the host what has been written. -/
def flush (held : HostFile host) (devices : Devices) :
    Except Failure Unit × HostFile host × Devices :=
  let ((worked, file), later) := host.flushFile held.file devices
  (if worked then .ok () else .error .cannotWrite, { held with file }, later)

def close (held : HostFile host) (devices : Devices) : Devices :=
  host.closeFile held.file devices

variable (host)

/-- All bytes of a file, as many as it had when it was opened. -/
def contents (path : Bytes) (devices : Devices) : Except Failure Bytes × Devices :=
  match openAt host path .read devices with
  | (.error failure, later) => (.error failure, later)
  | (.ok held, later) =>
    let (bytes, left, last) := held.read held.size later
    (.ok bytes, left.close last)

/-- Makes a file hold exactly some bytes. -/
def rewrite (path bytes : Bytes) (devices : Devices) : Except Failure Unit × Devices :=
  match openAt host path .write devices with
  | (.error failure, later) => (.error failure, later)
  | (.ok held, later) =>
    match held.write bytes later with
    | (.error failure, left, written) => (.error failure, left.close written)
    | (.ok (), left, written) =>
      let (outcome, last, flushed) := left.flush written
      (outcome, last.close flushed)

section Calls

variable {host} {path bytes : Bytes} {file left last : File} {size taken : Nat} {worked : Bool}
variable {devices opened sized read written flushed : Devices}

theorem contents_of_read (openedAt : host.openFile path .read devices = (some file, opened))
    (sizedAt : host.fileSize file opened = (size, sized))
    (readAt : host.readFile size file sized = ((bytes, left), read)) :
    contents host path devices = (.ok bytes, host.closeFile left read) := by
  simp only [contents, openAt, openedAt, sizedAt, HostFile.read, readAt, close]

theorem rewrite_of_flushed (openedAt : host.openFile path .write devices = (some file, opened))
    (sizedAt : host.fileSize file opened = (size, sized))
    (writtenAt : host.writeFile bytes file sized = ((bytes.length, left), written))
    (flushedAt : host.flushFile left written = ((worked, last), flushed)) :
    rewrite host path bytes devices =
      (if worked then .ok () else .error .cannotWrite, host.closeFile last flushed) := by
  simp only [rewrite, openAt, openedAt, sizedAt, write, writtenAt, if_true, flush, flushedAt,
    close]

theorem rewrite_of_refused (openedAt : host.openFile path .write devices = (some file, opened))
    (sizedAt : host.fileSize file opened = (size, sized))
    (writtenAt : host.writeFile bytes file sized = ((taken, left), written))
    (fewer : taken < bytes.length) :
    rewrite host path bytes devices = (.error .cannotWrite, host.closeFile left written) := by
  simp only [rewrite, openAt, openedAt, sizedAt, write, writtenAt, if_neg (Nat.ne_of_lt fewer),
    close]

theorem rewrite_of_unopened (openedAt : host.openFile path .write devices = (none, opened)) :
    rewrite host path bytes devices = (.error .cannotOpen, opened) := by
  simp only [rewrite, openAt, openedAt]

end Calls

end HostFile

end DosText
