import DosText.Host.OpenFile
import DosText.Storage.HostFile

/-! Files of a disk as a program holds them. -/

namespace DosText

/-- A file of a disk held open. -/
abbrev Stream := HostFile Disk.host

namespace Stream

abbrev Failure := HostFile.Failure

/-- Opens a file of a disk. One that cannot be opened leaves the disk as it is. -/
def openAt (path : Bytes) (access : Access) (disk : Disk) : Except Failure (Stream × Disk) :=
  match HostFile.openAt Disk.host path access disk with
  | (.ok stream, later) => .ok (stream, later)
  | (.error failure, _) => .error failure

/-- All bytes of a file of a disk. -/
def contents (path : Bytes) (disk : Disk) : Except Failure Bytes :=
  (HostFile.contents Disk.host path disk).1

end Stream

end DosText
