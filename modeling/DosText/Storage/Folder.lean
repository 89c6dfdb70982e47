import DosText.Storage
import DosText.Storage.HostFile
import DosText.Storage.HostName

/-! A store that keeps each file as one file of the host, in a subdirectory of a chosen base
directory, under its host name. -/

namespace DosText

/-- A store's base directory, its path ending in a slash. -/
structure Folder where
  base : Bytes
  deriving DecidableEq, Repr

namespace Folder

/-- The folder on a base directory; the empty path is the working directory. -/
def ofBase (base : Bytes) : Folder :=
  if base = [] then ⟨ascii "./"⟩
  else if base.getLast? = some slash then ⟨base⟩
  else ⟨base ++ [slash]⟩

/-- The subdirectory that holds the files. -/
def directory (folder : Folder) : Bytes := folder.base ++ ascii "vfs/"

/-- The host path of a name. -/
def path (folder : Folder) (name : Name) : Bytes := folder.directory ++ HostName.encode name

variable {File Devices : Type}

/-- Sees to it that a directory is there. -/
def ensure (host : Host File Devices) (path : Bytes) (devices : Devices) : Reply Devices Unit :=
  match host.makeDirectory path devices with
  | (true, later) => ⟨.ok (), later, []⟩
  | (false, later) =>
    ⟨.error .cannotWrite, later,
      [Log.error .store [.text (ascii "Can't create directory "), .text path]]⟩

/-- Makes the directories of a folder as far as they are missing. -/
def establish (host : Host File Devices) (folder : Folder) (devices : Devices) :
    Reply Devices Unit :=
  let first := ensure host folder.base devices
  match first.outcome with
  | .error _ => first
  | .ok () =>
    let second := ensure host folder.directory first.devices
    ⟨second.outcome, second.devices, first.report ++ second.report⟩

/-- Reads the content of a name. -/
def get (host : Host File Devices) (folder : Folder) (name : Name) (devices : Devices) :
    Reply Devices (Option Bytes) :=
  let path := folder.path name
  match host.isPresent path devices with
  | (false, later) => ⟨.ok none, later, []⟩
  | (true, later) =>
    match HostFile.contents host path later with
    | (.ok bytes, last) => ⟨.ok (some bytes), last, []⟩
    | (.error _, last) =>
      ⟨.error .cannotRead, last,
        [Log.error .store [.text (ascii "Can't read "), .text path]]⟩

/-- Writes the content of a name. -/
def set (host : Host File Devices) (folder : Folder) (name : Name) (content : Bytes)
    (devices : Devices) : Reply Devices Unit :=
  let path := folder.path name
  match HostFile.rewrite host path content devices with
  | (.ok (), later) =>
    ⟨.ok (), later, [Log.info .store [.text (ascii "Stored "), .number content.length,
      .text (ascii " bytes as "), .text path]]⟩
  | (.error _, later) =>
    ⟨.error .cannotWrite, later, [Log.error .store [.text (ascii "Can't write "),
      .number content.length, .text (ascii " bytes to "), .text path]]⟩

/-- Removes the file of a name; it need not be there. -/
def remove (host : Host File Devices) (folder : Folder) (name : Name) (devices : Devices) :
    Reply Devices Unit :=
  let path := folder.path name
  match host.remove path devices with
  | (.refused, later) =>
    ⟨.error .cannotWrite, later,
      [Log.error .store [.text (ascii "Can't remove "), .text path]]⟩
  | (_, later) => ⟨.ok (), later, []⟩

/-- The store in a folder of a host. -/
def store (host : Host File Devices) (folder : Folder) : Store Devices where
  get := folder.get host
  set := folder.set host
  remove := folder.remove host

end Folder

end DosText
