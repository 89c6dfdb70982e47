import DosText.Host
import DosText.Storage
import DosText.Storage.HostName

/-! A source whose contents are text files in a directory of the host. -/

namespace DosText

/-- A directory of text files, its path empty or ending in a slash. -/
structure SeedFolder where
  base : Bytes
  deriving DecidableEq, Repr

namespace SeedFolder

/-- The source in a directory; the empty path is the working directory. -/
def ofBase (base : Bytes) : SeedFolder :=
  if base = [] ∨ base.getLast? = some slash then ⟨base⟩ else ⟨base ++ [slash]⟩

/-- The host path of a name: periods become underscores before the name is encoded. -/
def path (folder : SeedFolder) (name : Name) : Bytes :=
  let underscored := name.map fun byte => if byte = code '.' then code '_' else byte
  folder.base ++ HostName.encode underscored ++ ascii ".txt"

/-- What one reading of a file gives: its next bytes, or none at its end. One that fails says
why. -/
abbrev Reading := Except Bytes Bytes

/-- The most bytes that one reading gives. -/
def blockSize : Nat := 4096

/-- The readings of a file that is not packed, block by block up to the one that gives nothing. -/
def blocks (bytes : Bytes) : List Reading :=
  if bytes = [] then [.ok []] else .ok (bytes.take blockSize) :: blocks (bytes.drop blockSize)
termination_by bytes.length
decreasing_by
  rename_i some
  rw [List.length_drop]
  exact Nat.sub_lt (List.length_pos_iff.mpr some) (by decide)

/-- Puts readings together until one gives nothing or fails. -/
def gather : List Reading → Except Bytes Bytes
  | [] => .ok []
  | .error reason :: _ => .error reason
  | .ok reading :: rest =>
    if reading = [] then .ok [] else (gather rest).map (reading ++ ·)

/-- Leaves out each line feed that follows a carriage return. -/
def normalize : Bytes → Bytes
  | [] => []
  | [byte] => [byte]
  | first :: second :: rest =>
    if first = carriageReturn ∧ second = lineFeed then carriageReturn :: normalize rest
    else first :: normalize (second :: rest)

variable {File Devices : Type}

/-- What is said of a file that cannot be unpacked. -/
def complaint (path reason : Bytes) : Log.Entry :=
  Log.error .store [.text (ascii "Can't decompress "), .text path, .text (ascii ": "),
    .text reason]

/-- Reads the text file of a name. `readings` says what one reading of the file after the other
gives, as the file may be packed. -/
def fetchBy (readings : Bytes → List Reading) (host : Host File Devices) (folder : SeedFolder)
    (name : Name) (devices : Devices) : Reply Devices (Option Bytes) :=
  let path := folder.path name
  match host.isPresent path devices with
  | (false, later) => ⟨.ok none, later, []⟩
  | (true, later) =>
    match host.read path later with
    | (.content bytes, last) =>
      match gather (readings bytes) with
      | .ok raw =>
        ⟨.ok (some (normalize raw)), last, [Log.info .store
          [.text (ascii "Seeded "), .text name, .text (ascii " from "), .text path]]⟩
      | .error reason => ⟨.error .cannotRead, last, [complaint path reason]⟩
    | (.directory, last) =>
      ⟨.error .cannotRead, last, [complaint path (beforeNul path ++ ascii ": Is a directory")]⟩
    | (.refused, last) => ⟨.error .cannotRead, last, []⟩

/-- Reads the text file of a name, which is not packed, block by block. -/
def fetch (host : Host File Devices) (folder : SeedFolder) (name : Name) (devices : Devices) :
    Reply Devices (Option Bytes) := folder.fetchBy blocks host name devices

/-- The source in a directory of a host. -/
def source (host : Host File Devices) (folder : SeedFolder) : Source Devices where
  fetch := folder.fetch host

end SeedFolder

end DosText
