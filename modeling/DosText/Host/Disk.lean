import DosText.Catalog
import DosText.Host
import DosText.Host.Path

/-! A host file system kept in memory: a tree of directories and files with the rules by which
paths are followed, files made and removed. -/

namespace DosText

/-- What can stand at a location. -/
inductive Node where
  | directory
  | file (content : Bytes)
  /-- Something that is there, and can be removed, but not opened. -/
  | sealed
  /-- A device that is read as NULs without end and takes no bytes. -/
  | full
  deriving DecidableEq, Repr

/-- A file system with a working directory. The root is always there. -/
structure Disk where
  nodes : Catalog Location Node
  home : Location

namespace Disk

/-- A working directory without files, on a system with a device that is always full. -/
def fresh : Disk where
  nodes := .ofList [([ascii "dev"], .directory), ([ascii "dev", ascii "full"], .full),
    ([ascii "work"], .directory)]
  home := [ascii "work"]

/-- What stands at a location. -/
def node? (disk : Disk) (location : Location) : Option Node :=
  if location = [] then some .directory else disk.nodes.find? location

/-- Puts something at a location. -/
def put (disk : Disk) (location : Location) (node : Node) : Disk :=
  { disk with nodes := disk.nodes.insert location node }

/-- Follows steps from a location. Each leads from a directory to something that is there. -/
def walk (disk : Disk) (location : Location) : List Name → Except Obstacle Location
  | [] => .ok location
  | step :: rest =>
    match disk.node? location with
    | none => .error .missing
    | some .directory =>
      if step = Path.here then walk disk location rest
      else if step = Path.above then walk disk location.dropLast rest
      else if step.length > Path.nameLimit then .error .nameTooLong
      else if (disk.node? (location ++ [step])).isSome then walk disk (location ++ [step]) rest
      else .error .missing
    | some _ => .error .notDirectory

/-- Where a path starts. -/
def origin (disk : Disk) (path : Path) : Location := if path.absolute then [] else disk.home

/-- The location of something that is there, and what it is. -/
def locate (disk : Disk) (text : Bytes) : Except Obstacle (Location × Node) := do
  let path ← Path.read text
  let location ← disk.walk (disk.origin path) path.steps
  match disk.node? location with
  | none => .error .missing
  | some node =>
    if path.directoryOnly ∧ node ≠ .directory then .error .notDirectory
    else return (location, node)

/-- The end of a path that may lead to something not there yet: its directory, the name in it
and whether only a directory will do. Paths that end in a dot or are the root have no such
name. -/
structure Target where
  parent : Location
  name : Name
  directoryOnly : Bool

def Target.location (target : Target) : Location := target.parent ++ [target.name]

/-- Follows a path up to its last step. -/
def target (disk : Disk) (text : Bytes) : Except Obstacle Target := do
  let path ← Path.read text
  let parent ← disk.walk (disk.origin path) path.steps.dropLast
  match disk.node? parent with
  | some .directory =>
    match path.steps.getLast? with
    | none => .error .isDirectory
    | some name =>
      if name = Path.here ∨ name = Path.above then .error .isDirectory
      else if name.length > Path.nameLimit then .error .nameTooLong
      else return ⟨parent, name, path.directoryOnly⟩
  | none => .error .missing
  | some _ => .error .notDirectory

/-- Makes an empty file, or empties one, for writing. -/
def create (disk : Disk) (text : Bytes) : Except Obstacle (Location × Disk) := do
  let target ← disk.target text
  if target.directoryOnly then .error .isDirectory
  else
    match disk.node? target.location with
    | none => return (target.location, disk.put target.location (.file []))
    | some (.file _) => return (target.location, disk.put target.location (.file []))
    | some .full => return (target.location, disk)
    | some .directory => .error .isDirectory
    | some .sealed => .error .denied

/-- Adds bytes to what stands at a location, and tells whether they were taken. -/
def append (disk : Disk) (location : Location) (bytes : Bytes) : Bool × Disk :=
  match disk.node? location with
  | some (.file content) => (true, disk.put location (.file (content ++ bytes)))
  | _ => (bytes = [], disk)

/-- Whether something stands in a directory. -/
def isOccupied (disk : Disk) (location : Location) : Bool :=
  disk.nodes.keys.any fun other => other ≠ [] ∧ other.dropLast = location

/-- Whether a path leads to something. -/
def isPresent (disk : Disk) (text : Bytes) : Bool :=
  match disk.locate text with
  | .ok _ => true
  | .error _ => false

/-- Reads what a path leads to. -/
def read (disk : Disk) (text : Bytes) : Host.Reading :=
  match disk.locate text with
  | .ok (_, .directory) => .directory
  | .ok (_, .file content) => .content content
  | .ok (_, .full) => .content []
  | .ok (_, .sealed) => .refused
  | .error _ => .refused

/-- Makes a file hold exactly some bytes. -/
def replace (disk : Disk) (text bytes : Bytes) : Bool × Disk :=
  match disk.create text with
  | .error _ => (false, disk)
  | .ok (location, emptied) => emptied.append location bytes

/-- Removes a file or an empty directory. -/
def remove (disk : Disk) (text : Bytes) : Host.Removal × Disk :=
  match disk.target text with
  | .error .missing => (.absent, disk)
  | .error _ => (.refused, disk)
  | .ok target =>
    match disk.node? target.location with
    | none => (.absent, disk)
    | some .directory =>
      if disk.isOccupied target.location then (.refused, disk)
      else (.done, { disk with nodes := disk.nodes.erase target.location })
    | some _ =>
      if target.directoryOnly then (.refused, disk)
      else (.done, { disk with nodes := disk.nodes.erase target.location })

/-- Makes a directory where nothing is. -/
def makeDirectory (disk : Disk) (text : Bytes) : Except Obstacle Disk :=
  match disk.target text with
  | .error .isDirectory => .error .occupied
  | .error obstacle => .error obstacle
  | .ok target =>
    match disk.node? target.location with
    | some _ => .error .occupied
    | none => .ok (disk.put target.location .directory)

/-- The number of bytes in a node. -/
def nodeSize : Node → Nat
  | .file content => content.length
  | _ => 0

/-- The number of bytes in all files. -/
def size (disk : Disk) : Nat :=
  disk.nodes.entries.foldl (fun total entry => total + nodeSize entry.2) 0

/-- Makes the directories that lead somewhere, as far as they are missing. -/
def makeDirectories (disk : Disk) (location : Location) : List Name → Disk
  | [] => disk
  | step :: rest =>
    let next := location ++ [step]
    let made := if (disk.node? next).isSome then disk else disk.put next .directory
    makeDirectories made next rest

/-- The text of the steps from one location to another, separated by slashes. -/
def joined : List Name → Bytes
  | [] => []
  | [step] => step
  | step :: rest => step ++ slash :: joined rest

/-- Everything that stands below a location, with its path from there. -/
def below (disk : Disk) (location : Location) : List (Bytes × Node) :=
  disk.nodes.entries.filterMap fun (place, node) =>
    if location.isPrefixOf place ∧ place ≠ location then
      some (joined (place.drop location.length), node)
    else none

theorem node?_put (disk : Disk) (location other : Location) (node : Node)
    (proper : location ≠ []) :
    (disk.put location node).node? other =
      if other = location then some node else disk.node? other := by
  by_cases root : other = []
  · subst root
    simp [node?, Ne.symm proper]
  · simp [node?, put, root, Catalog.find?_insert]

end Disk

end DosText
