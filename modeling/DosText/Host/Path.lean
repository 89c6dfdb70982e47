import DosText.Bytes

/-! The form of host paths: steps between slashes, from the root or from the working
directory. -/

namespace DosText

/-- A place in the file system: the names that lead there from the root. -/
abbrev Location := List Name

/-- Why a path leads nowhere, or an operation at its end is refused. -/
inductive Obstacle where
  | missing
  | notDirectory
  | isDirectory
  | occupied
  | nameTooLong
  | denied
  deriving DecidableEq, Repr

/-- A path taken apart. -/
structure Path where
  absolute : Bool
  steps : List Name
  /-- A slash at the end admits a directory only. -/
  directoryOnly : Bool
  deriving DecidableEq, Repr

namespace Path

/-- The step that stays where it is. -/
def here : Name := [code '.']

/-- The step to the directory above. -/
def above : Name := [code '.', code '.']

/-- The longest name and the longest path that the host takes, in bytes. -/
def nameLimit : Nat := 255

def pathLimit : Nat := 4095

/-- The pieces of a text between slashes, empty ones included. -/
def pieces : Bytes → List Name
  | [] => [[]]
  | byte :: rest =>
    if byte = slash then [] :: pieces rest
    else
      match pieces rest with
      | [] => [[byte]]
      | piece :: others => (byte :: piece) :: others

/-- Takes a path apart. A path ends before its first NUL; the empty path leads nowhere. -/
def read (text : Bytes) : Except Obstacle Path :=
  let path := beforeNul text
  if path = [] then .error .missing
  else if path.length > pathLimit then .error .nameTooLong
  else .ok
    { absolute := path.head? = some slash
      steps := (pieces path).filter (· ≠ [])
      directoryOnly := path.getLast? = some slash }

end Path

end DosText
