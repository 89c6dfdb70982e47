import DosText.Host.Disk

/-! A file of the disk held open to be read line by line. Bytes are taken from it in blocks, and
only when a line needs them, so what is written to the file in the meantime is read as far as it
lies behind the blocks already taken. -/

namespace DosText

/-- The file that a reader holds. -/
inductive HeldFile where
  /-- The file that stands at a location. -/
  | standing (location : Location)
  /-- A file that was removed, with the bytes that it had then. -/
  | removed (content : Bytes)
  deriving DecidableEq, Repr

/-- A file held open to be read line by line. -/
structure LineReader where
  file : HeldFile
  /-- The number of bytes taken from the file. -/
  taken : Nat
  /-- The bytes that were taken but belong to no line yet. -/
  ahead : Bytes
  /-- Whether the end of the file was met. There are no lines after that, even if the file
  grows. -/
  ended : Bool
  deriving DecidableEq, Repr

namespace LineReader

/-- The most bytes that are taken from a file at a time. -/
def blockSize : Nat := 8191

/-- Opens what a path leads to. A directory can be opened but has no bytes. -/
def openAt (path : Bytes) (disk : Disk) : Option LineReader :=
  match disk.locate path with
  | .ok (location, .file _) => some ⟨.standing location, 0, [], false⟩
  | .ok (_, .directory) => some ⟨.removed [], 0, [], false⟩
  | .ok (_, .full) => some ⟨.removed [], 0, [], false⟩
  | .ok (_, .sealed) => none
  | .error _ => none

/-- The bytes of the held file as they are now. -/
def content (reader : LineReader) (disk : Disk) : Bytes :=
  match reader.file with
  | .removed content => content
  | .standing location =>
    match disk.node? location with
    | some (.file content) => content
    | _ => []

/-- The reader after a change of the disk. If the file is gone, its last bytes are kept. -/
def follow (reader : LineReader) (before after : Disk) : LineReader :=
  match reader.file with
  | .removed _ => reader
  | .standing location =>
    match after.node? location with
    | some (.file _) => reader
    | _ => { reader with file := .removed (reader.content before) }

/-- Takes blocks of what remains until there is a line feed among the bytes taken, or nothing
remains. -/
def fill (ahead remaining : Bytes) : Bytes × Bytes :=
  if ahead.contains lineFeed then (ahead, remaining)
  else
    match remaining with
    | [] => (ahead, [])
    | first :: rest =>
      fill (ahead ++ first :: rest.take (blockSize - 1)) (rest.drop (blockSize - 1))
  termination_by remaining.length
  decreasing_by
    simp only [List.length_drop, List.length_cons]
    omega

/-- The next line, without its line feed. The end of the file ends a line that has begun. -/
def nextLine (reader : LineReader) (disk : Disk) : Option Bytes × LineReader :=
  if reader.ended then (none, reader)
  else
    let remaining :=
      if reader.ahead.contains lineFeed then [] else (reader.content disk).drop reader.taken
    let filled := fill reader.ahead remaining
    let taken := reader.taken + (remaining.length - filled.2.length)
    if filled.1.contains lineFeed then
      (some (filled.1.takeWhile (· != lineFeed)),
        { reader with taken, ahead := (filled.1.dropWhile (· != lineFeed)).tail })
    else
      (if filled.1 = [] then none else some filled.1,
        { reader with taken, ahead := [], ended := true })

/-- Filling moves bytes from what remains and loses none. -/
theorem fill_append (ahead remaining : Bytes) :
    (fill ahead remaining).1 ++ (fill ahead remaining).2 = ahead ++ remaining := by
  fun_induction fill ahead remaining with
  | case1 => rfl
  | case2 => rfl
  | case3 ahead _ first rest ih => simp [ih]

/-- Filling stops short of a line feed only where nothing remains. -/
theorem fill_eq_nil_of_not_contains (ahead remaining : Bytes)
    (lacking : (fill ahead remaining).1.contains lineFeed = false) :
    (fill ahead remaining).2 = [] := by
  fun_induction fill ahead remaining with
  | case1 ahead remaining found => rw [found] at lacking; cases lacking
  | case2 => rfl
  | case3 ahead _ first rest ih => exact ih lacking

/-- A removed file keeps its bytes for the reader. -/
theorem content_follow_removed (reader : LineReader) (before after : Disk) (location : Location)
    (standing : reader.file = .standing location) (gone : after.node? location = none) :
    (reader.follow before after).content after = reader.content before := by
  simp [follow, standing, gone, content]

end LineReader

end DosText
