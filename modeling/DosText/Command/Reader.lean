import DosText.Command
import DosText.Fault

/-! Takes a command line apart. From the first unprintable byte on, a line is ignored. -/

namespace DosText.Command

/-- The name that stands at the beginning of a text after spaces and tabs, and the text behind
it. The name is empty if no name byte follows. -/
def scanName (text : Bytes) : Name × Bytes :=
  let start := text.dropWhile isBlank
  (start.takeWhile isNameByte, start.dropWhile isNameByte)

/-- A name that must be there. Where only blanks are found and the last of them is a space,
the name is that one space. -/
def scanRequiredName (text : Bytes) : Except Fault (Name × Bytes) :=
  match scanName text with
  | ([], rest) =>
    if (text.takeWhile isBlank).getLast? = some (code ' ') then .ok ([code ' '], rest)
    else .error .invalidOption
  | (name, rest) => .ok (name, rest)

/-- The argument tail that a text begins with: a comma and the printable bytes behind it. -/
def scanTail (text : Bytes) : Bytes :=
  match text with
  | [] => []
  | first :: rest => if first = code ',' then first :: rest.takeWhile isPrintable else []

/-- Requires a comma at the beginning of a text. -/
def scanComma (text : Bytes) : Except Fault Bytes :=
  match text with
  | [] => .error .invalidOption
  | first :: rest => if first = code ',' then .ok rest else .error .invalidOption

/-- The keyword that a line begins with. -/
def scanKeyword (line : Bytes) : Option Keyword :=
  Keyword.all.find? fun keyword => keyword.text.isPrefixOf line

/-- Takes apart what follows a keyword. -/
def readOperands (keyword : Keyword) (rest : Bytes) : Except Fault Command :=
  match keyword with
  | .monitor => .ok (.monitor (rest.takeWhile isPrintable))
  | .noMonitor => .ok (.noMonitor (rest.takeWhile isPrintable))
  | .named verb => do
    let (name, behind) ← scanRequiredName rest
    return .named verb name (scanTail behind)
  | .close =>
    let (name, behind) := scanName rest
    .ok (.close name (scanTail behind))
  | .rename => do
    let (source, behindSource) ← scanRequiredName rest
    let afterComma ← scanComma behindSource
    let (target, behindTarget) ← scanRequiredName afterComma
    return .rename source target (scanTail behindTarget)

/-- Reads a command line. -/
def read (line : Bytes) : Except Fault Command :=
  if line = [] then .ok .empty
  else
    match scanKeyword line with
    | none => .error .invalidOption
    | some keyword => readOperands keyword (line.drop keyword.text.length)

/-- Nothing of a text is lost between the blanks, the name and the rest. -/
theorem scanName_append (text : Bytes) :
    text.takeWhile isBlank ++ (scanName text).1 ++ (scanName text).2 = text := by
  unfold scanName
  rw [List.append_assoc, List.takeWhile_append_dropWhile, List.takeWhile_append_dropWhile]

theorem scanKeyword_text_append (keyword : Keyword) (rest : Bytes) :
    scanKeyword (keyword.text ++ rest) = some keyword := by
  unfold scanKeyword
  have begins : keyword.text.isPrefixOf (keyword.text ++ rest) = true := by
    simp [List.isPrefixOf_iff_prefix]
  cases found : Keyword.all.find? fun other => other.text.isPrefixOf (keyword.text ++ rest) with
  | none =>
    have none := List.find?_eq_none.mp found keyword keyword.mem_all
    exact absurd begins none
  | some other =>
    have accepted : other.text.isPrefixOf (keyword.text ++ rest) = true := by
      simpa using List.find?_some found
    have otherBegins : other.text <+: keyword.text ++ rest := List.isPrefixOf_iff_prefix.mp accepted
    have comparable := List.prefix_or_prefix_of_prefix otherBegins (List.prefix_append _ _)
    rcases comparable with shorter | longer
    · rw [Keyword.eq_of_isPrefixOf other keyword (List.isPrefixOf_iff_prefix.mpr shorter)]
    · rw [Keyword.eq_of_isPrefixOf keyword other (List.isPrefixOf_iff_prefix.mpr longer)]

/-- A line that begins with a keyword is read by what stands behind the keyword. -/
theorem read_text_append (keyword : Keyword) (rest : Bytes) :
    read (keyword.text ++ rest) = readOperands keyword rest := by
  have nonempty : keyword.text ++ rest ≠ [] := by
    cases keyword with
    | named verb => cases verb <;> simp [Keyword.text, ascii]
    | _ => simp [Keyword.text, ascii]
  simp [read, nonempty, scanKeyword_text_append]

end DosText.Command
