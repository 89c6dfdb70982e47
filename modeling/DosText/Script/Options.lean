import DosText.Catalog
import DosText.Log
import DosText.Monitor

/-! The arguments with which the script program is started. What begins with a dash selects
something, with a value behind an equals sign perhaps; everything else names a file. -/

namespace DosText.Script

/-- The arguments of the program, sorted into files and selections. -/
structure Options where
  files : List Bytes
  selections : Catalog Bytes Bytes

namespace Options

def none : Options := ⟨[], .empty⟩

/-- A selection without a value keeps the value it had, or has the empty value. -/
def select (options : Options) (name : Bytes) : Options :=
  match options.selections.find? name with
  | some _ => options
  | Option.none => { options with selections := options.selections.insert name [] }

/-- Adds an argument. All dashes at its beginning are dropped. -/
def add (options : Options) (argument : Bytes) : Options :=
  if argument.head? = some (code '-') then
    let selection := argument.dropWhile (· == code '-')
    let name := selection.takeWhile (· != code '=')
    match selection.dropWhile (· != code '=') with
    | [] => options.select name
    | _ :: value => { options with selections := options.selections.insert name value }
  else { options with files := options.files ++ [argument] }

/-- Sorts the arguments of the program. -/
def read (arguments : List Bytes) : Options := arguments.foldl add none

/-- The value selected under a name. -/
def selection? (options : Options) (name : String) : Option Bytes :=
  options.selections.find? (ascii name)

end Options

/-- What a letter of the monitor selection, in either case, chooses to trace. -/
def traceOfLetter? (letter : UInt8) : Option Trace :=
  if upperCase letter = code 'C' then some .commands
  else if upperCase letter = code 'I' then some .input
  else if upperCase letter = code 'O' then some .output
  else none

/-- The mask that letters choose. -/
def monitorOfLetters (letters : Bytes) : Monitor :=
  (letters.filterMap traceOfLetter?).foldl Monitor.enable .off

/-- A complaint about each letter that chooses nothing. -/
def complaints (letters : Bytes) : Bytes :=
  (letters.filter fun letter => (traceOfLetter? letter).isNone).flatMap fun letter =>
    ascii "Ignoring unknown monitor flag " ++ [letter, lineFeed]

/-- How the program is used. -/
def usage (program : Bytes) : Bytes :=
  ascii "Usage: " ++ program ++
    ascii " [script] [--store=\x7bdirectory\x7d] [--seed=\x7bdirectory\x7d]" ++
    ascii " [--monitor=\x7bC, I and/or O\x7d]\n\n" ++
    ascii "Runs a script as if it were a BASIC program's output. " ++
    ascii "Each line is PRINTed, with a leading ^D\n" ++
    ascii "becoming Ctrl-D. A line '<' INPUTs a line and '<n' GETs n characters; " ++
    ascii "both display the result.\n\n" ++
    ascii "\t--store\t\tkeeps files in the nominated directory; " ++
    ascii "otherwise they are lost at exit.\n" ++
    ascii "\t--seed\t\tsupplies initial file contents from the nominated directory.\n" ++
    ascii "\t--monitor\tenables MON tracing from the start.\n"

end DosText.Script
