import DosText.Bytes

/-! The commands, by what their lines are made of. A keyword fixes whether a name is required
behind it, allowed, required twice or not taken at all. -/

namespace DosText

/-- A command that requires exactly one name. For `slot` the name is a number. -/
inductive Verb where
  | openFile
  | appendFile
  | position
  | read
  | write
  | delete
  | slot
  deriving DecidableEq, Repr

/-- The word that begins a command line. -/
inductive Keyword where
  | monitor
  | noMonitor
  | named (verb : Verb)
  | close
  | rename
  deriving DecidableEq, Repr

namespace Keyword

/-- Every keyword. None of them begins another, so a line begins with at most one. -/
def all : List Keyword :=
  [monitor, noMonitor, named .openFile, named .appendFile, close, named .position, named .read,
    named .write, named .delete, rename, named .slot]

/-- The keyword as it is typed. -/
def text : Keyword → Bytes
  | monitor => ascii "MON"
  | noMonitor => ascii "NOMON"
  | named .openFile => ascii "OPEN"
  | named .appendFile => ascii "APPEND"
  | close => ascii "CLOSE"
  | named .position => ascii "POSITION"
  | named .read => ascii "READ"
  | named .write => ascii "WRITE"
  | named .delete => ascii "DELETE"
  | rename => ascii "RENAME"
  | named .slot => ascii "PR#"

theorem mem_all (keyword : Keyword) : keyword ∈ all := by
  cases keyword with
  | named verb => cases verb <;> decide
  | _ => decide

/-- A keyword that begins another one is that one. -/
theorem eq_of_isPrefixOf (first second : Keyword)
    (begins : first.text.isPrefixOf second.text = true) : first = second := by
  have table : ∀ left ∈ all, ∀ right ∈ all,
      left.text.isPrefixOf right.text = true → left = right := by decide
  exact table first (mem_all first) second (mem_all second) begins

end Keyword

/-- A command line taken apart, its argument tail not yet read. -/
inductive Command where
  /-- The empty line. -/
  | empty
  | monitor (tail : Bytes)
  | noMonitor (tail : Bytes)
  | named (verb : Verb) (name : Name) (tail : Bytes)
  /-- Without a name, every open file is closed. -/
  | close (name : Name) (tail : Bytes)
  | rename (source target : Name) (tail : Bytes)
  deriving DecidableEq, Repr

namespace Command

/-- The bytes that names on a command line are made of: all printable ones but the comma. -/
def isNameByte (byte : UInt8) : Bool := isPrintable byte && byte != code ','

/-- The keyword of a command; the empty line has none. -/
def keyword? : Command → Option Keyword
  | empty => none
  | monitor _ => some .monitor
  | noMonitor _ => some .noMonitor
  | named verb _ _ => some (.named verb)
  | close _ _ => some .close
  | rename _ _ _ => some .rename

/-- The first name on the line, empty if there is none. -/
def filename : Command → Name
  | named _ name _ => name
  | close name _ => name
  | rename source _ _ => source
  | _ => []

/-- The second name on the line, empty if there is none. -/
def secondName : Command → Name
  | rename _ target _ => target
  | _ => []

/-- The argument tail. -/
def tail : Command → Bytes
  | empty => []
  | monitor tail => tail
  | noMonitor tail => tail
  | named _ _ tail => tail
  | close _ tail => tail
  | rename _ _ tail => tail

end Command

end DosText
