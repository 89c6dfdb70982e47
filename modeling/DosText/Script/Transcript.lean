import DosText.Script.Program

/-! A conversation with the surroundings, for running the program on a real host. What the
program learns is read from answers given beforehand. The first question that has no answer yet
is noted, and from there on nothing that the program does counts: it is run again from the same
state when the answer is known. -/

namespace DosText.Script

/-- What the program can ask of its surroundings. Open files have numbers. -/
inductive Question where
  | isPresent (path : Bytes)
  | openFile (path : Bytes) (access : Access)
  | fileSize (file : Nat)
  | readFile (count file : Nat)
  | writeFile (bytes : Bytes) (file : Nat)
  | flushFile (file : Nat)
  | closeFile (file : Nat)
  | read (path : Bytes)
  | remove (path : Bytes)
  | makeDirectory (path : Bytes)
  | openScript (path : Bytes)
  | scriptLine
  | byte
  | line (prompt : Bytes)
  deriving DecidableEq, Repr

/-- What the surroundings answer. -/
inductive Answer where
  | flag (value : Bool)
  | number (value : Nat)
  | file (file? : Option Nat)
  | bytes (bytes : Bytes)
  | reading (reading : Host.Reading)
  | removal (removal : Host.Removal)
  | byte (byte? : Option UInt8)
  | line (line? : Option Bytes)
  deriving DecidableEq, Repr

/-- The answers not yet used, and the first question that had none. -/
structure Transcript where
  answers : List Answer
  open? : Option Question

namespace Transcript

/-- Answers a question, or notes it if there is no answer to it. -/
def ask (question : Question) (transcript : Transcript) : Option Answer × Transcript :=
  match transcript.open?, transcript.answers with
  | some _, _ => (none, transcript)
  | none, [] => (none, { transcript with open? := some question })
  | none, answer :: rest => (some answer, { transcript with answers := rest })

/-- Asks a question whose answer is of a certain kind. -/
def askFor {Value : Type} (question : Question) (meaning : Answer → Option Value)
    (fallback : Value) (transcript : Transcript) : Value × Transcript :=
  let asked := transcript.ask question
  ((asked.1.bind meaning).getD fallback, asked.2)

def flag? : Answer → Option Bool
  | .flag value => some value
  | _ => none

def number? : Answer → Option Nat
  | .number value => some value
  | _ => none

def file? : Answer → Option (Option Nat)
  | .file file? => some file?
  | _ => none

def bytes? : Answer → Option Bytes
  | .bytes bytes => some bytes
  | _ => none

def reading? : Answer → Option Host.Reading
  | .reading reading => some reading
  | _ => none

def removal? : Answer → Option Host.Removal
  | .removal removal => some removal
  | _ => none

def byte? : Answer → Option (Option UInt8)
  | .byte byte? => some byte?
  | _ => none

def line? : Answer → Option (Option Bytes)
  | .line line? => some line?
  | _ => none

/-- Asks a question about an open file, which stays the one that it is. -/
def askOf {Value : Type} (file : Nat) (question : Question) (meaning : Answer → Option Value)
    (fallback : Value) (transcript : Transcript) : (Value × Nat) × Transcript :=
  let asked := transcript.askFor question meaning fallback
  ((asked.1, file), asked.2)

/-- The surroundings, as a transcript tells of them. -/
def system : System Nat Transcript where
  host :=
    { isPresent := fun path => askFor (.isPresent path) flag? false
      openFile := fun path access => askFor (.openFile path access) file? none
      fileSize := fun file => askFor (.fileSize file) number? 0
      readFile := fun count file => askOf file (.readFile count file) bytes? []
      writeFile := fun bytes file => askOf file (.writeFile bytes file) number? 0
      flushFile := fun file => askOf file (.flushFile file) flag? false
      closeFile := fun file transcript => (askFor (.closeFile file) flag? false transcript).2
      read := fun path => askFor (.read path) reading? .refused
      remove := fun path => askFor (.remove path) removal? .refused
      makeDirectory := fun path => askFor (.makeDirectory path) flag? false }
  openScript path := askFor (.openScript path) flag? false
  scriptLine := askFor .scriptLine line? none
  byte := askFor .byte byte? none
  line prompt := askFor (.line prompt) line? none

/-- A question with an answer is not noted. -/
theorem ask_answered (question : Question) (answer : Answer) (rest : List Answer) :
    ask question ⟨answer :: rest, none⟩ = (some answer, ⟨rest, none⟩) := rfl

/-- A question without an answer is noted, and so is none after it. -/
theorem ask_open (question : Question) (transcript : Transcript) (noted : Question)
    (isOpen : transcript.open? = some noted) :
    transcript.ask question = (none, transcript) := by
  simp [ask, isOpen]

end Transcript

namespace State

/-- The program as it is, in other surroundings. -/
def within {Outer : Type} (state : State Outer) (outer : Outer) : State Outer :=
  let machine := state.dos.machine
  let devices := { machine.devices with outer }
  { state with dos := { state.dos with machine := { machine with devices } } }

/-- The surroundings. -/
def outer {Outer : Type} (state : State Outer) : Outer := state.dos.machine.devices.outer

/-- The program with its outputs handed over. -/
def handedOver {Outer : Type} (state : State Outer) : State Outer :=
  { state with output := .empty, messages := .empty }

end State

end DosText.Script
