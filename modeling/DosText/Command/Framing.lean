import DosText.Bytes

/-! Finds the command lines in printed text. Ctrl-D begins a command, a carriage return ends
it, and everything outside commands is plain text. -/

namespace DosText

/-- What a printed byte turns out to be. -/
inductive Printed where
  /-- A byte outside commands. -/
  | plain (byte : UInt8)
  /-- A byte that begins a command or belongs to one that has not ended. -/
  | held
  /-- The end of a command with this line. -/
  | command (line : Bytes)
  deriving DecidableEq, Repr

namespace Printed

/-- What a byte is when the part of a command before it is known, and the part of a command
known after it. The latest byte of a part comes first. -/
def ofByte (pending : Option Bytes) (byte : UInt8) : Printed × Option Bytes :=
  match pending with
  | some typed =>
    if byte = carriageReturn then (command typed.reverse, none) else (held, some (byte :: typed))
  | none => if byte = controlD then (held, some []) else (plain byte, none)

/-- What the bytes of a text are, one after the other. -/
def ofBytes (pending : Option Bytes) : Bytes → List Printed × Option Bytes
  | [] => ([], pending)
  | byte :: rest =>
    let first := ofByte pending byte
    let later := ofBytes first.2 rest
    (first.1 :: later.1, later.2)

/-- The command lines among printed bytes, in order. -/
def commands (printed : List Printed) : List Bytes :=
  printed.filterMap fun
    | command line => some line
    | _ => none

/-- The bytes outside commands, in order. -/
def plains (printed : List Printed) : Bytes :=
  printed.filterMap fun
    | plain byte => some byte
    | _ => none

/-- Only a carriage return ends a command, and nothing of the command is left then. -/
theorem ofByte_eq_command {pending later : Option Bytes} {byte : UInt8} {line : Bytes}
    (ended : ofByte pending byte = (command line, later)) :
    byte = carriageReturn ∧ pending.map List.reverse = some line ∧ later = none := by
  unfold ofByte at ended
  split at ended
  · split at ended
    · next ends =>
      cases ended
      exact ⟨ends, rfl, rfl⟩
    · cases ended
  · split at ended <;> cases ended

/-- A byte is plain only outside commands, and begins none. -/
theorem ofByte_eq_plain {pending later : Option Bytes} {byte plain : UInt8}
    (outside : ofByte pending byte = (.plain plain, later)) :
    plain = byte ∧ pending = none ∧ later = none := by
  unfold ofByte at outside
  split at outside
  · split at outside <;> cases outside
  · split at outside
    · cases outside
    · cases outside
      exact ⟨rfl, rfl, rfl⟩

theorem ofBytes_append (pending : Option Bytes) (first second : Bytes) :
    ofBytes pending (first ++ second) =
      ((ofBytes pending first).1 ++ (ofBytes (ofBytes pending first).2 second).1,
        (ofBytes (ofBytes pending first).2 second).2) := by
  induction first generalizing pending with
  | nil => rfl
  | cons byte rest ih => simp [ofBytes, ih]

/-- Within a command, everything up to the next carriage return is held. -/
theorem ofBytes_held (typed text : Bytes) (inside : ∀ byte ∈ text, byte ≠ carriageReturn) :
    ofBytes (some typed) text =
      (List.replicate text.length held, some (text.reverse ++ typed)) := by
  induction text generalizing typed with
  | nil => simp [ofBytes]
  | cons byte rest ih =>
    have here : byte ≠ carriageReturn := inside byte List.mem_cons_self
    have later := ih (byte :: typed) fun other member =>
      inside other (List.mem_cons_of_mem byte member)
    simp [ofBytes, ofByte, here, later, List.replicate_succ]

/-- Ctrl-D, a line and a carriage return are that line as a command. -/
theorem commands_ofBytes_line (line : Bytes) (inside : ∀ byte ∈ line, byte ≠ carriageReturn) :
    commands (ofBytes none (controlD :: line ++ [carriageReturn])).1 = [line] := by
  have held := ofBytes_held [] line inside
  simp [ofBytes, ofBytes_append, held, ofByte, commands]

end Printed

end DosText
