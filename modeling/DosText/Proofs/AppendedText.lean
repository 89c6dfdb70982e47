import DosText.Proofs.FileCommands

/-! Text that a program appends to a file at the terminal. APPEND puts the pointer at the end of the
file, and a WRITE leaves it there only where the file is read and written in sequence: where records
have a length, a WRITE that names no record goes to the first. -/

namespace DosText

open Peripherals (Contents)

/-- A file as APPEND opens it, its pointer at the end. -/
def Buffer.openedAtEnd (name : Name) (recordLength : Nat) (content : Bytes) : Buffer :=
  let buffer := opened name recordLength (some content)
  { buffer with
    filePointer := content.length
    recordNumber := content.length / buffer.recordLength }

namespace TextFile

/-- A file that exists, and what the system has for it: what is open under its name counts, and what
the store holds only if nothing is. -/
inductive Contains (session : Session) (held : Contents) (name : Name) (content : Bytes) :
    Prop where
  | opened {buffer : Buffer} (found : session.buffers.find? name = some buffer)
    (bytes? : buffer.bytes? = some content)
  | stored (closed : session.buffers.find? name = none) (stored : held name = some content)

/-- What the system has for a name depends on the open files alone, as far as the session goes. -/
theorem Contains.congr {session other : Session} {held : Contents} {name : Name} {content : Bytes}
    (contains : Contains session held name content) (buffers : other.buffers = session.buffers) :
    Contains other held name content := by
  cases contains with
  | opened found bytes? => exact .opened (buffers ▸ found) bytes?
  | stored closed stored => exact .stored (buffers ▸ closed) stored

section Appending

variable {Devices : Type} {peripherals : Peripherals Devices} {held : Devices → Contents}
variable {session after : Session} {name : Name} {calls : List Peripherals.Call}
variable {devices last : Devices} {content : Bytes}

/-- Content that the store holds is found there, and the source is not asked. -/
theorem Loads.of_stored (durable : peripherals.Durable held)
    {found : Except Fault (Option Bytes)} (loads : Loads name calls found)
    (served : peripherals.Serves calls devices last) (stored : held devices name = some content) :
    found = .ok (some content) := by
  obtain ⟨got, asked⟩ := durable.gets name devices
  have same := durable.got name devices got asked
  rw [stored] at same
  subst same
  cases loads with
  | stored other =>
    cases served.1.symm.trans asked
    rfl
  | _ => cases served.1.symm.trans asked

theorem Finds.of_contains (durable : peripherals.Durable held)
    {found : Except Fault (Option Bytes)} (finds : Finds session name calls found)
    (served : peripherals.Serves calls devices last)
    (contains : Contains session (held devices) name content) : found = .ok (some content) := by
  cases contains with
  | opened already bytes? =>
    cases finds with
    | opened again =>
      cases already.symm.trans again
      exact congrArg Except.ok bytes?
    | loaded closed loads => cases already.symm.trans closed
  | stored closed stored =>
    cases finds with
    | opened already => cases closed.symm.trans already
    | loaded _ loads => exact loads.of_stored durable served stored

/-- Where the store does not fail, the file that stood open makes room. -/
theorem Installs.of_durable (durable : peripherals.Durable held) {recordLength : Nat}
    {content : Option Bytes} {installed : Except Fault Buffer}
    (installs : Installs session name recordLength content calls installed after)
    (served : peripherals.Serves calls devices last) :
    installed = .ok (.opened name recordLength content) := by
  cases installs with
  | fresh closed => rfl
  | replaced found flushed => rfl
  | refused found failed =>
    cases failed with
    | refused some failure => cases served.1.symm.trans (durable.sets _ _ _)

/-- A file that exists is opened at its end. -/
theorem Effect.appendFile_of_contains (durable : peripherals.Durable held) {recordLength : Nat}
    {outcome : Except Fault Unit}
    (effect : Effect session (.appendFile name recordLength) calls outcome after)
    (served : peripherals.Serves calls devices last)
    (contains : Contains session (held devices) name content) :
    outcome = .ok () ∧ after.buffers.find? name =
      some (.openedAtEnd name recordLength content) := by
  cases effect with
  | appendUnread finds => cases finds.of_contains durable served contains
  | appendAbsent finds => cases finds.of_contains durable served contains
  | appendRefused finds installs =>
    obtain ⟨between, found, opened⟩ := served.split
    cases installs.of_durable durable opened
  | @appended _ _ _ _ _ _ opened finds installs =>
    obtain ⟨between, found, begun⟩ := served.split
    cases finds.of_contains durable found contains
    cases installs.of_durable durable begun
    exact ⟨rfl, opened.find?_keep_self _⟩
  | idle relies other => cases relies
  | unmet relies same absent => cases relies

/-- A WRITE that names no record leaves the pointer at the end, or puts it at the beginning. -/
theorem writeOffset_openedAtEnd (name : Name) (recordLength : Nat) (content : Bytes) :
    writeOffset (.openedAtEnd name recordLength content) 0 0 =
      if recordLength ≤ 1 then content.length else 0 := by
  by_cases sequential : recordLength ≤ 1
  · have length : ¬(Buffer.openedAtEnd name recordLength content).recordLength > 1 :=
      Nat.not_lt.mpr (Nat.max_le.mpr ⟨sequential, le_rfl⟩)
    rw [writeOffset, if_neg length, if_pos sequential]
    rfl
  · have length : (Buffer.openedAtEnd name recordLength content).recordLength > 1 :=
      lt_of_lt_of_le (Nat.not_le.mp sequential) (Nat.le_max_left _ _)
    rw [writeOffset, if_pos length, if_neg sequential, Nat.zero_mul]

/-- The file that output is directed to then, and what a text makes of it. -/
theorem written_openedAtEnd (name : Name) (recordLength : Nat) (content text : Bytes) :
    let file := written (.openedAtEnd name recordLength content) 0 0
    file.filePointer ≤ content.length ∧ file.bytes = content ∧
      splice file.bytes file.filePointer text =
        if recordLength ≤ 1 then content ++ text else text ++ content.drop text.length := by
  intro file
  have pointer : file.filePointer = if recordLength ≤ 1 then content.length else 0 :=
    writeOffset_openedAtEnd name recordLength content
  have bytes : file.bytes = content := PackedBytes.toBytes_ofBytes content
  rw [pointer, bytes]
  split
  · exact ⟨le_rfl, rfl, splice_length content text⟩
  · exact ⟨Nat.zero_le _, rfl, splice_zero content text⟩

end Appending

end TextFile

/-- A text that takes the place of the beginning of a content stands behind it only if one of them
is empty. -/
theorem append_drop_eq_append_iff {content text : Bytes} :
    text ++ content.drop text.length = content ++ text ↔ content = [] ∨ text = [] := by
  constructor
  · intro same
    have length := congrArg List.length same
    simp only [List.length_append, List.length_drop] at length
    rw [← List.length_eq_zero_iff, ← List.length_eq_zero_iff]
    omega
  · rintro (rfl | rfl)
    · simp
    · simp

namespace Dos

variable {Devices Receiver : Type}

/-- Opens a file at its end, directs output to it, prints a text and closes the file. -/
def appendText (peripherals : Peripherals Devices) (name : Name) (length? : Option Nat)
    (text : Bytes) : Call Devices Receiver Unit := do
  command peripherals (.named .appendFile name (Arguments.textOf .length length?))
  command peripherals (.named .write name [])
  print peripherals text
  command peripherals (.close name [])

variable {peripherals : Peripherals Devices} {held : Devices → Contents}
variable {dos : Dos Devices Receiver} {name : Name} {length? : Option Nat} {content text : Bytes}

/-- An APPEND finds the end of a file that exists. -/
theorem command_appendFile (durable : peripherals.Durable held)
    (plain : Command.IsPlainName name) (some : name ≠ []) (small : Arguments.IsSmall length?)
    (outside : dos.machine.session.commandMode = false)
    (contains : TextFile.Contains dos.machine.session (held dos.machine.devices) name content) :
    (Dos.command peripherals (.named .appendFile name (Arguments.textOf .length length?))).Ensures
      dos fun outcome later => outcome = .ok () ∧
        later.machine.session.Holds (.openedAtEnd name (length?.getD 0) content) := by
  have well := Command.wellFormed_textOf .appendFile .length length? plain some
  refine (command_effects peripherals well (Command.order?_appendFile plain some small)
    outside).mono ?_
  intro outcome later ensured
  obtain ⟨calls, effect, served, idle, -⟩ := ensured
  obtain ⟨succeeds, found⟩ := effect.appendFile_of_contains durable served (contains.congr rfl)
  exact ⟨succeeds, found, idle⟩

/-- What the store holds once a text was printed to a file that was opened at its end. -/
theorem appendText_ensures (durable : peripherals.Durable held)
    (plain : Command.IsPlainName name) (some : name ≠ []) (small : Arguments.IsSmall length?)
    (outside : dos.machine.session.commandMode = false)
    (contains : TextFile.Contains dos.machine.session (held dos.machine.devices) name content)
    (fits : content.length < TextFile.offsetLimit) (begins : controlD ∉ text) :
    (appendText peripherals name length? text).Ensures dos fun outcome later =>
      outcome = .ok () ∧ held later.machine.devices name = Option.some
        (if length?.getD 0 ≤ 1 then content ++ text else text ++ content.drop text.length) := by
  let file := TextFile.written (.openedAtEnd name (length?.getD 0) content) 0 0
  obtain ⟨within, bytes, changed⟩ :=
    TextFile.written_openedAtEnd name (length?.getD 0) content text
  unfold appendText
  refine (command_appendFile durable plain some small outside contains).andThen ?_
  intro opened ensured
  refine (command_write durable plain some Arguments.isSmall_none ensured
    (Nat.lt_of_le_of_lt within fits)).andThen ?_
  intro writing ensured
  obtain ⟨redirected, holds, -⟩ := ensured
  have reachable : file.filePointer ≤ file.bytes.length := bytes.symm ▸ within
  refine (print_writing holds redirected rfl begins (.inl reachable)).andThen ?_
  intro printed ensured
  obtain ⟨full, spliced, filled, -, -⟩ := ensured
  have own : full.name = name := spliced.name
  have final : full.bytes? = _ := Buffer.bytes?_of_isSome (spliced.content rfl)
  subst own
  refine (command_close durable plain some filled).mono ?_
  intro outcome later ensured
  obtain ⟨succeeds, -, -, stored, -⟩ := ensured
  refine ⟨succeeds, ?_⟩
  rw [stored, final, spliced.bytes]
  exact congrArg Option.some changed

/-- Where the store does not fail and whatever the source has, a text is appended to a file that is
read and written in sequence. Where its records have a length of two bytes or more, the text takes
the place of as many bytes at the beginning of the file; so it is only appended to an empty file, or
if it is empty. -/
theorem appendText_stores (durable : peripherals.Durable held)
    (plain : Command.IsPlainName name) (some : name ≠ []) (small : Arguments.IsSmall length?)
    (outside : dos.machine.session.commandMode = false)
    (contains : TextFile.Contains dos.machine.session (held dos.machine.devices) name content)
    (fits : content.length < TextFile.offsetLimit) (begins : controlD ∉ text) :
    ∃ later, appendText peripherals name length? text dos = (.ok (), later) ∧
      held later.machine.devices name = Option.some
        (if length?.getD 0 ≤ 1 then content ++ text else text ++ content.drop text.length) ∧
      (held later.machine.devices name = Option.some (content ++ text) ↔
        length?.getD 0 ≤ 1 ∨ content = [] ∨ text = []) := by
  obtain ⟨later, run, stored⟩ :=
    (appendText_ensures durable plain some small outside contains fits begins).exists_run
  refine ⟨later, run, stored, ?_⟩
  rw [stored, Option.some.injEq]
  by_cases sequential : length?.getD 0 ≤ 1
  · rw [if_pos sequential]
    exact iff_of_true rfl (.inl sequential)
  · rw [if_neg sequential, append_drop_eq_append_iff]
    exact (or_iff_right sequential).symm

/-- A system with one file in its store. -/
def storing (content : Bytes) : Dos (Catalog Name Bytes) Unit :=
  .initial .off (Catalog.empty.insert (ascii "F") content)

theorem contains_storing (content : Bytes) :
    TextFile.Contains (storing content).machine.session
      (Catalog.find? (storing content).machine.devices) (ascii "F") content :=
  .stored rfl (Catalog.find?_insert_self Catalog.empty (ascii "F") content)

/-- Without a length, a text is appended. -/
theorem appendText_stores_sequential :
    ∃ later, appendText (.inMemory .empty .none) (ascii "F") none (ascii "c")
        (storing (ascii "ab")) = (.ok (), later) ∧
      later.machine.devices.find? (ascii "F") = some (ascii "ab" ++ ascii "c") := by
  have durable := (Peripherals.reliable_inMemory .empty).durable
  obtain ⟨later, run, -, appended⟩ := appendText_stores durable (by decide) (by decide)
    Arguments.isSmall_none rfl (contains_storing (ascii "ab")) (by decide +kernel)
    (show controlD ∉ ascii "c" by decide +kernel)
  exact ⟨later, run, appended.mpr (.inl (Nat.zero_le 1))⟩

/-- Where records have a length of two bytes, a text is put in place of what the store held,
although the store does not fail. -/
theorem appendText_overwrites :
    let peripherals := Peripherals.inMemory .empty .none
    peripherals.Durable Catalog.find? ∧ Command.IsPlainName (ascii "F") ∧ controlD ∉ ascii "y" ∧
      (storing (ascii "x")).machine.devices.find? (ascii "F") = some (ascii "x") ∧
      ∃ later, appendText peripherals (ascii "F") (some 2) (ascii "y") (storing (ascii "x")) =
          (.ok (), later) ∧
        later.machine.devices.find? (ascii "F") = some (ascii "y") ∧
        later.machine.devices.find? (ascii "F") ≠ some (ascii "x" ++ ascii "y") := by
  intro peripherals
  have durable : peripherals.Durable Catalog.find? :=
    (Peripherals.reliable_inMemory .empty).durable
  have begins : controlD ∉ ascii "y" := by decide +kernel
  obtain ⟨later, run, stored⟩ := (appendText_ensures durable (by decide) (by decide)
    (Arguments.isSmall_some (show 2 ≤ Arguments.largestValue by decide)) rfl
    (contains_storing (ascii "x")) (by decide +kernel) begins).exists_run
  have replaced : later.machine.devices.find? (ascii "F") = some (ascii "y") := stored
  refine ⟨durable, by decide, begins, rfl, later, run, replaced, ?_⟩
  rw [replaced]
  decide +kernel

end Dos

end DosText
