import DosText.Proofs.FileCommands

/-! Files that are written line by line and read in the same way. -/

namespace DosText

open Peripherals (Contents)

/-- The text of lines: each of them, and the carriage return that ends it. -/
def linesText (lines : List Bytes) : Bytes := lines.flatMap (· ++ [carriageReturn])

namespace Dos

variable {Devices Receiver : Type}

/-- Prints what makes a file of lines: the commands and, between them, the lines. -/
def writeLines (peripherals : Peripherals Devices) (name : Name) (lines : List Bytes) :
    Call Devices Receiver Unit := do
  command peripherals (.named .openFile name [])
  command peripherals (.named .write name [])
  print peripherals (linesText lines)
  command peripherals (.close name [])

/-- Asks for lines one after the other, each with its prompt. -/
def askLines (peripherals : Peripherals Devices) :
    List (Bytes × Receiver) → Call Devices Receiver Unit
  | [] => return ()
  | (prompt, receiver) :: rest => do
    let _ ← readLine peripherals prompt receiver
    askLines peripherals rest

/-- Prints a READ of a file, then asks for lines. -/
def readLines (peripherals : Peripherals Devices) (name : Name)
    (questions : List (Bytes × Receiver)) : Call Devices Receiver Unit := do
  command peripherals (.named .read name [])
  askLines peripherals questions

/-- The deliveries of lines to those who asked for them. -/
def lineDeliveries (questions : List (Bytes × Receiver)) (lines : List Bytes) :
    List (Delivery Receiver) :=
  List.zipWith (fun question line => ⟨question.2, .line line⟩) questions lines

variable {peripherals : Peripherals Devices} {held : Devices → Contents} {first : Contents}
variable {dos : Dos Devices Receiver} {buffer : Buffer} {lines : List Bytes}

/-- As many lines as there are before the end of a file are read in order. -/
theorem askLines_reading {questions : List (Bytes × Receiver)}
    (asked : questions.length = lines.length)
    (free : ∀ line ∈ lines, ∀ byte ∈ line, isLineEnd byte = false)
    (holds : dos.machine.session.Holds buffer)
    (redirected : dos.machine.session.redirection = .reading buffer.name)
    (content : buffer.content.isSome = true)
    (remaining : buffer.bytes.drop buffer.filePointer = linesText lines) :
    (askLines peripherals questions).Ensures dos fun outcome later =>
      outcome = .ok () ∧ later.deliveries = dos.deliveries ++ lineDeliveries questions lines ∧
        dos.machine.Hushed later.machine ∧
        ∃ last, later.machine.session.Holds last ∧
          later.machine.session.redirection = .reading last.name ∧
          last.content.isSome = true ∧ last.readLine = none := by
  induction questions generalizing dos buffer lines with
  | nil =>
    have done : lines = [] := List.eq_nil_of_length_eq_zero asked.symm
    subst done
    refine ⟨rfl, ?_, ⟨rfl, fun _ => rfl⟩, buffer, holds, redirected, content, ?_⟩
    · exact (List.append_nil dos.deliveries).symm
    · rw [Buffer.readLine_eq_none_iff]
      exact List.drop_eq_nil_iff.mp remaining
  | cons question others ih =>
    obtain ⟨prompt, receiver⟩ := question
    cases lines with
    | nil => cases asked
    | cons line rest =>
      obtain ⟨here, later⟩ := List.forall_mem_cons.mp free
      have split : buffer.bytes.drop buffer.filePointer =
          line ++ carriageReturn :: linesText rest := by
        rw [remaining, linesText, List.flatMap_cons, List.append_assoc]
        rfl
      have read := Buffer.readLine_of_drop here rfl split
      let after : Buffer :=
        { buffer with filePointer := buffer.filePointer + (line.length + 1) }
      have left : after.bytes.drop after.filePointer = linesText rest := by
        show buffer.bytes.drop (buffer.filePointer + (line.length + 1)) = _
        rw [← List.drop_drop, split]
        simp
      refine (readLine_reading holds redirected read prompt receiver).andThen ?_
      intro next ensured
      obtain ⟨holds, redirected, enqueued, -, hushed⟩ := ensured
      refine (ih (Nat.succ.inj asked) later holds redirected content left).mono ?_
      intro outcome last ensured
      obtain ⟨succeeds, deliveries, more, ended⟩ := ensured
      refine ⟨succeeds, ?_, hushed.trans more, ended⟩
      rw [deliveries, deliveries_of_enqueued enqueued, List.append_assoc]
      rfl

/-- A file of lines is made, and the store has it. -/
theorem writeLines_stores {name : Name} (steady : peripherals.Steady held first name)
    (plain : Command.IsPlainName name) (some : name ≠ [])
    (outside : dos.machine.session.commandMode = false)
    (absent : fileView dos.machine.session.buffers (held dos.machine.devices) first name = none)
    (begins : controlD ∉ linesText lines) :
    (writeLines peripherals name lines).Ensures dos fun outcome later =>
      outcome = .ok () ∧ later.machine.session.commandMode = false ∧
        later.machine.session.buffers.find? name = none ∧
        held later.machine.devices name = Option.some (linesText lines) ∧ dos.Quiet later := by
  obtain ⟨exposed, unstored, unseeded⟩ := exposed_of_absent absent
  unfold writeLines
  refine (command_openFile steady plain some Arguments.isSmall_none outside exposed).andThen ?_
  intro opened ensured
  obtain ⟨holds, -, quiet⟩ := ensured
  rw [unstored, unseeded] at holds
  have start : TextFile.writeOffset (.opened name 0 none) 0 0 < TextFile.offsetLimit := by
    show 0 < TextFile.offsetLimit
    decide
  refine (command_write steady.durable plain some Arguments.isSmall_none holds start).andThen ?_
  intro writing ensured
  obtain ⟨redirected, holds, writes⟩ := ensured
  refine (print_writing holds redirected rfl begins (.inl (Nat.zero_le _))).andThen ?_
  intro ended ensured
  obtain ⟨full, spliced, filled, -, prints⟩ := ensured
  have bytes? : full.bytes? = Option.some (linesText lines) := by
    rw [Buffer.bytes?_of_isSome (spliced.content rfl), spliced.bytes]
    exact congrArg Option.some (splice_length [] (linesText lines))
  have own : full.name = name := spliced.name
  subst own
  refine (command_close steady.durable plain some filled).mono ?_
  intro outcome later ensured
  obtain ⟨succeeds, idle, closed, stored, closes⟩ := ensured
  refine ⟨succeeds, idle, closed, ?_, ((quiet.trans writes).trans prints).trans closes⟩
  rw [stored, bytes?]
  rfl

/-- A file of lines is read back. -/
theorem readLines_reading {name : Name} (steady : peripherals.Steady held first name)
    (plain : Command.IsPlainName name) (some : name ≠ [])
    (outside : dos.machine.session.commandMode = false)
    (closed : dos.machine.session.buffers.find? name = none)
    (stored : held dos.machine.devices name = Option.some (linesText lines))
    (free : ∀ line ∈ lines, ∀ byte ∈ line, isLineEnd byte = false)
    {questions : List (Bytes × Receiver)} (asked : questions.length = lines.length) :
    (readLines peripherals name questions).Ensures dos fun outcome later =>
      outcome = .ok () ∧ later.deliveries = dos.deliveries ++ lineDeliveries questions lines ∧
        dos.machine.Hushed later.machine ∧
        ∃ last, later.machine.session.Holds last ∧
          later.machine.session.redirection = .reading last.name ∧
          last.content.isSome = true ∧ last.readLine = none := by
  let buffer : Buffer := .opened name 0 (Option.some (linesText lines))
  have readable : TextFile.Readable dos.machine.session (held dos.machine.devices) buffer :=
    .stored closed stored
  have start : 0 * buffer.recordLength < TextFile.offsetLimit := by
    rw [Nat.zero_mul]
    decide
  unfold readLines
  refine (command_read steady plain some Arguments.isSmall_none outside readable start).andThen ?_
  intro reading ensured
  obtain ⟨redirected, holds, quiet⟩ := ensured
  have remaining : (TextFile.aimed buffer 0 0).bytes.drop (TextFile.aimed buffer 0 0).filePointer =
      linesText lines := by
    have bytes : buffer.bytes = linesText lines := Buffer.bytes_opened name 0 _
    exact bytes
  refine (askLines_reading asked free holds redirected rfl remaining).mono ?_
  intro outcome later ensured
  obtain ⟨succeeds, deliveries, hushed, ended⟩ := ensured
  refine ⟨succeeds, ?_, quiet.hushed.trans hushed, ended⟩
  rw [deliveries, quiet.deliveries]

/-- Lines that are written into a new file are in the store when it is closed, and are read back one
by one, in order and each as it was; then the data ends. If nothing is traced, nothing of this is
shown. -/
theorem writeLines_readLines {name : Name} (steady : peripherals.Steady held first name)
    (plain : Command.IsPlainName name) (some : name ≠ [])
    (outside : dos.machine.session.commandMode = false)
    (absent : fileView dos.machine.session.buffers (held dos.machine.devices) first name = none)
    (free : ∀ line ∈ lines, ∀ byte ∈ line, byte ≠ controlD ∧ isLineEnd byte = false) :
    ∃ closed, writeLines peripherals name lines dos = (.ok (), closed) ∧
      held closed.machine.devices name = Option.some (linesText lines) ∧
      closed.deliveries = dos.deliveries ∧
      ∀ questions : List (Bytes × Receiver), questions.length = lines.length →
        ∃ heard, readLines peripherals name questions closed = (.ok (), heard) ∧
          heard.deliveries = dos.deliveries ++ lineDeliveries questions lines ∧
          (∀ prompt receiver,
            readLine peripherals prompt receiver heard = (.error .endOfData, heard)) ∧
          (dos.machine.session.monitor = .off →
            closed.machine.shown.toBytes = dos.machine.shown.toBytes ∧
              heard.machine.shown.toBytes = dos.machine.shown.toBytes) := by
  have ended : ∀ line ∈ lines, ∀ byte ∈ line, isLineEnd byte = false :=
    fun line member byte part => (free line member byte part).2
  have begins : controlD ∉ linesText lines := by
    intro member
    obtain ⟨line, among, part⟩ := List.mem_flatMap.mp member
    rcases List.mem_append.mp part with inside | last
    · exact (free line among controlD inside).1 rfl
    · cases List.mem_singleton.mp last
  obtain ⟨closed, wrote, idle, unopened, stored, quiet⟩ :=
    (writeLines_stores steady plain some outside absent begins).exists_run
  refine ⟨closed, wrote, stored, quiet.deliveries, ?_⟩
  intro questions asked
  obtain ⟨heard, read, deliveries, hushed, last, holds, redirected, present, done⟩ :=
    (readLines_reading steady plain some idle unopened stored ended asked).exists_run
  refine ⟨heard, read, ?_, ?_, ?_⟩
  · rw [deliveries, quiet.deliveries]
  · exact fun prompt receiver => readLine_ended holds redirected present done prompt receiver
  · intro off
    exact ⟨quiet.hushed.shown off, (quiet.hushed.trans hushed).shown off⟩

/-- A name may hold spaces, and a line may be empty. -/
theorem writeLines_readLines_spaces :
    let name := ascii "TWO WORDS "
    let lines := [ascii "FIRST", [], ascii "THIRD"]
    let start : Dos (Catalog Name Bytes) Nat := .initial .off .empty
    ∃ closed heard, writeLines (.inMemory .empty .none) name lines start = (.ok (), closed) ∧
      closed.machine.devices.find? name = some (ascii "FIRST\r\rTHIRD\r") ∧
      readLines (.inMemory .empty .none) name [([], 1), ([], 2), ([], 3)] closed = (.ok (), heard) ∧
      heard.deliveries.map Delivery.receiver = [1, 2, 3] ∧
      heard.deliveries.map Delivery.item = lines.map Item.line := by
  intro name lines start
  have steady := (Peripherals.reliable_inMemory .empty).steady name
  have outside : start.machine.session.commandMode = false := rfl
  have absent : fileView start.machine.session.buffers (Catalog.find? start.machine.devices)
      (Catalog.empty : Catalog Name Bytes).find? name = none := rfl
  have free : ∀ line ∈ lines, ∀ byte ∈ line, byte ≠ controlD ∧ isLineEnd byte = false := by
    decide +kernel
  obtain ⟨closed, wrote, stored, _, reads⟩ :=
    writeLines_readLines steady (by decide) (by decide) outside absent free
  obtain ⟨heard, read, deliveries, _, _⟩ := reads [([], 1), ([], 2), ([], 3)] rfl
  refine ⟨closed, heard, wrote, stored, read, ?_, ?_⟩
  · rw [deliveries]
    rfl
  · rw [deliveries]
    rfl

end Dos

end DosText
