import DosText.Proofs.FileCommands

/-! Text that is handed to the active file character by character, outside the terminal. Whatever
the file contains and wherever its pointer stands, the text ends up as one splice, or the gap
before it cannot be filled and nothing changes; a READ from where it was begun then finds it. -/

namespace DosText.TextFile

variable {Devices : Type} {machine : Machine Devices} {buffer : Buffer}

theorem perform_writeCharacter_of_relied {peripherals : Peripherals Devices} {name : Name}
    (relied : machine.session.relied? .write = some name) (byte : UInt8) :
    (Operation.writeCharacter byte).perform peripherals machine =
      writeCharacter name peripherals.platform.fillLimit byte machine := by
  have mode := (Session.relied?_eq_some_iff.mp relied).1
  simp only [Operation.perform, Attempt.bind_apply, Attempt.get_apply, if_pos mode]
  exact writeActiveCharacter_of_relied relied byte

/-- A file that output relies on still has content when it is written to. -/
theorem relied?_of_written {session : Session} {name : Name} {limit : Nat} {byte : UInt8}
    {written : Buffer} (relied : session.relied? .write = some name)
    (wrote : (session.buffers.find? name).bind (·.writeByte limit byte) = some written) :
    (session.keep written).relied? .write = some name := by
  obtain ⟨mode, active, content⟩ := Session.relied?_eq_some_iff.mp relied
  obtain ⟨_, _, present, _⟩ := writeByte_keeps wrote
  refine Session.relied?_eq_some_iff.mpr ⟨mode, active, ?_⟩
  rw [Session.find?_keep]
  split
  · exact present
  · exact content

/-- Operations that write one character each write a text into the active file: none of them
changes where output goes. -/
theorem forM_writeCharacter_of_relied {peripherals : Peripherals Devices} {name : Name}
    (text : Bytes) (relied : machine.session.relied? .write = some name) :
    (forM text fun byte => (Operation.writeCharacter byte).perform peripherals) machine =
      writeCharacters name text peripherals.platform.fillLimit machine := by
  induction text generalizing machine with
  | nil => rfl
  | cons byte rest ih =>
    have here : (Operation.writeCharacter byte).perform peripherals machine = _ :=
      perform_writeCharacter_of_relied relied byte
    rw [List.forM_cons, writeCharacters]
    cases wrote : (machine.session.buffers.find? name).bind
      (·.writeByte peripherals.platform.fillLimit byte) with
    | some written =>
      have done := writeCharacter_of_written wrote
      rw [Attempt.bind_of_ok _ (here.trans done), Attempt.bind_of_ok _ done]
      exact ih (relied?_of_written relied wrote)
    | none =>
      obtain ⟨log, failed⟩ := writeCharacter_of_refused wrote
      rw [Attempt.bind_of_error _ (here.trans failed), Attempt.bind_of_error _ failed]

/-- Characters are written as a file takes them, and nothing else happens. -/
theorem writeCharacters_of_writeBytes {limit : Nat} {text : Bytes} {written : Buffer}
    (found : machine.session.buffers.find? buffer.name = some buffer)
    (wrote : buffer.writeBytes limit text = some written) :
    writeCharacters buffer.name text limit machine =
      (.ok (), { machine with session := machine.session.keep written }) := by
  induction text generalizing machine buffer with
  | nil =>
    cases wrote
    rw [Session.keep_of_find? found]
    rfl
  | cons byte rest ih =>
    obtain ⟨between, put, continued⟩ := Option.bind_eq_some_iff.mp wrote
    have stored : (machine.session.buffers.find? buffer.name).bind (·.writeByte limit byte) =
        some between := by
      rw [found]
      exact put
    have own := Buffer.name_of_writeByte put
    have last := Buffer.name_of_writeBytes continued
    let next : Machine Devices := { machine with session := machine.session.keep between }
    have others : writeCharacters between.name rest limit next =
        (.ok (), { machine with session := (machine.session.keep between).keep written }) :=
      ih (machine.session.find?_keep_self between) continued
    rw [Session.keep_keep _ last, own] at others
    exact (Attempt.bind_of_ok _ (writeCharacter_of_written stored)).trans others

/-- Where the gap before a character cannot be filled, it is not written. -/
theorem writeCharacter_of_unreachable {limit : Nat} (byte : UInt8)
    (found : machine.session.buffers.find? buffer.name = some buffer)
    (beyond : buffer.bytes.length < buffer.filePointer) (far : limit ≤ buffer.filePointer) :
    ∃ log, writeCharacter buffer.name limit byte machine =
      (.error .ioError, { machine with log }) := by
  apply writeCharacter_of_refused
  rw [found]
  exact (Buffer.writeByte_eq_none_iff byte).mpr ⟨beyond, far⟩

/-- A character that is read comes before those read after it. -/
theorem readCharacters_succ {name : Name} {byte : UInt8} {bytes : Bytes} {fault? : Option Fault}
    {count : Nat} {next later : Machine Devices}
    (read : readCharacter name machine = (.ok byte, next))
    (others : readCharacters name count next = (.ok (bytes, fault?), later)) :
    readCharacters name (count + 1) machine = (.ok (byte :: bytes, fault?), later) := by
  rw [readCharacters, Attempt.recover_apply, Attempt.bind_of_ok _ read,
    Attempt.bind_of_ok _ others]
  rfl

/-- Characters that stand at the pointer are read, and the pointer moves behind them. -/
theorem readCharacters_of_drop {text rest : Bytes}
    (found : machine.session.buffers.find? buffer.name = some buffer)
    (stands : buffer.bytes.drop buffer.filePointer = text ++ rest) :
    readCharacters buffer.name text.length machine =
      (.ok (text, none), { machine with
        session := machine.session.keep
          { buffer with filePointer := buffer.filePointer + text.length } }) := by
  induction text generalizing machine buffer with
  | nil =>
    rw [List.length_nil, Nat.add_zero, Session.keep_of_find? found]
    rfl
  | cons byte text ih =>
    let moved : Buffer := { buffer with filePointer := buffer.filePointer + 1 }
    let next : Machine Devices := { machine with session := machine.session.keep moved }
    have here : buffer.bytes[buffer.filePointer]? = some byte := by
      rw [← List.head?_drop, stands]
      rfl
    have read : readCharacter buffer.name machine = (.ok byte, next) := by
      rw [readCharacter_apply, found, Option.bind_some, Buffer.readByte_eq, here]
      rfl
    have behind : moved.bytes.drop moved.filePointer = text ++ rest := by
      show buffer.bytes.drop (buffer.filePointer + 1) = _
      rw [← List.drop_drop, stands]
      rfl
    let last : Buffer := { moved with filePointer := moved.filePointer + text.length }
    have others : readCharacters moved.name text.length next =
        (.ok (text, none), { next with session := next.session.keep last }) :=
      ih (machine.session.find?_keep_self moved) behind
    have kept : next.session.keep last = machine.session.keep last :=
      machine.session.keep_keep rfl
    have length : buffer.filePointer + 1 + text.length =
        buffer.filePointer + (byte :: text).length := by
      rw [List.length_cons]
      omega
    rw [kept] at others
    rw [← length]
    exact readCharacters_succ read others

/-- A READ of an open file that has content moves its pointer and redirects input to it. -/
theorem read_of_found {peripherals : Peripherals Devices} {record byte : Nat}
    (found : machine.session.buffers.find? buffer.name = some buffer)
    (present : buffer.content.isSome = true)
    (fits : byte + record * buffer.recordLength < offsetLimit) :
    read peripherals buffer.name record byte machine =
      (.ok (), { machine with
        session := (machine.session.keep (aimed buffer record byte)).activate .read
          buffer.name }) := by
  have opened : openedForReading peripherals buffer.name machine = (.ok buffer, machine) := by
    unfold openedForReading find?
    simp only [Attempt.bind_apply, Attempt.get_apply, Attempt.pure_apply, found, present, if_true]
  rw [read, Attempt.bind_of_ok _ opened, offset_eq, if_pos fits]
  rfl

/-- A machine in which input comes from a file, from a byte on. -/
def readingFrom (machine : Machine Devices) (buffer : Buffer) (byte : Nat) : Machine Devices :=
  { machine with
    session := (machine.session.keep { buffer with
      filePointer := byte, recordNumber := 0 }).activate .read buffer.name }

/-- A file that has just been put into a machine can be read from any byte. -/
theorem read_keep {peripherals : Peripherals Devices} {byte : Nat}
    (present : buffer.content.isSome = true) (fits : byte < offsetLimit) :
    read peripherals buffer.name 0 byte
        { machine with session := machine.session.keep buffer } =
      (.ok (), readingFrom machine buffer byte) := by
  have aim : byte + 0 * buffer.recordLength = byte := by rw [Nat.zero_mul, Nat.add_zero]
  have kept : (machine.session.keep buffer).keep (aimed buffer 0 byte) =
      machine.session.keep (aimed buffer 0 byte) := machine.session.keep_keep rfl
  rw [read_of_found (machine.session.find?_keep_self buffer) present (aim.symm ▸ fits), kept, aimed,
    aim]
  rfl

/-- Characters that stand at a byte are read from there on. -/
theorem readCharacters_readingFrom {text rest : Bytes} {byte : Nat}
    (stands : buffer.bytes.drop byte = text ++ rest) :
    readCharacters buffer.name text.length (readingFrom machine buffer byte) =
      (.ok (text, none), readingFrom machine buffer (byte + text.length)) := by
  let first : Buffer := { buffer with filePointer := byte, recordNumber := 0 }
  let last : Buffer := { first with filePointer := byte + text.length }
  have found : (readingFrom machine buffer byte).session.buffers.find? first.name = some first :=
    machine.session.find?_keep_self first
  have kept : (machine.session.keep first).keep last = machine.session.keep last :=
    machine.session.keep_keep rfl
  have left : (readingFrom machine buffer byte).session.keep last =
      (readingFrom machine buffer (byte + text.length)).session :=
    congrArg (·.activate .read buffer.name) kept
  have characters := readCharacters_of_drop found stands
  rw [characters, left]
  rfl

/-- A text that is written to the active file, a character at a time, is one splice at its pointer,
behind which the pointer stands then, and nothing else changes; a READ from where it was begun makes
it come back character by character. If the pointer lies behind the end of the data and the gap
cannot be filled, the first character already is refused, and nothing but the log has changed. -/
theorem written_text_reads_back (peripherals : Peripherals Devices) {text : Bytes}
    (redirected : machine.session.redirection = .writing buffer.name)
    (found : machine.session.buffers.find? buffer.name = some buffer)
    (present : buffer.content.isSome = true) (addressable : buffer.filePointer < offsetLimit)
    (nonempty : text ≠ []) :
    let write (byte : UInt8) := (Operation.writeCharacter byte).perform peripherals
    let limit := peripherals.platform.fillLimit
    let pointer := buffer.filePointer
    let written := buffer.spliced text
    (pointer ≤ buffer.bytes.length ∨ pointer < limit →
      let after : Machine Devices := { machine with session := machine.session.keep written }
      forM text write machine = (.ok (), after) ∧
        read peripherals buffer.name 0 pointer after =
          (.ok (), readingFrom machine written pointer) ∧
        readCharacters buffer.name text.length (readingFrom machine written pointer) =
          (.ok (text, none), readingFrom machine written (pointer + text.length))) ∧
      (buffer.bytes.length < pointer → limit ≤ pointer →
        ∀ byte, ∃ log, write byte machine = (.error .ioError, { machine with log })) := by
  intro write limit pointer written
  have relied := Session.relied?_of_writing redirected found present
  refine ⟨?_, ?_⟩
  · intro reachable after
    obtain ⟨full, wrote, spliced⟩ :=
      Buffer.exists_writeBytes (reachable.imp_right fun fillable => ⟨fillable, nonempty⟩)
    obtain rfl : full = written := spliced.eq_spliced present
    have reread : written.bytes.drop pointer =
        text ++ buffer.bytes.drop (pointer + text.length) := by
      rw [Buffer.bytes_spliced, drop_splice]
    rw [forM_writeCharacter_of_relied text relied]
    exact ⟨writeCharacters_of_writeBytes found wrote, read_keep rfl addressable,
      readCharacters_readingFrom reread⟩
  · intro beyond far byte
    have here : write byte machine = writeCharacter buffer.name limit byte machine :=
      perform_writeCharacter_of_relied relied byte
    rw [here]
    exact writeCharacter_of_unreachable byte found beyond far

/-- A machine in which one file is open and output goes there. -/
def writingTo (file : Buffer) : Machine (Catalog Name Bytes) :=
  ⟨((Session.initial .off).keep file).activate .write file.name, .empty, .empty, .empty⟩

/-- Behind the end of the data, NULs fill the gap before a text, and it is read back alone. Too far
behind it, nothing can be written. -/
theorem written_text_reads_back_gap :
    let file (filePointer : Nat) : Buffer :=
      ⟨ascii "F", some (.ofBytes (ascii "abc")), 1, 0, filePointer⟩
    let content := ascii "abc" ++ [0, 0] ++ ascii "xy"
    let written : Buffer := ⟨ascii "F", some (.ofBytes content), 1, 0, 7⟩
    let write (byte : UInt8) :=
      (Operation.writeCharacter byte).perform (Peripherals.inMemory .empty .none)
    let machine := writingTo (file 5)
    let limit := (Platform.standard : Platform (Catalog Name Bytes)).fillLimit
    let distant := writingTo (file limit)
    forM (ascii "xy") write machine =
        (.ok (), { machine with session := machine.session.keep written }) ∧
      (readCharacters (ascii "F") 2 (readingFrom machine written 5)).1 = .ok (ascii "xy", none) ∧
      ∃ log, write (code 'x') distant = (.error .ioError, { distant with log }) := by
  intro file content written write machine limit distant
  have found (filePointer : Nat) :
      (writingTo (file filePointer)).session.buffers.find? (ascii "F") = some (file filePointer) :=
    (Session.initial .off).find?_keep_self (file filePointer)
  have some : ascii "xy" ≠ [] := by decide
  have reachable : (file 5).filePointer ≤ (file 5).bytes.length ∨ 5 < limit := by
    decide
  have filled : (file 5).spliced (ascii "xy") = written := by decide
  obtain ⟨succeeds, -⟩ := written_text_reads_back (.inMemory .empty .none) (rfl :
    machine.session.redirection = .writing (file 5).name) (found 5) rfl (by decide) some
  obtain ⟨-, fails⟩ := written_text_reads_back (.inMemory .empty .none) (rfl :
    distant.session.redirection = .writing (file limit).name)
    (found limit) rfl (by decide) some
  obtain ⟨wrote, -, reread⟩ := succeeds reachable
  rw [filled] at wrote reread
  exact ⟨wrote, congrArg Prod.fst reread, fails (by decide) (by decide) (code 'x')⟩

end DosText.TextFile
