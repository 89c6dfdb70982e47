import DosText.Proofs.Places

/-! What a fault leaves behind in the session: nothing of what was abandoned. A command that fails
has ended all the same. That no file stays open that was opened on the way to a fault rests on the
size of the numbers in a command line: where they can be any words, a READ can leave its file
open. -/

namespace DosText

namespace TextFile

variable {session after : Session} {name : Name} {calls : List Peripherals.Call} {fault : Fault}

theorem Installs.session_of_fault {recordLength : Nat} {content : Option Bytes}
    (installs : Installs session name recordLength content calls (.error fault) after) :
    after = session := by
  cases installs with
  | refused found failed => rfl

theorem Obtains.session_of_fault (obtains : Obtains session name calls (.error fault) after) :
    after = session := by
  cases obtains with
  | unread closed loads => rfl

theorem Readies.session_of_fault (readies : Readies session name calls (.error fault) after) :
    after = session := by
  cases readies <;> rfl

theorem lt_offsetLimit {first second : Nat} (small : first ≤ Arguments.largestValue)
    (near : second ≤ Arguments.largestValue) : first + second < offsetLimit := by
  unfold Arguments.largestValue at small near
  unfold offsetLimit
  omega

/-- A file whose records lie out of reach was open before: where one has just been opened, moving on
by a word comes to a word. -/
theorem Obtains.of_beyond {buffer : Buffer} {records : Nat}
    (obtains : Obtains session name calls (.ok buffer) after) (sized : records < offsetLimit)
    (beyond : ¬(buffer.filePointer + records * buffer.recordLength < offsetLimit ∧
      buffer.recordNumber + records < offsetLimit)) : after = session ∧ calls = [] := by
  cases obtains with
  | opened found => exact ⟨rfl, rfl⟩
  | @loaded _ content closed loads =>
    have pointer : 0 + records * 1 < offsetLimit := by omega
    have number : 0 + records < offsetLimit := by omega
    exact absurd ⟨pointer, number⟩ beyond

/-- So was one whose byte lies out of reach, unless it does so in records of one byte as well. -/
theorem Readies.of_beyond {buffer : Buffer} {record byte : Nat}
    (readies : Readies session name calls (.ok buffer) after)
    (near : byte + record < offsetLimit)
    (beyond : ¬byte + record * buffer.recordLength < offsetLimit) :
    after = session ∧ calls = [] := by
  cases readies with
  | opened found some => exact ⟨rfl, rfl⟩
  | @loaded _ content closed loads =>
    have pointer : byte + record * 1 < offsetLimit := by omega
    exact absurd pointer beyond

/-- The file that an operation opens before it ends in a fault, and leaves open. A READ tries its
offset only once it has its file. -/
def Operation.stranded? (session : Session) (fault : Fault) : Operation → Option Name
  | .read name record byte =>
    if fault = .invalidOption ∧ session.buffers.find? name = none ∧ offsetLimit ≤ byte + record
    then some name else none
  | _ => none

/-- The numbers of arguments are too small for that. -/
theorem Operation.IsModest.stranded?_eq_none {operation : Operation}
    (modest : operation.IsModest) (session : Session) (fault : Fault) :
    operation.stranded? session fault = none := by
  cases operation with
  | read name record byte =>
    have near := lt_offsetLimit modest.2 modest.1
    refine if_neg ?_
    rintro ⟨-, -, far⟩
    exact absurd near (Nat.not_lt.mpr far)
  | _ => rfl

/-- An operation on words that fails leaves the session alone, or one more file open, with the
content that was loaded for it. -/
theorem Effect.session_of_sized_fault {operation : Operation}
    (effect : Effect session operation calls (.error fault) after) (sized : operation.IsSized) :
    (operation.stranded? session fault = none ∧ after = session) ∨
      ∃ name content, operation.stranded? session fault = some name ∧
        session.buffers.find? name = none ∧ Loads name calls (.ok (some content)) ∧
        after = session.keep (.opened name 0 (some content)) := by
  cases effect with
  | openRefused finds installs => exact .inl ⟨rfl, installs.session_of_fault⟩
  | appendRefused finds installs => exact .inl ⟨rfl, installs.session_of_fault⟩
  | positionUnread obtains => exact .inl ⟨rfl, obtains.session_of_fault⟩
  | positionBeyond obtains beyond => exact .inl ⟨rfl, (obtains.of_beyond sized beyond).1⟩
  | readUnready readies =>
    refine .inl ⟨if_neg ?_, readies.session_of_fault⟩
    rintro ⟨refused, -⟩
    exact readies.ne_invalidOption refused
  | readBeyond readies beyond =>
    cases readies with
    | opened found some =>
      refine .inl ⟨if_neg ?_, rfl⟩
      rintro ⟨-, closed, -⟩
      cases found.symm.trans closed
    | @loaded _ content closed loads =>
      -- A file that is opened on the way has records of one byte.
      have far : offsetLimit ≤ _ + _ * 1 := Nat.not_lt.mp beyond
      rw [Nat.mul_one] at far
      exact .inr ⟨_, content, if_pos ⟨rfl, closed, far⟩, closed, loads, rfl⟩
  | unmet relies same absent =>
    refine .inl ⟨?_, rfl⟩
    cases operation <;> first | rfl | cases relies
  | _ => exact .inl ⟨rfl, rfl⟩

/-- An operation that fails leaves the session alone, if its numbers are those of arguments. -/
theorem Effect.session_of_fault {operation : Operation}
    (effect : Effect session operation calls (.error fault) after)
    (modest : operation.IsModest) : after = session := by
  rcases effect.session_of_sized_fault modest.isSized with ⟨-, same⟩ | ⟨name, content, opens, -⟩
  · exact same
  · rw [modest.stranded?_eq_none] at opens
    cases opens

/-- A session with one more file open is another session. -/
theorem keep_ne_of_closed {opened : Buffer} (closed : session.buffers.find? opened.name = none) :
    session.keep opened ≠ session := by
  intro same
  have found := session.find?_keep_self opened
  rw [same, closed] at found
  cases found

/-- An operation on words that ends in a fault leaves the whole session as it was, unless it is a
READ whose offset is refused and whose file was not open. Then the session is as it was but for
that file, which is open, at its beginning, for sequential access, with the content that the store
or the source gave. -/
theorem Operation.perform_fault_session_iff {Devices : Type} {peripherals : Peripherals Devices}
    {machine later : Machine Devices} {operation : Operation} (sized : operation.IsSized)
    (failed : operation.perform peripherals machine = (.error fault, later)) :
    let before := machine.session
    (later.session = before ↔ operation.stranded? before fault = none) ∧
      ∀ name, operation.stranded? before fault = some name →
        ∃ calls content, peripherals.Serves calls machine.devices later.devices ∧
          Loads name calls (.ok (some content)) ∧
          later.session = before.keep (.opened name 0 (some content)) := by
  intro before
  obtain ⟨calls, after, effect, kept⟩ :=
    (perform_effect (.refl peripherals machine) operation).apply failed
  rcases effect.session_of_sized_fault sized with
    ⟨none, same⟩ | ⟨name, content, opens, closed, loads, same⟩
  · refine ⟨iff_of_true (kept.session.trans same) none, ?_⟩
    intro name opens
    rw [none] at opens
    cases opens
  · have left := kept.session.trans same
    have changed : later.session ≠ before := left ▸ keep_ne_of_closed closed
    have some : operation.stranded? before fault ≠ none := opens ▸ Option.some_ne_none name
    refine ⟨iff_of_false changed some, ?_⟩
    intro other opened
    obtain rfl : name = other := Option.some.inj (opens.symm.trans opened)
    exact ⟨calls, content, kept.served, loads, left⟩

/-- A READ of the largest record, a byte behind its beginning, opens its file and fails. -/
theorem Operation.perform_fault_session_read :
    let file := ascii "F"
    let machine : Machine (Catalog Name Bytes) :=
      .initial .off (Catalog.empty.insert file (ascii "x"))
    let operation : Operation := .read file (offsetLimit - 1) 1
    let peripherals := Peripherals.inMemory .empty .none
    let later := (operation.perform peripherals machine).2
    operation.perform peripherals machine = (.error .invalidOption, later) ∧
      later.session ≠ machine.session ∧
      ∃ content, later.session = machine.session.keep (.opened file 0 (some content)) := by
  intro file machine operation peripherals later
  have sized : operation.IsSized := ⟨by decide, by decide⟩
  have failed : operation.perform peripherals machine = (.error .invalidOption, later) :=
    Prod.ext (by decide +kernel) rfl
  have stranded : operation.stranded? machine.session .invalidOption = some file := by decide
  obtain ⟨same, opens⟩ := Operation.perform_fault_session_iff sized failed
  obtain ⟨calls, content, served, loads, left⟩ := opens file stranded
  refine ⟨failed, ?_, content, left⟩
  rw [Ne, same, stranded]
  exact Option.some_ne_none file

theorem Loads.isOfFiles {outcome : Except Fault (Option Bytes)}
    (loads : Loads name calls outcome) : ∀ call ∈ calls, call.IsOfFiles := by
  cases loads <;> simp [Peripherals.Call.IsOfFiles]

theorem Flushes.isOfFiles {buffer : Buffer} {outcome : Except Fault Unit}
    (flushes : Flushes buffer calls outcome) : ∀ call ∈ calls, call.IsOfFiles := by
  cases flushes <;> simp [Peripherals.Call.IsOfFiles]

theorem FlushesAll.isOfFiles {buffers : List Buffer} {outcome : Except Fault Unit}
    (flushes : FlushesAll buffers calls outcome) : ∀ call ∈ calls, call.IsOfFiles := by
  induction flushes with
  | nil => simp
  | cons flushed others ih =>
    intro call member
    rcases List.mem_append.mp member with first | later
    · exact flushed.isOfFiles call first
    · exact ih call later
  | refused failed => exact failed.isOfFiles

theorem Finds.isOfFiles {outcome : Except Fault (Option Bytes)}
    (finds : Finds session name calls outcome) : ∀ call ∈ calls, call.IsOfFiles := by
  cases finds with
  | opened found => simp
  | loaded closed loads => exact loads.isOfFiles

theorem Installs.isOfFiles {recordLength : Nat} {content : Option Bytes}
    {outcome : Except Fault Buffer}
    (installs : Installs session name recordLength content calls outcome after) :
    ∀ call ∈ calls, call.IsOfFiles := by
  cases installs with
  | fresh closed => simp
  | replaced found flushed => exact flushed.isOfFiles
  | refused found failed => exact failed.isOfFiles

theorem Obtains.isOfFiles {outcome : Except Fault Buffer}
    (obtains : Obtains session name calls outcome after) : ∀ call ∈ calls, call.IsOfFiles := by
  cases obtains with
  | opened found => simp
  | loaded closed loads => exact loads.isOfFiles
  | unread closed loads => exact loads.isOfFiles

theorem Readies.isOfFiles {outcome : Except Fault Buffer}
    (readies : Readies session name calls outcome after) : ∀ call ∈ calls, call.IsOfFiles := by
  cases readies with
  | opened found some => simp
  | empty found none => simp
  | loaded closed loads => exact loads.isOfFiles
  | absent closed loads => exact loads.isOfFiles
  | unread closed loads => exact loads.isOfFiles

theorem Creates.isOfFiles {buffer : Buffer} {outcome : Except Fault PackedBytes}
    (creates : Creates buffer calls outcome) : ∀ call ∈ calls, call.IsOfFiles := by
  cases creates <;> simp [Peripherals.Call.IsOfFiles]

/-- No operation on text files makes a call of the console. -/
theorem Effect.isOfFiles {operation : Operation} {outcome : Except Fault Unit}
    (effect : Effect session operation calls outcome after) : ∀ call ∈ calls, call.IsOfFiles := by
  cases effect with
  | openUnread finds => exact finds.isOfFiles
  | openRefused finds installs =>
    exact List.forall_mem_append.mpr ⟨finds.isOfFiles, installs.isOfFiles⟩
  | opened finds installs =>
    exact List.forall_mem_append.mpr ⟨finds.isOfFiles, installs.isOfFiles⟩
  | appendUnread finds => exact finds.isOfFiles
  | appendAbsent finds => exact finds.isOfFiles
  | appendRefused finds installs =>
    exact List.forall_mem_append.mpr ⟨finds.isOfFiles, installs.isOfFiles⟩
  | appended finds installs =>
    exact List.forall_mem_append.mpr ⟨finds.isOfFiles, installs.isOfFiles⟩
  | closeRefused found failed => exact failed.isOfFiles
  | closed found flushed => exact flushed.isOfFiles
  | closeAllRefused perm failed => exact failed.isOfFiles
  | closedAll perm flushed => exact flushed.isOfFiles
  | positionUnread obtains => exact obtains.isOfFiles
  | positionBeyond obtains beyond => exact obtains.isOfFiles
  | positioned obtains pointer number => exact obtains.isOfFiles
  | readUnready readies => exact readies.isOfFiles
  | readBeyond readies beyond => exact readies.isOfFiles
  | reading readies pointer => exact readies.isOfFiles
  | writeRefused found pointer failed => exact failed.isOfFiles
  | writing found pointer creates => exact creates.isOfFiles
  | _ => simp [Peripherals.Call.IsOfFiles]

end TextFile

/-- A command line that fails leaves the session alone, and the console apart from its echo. -/
theorem Command.Obeys.of_fault {session after : Session} {line : Bytes}
    {calls : List Peripherals.Call} {fault : Fault}
    (obeys : Obeys session line calls (.error fault) after) :
    after = session ∧ ∀ call ∈ calls, call.IsOfFiles := by
  cases obeys with
  | refused refused => exact ⟨rfl, by simp⟩
  | operated ordered effect =>
    exact ⟨effect.session_of_fault (fitsLine_of_order? ordered).1, effect.isOfFiles⟩

variable {Devices Receiver : Type} {peripherals : Peripherals Devices}

/-- The command that a call at the terminal ends in a session. -/
def TerminalCall.ended? (session : Session) : TerminalCall Receiver → Option Bytes
  | .print byte => if byte = carriageReturn then session.command? else none
  | _ => none

/-- What a call at the terminal that fails has shown, since it is traced. -/
def TerminalCall.trace (session : Session) : TerminalCall Receiver → Bytes
  | .print byte =>
    match (Printed.ofByte session.pending byte).1 with
    | .held => []
    | .command ended => Command.traceOf session ended
    | .plain plain => if session.monitor.traces .output then [plain] else []
  | _ => []

theorem TerminalCall.Effect.of_fault {session after : Session} {call : TerminalCall Receiver}
    {calls : List Peripherals.Call} {text : Bytes} {fault : Fault}
    (effect : call.Effect session calls text (.error fault) after) :
    after = (if (call.ended? session).isSome then session.typing none else session) ∧
      text = call.trace session ∧ ∀ call ∈ calls, call.IsOfFiles := by
  cases effect with
  | commanded ended obeys =>
    obtain ⟨same, files⟩ := obeys.of_fault
    obtain ⟨ends, typed, left⟩ := Printed.ofByte_eq_command ended
    refine ⟨?_, by simp only [trace, ended], files⟩
    have done : (TerminalCall.print _ : TerminalCall Receiver).ended? session = some _ :=
      (if_pos ends).trans typed
    rw [same, done]
    rfl
  | written outside redirected effect =>
    have same := effect.session_of_fault trivial
    obtain ⟨rfl, free, left⟩ := Printed.ofByte_eq_plain outside
    refine ⟨?_, by simp only [trace, outside], by simp⟩
    simp only [same, ended?, Session.command?, free, Option.map_none, ite_self]
    rfl
  | characterUnmet mode absent => exact ⟨rfl, rfl, by simp⟩
  | characterEnd redirected ended => exact ⟨rfl, rfl, by simp⟩
  | lineUnmet mode absent => exact ⟨rfl, rfl, by simp⟩
  | lineEnd redirected ended => exact ⟨rfl, rfl, by simp⟩

/-- A call at the terminal that ends in a fault leaves the open files, the active file, the mode,
what is traced and the deliveries that wait as they were. A command that it ended is gone, and
otherwise what is typed of a command is still there. Nothing but a trace is shown, and only the
store and the source have been called. -/
theorem TerminalCall.fault_keeps {call : TerminalCall Receiver} {dos later : Dos Devices Receiver}
    {fault : Fault} (failed : call.run peripherals dos = (.error fault, later)) :
    let before := dos.machine.session
    let after := later.machine.session
    after.buffers = before.buffers ∧ after.active = before.active ∧ after.mode = before.mode ∧
      after.monitor = before.monitor ∧ later.monitor = dos.monitor ∧
      later.deliveries = dos.deliveries ∧
      ((call.ended? before).isSome = true → after.commandMode = false ∧ after.command = []) ∧
      (call.ended? before = none →
        after.commandMode = before.commandMode ∧ after.command = before.command) ∧
      later.machine.shown.toBytes = dos.machine.shown.toBytes ++ call.trace before ∧
      ∃ calls, peripherals.Serves calls dos.machine.devices later.machine.devices ∧
        ∀ call ∈ calls, call.IsOfFiles := by
  obtain ⟨calls, text, after, effect, kept, mask, waiting⟩ :=
    (call.run_effect peripherals dos).apply failed
  obtain ⟨same, traced, files⟩ := effect.of_fault
  have settled := kept.session.trans same
  -- A fault ends the typing of a command at most.
  obtain ⟨buffers, active, mode, monitor⟩ :
      later.machine.session.buffers = dos.machine.session.buffers ∧
        later.machine.session.active = dos.machine.session.active ∧
        later.machine.session.mode = dos.machine.session.mode ∧
        later.machine.session.monitor = dos.machine.session.monitor := by
    rw [settled]
    split
    · exact ⟨rfl, rfl, rfl, rfl⟩
    · exact ⟨rfl, rfl, rfl, rfl⟩
  refine ⟨buffers, active, mode, monitor, mask, congrArg List.reverse (waiting fault rfl), ?_, ?_,
    ?_, calls, kept.served, files⟩
  · intro ended
    rw [settled, if_pos ended]
    exact ⟨rfl, rfl⟩
  · intro unended
    rw [settled, unended]
    exact ⟨rfl, rfl⟩
  · rw [kept.shown, traced]

/-- A store in memory that refuses to be written to. -/
def Peripherals.writeProtected : Peripherals (Catalog Name Bytes) :=
  .inMemory .empty ⟨false, true, false, []⟩

/-- A system in which one file is open, waiting to be written back, and its CLOSE has been typed. -/
def Dos.closing : Dos (Catalog Name Bytes) Unit :=
  let opened : Session := (Session.initial .off).keep (.opened (ascii "A") 0 (some (ascii "x")))
  ⟨⟨opened.typing (some (ascii "CLOSE A").reverse), .empty, .empty, .empty⟩, [], .off⟩

/-- A file that cannot be stored stays open when it is closed, but its CLOSE is over. -/
theorem fault_keeps_unclosed : ∃ later,
    (TerminalCall.print carriageReturn).run .writeProtected Dos.closing =
      (.error .ioError, later) ∧
      later.machine.session.buffers = Dos.closing.machine.session.buffers ∧
      later.machine.session.commandMode = false := by
  have parsed : Command.read (ascii "CLOSE A") = .ok (.close (ascii "A") []) := by decide
  have ordered : Command.order? (ascii "CLOSE A") = .ok (.file (.close (ascii "A"))) := by
    rw [Command.order?_of_read parsed]
    simp [Command.orderOf, ascii, bind, Except.bind, pure, Except.pure]
  have ended : Printed.ofByte Dos.closing.machine.session.pending carriageReturn =
      (.command (ascii "CLOSE A"), none) := by
    simp only [Dos.closing, Session.pending_typing]
    simp [Printed.ofByte]
  have failed : (TerminalCall.print carriageReturn).run .writeProtected Dos.closing =
      (.error .ioError,
        ((TerminalCall.print carriageReturn).run .writeProtected Dos.closing).2) := by
    refine Prod.ext ?_ rfl
    unfold TerminalCall.run Dos.within
    simp only
    obtain ⟨log, executed⟩ := Command.exists_execute .writeProtected
      { Dos.closing.machine with session := Dos.closing.machine.session.typing none }
      (ascii "CLOSE A")
    rw [printByte_of_command ended, executed, Command.obey_eq, ordered]
    rfl
  obtain ⟨buffers, _, _, _, _, _, finished, _⟩ := TerminalCall.fault_keeps failed
  exact ⟨_, failed, buffers, (finished rfl).1⟩

end DosText
