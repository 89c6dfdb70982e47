import DosText.Command.Framing
import DosText.Terminal
import DosText.Proofs.Orders

/-! The calls that a program makes at the terminal, as data, and everything that each of them can
do: the calls it makes of the peripherals, what it shows, its outcome and the session it leaves. -/

namespace DosText

/-- A call of a program at the terminal. -/
inductive TerminalCall (Receiver : Type) where
  | print (byte : UInt8)
  | character (receiver : Receiver)
  | line (prompt : Bytes) (receiver : Receiver)
  deriving DecidableEq, Repr

variable {Devices Receiver : Type}

/-- Makes a call at the terminal. What is due at once is of no concern to the system. -/
def TerminalCall.run (peripherals : Peripherals Devices) :
    TerminalCall Receiver → Call Devices Receiver Unit
  | .print byte => Dos.within (Dos.printByte peripherals byte)
  | .character receiver => do
    let _ ← Dos.readCharacter peripherals receiver
  | .line prompt receiver => do
    let _ ← Dos.readLine peripherals prompt receiver

/-- Everything that a call at the terminal can do in a session. -/
inductive TerminalCall.Effect (session : Session) : TerminalCall Receiver →
    List Peripherals.Call → Bytes → Except Fault Unit → Session → Prop where
  | held {byte : UInt8} {pending : Option Bytes}
    (held : Printed.ofByte session.pending byte = (.held, pending)) :
    Effect session (.print byte) [] [] (.ok ()) (session.typing pending)
  | commanded {byte : UInt8} {line : Bytes} {pending : Option Bytes}
    {calls : List Peripherals.Call} {outcome : Except Fault Unit} {after : Session}
    (ended : Printed.ofByte session.pending byte = (.command line, pending))
    (obeys : Command.Obeys (session.typing none) line calls outcome after) :
    Effect session (.print byte) calls (Command.traceOf session line) outcome after
  | shown {byte plain : UInt8} {pending : Option Bytes}
    (outside : Printed.ofByte session.pending byte = (.plain plain, pending))
    (other : session.mode ≠ .write) : Effect session (.print byte) [] [plain] (.ok ()) session
  | written {byte plain : UInt8} {pending : Option Bytes} {outcome : Except Fault Unit}
    {after : Session} (outside : Printed.ofByte session.pending byte = (.plain plain, pending))
    (mode : session.mode = .write)
    (effect : TextFile.Effect session (.writeCharacter plain) [] outcome after) :
    Effect session (.print byte) [] (if session.monitor.traces .output then [plain] else [])
      outcome after
  | characterTyped {receiver : Receiver} (typed : UInt8) (other : session.mode ≠ .read) :
    Effect session (.character receiver) [.character typed] [] (.ok ()) session
  | characterUnmet {receiver : Receiver} {fault : Fault} (mode : session.mode = .read)
    (absent : session.relied? .read = none) :
    Effect session (.character receiver) [] [] (.error fault) session
  | characterEnd {receiver : Receiver} {name : Name}
    (redirected : session.redirection = .reading name)
    (ended : (session.buffers.find? name).bind Buffer.readByte = none) :
    Effect session (.character receiver) [] [] (.error .endOfData) session
  | characterRead {receiver : Receiver} {name : Name} {byte : UInt8} {buffer : Buffer}
    (redirected : session.redirection = .reading name)
    (read : (session.buffers.find? name).bind Buffer.readByte = some (byte, buffer)) :
    Effect session (.character receiver) [] (if session.monitor.traces .input then [byte] else [])
      (.ok ()) (session.keep buffer)
  | lineTyped {prompt : Bytes} {receiver : Receiver} (typed : Bytes)
    (other : session.mode ≠ .read) :
    Effect session (.line prompt receiver) [.line prompt typed] prompt (.ok ()) session
  | lineUnmet {prompt : Bytes} {receiver : Receiver} {fault : Fault} (mode : session.mode = .read)
    (absent : session.relied? .read = none) :
    Effect session (.line prompt receiver) [] [] (.error fault) session
  | lineEnd {prompt : Bytes} {receiver : Receiver} {name : Name}
    (redirected : session.redirection = .reading name)
    (ended : (session.buffers.find? name).bind Buffer.readLine = none) :
    Effect session (.line prompt receiver) [] [] (.error .endOfData) session
  | lineRead {prompt : Bytes} {receiver : Receiver} {name : Name} {line : Bytes} {buffer : Buffer}
    (redirected : session.redirection = .reading name)
    (read : (session.buffers.find? name).bind Buffer.readLine = some (line, buffer)) :
    Effect session (.line prompt receiver) []
      (if session.monitor.traces .input then prompt ++ line ++ [carriageReturn] else [])
      (.ok ()) (session.keep buffer)

variable {peripherals : Peripherals Devices}

/-- Where output is not redirected, a character is shown, and nothing else happens. -/
theorem printPlain_of_not_writing {machine : Machine Devices}
    (other : machine.session.mode ≠ .write) (byte : UInt8) :
    Dos.printPlain peripherals byte machine =
      (.ok (), { machine with shown := machine.shown.append [byte] }) := by
  unfold Dos.printPlain
  rw [Attempt.bind_apply]
  simp only [Attempt.get_apply, if_neg other, Machine.echo_apply]

/-- In write mode a character goes to the active file, shown only if output is traced. -/
theorem printPlain_of_writing {machine : Machine Devices} (mode : machine.session.mode = .write)
    (byte : UInt8) :
    Dos.printPlain peripherals byte machine =
      TextFile.writeActiveCharacter peripherals byte { machine with
        shown := machine.shown.append
          (if machine.session.monitor.traces .output then [byte] else []) } := by
  unfold Dos.printPlain
  rw [Attempt.bind_apply]
  simp only [Attempt.get_apply, if_pos mode]
  by_cases traced : machine.session.monitor.traces .output = true
  · simp only [traced, if_true]
    rw [Attempt.bind_apply, Machine.echo_apply]
  · simp only [traced, if_false, Bool.false_eq_true, PackedBytes.append_nil]

theorem printPlain_effect (peripherals : Peripherals Devices) {machine : Machine Devices}
    (mode : machine.session.mode = .write) (byte : UInt8) :
    (Dos.printPlain peripherals byte).Ensures machine fun outcome later => ∃ after,
      TextFile.Effect machine.session (.writeCharacter byte) [] outcome after ∧
        machine.Passes peripherals []
          (if machine.session.monitor.traces .output then [byte] else []) after later := by
  let traced := if machine.session.monitor.traces .output then [byte] else []
  let echoed : Machine Devices := { machine with shown := machine.shown.append traced }
  have written : (TextFile.writeActiveCharacter peripherals byte).Ensures echoed _ :=
    TextFile.writeActiveCharacter_effect (.refl peripherals echoed) mode byte
  obtain ⟨after, effect, kept⟩ := written
  exact Attempt.ensures_of_apply (printPlain_of_writing mode byte)
    ⟨after, effect, kept.passes_behind⟩

/-- A byte that begins a command or belongs to one is typed, and nothing comes of it. -/
theorem printByte_of_held {machine : Machine Devices} {byte : UInt8} {pending : Option Bytes}
    (held : Printed.ofByte machine.session.pending byte = (.held, pending)) :
    Dos.printByte peripherals byte machine =
      (.ok (), { machine with session := machine.session.typing pending }) := by
  unfold Dos.printByte
  rw [Attempt.bind_apply]
  simp only [Attempt.get_apply]
  cases typing : machine.session.commandMode with
  | true =>
    rw [Session.pending_eq_some_iff.mpr ⟨typing, rfl⟩, Printed.ofByte] at held
    split at held
    · cases held
    · next inside =>
      cases held
      have same : { machine.session with command := byte :: machine.session.command } =
          machine.session.typing (some (byte :: machine.session.command)) := by
        simp [Session.typing, typing]
      simp only [if_true, if_neg inside, Machine.update_apply, same]
  | false =>
    rw [Session.pending_eq_none_iff.mpr typing, Printed.ofByte] at held
    split at held
    · next begins =>
      cases held
      simp only [Bool.false_eq_true, if_false, if_pos begins, Machine.update_apply]
      rfl
    · cases held

/-- The end of a command executes it, and the command is over by then. -/
theorem printByte_of_command {machine : Machine Devices} {byte : UInt8} {line : Bytes}
    {pending : Option Bytes}
    (ended : Printed.ofByte machine.session.pending byte = (.command line, pending)) :
    Dos.printByte peripherals byte machine = Command.execute peripherals line
      { machine with session := machine.session.typing none } := by
  obtain ⟨ends, typed, _⟩ := Printed.ofByte_eq_command ended
  obtain ⟨reversed, begun, rfl⟩ := Option.map_eq_some_iff.mp typed
  obtain ⟨typing, rfl⟩ := Session.pending_eq_some_iff.mp begun
  unfold Dos.printByte
  rw [Attempt.bind_apply]
  simp only [Attempt.get_apply, typing, if_true, if_pos ends]
  rw [Attempt.bind_apply, Machine.update_apply]
  rfl

/-- Outside commands, a character that begins none is dealt with at once. -/
theorem printByte_of_plain {machine : Machine Devices} {byte plain : UInt8}
    {pending : Option Bytes}
    (outside : Printed.ofByte machine.session.pending byte = (.plain plain, pending)) :
    Dos.printByte peripherals byte machine = Dos.printPlain peripherals plain machine := by
  obtain ⟨rfl, begun, _⟩ := Printed.ofByte_eq_plain outside
  have begins : plain ≠ controlD := by
    rintro rfl
    rw [begun] at outside
    cases outside
  unfold Dos.printByte
  rw [Attempt.bind_apply]
  simp only [Attempt.get_apply, Session.pending_eq_none_iff.mp begun, Bool.false_eq_true,
    if_false, if_neg begins]

theorem printByte_effect (peripherals : Peripherals Devices) (Receiver : Type)
    (machine : Machine Devices) (byte : UInt8) :
    (Dos.printByte peripherals byte).Ensures machine fun outcome later => ∃ calls text after,
      TerminalCall.Effect machine.session (.print byte : TerminalCall Receiver) calls text
        outcome after ∧
        machine.Passes peripherals calls text after later := by
  have still := Machine.Moves.refl peripherals machine
  rcases framed : Printed.ofByte machine.session.pending byte with ⟨printed, pending⟩
  cases printed with
  | held =>
    exact Attempt.ensures_of_apply (printByte_of_held framed)
      ⟨[], [], _, .held framed, (still.change (·.typing pending)).passes⟩
  | command line =>
    let begun : Machine Devices := { machine with session := machine.session.typing none }
    have executed : (Command.execute peripherals line).Ensures begun _ :=
      Command.execute_obeys begun line
    obtain ⟨calls, after, obeys, kept⟩ := executed
    exact Attempt.ensures_of_apply (printByte_of_command framed)
      ⟨calls, _, after, .commanded framed obeys, kept.session, kept.shown, kept.served⟩
  | plain plain =>
    by_cases mode : machine.session.mode = .write
    · obtain ⟨after, effect, kept⟩ := printPlain_effect peripherals mode plain
      exact Attempt.ensures_of_apply (printByte_of_plain framed)
        ⟨[], _, after, .written framed mode effect, kept⟩
    · refine Attempt.ensures_of_apply
        ((printByte_of_plain framed).trans (printPlain_of_not_writing mode plain)) ?_
      exact ⟨[], [plain], _, .shown framed mode, still.passes_before [plain]⟩

theorem readCharacter_apply (name : Name) (machine : Machine Devices) :
    TextFile.readCharacter name machine =
      match (machine.session.buffers.find? name).bind Buffer.readByte with
      | none => (.error .endOfData, machine)
      | some (byte, buffer) =>
        (.ok byte, { machine with session := machine.session.keep buffer }) := by
  unfold TextFile.readCharacter TextFile.find?
  simp only [Attempt.bind_apply, Attempt.get_apply, Attempt.pure_apply]
  rcases (machine.session.buffers.find? name).bind Buffer.readByte with _ | ⟨byte, buffer⟩ <;> rfl

theorem readLine_apply (name : Name) (machine : Machine Devices) :
    TextFile.readLine name machine =
      match (machine.session.buffers.find? name).bind Buffer.readLine with
      | none => (.error .endOfData, machine)
      | some (line, buffer) =>
        (.ok line, { machine with session := machine.session.keep buffer }) := by
  unfold TextFile.readLine TextFile.find?
  simp only [Attempt.bind_apply, Attempt.get_apply, Attempt.pure_apply]
  rcases (machine.session.buffers.find? name).bind Buffer.readLine with _ | ⟨line, buffer⟩ <;> rfl

theorem readActiveCharacter_of_relied {machine : Machine Devices} {name : Name}
    (relied : machine.session.relied? .read = some name) :
    TextFile.readActiveCharacter peripherals machine = TextFile.readCharacter name machine := by
  unfold TextFile.readActiveCharacter TextFile.active
  simp only [Attempt.bind_apply, Attempt.get_apply, relied, Attempt.pure_apply]

theorem readActiveCharacter_of_unmet {machine : Machine Devices}
    (absent : machine.session.relied? .read = none) :
    TextFile.readActiveCharacter peripherals machine =
      (.error peripherals.platform.unmet, machine) := by
  unfold TextFile.readActiveCharacter TextFile.active
  simp only [Attempt.bind_apply, Attempt.get_apply, absent]
  rfl

theorem writeActiveCharacter_of_relied {machine : Machine Devices} {name : Name}
    (relied : machine.session.relied? .write = some name) (byte : UInt8) :
    TextFile.writeActiveCharacter peripherals byte machine =
      TextFile.writeCharacter name peripherals.platform.fillLimit byte machine := by
  unfold TextFile.writeActiveCharacter TextFile.active
  simp only [Attempt.bind_apply, Attempt.get_apply, relied, Attempt.pure_apply]

theorem readActiveLine_of_relied {machine : Machine Devices} {name : Name}
    (relied : machine.session.relied? .read = some name) :
    TextFile.readActiveLine peripherals machine = TextFile.readLine name machine := by
  unfold TextFile.readActiveLine TextFile.active
  simp only [Attempt.bind_apply, Attempt.get_apply, relied, Attempt.pure_apply]

theorem readActiveLine_of_unmet {machine : Machine Devices}
    (absent : machine.session.relied? .read = none) :
    TextFile.readActiveLine peripherals machine = (.error peripherals.platform.unmet, machine) := by
  unfold TextFile.readActiveLine TextFile.active
  simp only [Attempt.bind_apply, Attempt.get_apply, absent]
  rfl

theorem readCharacter_of_fault {dos : Dos Devices Receiver} {fault : Fault}
    (mode : dos.machine.session.mode = .read)
    (failed : TextFile.readActiveCharacter peripherals dos.machine = (.error fault, dos.machine))
    (receiver : Receiver) :
    Dos.readCharacter peripherals receiver dos = (.error fault, dos) := by
  unfold Dos.readCharacter
  simp only [Attempt.bind_apply, Attempt.get_apply, if_pos mode, Dos.within, failed]

/-- Behind the last character a request for one is a fault, and changes nothing. -/
theorem readCharacter_of_ended {dos : Dos Devices Receiver} {name : Name}
    (relied : dos.machine.session.relied? .read = some name)
    (ended : (dos.machine.session.buffers.find? name).bind Buffer.readByte = none)
    (receiver : Receiver) :
    Dos.readCharacter peripherals receiver dos = (.error .endOfData, dos) := by
  refine readCharacter_of_fault (Session.relied?_eq_some_iff.mp relied).1 ?_ receiver
  rw [readActiveCharacter_of_relied relied, readCharacter_apply, ended]

theorem readCharacter_of_read {dos : Dos Devices Receiver} {name : Name} {byte : UInt8}
    {buffer : Buffer} (relied : dos.machine.session.relied? .read = some name)
    (read : (dos.machine.session.buffers.find? name).bind Buffer.readByte = some (byte, buffer))
    (receiver : Receiver) :
    Dos.readCharacter peripherals receiver dos = (.ok none, { dos with
      machine := { dos.machine with
        session := dos.machine.session.keep buffer
        shown := dos.machine.shown.append
          (if dos.machine.session.monitor.traces .input then [byte] else []) }
      enqueued := ⟨receiver, .character byte⟩ :: dos.enqueued }) := by
  have mode := (Session.relied?_eq_some_iff.mp relied).1
  unfold Dos.readCharacter
  simp only [Attempt.bind_apply, Attempt.get_apply, if_pos mode, Dos.within,
    readActiveCharacter_of_relied relied, readCharacter_apply, read]
  by_cases traced : dos.machine.session.monitor.traces .input = true
  · simp [traced, Attempt.bind_apply, Dos.within, Dos.enqueue]
    rfl
  · simp [traced, Dos.enqueue]
    rfl

theorem readCharacter_of_typed {dos : Dos Devices Receiver}
    (other : dos.machine.session.mode ≠ .read) (receiver : Receiver) :
    Dos.readCharacter peripherals receiver dos =
      Dos.deliver peripherals
        ⟨receiver, .character (peripherals.console.character dos.machine.devices).1⟩
        { dos with machine := { dos.machine with
          devices := (peripherals.console.character dos.machine.devices).2 } } := by
  unfold Dos.readCharacter
  rw [Attempt.bind_apply]
  simp only [Attempt.get_apply, if_neg other]
  rfl

theorem readLine_of_fault {dos : Dos Devices Receiver} {fault : Fault}
    (mode : dos.machine.session.mode = .read)
    (failed : TextFile.readActiveLine peripherals dos.machine = (.error fault, dos.machine))
    (prompt : Bytes) (receiver : Receiver) :
    Dos.readLine peripherals prompt receiver dos = (.error fault, dos) := by
  unfold Dos.readLine
  simp only [Attempt.bind_apply, Attempt.get_apply, if_pos mode, Dos.within, failed]

/-- Behind the last line a request for one is a fault, and changes nothing. -/
theorem readLine_of_ended {dos : Dos Devices Receiver} {name : Name}
    (relied : dos.machine.session.relied? .read = some name)
    (ended : (dos.machine.session.buffers.find? name).bind Buffer.readLine = none)
    (prompt : Bytes) (receiver : Receiver) :
    Dos.readLine peripherals prompt receiver dos = (.error .endOfData, dos) := by
  refine readLine_of_fault (Session.relied?_eq_some_iff.mp relied).1 ?_ prompt receiver
  rw [readActiveLine_of_relied relied, readLine_apply, ended]

theorem readLine_of_read {dos : Dos Devices Receiver} {name : Name} {line : Bytes}
    {buffer : Buffer} (relied : dos.machine.session.relied? .read = some name)
    (read : (dos.machine.session.buffers.find? name).bind Buffer.readLine = some (line, buffer))
    (prompt : Bytes) (receiver : Receiver) :
    Dos.readLine peripherals prompt receiver dos = (.ok none, { dos with
      machine := { dos.machine with
        session := dos.machine.session.keep buffer
        shown := dos.machine.shown.append
          (if dos.machine.session.monitor.traces .input then prompt ++ line ++ [carriageReturn]
            else []) }
      enqueued := ⟨receiver, .line line⟩ :: dos.enqueued }) := by
  have mode := (Session.relied?_eq_some_iff.mp relied).1
  unfold Dos.readLine
  simp only [Attempt.bind_apply, Attempt.get_apply, if_pos mode, Dos.within,
    readActiveLine_of_relied relied, readLine_apply, read]
  by_cases traced : dos.machine.session.monitor.traces .input = true
  · simp [traced, Attempt.bind_apply, Dos.within, Dos.enqueue]
    rfl
  · simp [traced, Dos.enqueue]
    rfl

theorem readLine_of_typed {dos : Dos Devices Receiver}
    (other : dos.machine.session.mode ≠ .read) (prompt : Bytes) (receiver : Receiver) :
    Dos.readLine peripherals prompt receiver dos =
      Dos.deliver peripherals
        ⟨receiver, .line (peripherals.console.line prompt dos.machine.devices).1⟩
        { dos with machine := { dos.machine with
          devices := (peripherals.console.line prompt dos.machine.devices).2
          shown := dos.machine.shown.append prompt } } := by
  unfold Dos.readLine
  rw [Attempt.bind_apply]
  simp only [Attempt.get_apply, if_neg other]
  rfl

/-- A delivery from the console is due at once or waits; nothing else changes. -/
theorem exists_deliver (peripherals : Peripherals Devices) (delivery : Delivery Receiver)
    (dos : Dos Devices Receiver) : ∃ due enqueued,
      Dos.deliver peripherals delivery dos = (.ok due, { dos with enqueued }) := by
  unfold Dos.deliver
  by_cases deferred : peripherals.console.deferred = true
  · simp only [deferred, if_true]
    exact ⟨_, _, rfl⟩
  · simp only [deferred, if_false, Bool.false_eq_true]
    exact ⟨_, _, rfl⟩

/-- Whatever a call at the terminal does is one of its effects. A fault leaves the deliveries as
they are, and the mask that a reset restores never changes. -/
theorem TerminalCall.run_effect (peripherals : Peripherals Devices)
    (call : TerminalCall Receiver) (dos : Dos Devices Receiver) :
    (call.run peripherals).Ensures dos fun outcome later => ∃ calls text after,
      call.Effect dos.machine.session calls text outcome after ∧
        dos.machine.Passes peripherals calls text after later.machine ∧
        later.monitor = dos.monitor ∧
        ∀ fault, outcome = .error fault → later.enqueued = dos.enqueued := by
  have still := Machine.Moves.refl peripherals dos.machine
  cases call with
  | print byte =>
    obtain ⟨calls, text, after, effect, kept⟩ :=
      printByte_effect peripherals Receiver dos.machine byte
    exact ⟨calls, text, after, effect, kept, rfl, fun _ _ => rfl⟩
  | character receiver =>
    by_cases mode : dos.machine.session.mode = .read
    · cases relied : dos.machine.session.relied? .read with
      | none =>
        refine Attempt.ensures_of_apply (Attempt.bind_of_error _
          (readCharacter_of_fault mode (readActiveCharacter_of_unmet relied) receiver)) ?_
        exact ⟨[], [], _, .characterUnmet mode relied, still.passes, rfl, fun _ _ => rfl⟩
      | some name =>
        have redirected := Session.redirection_of_relied?_read relied
        cases read : (dos.machine.session.buffers.find? name).bind Buffer.readByte with
        | none =>
          refine Attempt.ensures_of_apply
            (Attempt.bind_of_error _ (readCharacter_of_ended relied read receiver)) ?_
          exact ⟨[], [], _, .characterEnd redirected read, still.passes, rfl, fun _ _ => rfl⟩
        | some passed =>
          obtain ⟨byte, buffer⟩ := passed
          refine Attempt.ensures_of_apply
            (Attempt.bind_of_ok _ (readCharacter_of_read relied read receiver)) ?_
          exact ⟨[], _, _, .characterRead redirected read,
            (still.change (·.keep buffer)).passes_before _, rfl, by rintro fault ⟨⟩⟩
    · let typed := peripherals.console.character dos.machine.devices
      obtain ⟨due, enqueued, delivered⟩ := exists_deliver peripherals
        ⟨receiver, .character typed.1⟩
        { dos with machine := { dos.machine with devices := typed.2 } }
      refine Attempt.ensures_of_apply
        (Attempt.bind_of_ok _ ((readCharacter_of_typed mode receiver).trans delivered)) ?_
      exact ⟨[.character typed.1], [], _, .characterTyped typed.1 mode,
        ⟨rfl, (List.append_nil _).symm, rfl, rfl⟩, rfl, by rintro fault ⟨⟩⟩
  | line prompt receiver =>
    by_cases mode : dos.machine.session.mode = .read
    · cases relied : dos.machine.session.relied? .read with
      | none =>
        refine Attempt.ensures_of_apply (Attempt.bind_of_error _
          (readLine_of_fault mode (readActiveLine_of_unmet relied) prompt receiver)) ?_
        exact ⟨[], [], _, .lineUnmet mode relied, still.passes, rfl, fun _ _ => rfl⟩
      | some name =>
        have redirected := Session.redirection_of_relied?_read relied
        cases read : (dos.machine.session.buffers.find? name).bind Buffer.readLine with
        | none =>
          refine Attempt.ensures_of_apply
            (Attempt.bind_of_error _ (readLine_of_ended relied read prompt receiver)) ?_
          exact ⟨[], [], _, .lineEnd redirected read, still.passes, rfl, fun _ _ => rfl⟩
        | some passed =>
          obtain ⟨line, buffer⟩ := passed
          refine Attempt.ensures_of_apply
            (Attempt.bind_of_ok _ (readLine_of_read relied read prompt receiver)) ?_
          exact ⟨[], _, _, .lineRead redirected read,
            (still.change (·.keep buffer)).passes_before _, rfl, by rintro fault ⟨⟩⟩
    · let typed := peripherals.console.line prompt dos.machine.devices
      obtain ⟨due, enqueued, delivered⟩ := exists_deliver peripherals
        ⟨receiver, .line typed.1⟩
        { dos with machine := { dos.machine with
          devices := typed.2
          shown := dos.machine.shown.append prompt } }
      refine Attempt.ensures_of_apply
        (Attempt.bind_of_ok _ ((readLine_of_typed mode prompt receiver).trans delivered)) ?_
      exact ⟨[.line prompt typed.1], prompt, _, .lineTyped typed.1 mode,
        ⟨rfl, PackedBytes.toBytes_append _ _, rfl, rfl⟩, rfl, by rintro fault ⟨⟩⟩

end DosText
