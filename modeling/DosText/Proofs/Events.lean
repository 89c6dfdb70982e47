import DosText.Proofs.TerminalCalls

/-! Everything that can happen to a system: calls at the terminal, operations and command lines
handed in behind its back, deliveries that are taken, and resets. A system is reached by events if
it is what they leave, one after the other, each ending in a fault or not. -/

namespace DosText

/-- Something that can happen to a system. -/
inductive Event (Receiver : Type) where
  | file (operation : TextFile.Operation)
  | execute (line : Bytes)
  | terminal (call : TerminalCall Receiver)
  | firmware (active : Bool)
  /-- The deliveries that wait are taken away to be made. -/
  | taken
  | reset
  /-- Discards all state; unlike a reset, nothing is traced afterwards. -/
  | clear
  deriving DecidableEq, Repr

variable {Devices Receiver : Type}

/-- Lets an event happen. -/
def Event.run (peripherals : Peripherals Devices) : Event Receiver → Call Devices Receiver Unit
  | .file operation => Dos.within (operation.perform peripherals)
  | .execute line => Dos.within (Command.execute peripherals line)
  | .terminal call => call.run peripherals
  | .firmware active => Dos.switchFirmware peripherals active
  | .taken => modify fun dos => { dos with enqueued := [] }
  | .reset => Dos.reset
  | .clear => Dos.within (Machine.update fun _ => .initial .off)

/-- A system that events lead to, one after the other. `allowed` says which event may happen in
which session. -/
inductive Dos.Reaches (peripherals : Peripherals Devices)
    (allowed : Session → Event Receiver → Prop) (start : Dos Devices Receiver) :
    Dos Devices Receiver → Prop where
  | refl : Reaches peripherals allowed start start
  | step {dos : Dos Devices Receiver} (reached : Reaches peripherals allowed start dos)
    (event : Event Receiver) (fits : allowed dos.machine.session event) :
    Reaches peripherals allowed start (event.run peripherals dos).2

/-- Events that may happen may also happen where more may. -/
theorem Dos.Reaches.mono {peripherals : Peripherals Devices}
    {allowed wider : Session → Event Receiver → Prop} {start dos : Dos Devices Receiver}
    (reached : start.Reaches peripherals allowed dos)
    (follows : ∀ session event, allowed session event → wider session event) :
    start.Reaches peripherals wider dos := by
  induction reached with
  | refl => exact .refl
  | step reached event fits ih => exact .step ih event (follows _ event fits)

/-- The operation on text files that a command line orders. -/
def Command.operation? (line : Bytes) : Option TextFile.Operation :=
  match order? line with
  | .ok (.file operation) => some operation
  | _ => none

/-- The operation on text files that a call at the terminal comes down to in a session. -/
def TerminalCall.operation? (session : Session) :
    TerminalCall Receiver → Option TextFile.Operation
  | .print byte =>
    match (Printed.ofByte session.pending byte).1 with
    | .held => none
    | .command ended => Command.operation? ended
    | .plain plain =>
      if session.mode = .write then some (.writeCharacter plain) else none
  | .character _ => if session.mode = .read then some .readCharacter else none
  | .line _ _ => if session.mode = .read then some .readLine else none

/-- The operation on text files that an event comes down to in a session. -/
def Event.operation? (session : Session) : Event Receiver → Option TextFile.Operation
  | .file operation => some operation
  | .execute line => Command.operation? line
  | .terminal call => call.operation? session
  | _ => none

/-- Where an operation comes from: it is handed in, ordered by a command line, or reads or writes
characters at the terminal. -/
theorem Event.operation?_origin {event : Event Receiver} {session : Session}
    {operation : TextFile.Operation} (comes : event.operation? session = some operation) :
    event = .file operation ∨ (∃ line, Command.operation? line = some operation) ∨
      operation.mode? ≠ none := by
  cases event with
  | file given =>
    cases comes
    exact .inl rfl
  | execute line => exact .inr (.inl ⟨line, comes⟩)
  | terminal call =>
    cases call with
    | print byte =>
      simp only [operation?, TerminalCall.operation?] at comes
      split at comes
      · cases comes
      · next line ended => exact .inr (.inl ⟨line, comes⟩)
      · split at comes
        · cases comes
          exact .inr (.inr (by simp [TextFile.Operation.mode?]))
        · cases comes
    | character receiver =>
      simp only [operation?, TerminalCall.operation?] at comes
      split at comes
      · cases comes
        exact .inr (.inr (by simp [TextFile.Operation.mode?]))
      · cases comes
    | line prompt receiver =>
      simp only [operation?, TerminalCall.operation?] at comes
      split at comes
      · cases comes
        exact .inr (.inr (by simp [TextFile.Operation.mode?]))
      · cases comes
  | _ => cases comes

/-- Whether an event discards all open files. -/
def Event.Discards : Event Receiver → Prop
  | .reset => True
  | .clear => True
  | _ => False

/-- What an event does to the open files of a session: an operation, possibly after a change of
the command being typed; nothing; or it discards them. -/
inductive Event.Effect (session : Session) (event : Event Receiver) :
    List Peripherals.Call → Except Fault Unit → Session → Prop where
  | operated {operation : TextFile.Operation} {commandMode : Bool} {command : Bytes}
    {calls : List Peripherals.Call} {outcome : Except Fault Unit} {after : Session}
    (operates : event.operation? session = some operation)
    (typed : session.TypesInside → Session.TypesInside { session with commandMode, command })
    (effect : TextFile.Effect { session with commandMode, command } operation calls outcome
      after) :
    Effect session event calls outcome after
  | aside {calls : List Peripherals.Call} {outcome : Except Fault Unit} {after : Session}
    (idle : event.operation? session = none) (keeps : ¬event.Discards)
    (elsewhere : ∀ call ∈ calls, ¬call.IsOfFiles)
    (buffers : after.buffers = session.buffers) (active : after.active = session.active)
    (mode : after.mode = session.mode) (typed : session.TypesInside → after.TypesInside) :
    Effect session event calls outcome after
  | discarded (monitor : Monitor) (idle : event.operation? session = none)
    (discards : event.Discards) :
    Effect session event [] (.ok ()) (.initial monitor)

theorem Command.Obeys.effect {session : Session} {line : Bytes} {commandMode : Bool}
    {command : Bytes} {calls : List Peripherals.Call} {outcome : Except Fault Unit}
    {after : Session} {event : Event Receiver}
    (obeys : Obeys { session with commandMode, command } line calls outcome after)
    (typed : session.TypesInside → Session.TypesInside { session with commandMode, command })
    (same : event.operation? session = operation? line) (keeps : ¬event.Discards) :
    event.Effect session calls outcome after := by
  cases obeys with
  | refused refused =>
    exact .aside (by rw [same, operation?, refused]) keeps (by simp) rfl rfl rfl typed
  | operated ordered effect => exact .operated (by rw [same, operation?, ordered]) typed effect
  | enabled ordered =>
    exact .aside (by rw [same, operation?, ordered]) keeps (by simp) rfl rfl rfl typed
  | disabled ordered =>
    exact .aside (by rw [same, operation?, ordered]) keeps (by simp) rfl rfl rfl typed
  | switched ordered =>
    exact .aside (by rw [same, operation?, ordered]) keeps (by simp [Peripherals.Call.IsOfFiles])
      rfl rfl rfl typed

theorem TerminalCall.Effect.effect {session : Session} {call : TerminalCall Receiver}
    {calls : List Peripherals.Call} {text : Bytes} {outcome : Except Fault Unit} {after : Session}
    (effect : call.Effect session calls text outcome after) :
    (Event.terminal call).Effect session calls outcome after := by
  have keeps : ¬(Event.terminal call).Discards := id
  cases effect with
  | held held =>
    exact .aside (by simp only [Event.operation?, operation?, held]) keeps (by simp) rfl rfl rfl
      fun _ => session.typesInside_typing _
  | commanded ended obeys =>
    exact obeys.effect (fun _ => session.typesInside_typing none)
      (by simp only [Event.operation?, operation?, ended]) keeps
  | shown outside other =>
    exact .aside (by simp only [Event.operation?, operation?, outside, if_neg other]) keeps
      (by simp) rfl rfl rfl id
  | written outside mode effect =>
    exact .operated (by simp only [Event.operation?, operation?, outside, if_pos mode]) id effect
  | characterTyped typed other =>
    exact .aside (if_neg other) keeps (by simp [Peripherals.Call.IsOfFiles]) rfl rfl rfl id
  | characterUnmet mode absent => exact .operated (if_pos mode) id (.unmet rfl mode absent)
  | characterEnd redirected ended =>
    have mode := (Session.redirection_eq_reading_iff.mp redirected).1
    have effect : TextFile.Effect session .readCharacter [] (.error .endOfData) session :=
      .characterEnd redirected ended
    exact .operated (if_pos mode) id effect
  | characterRead redirected read =>
    have mode := (Session.redirection_eq_reading_iff.mp redirected).1
    exact .operated (if_pos mode) id (.characterRead redirected read)
  | lineTyped typed other =>
    exact .aside (if_neg other) keeps (by simp [Peripherals.Call.IsOfFiles]) rfl rfl rfl id
  | lineUnmet mode absent => exact .operated (if_pos mode) id (.unmet rfl mode absent)
  | lineEnd redirected ended =>
    have mode := (Session.redirection_eq_reading_iff.mp redirected).1
    have effect : TextFile.Effect session .readLine [] (.error .endOfData) session :=
      .lineEnd redirected ended
    exact .operated (if_pos mode) id effect
  | lineRead redirected read =>
    have mode := (Session.redirection_eq_reading_iff.mp redirected).1
    exact .operated (if_pos mode) id (.lineRead redirected read)

/-- Whatever an event does is one of its effects. -/
theorem Event.run_effect (peripherals : Peripherals Devices) (event : Event Receiver)
    (dos : Dos Devices Receiver) :
    (event.run peripherals).Ensures dos fun outcome later => ∃ calls,
      event.Effect dos.machine.session calls outcome later.machine.session ∧
        peripherals.Serves calls dos.machine.devices later.machine.devices := by
  cases event with
  | file operation =>
    obtain ⟨calls, after, effect, kept⟩ :=
      TextFile.perform_effect (.refl peripherals dos.machine) operation
    rw [← kept.session] at effect
    exact ⟨calls, .operated rfl id effect, kept.served⟩
  | execute line =>
    obtain ⟨calls, after, obeys, kept⟩ := Command.execute_obeys dos.machine line
    rw [← kept.session] at obeys
    exact ⟨calls, obeys.effect id rfl id, kept.served⟩
  | terminal call =>
    obtain ⟨calls, text, after, effect, kept, _, _⟩ := call.run_effect peripherals dos
    rw [← kept.session] at effect
    exact ⟨calls, effect.effect, kept.served⟩
  | firmware active =>
    exact ⟨[.firmware active], .aside rfl id (by simp [Peripherals.Call.IsOfFiles]) rfl rfl
      rfl id, trivial, rfl⟩
  | taken => exact ⟨[], .aside rfl id (by simp) rfl rfl rfl id, rfl⟩
  | reset => exact ⟨[], .discarded dos.monitor rfl trivial, rfl⟩
  | clear => exact ⟨[], .discarded .off rfl trivial, rfl⟩

end DosText
