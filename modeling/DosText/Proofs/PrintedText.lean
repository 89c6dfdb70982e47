import DosText.Proofs.Consistency
import DosText.Proofs.Framing
import DosText.Proofs.Splice

/-! What comes of a printed text. The pieces that it is cut into are dealt with in order, each of
them once, whatever came of those before it and wherever output goes at the time. -/

namespace DosText

/-- What no operation on text files concerns: what is traced, and what is typed of a command. -/
structure Session.Retains (after before : Session) : Prop where
  monitor : after.monitor = before.monitor
  commandMode : after.commandMode = before.commandMode
  command : after.command = before.command

theorem Session.Retains.refl (session : Session) : session.Retains session := ⟨rfl, rfl, rfl⟩

theorem Session.Retains.trans {first second third : Session} (begun : second.Retains first)
    (ended : third.Retains second) : third.Retains first :=
  ⟨ended.monitor.trans begun.monitor, ended.commandMode.trans begun.commandMode,
    ended.command.trans begun.command⟩

theorem Session.Retains.pending {after before : Session} (retains : after.Retains before) :
    after.pending = before.pending := by
  unfold Session.pending
  rw [retains.commandMode, retains.command]

theorem Session.Retains.betweenCommands {after before : Session} (retains : after.Retains before)
    (between : before.BetweenCommands) : after.BetweenCommands :=
  ⟨retains.commandMode.trans between.outside, retains.command.trans between.empty⟩

theorem Session.retains_release (session : Session) (name : Name) :
    (session.release name).Retains session := by
  unfold Session.release
  split
  · exact ⟨rfl, rfl, rfl⟩
  · exact .refl session

theorem Session.retains_discard (session : Session) (name : Name) :
    (session.discard name).Retains session :=
  ⟨(session.retains_release name).monitor, (session.retains_release name).commandMode,
    (session.retains_release name).command⟩

theorem Session.retains_keep (session : Session) (buffer : Buffer) :
    (session.keep buffer).Retains session := ⟨rfl, rfl, rfl⟩

theorem Session.retains_activate (session : Session) (mode : Mode) (name : Name) :
    (session.activate mode name).Retains session := ⟨rfl, rfl, rfl⟩

namespace TextFile

variable {session after : Session} {name : Name} {calls : List Peripherals.Call}

theorem Installs.retains {recordLength : Nat} {content : Option Bytes}
    {outcome : Except Fault Buffer}
    (installs : Installs session name recordLength content calls outcome after) :
    after.Retains session := by
  cases installs with
  | fresh closed => exact session.retains_keep _
  | replaced found flushed =>
    exact (session.retains_discard name).trans (Session.retains_keep _ _)
  | refused found failed => exact .refl session

theorem Obtains.retains {outcome : Except Fault Buffer}
    (obtains : Obtains session name calls outcome after) : after.Retains session := by
  cases obtains <;> exact ⟨rfl, rfl, rfl⟩

theorem Readies.retains {outcome : Except Fault Buffer}
    (readies : Readies session name calls outcome after) : after.Retains session := by
  cases readies <;> exact ⟨rfl, rfl, rfl⟩

theorem Effect.retains {operation : Operation} {outcome : Except Fault Unit}
    (effect : Effect session operation calls outcome after) : after.Retains session := by
  cases effect with
  | openRefused finds installs => exact installs.retains
  | opened finds installs => exact installs.retains
  | appendRefused finds installs => exact installs.retains
  | appended finds installs => exact installs.retains.trans (Session.retains_keep _ _)
  | closed found flushed => exact session.retains_discard _
  | positionUnread obtains => exact obtains.retains
  | positionBeyond obtains beyond => exact obtains.retains
  | positioned obtains pointer number => exact obtains.retains.trans (Session.retains_keep _ _)
  | readUnready readies => exact readies.retains
  | readBeyond readies beyond => exact readies.retains
  | reading readies pointer =>
    exact (readies.retains.trans (Session.retains_keep _ _)).trans (Session.retains_activate _ _ _)
  | _ => exact ⟨rfl, rfl, rfl⟩

end TextFile

variable {Devices : Type} {peripherals : Peripherals Devices} {machine : Machine Devices}

/-- No command line has a say in how what is printed next is understood. -/
theorem Command.execute_betweenCommands (line : Bytes)
    (between : machine.session.BetweenCommands) :
    (Command.execute peripherals line machine).2.session.BetweenCommands := by
  have executed : (Command.execute peripherals line).Ensures machine fun _ later =>
      later.session.BetweenCommands := by
    refine (Command.execute_obeys machine line).mono ?_
    intro outcome later ensured
    obtain ⟨calls, after, obeys, passes⟩ := ensured
    rw [passes.session]
    cases obeys with
    | operated ordered effect => exact effect.retains.betweenCommands between
    | _ => exact ⟨between.outside, between.empty⟩
  exact executed

theorem writeCharacter_of_written {name : Name} {limit : Nat} {byte : UInt8} {written : Buffer}
    (wrote : (machine.session.buffers.find? name).bind (·.writeByte limit byte) = some written) :
    TextFile.writeCharacter name limit byte machine =
      (.ok (), { machine with session := machine.session.keep written }) := by
  obtain ⟨buffer, found, put⟩ := Option.bind_eq_some_iff.mp wrote
  unfold TextFile.writeCharacter TextFile.find?
  simp only [Attempt.bind_apply, Attempt.get_apply, Attempt.pure_apply, found, put]
  rfl

theorem writeCharacter_of_refused {name : Name} {limit : Nat} {byte : UInt8}
    (refused : (machine.session.buffers.find? name).bind (·.writeByte limit byte) = none) :
    ∃ log, TextFile.writeCharacter name limit byte machine =
      (.error .ioError, { machine with log }) := by
  unfold TextFile.writeCharacter TextFile.find?
  simp only [Attempt.bind_apply, Attempt.get_apply, Attempt.pure_apply]
  cases found : machine.session.buffers.find? name with
  | none => exact ⟨machine.log, rfl⟩
  | some buffer =>
    rw [found, Option.bind_some] at refused
    simp only [refused]
    exact ⟨_, rfl⟩

/-- Nor has a character outside commands. -/
theorem Dos.printPlain_betweenCommands (byte : UInt8)
    (between : machine.session.BetweenCommands) :
    (Dos.printPlain peripherals byte machine).2.session.BetweenCommands := by
  by_cases mode : machine.session.mode = .write
  · obtain ⟨after, effect, kept⟩ := printPlain_effect peripherals mode byte
    rw [kept.session]
    exact effect.retains.betweenCommands between
  · rw [printPlain_of_not_writing mode]
    exact between

/-- A machine at which this much of a command is typed, its latest byte first. -/
def Machine.typing (machine : Machine Devices) (pending : Option Bytes) : Machine Devices :=
  { machine with session := machine.session.typing pending }

theorem Machine.typing_none (between : machine.session.BetweenCommands) :
    machine.typing none = machine := by
  unfold Machine.typing
  rw [between.typing_none]

namespace Dos

/-- Prints the characters of a text, each of them whatever came of those before it. -/
def printEach (peripherals : Peripherals Devices) :
    Bytes → Machine Devices → List (Except Fault Unit) × Machine Devices
  | [], machine => ([], machine)
  | byte :: rest, machine =>
    let first := printByte peripherals byte machine
    let later := printEach peripherals rest first.2
    (first.1 :: later.1, later.2)

end Dos

namespace Piece

/-- What printing a piece comes down to. -/
def perform (peripherals : Peripherals Devices) : Piece → Action Devices Unit
  | plain byte => Dos.printPlain peripherals byte
  | command line => Command.execute peripherals line

/-- The outcomes of the characters of a piece. Nothing comes of a command before its end. -/
def outcomes (piece : Piece) (outcome : Except Fault Unit) : List (Except Fault Unit) :=
  List.replicate (piece.text.length - 1) (.ok ()) ++ [outcome]

/-- Deals with pieces in turn, with each of them whatever came of those before it. -/
def performEach (peripherals : Peripherals Devices) :
    List Piece → Machine Devices → List (Except Fault Unit) × Machine Devices
  | [], machine => ([], machine)
  | piece :: rest, machine =>
    let first := piece.perform peripherals machine
    let later := performEach peripherals rest first.2
    (piece.outcomes first.1 ++ later.1, later.2)

end Piece

namespace Dos

theorem printEach_append (first second : Bytes) (machine : Machine Devices) :
    printEach peripherals (first ++ second) machine =
      let begun := printEach peripherals first machine
      let ended := printEach peripherals second begun.2
      (begun.1 ++ ended.1, ended.2) := by
  induction first generalizing machine with
  | nil => rfl
  | cons byte rest ih => simp only [List.cons_append, printEach, ih]

/-- Outside commands, a character that begins none is dealt with at once. -/
theorem printByte_of_begins {byte : UInt8} (outside : machine.session.commandMode = false)
    (begins : byte ≠ controlD) :
    printByte peripherals byte machine = printPlain peripherals byte machine := by
  have plain : Printed.ofByte machine.session.pending byte = (.plain byte, none) := by
    rw [Session.pending_eq_none_iff.mpr outside, Printed.ofByte, if_neg begins]
  exact printByte_of_plain plain

/-- Within a command, everything up to the next carriage return is typed and nothing else. -/
theorem printEach_held (typed text : Bytes) (inside : carriageReturn ∉ text)
    (machine : Machine Devices) :
    printEach peripherals text (machine.typing (some typed)) =
      (List.replicate text.length (.ok ()), machine.typing (some (text.reverse ++ typed))) := by
  induction text generalizing typed with
  | nil => rfl
  | cons byte rest ih =>
    obtain ⟨here, later⟩ := not_or.mp (List.mem_cons.not.mp inside)
    have held : Printed.ofByte (some typed) byte = (.held, some (byte :: typed)) := by
      simp [Printed.ofByte, Ne.symm here]
    have first : printByte peripherals byte (machine.typing (some typed)) =
        (.ok (), machine.typing (some (byte :: typed))) := printByte_of_held (by
      rw [← held]
      rfl)
    simp only [printEach, first, ih (byte :: typed) later]
    simp [List.replicate_succ]

/-- Outside commands, Ctrl-D begins one. -/
theorem printByte_controlD (outside : machine.session.commandMode = false) :
    printByte peripherals controlD machine = (.ok (), machine.typing (some [])) := by
  refine printByte_of_held ?_
  rw [Session.pending_eq_none_iff.mpr outside]
  rfl

/-- A command that has no end is typed, and nothing comes of it. -/
theorem printEach_unended {unended : Option Bytes}
    (inside : ∀ typed, unended = some typed → carriageReturn ∉ typed)
    (between : machine.session.BetweenCommands) :
    printEach peripherals (unendedText unended) machine =
      (List.replicate (unendedText unended).length (.ok ()),
        machine.typing (unended.map List.reverse)) := by
  cases unended with
  | none =>
    rw [Option.map_none, Machine.typing_none between]
    rfl
  | some typed =>
    rw [unendedText, printEach, printByte_controlD between.outside]
    simp only [printEach_held [] typed (inside typed rfl)]
    simp [List.replicate_succ]

/-- The end of a command executes it, as the machine was when the command began. -/
theorem printByte_end (line : Bytes) (between : machine.session.BetweenCommands) :
    printByte peripherals carriageReturn (machine.typing (some line.reverse)) =
      Command.execute peripherals line machine := by
  have ends : Printed.ofByte (machine.typing (some line.reverse)).session.pending
      carriageReturn = (.command line, none) := by
    show Printed.ofByte (some line.reverse) carriageReturn = _
    simp [Printed.ofByte]
  rw [printByte_of_command ends]
  exact congrArg (Command.execute peripherals line) (Machine.typing_none between)

/-- A command is executed when it ends, and once. -/
theorem printEach_command {line : Bytes} (inside : carriageReturn ∉ line)
    (between : machine.session.BetweenCommands) :
    printEach peripherals (Piece.command line).text machine =
      ((Piece.command line).outcomes (Command.execute peripherals line machine).1,
        (Command.execute peripherals line machine).2) := by
  have typed : printEach peripherals (controlD :: line) machine =
      (List.replicate (line.length + 1) (.ok ()), machine.typing (some line.reverse)) :=
    printEach_unended (fun _ same => Option.some.inj same ▸ inside) between
  rw [Piece.text, printEach_append, typed]
  simp only [printEach, printByte_end line between]
  simp [Piece.outcomes, Piece.text]

/-- Where nothing fails on the way, printing a text is printing each of its characters. -/
theorem printBytes_append_of_ok {first : Bytes}
    (succeeds : ∀ outcome ∈ (printEach peripherals first machine).1, outcome = .ok ())
    (second : Bytes) :
    printBytes peripherals (first ++ second) machine =
      printBytes peripherals second (printEach peripherals first machine).2 := by
  induction first generalizing machine with
  | nil => rfl
  | cons byte rest ih =>
    obtain ⟨here, others⟩ := List.forall_mem_cons.mp succeeds
    have begun : printByte peripherals byte machine =
        (.ok (), (printByte peripherals byte machine).2) := Prod.ext here rfl
    rw [List.cons_append, printBytes, Attempt.bind_of_ok _ begun]
    exact ih others

/-- Printing a command comes down to executing it. -/
theorem printBytes_command_between {line : Bytes} (inside : carriageReturn ∉ line)
    (between : machine.session.BetweenCommands) :
    printBytes peripherals (Piece.command line).text machine =
      Command.execute peripherals line machine := by
  have typed : printEach peripherals (controlD :: line) machine =
      (List.replicate (line.length + 1) (.ok ()), machine.typing (some line.reverse)) :=
    printEach_unended (fun _ same => Option.some.inj same ▸ inside) between
  have succeeds : ∀ outcome ∈ (printEach peripherals (controlD :: line) machine).1,
      outcome = .ok () := by
    rw [typed]
    exact fun outcome member => List.eq_of_mem_replicate member
  rw [Piece.text, printBytes_append_of_ok succeeds, typed, ← printByte_end line between]
  exact congrFun (bind_pure (printByte peripherals carriageReturn)) _

/-- Whatever is left of an earlier command has no part in it. -/
theorem printBytes_command {line : Bytes} (inside : carriageReturn ∉ line)
    (outside : machine.session.commandMode = false) :
    printBytes peripherals (Piece.command line).text machine =
      Command.execute peripherals line (machine.typing none) := by
  have begun : printByte peripherals controlD machine =
      printByte peripherals controlD (machine.typing none) := by
    have between := machine.session.betweenCommands_typing
    rw [printByte_controlD outside]
    have again : printByte peripherals controlD (machine.typing none) = _ :=
      printByte_controlD between.outside
    exact again.symm
  rw [← printBytes_command_between inside machine.session.betweenCommands_typing]
  show printBytes peripherals (controlD :: (line ++ [carriageReturn])) machine =
    printBytes peripherals (controlD :: (line ++ [carriageReturn])) (machine.typing none)
  rw [printBytes, Attempt.bind_apply, Attempt.bind_apply, begun]

/-- Printing a whole piece outside commands deals with the piece, and ends outside commands. -/
theorem printEach_piece (peripherals : Peripherals Devices) {piece : Piece} (whole : piece.IsWhole)
    (between : machine.session.BetweenCommands) :
    printEach peripherals piece.text machine =
        (piece.outcomes (piece.perform peripherals machine).1,
          (piece.perform peripherals machine).2) ∧
      (piece.perform peripherals machine).2.session.BetweenCommands := by
  cases piece with
  | plain byte =>
    refine ⟨?_, printPlain_betweenCommands byte between⟩
    rw [Piece.text, printEach, printByte_of_begins between.outside whole]
    rfl
  | command line =>
    exact ⟨printEach_command whole between, Command.execute_betweenCommands line between⟩

/-- Printing whole pieces deals with them in turn, and ends outside commands. -/
theorem printEach_pieces (peripherals : Peripherals Devices) {pieces : List Piece}
    (whole : ∀ piece ∈ pieces, piece.IsWhole) (between : machine.session.BetweenCommands) :
    printEach peripherals (pieces.flatMap Piece.text) machine =
        Piece.performEach peripherals pieces machine ∧
      (Piece.performEach peripherals pieces machine).2.session.BetweenCommands := by
  induction pieces generalizing machine with
  | nil => exact ⟨rfl, between⟩
  | cons piece rest ih =>
    obtain ⟨here, others⟩ := List.forall_mem_cons.mp whole
    obtain ⟨first, left⟩ := printEach_piece peripherals here between
    obtain ⟨later, ended⟩ := ih others left
    constructor
    · simp only [List.flatMap_cons, printEach_append, first, later, Piece.performEach]
    · exact ended

/-- In write mode a character takes the place of the byte at the pointer of the active file, and
nothing else is changed; it is refused where the gap before it cannot be filled. -/
theorem printPlain_of_active {name : Name} {buffer : Buffer} (mode : machine.session.mode = .write)
    (active : machine.session.active = some (.file name))
    (found : machine.session.buffers.find? name = some buffer)
    (content : buffer.content.isSome = true) (byte : UInt8) :
    let traced := if machine.session.monitor.traces .output then [byte] else []
    let printed := printPlain peripherals byte machine
    ((buffer.filePointer ≤ buffer.bytes.length ∨
        buffer.filePointer < peripherals.platform.fillLimit) →
      printed = (.ok (), { machine with
        session := machine.session.keep (buffer.spliced [byte])
        shown := machine.shown.append traced })) ∧
    (buffer.bytes.length < buffer.filePointer →
      peripherals.platform.fillLimit ≤ buffer.filePointer →
      ∃ log, printed = (.error .ioError, { machine with
        shown := machine.shown.append traced
        log })) := by
  intro traced printed
  let echoed : Machine Devices := { machine with shown := machine.shown.append traced }
  have relied : echoed.session.relied? .write = some name := by
    refine Session.relied?_eq_some_iff.mpr ⟨mode, active, ?_⟩
    rw [found]
    exact content
  have written : printed =
      TextFile.writeCharacter name peripherals.platform.fillLimit byte echoed :=
    (printPlain_of_writing mode byte).trans (writeActiveCharacter_of_relied relied byte)
  have found : echoed.session.buffers.find? name = some buffer := found
  rw [written]
  constructor
  · intro reachable
    obtain ⟨after, wrote, spliced⟩ := Buffer.exists_writeByte reachable byte
    have put : (echoed.session.buffers.find? name).bind
        (·.writeByte peripherals.platform.fillLimit byte) = some after := by
      rw [found]
      exact wrote
    rw [writeCharacter_of_written put, spliced.eq_spliced content]
  · intro behind beyond
    refine writeCharacter_of_refused ?_
    rw [found]
    exact (Buffer.writeByte_eq_none_iff byte).mpr ⟨behind, beyond⟩

/-- Printing a text character by character, whatever comes of each, deals with the pieces of the
text in order, each of them once: a whole command is executed, and any other character outside
commands goes to the active file in write mode and to the console otherwise. The pieces are what
the text is cut into, in the only way there is, whatever the session is like and whichever commands
fail. What is left is typed of a command without an end. On the console such a character is shown,
and nothing else happens; in the active file it takes the place of the byte at the pointer, which
moves on by one. Where the pointer lies too far behind the end of the data it is refused. In any
session that is reached nothing is typed outside commands (`Session.Consistent.betweenCommands`). -/
theorem printEach_framing (peripherals : Peripherals Devices) (text : Bytes)
    (outside : machine.session.commandMode = false) (empty : machine.session.command = []) :
    let pieces := (framing text).1
    let unended := (framing text).2
    let printed := printEach peripherals text machine
    let performed := Piece.performEach peripherals pieces machine
    (∀ others rest, Framing text others rest ↔ others = pieces ∧ rest = unended) ∧
      printed.1 = performed.1 ++ List.replicate (unendedText unended).length (.ok ()) ∧
      printed.2 = performed.2.typing (unended.map List.reverse) ∧
      printed.2.session.commandMode = unended.isSome ∧
      printed.2.session.accumulator = unended.getD [] ∧
      ∀ (byte : UInt8) (before : Machine Devices),
        let dealt := (Piece.plain byte).perform peripherals before
        (before.session.mode ≠ .write →
          dealt = (.ok (), { before with shown := before.shown.append [byte] })) ∧
        (before.session.mode = .write → ∀ name buffer,
          before.session.active = some (.file name) →
          before.session.buffers.find? name = some buffer → buffer.content.isSome = true →
          let traced := if before.session.monitor.traces .output then [byte] else []
          ((buffer.filePointer ≤ buffer.bytes.length ∨
              buffer.filePointer < peripherals.platform.fillLimit) →
            dealt = (.ok (), { before with
              session := before.session.keep (buffer.spliced [byte])
              shown := before.shown.append traced })) ∧
          (buffer.bytes.length < buffer.filePointer →
            peripherals.platform.fillLimit ≤ buffer.filePointer →
            ∃ log, dealt = (.error .ioError, { before with
              shown := before.shown.append traced
              log }))) := by
  have between : machine.session.BetweenCommands := ⟨outside, empty⟩
  obtain ⟨joined, whole, inside⟩ := Framing.of_framing text
  obtain ⟨dealt, left⟩ := printEach_pieces peripherals whole between
  have printed : printEach peripherals text machine =
      ((Piece.performEach peripherals (framing text).1 machine).1 ++
          List.replicate (unendedText (framing text).2).length (.ok ()),
        (Piece.performEach peripherals (framing text).1 machine).2.typing
          ((framing text).2.map List.reverse)) := by
    refine (congrArg (printEach peripherals · machine) joined).trans ?_
    simp only [printEach_append, dealt, printEach_unended inside left]
  refine ⟨fun _ _ => framing_iff, ?_, ?_, ?_, ?_, ?_⟩
  · rw [printed]
  · rw [printed]
  · rw [printed]
    exact Option.isSome_map
  · rw [printed]
    cases (framing text).2 with
    | none => rfl
    | some typed => exact List.reverse_reverse typed
  · intro byte before
    exact ⟨fun other => printPlain_of_not_writing other byte,
      fun mode name buffer active found content =>
        printPlain_of_active mode active found content byte⟩

/-- A command that is not known fails, and what is printed behind it is dealt with all the same. -/
theorem printEach_framing_unknown :
    let text := controlD :: ascii "CATALOG" ++ [carriageReturn] ++ ascii "OK" ++ [controlD]
    let printed := printEach (.inMemory .empty .none) text (.initial .off .empty)
    (.error .invalidOption) ∈ printed.1 ∧ printed.2.shown.toBytes = ascii "OK" ∧
      printed.2.session.commandMode = true ∧ printed.2.session.accumulator = [] := by
  intro text printed
  have cut : framing text =
      ([.command (ascii "CATALOG"), .plain (code 'O'), .plain (code 'K')], some []) := by decide
  have outside : (Machine.initial .off (.empty : Catalog Name Bytes)).session.commandMode =
      false := rfl
  obtain ⟨_, outcomes, left, mode, typed, _⟩ :=
    printEach_framing (.inMemory .empty .none) text outside rfl
  refine ⟨?_, ?_, ?_, ?_⟩
  · rw [outcomes, cut]
    decide
  · rw [left, cut]
    decide
  · rw [mode, cut]
    rfl
  · rw [typed, cut]
    rfl

end Dos

end DosText
