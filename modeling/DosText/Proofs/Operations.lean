import DosText.Proofs.PrintedText
import DosText.Proofs.Tracing

/-! Operations on text files, whichever way they come about. What a command line orders, and what a
call at the terminal comes down to while its input or output is redirected, ends as the operation
does on its own, and leaves the same session and devices. Any other event leaves the files alone,
unless it discards them. -/

namespace DosText

variable {Devices Receiver : Type} {peripherals : Peripherals Devices}

/-- Two results that agree but for what was shown and logged. -/
structure Machine.Agree (left right : Except Fault Unit × Machine Devices) : Prop where
  outcome : left.1 = right.1
  session : left.2.session = right.2.session
  devices : left.2.devices = right.2.devices

open Machine (Agree)

namespace TextFile.Operation

variable (operation : Operation) (machine : Machine Devices)

theorem perform_monitor :
    (operation.perform peripherals machine).2.session.monitor = machine.session.monitor := by
  have performed : (operation.perform peripherals).Ensures machine fun _ later =>
      later.session.monitor = machine.session.monitor := by
    refine (perform_effect (Machine.Moves.refl peripherals machine) operation).mono ?_
    rintro outcome later ⟨calls, after, effect, moved⟩
    rw [moved.session]
    exact effect.retains.monitor
  exact performed

/-- What was shown before makes no difference to an operation. -/
theorem perform_shown (peripherals : Peripherals Devices) (shown : PackedBytes) :
    Agree (operation.perform peripherals { machine with shown })
      (operation.perform peripherals machine) := by
  have respects : (operation.perform peripherals).Respects (Machine.Twins False) :=
    operation.perform_respects
  have twins : machine.Twins False { machine with shown } := ⟨rfl, rfl, rfl, nofun, nofun⟩
  obtain ⟨same, after⟩ := respects machine { machine with shown } twins
  refine ⟨same.symm, ?_, after.devices⟩
  rw [after.session, operation.perform_monitor, ← operation.perform_monitor machine]

end TextFile.Operation

/-- A command line that orders an operation does what that does. -/
theorem Command.execute_of_operation? {line : Bytes} {operation : TextFile.Operation}
    (ordered : operation? line = some operation) (machine : Machine Devices) :
    Agree (execute peripherals line machine) (operation.perform peripherals machine) := by
  have obeyed : obey peripherals line = operation.perform peripherals := by
    rw [obey_eq]
    unfold operation? at ordered
    split at ordered
    · next found =>
      cases ordered
      rw [found]
      rfl
    · cases ordered
  obtain ⟨log, executed⟩ := exists_execute peripherals machine line
  rw [executed, obeyed]
  have same := operation.perform_shown machine peripherals
    (machine.shown.append (traceOf machine.session line))
  exact ⟨same.outcome, same.session, same.devices⟩

namespace TerminalCall

variable {dos : Dos Devices Receiver} {receiver : Receiver}

/-- A character that is asked for in read mode is read from the active file, also if it is traced
then. -/
theorem run_character_of_reading (mode : dos.machine.session.mode = .read) :
    let ran := (character receiver).run peripherals dos
    Agree (ran.1, ran.2.machine)
      (TextFile.Operation.perform peripherals .readCharacter dos.machine) := by
  simp only [run, Dos.readCharacter, TextFile.Operation.perform, Attempt.bind_apply,
    Attempt.get_apply, if_pos mode, Dos.within]
  rcases TextFile.readActiveCharacter peripherals dos.machine with ⟨fault | byte, later⟩
  · exact ⟨rfl, rfl, rfl⟩
  · by_cases traced : dos.machine.session.monitor.traces .input = true
    · simp only [traced, if_true]
      exact ⟨rfl, rfl, rfl⟩
    · simp only [traced, if_false, Bool.false_eq_true]
      exact ⟨rfl, rfl, rfl⟩

theorem run_line_of_reading {prompt : Bytes} (mode : dos.machine.session.mode = .read) :
    let ran := (line prompt receiver).run peripherals dos
    Agree (ran.1, ran.2.machine)
      (TextFile.Operation.perform peripherals .readLine dos.machine) := by
  simp only [run, Dos.readLine, TextFile.Operation.perform, Attempt.bind_apply,
    Attempt.get_apply, if_pos mode, Dos.within]
  rcases TextFile.readActiveLine peripherals dos.machine with ⟨fault | text, later⟩
  · exact ⟨rfl, rfl, rfl⟩
  · by_cases traced : dos.machine.session.monitor.traces .input = true
    · simp only [traced, if_true]
      exact ⟨rfl, rfl, rfl⟩
    · simp only [traced, if_false, Bool.false_eq_true]
      exact ⟨rfl, rfl, rfl⟩

/-- A character that is printed in write mode is written to the active file, also if it is traced
before. -/
theorem printPlain_agrees {machine : Machine Devices} (mode : machine.session.mode = .write)
    (byte : UInt8) :
    Agree (Dos.printPlain peripherals byte machine)
      (TextFile.Operation.perform peripherals (.writeCharacter byte) machine) := by
  have writes : ∀ machine : Machine Devices, machine.session.mode = .write →
      TextFile.Operation.perform peripherals (.writeCharacter byte) machine =
        TextFile.writeActiveCharacter peripherals byte machine := by
    intro machine mode
    simp only [TextFile.Operation.perform, Attempt.bind_apply, Attempt.get_apply, if_pos mode]
  let shown := machine.shown.append (if machine.session.monitor.traces .output then [byte] else [])
  have same := TextFile.Operation.perform_shown (.writeCharacter byte) machine peripherals shown
  rw [writes { machine with shown } mode] at same
  rwa [printPlain_of_writing mode]

end TerminalCall

/-- What an event does that comes down to an operation is what the operation does, once the event
has ended the command that it executes. -/
theorem Event.run_of_operation? {event : Event Receiver} {dos : Dos Devices Receiver}
    {operation : TextFile.Operation}
    (comes : event.operation? dos.machine.session = some operation) :
    ∃ commandMode command,
      let begun := { dos.machine.session with commandMode, command }
      let ran := event.run peripherals dos
      Agree (ran.1, ran.2.machine)
        (operation.perform peripherals { dos.machine with session := begun }) := by
  have still : ∀ ran, Agree ran (operation.perform peripherals dos.machine) →
      ∃ commandMode command, Agree ran (operation.perform peripherals
        { dos.machine with session := { dos.machine.session with commandMode, command } }) :=
    fun ran same => ⟨dos.machine.session.commandMode, dos.machine.session.command, same⟩
  cases event with
  | file given =>
    cases comes
    exact still _ ⟨rfl, rfl, rfl⟩
  | execute line => exact still _ (Command.execute_of_operation? comes dos.machine)
  | terminal call =>
    cases call with
    | print byte =>
      simp only [operation?, TerminalCall.operation?] at comes
      rcases framed : Printed.ofByte dos.machine.session.pending byte with ⟨printed, pending⟩
      rw [framed] at comes
      cases printed with
      | held => cases comes
      | command line =>
        refine ⟨false, [], ?_⟩
        simp only [run, TerminalCall.run, Dos.within, printByte_of_command framed]
        exact Command.execute_of_operation? comes _
      | plain plain =>
        simp only at comes
        split at comes
        · next mode =>
          cases comes
          refine still _ ?_
          simp only [run, TerminalCall.run, Dos.within, printByte_of_plain framed]
          exact TerminalCall.printPlain_agrees mode plain
        · cases comes
    | character receiver =>
      simp only [operation?, TerminalCall.operation?] at comes
      split at comes
      · next mode =>
        cases comes
        exact still _ (TerminalCall.run_character_of_reading mode)
      · cases comes
    | line prompt receiver =>
      simp only [operation?, TerminalCall.operation?] at comes
      split at comes
      · next mode =>
        cases comes
        exact still _ (TerminalCall.run_line_of_reading mode)
      · cases comes
  | firmware active => cases comes
  | taken => cases comes
  | reset => cases comes
  | clear => cases comes

/-- An event that comes down to no operation leaves the open files and the redirection alone, and
makes no call for a file, unless it discards them all. -/
theorem Event.run_of_idle {event : Event Receiver} {dos : Dos Devices Receiver}
    (idle : event.operation? dos.machine.session = none) (keeps : ¬event.Discards) :
    let later := (event.run peripherals dos).2.machine
    later.session.buffers = dos.machine.session.buffers ∧
      later.session.active = dos.machine.session.active ∧
      later.session.mode = dos.machine.session.mode ∧
      ∃ calls, peripherals.Serves calls dos.machine.devices later.devices ∧
        ∀ call ∈ calls, ¬call.IsOfFiles := by
  obtain ⟨calls, effect, served⟩ := event.run_effect peripherals dos
  intro later
  change event.Effect dos.machine.session calls (event.run peripherals dos).1 later.session
    at effect
  generalize (event.run peripherals dos).1 = outcome at effect
  generalize later.session = after at effect
  cases effect with
  | operated operates => cases idle.symm.trans operates
  | aside _ _ elsewhere buffers active mode =>
    exact ⟨buffers, active, mode, calls, served, elsewhere⟩
  | discarded _ _ discards => exact absurd discards keeps

end DosText
