import DosText.Proofs.CommandLines
import DosText.Proofs.FileEffects
import DosText.Proofs.PrintedText
import DosText.Proofs.Splice

/-! What a program that works with one file finds at the terminal where nothing fails: the commands
for the file succeed, text printed in write mode is spliced into it, and lines are read from where
its pointer stands. -/

namespace DosText

open Peripherals (AllFaithful Contents applyAll)

/-- A line that stands at the pointer is read up to its end, and the pointer moves behind that. -/
theorem Buffer.readLine_of_drop {buffer : Buffer} {line rest : Bytes} {stop : UInt8}
    (free : ∀ byte ∈ line, isLineEnd byte = false) (ends : isLineEnd stop = true)
    (remaining : buffer.bytes.drop buffer.filePointer = line ++ stop :: rest) :
    buffer.readLine =
      some (line, { buffer with filePointer := buffer.filePointer + (line.length + 1) }) := by
  have passed : (line ++ stop :: rest).takeWhile (!isLineEnd ·) = line := by
    rw [List.takeWhile_append_of_pos (by simpa using free),
      List.takeWhile_cons_of_neg (by simp [ends]), List.append_nil]
  have length : min (line.length + 1) (line ++ stop :: rest).length = line.length + 1 := by
    rw [List.length_append, List.length_cons]
    omega
  rw [Buffer.readLine_eq]
  simp only [remaining, passed, length]
  rw [if_neg (by simp)]

/-- A file is open under its own name, and no command is being typed. -/
structure Session.Holds (session : Session) (buffer : Buffer) : Prop where
  found : session.buffers.find? buffer.name = some buffer
  outside : session.commandMode = false

variable {Devices Receiver : Type} {peripherals : Peripherals Devices}

/-- What is traced stays, and where nothing is traced nothing is shown. -/
structure Machine.Hushed (before after : Machine Devices) : Prop where
  monitor : after.session.monitor = before.session.monitor
  shown : before.session.monitor = .off → after.shown.toBytes = before.shown.toBytes

theorem Machine.Hushed.trans {first second third : Machine Devices} (begun : first.Hushed second)
    (ended : second.Hushed third) : first.Hushed third where
  monitor := ended.monitor.trans begun.monitor
  shown off := (ended.shown (begun.monitor.trans off)).trans (begun.shown off)

/-- Nothing is traced by a mask that is off. -/
theorem Machine.hushed_of_shown {before after : Machine Devices} {trace : Trace} {text : Bytes}
    (monitor : after.session.monitor = before.session.monitor)
    (shown : after.shown.toBytes =
      before.shown.toBytes ++ if before.session.monitor.traces trace then text else []) :
    before.Hushed after := by
  refine ⟨monitor, fun off => ?_⟩
  have silent : before.session.monitor.traces trace = false := by
    rw [off]
    cases trace <;> rfl
  rw [shown, silent]
  exact List.append_nil _

namespace Dos

/-- Nothing is delivered, and nothing is shown but what is traced. -/
structure Quiet (before after : Dos Devices Receiver) : Prop where
  enqueued : after.enqueued = before.enqueued
  hushed : before.machine.Hushed after.machine

theorem Quiet.trans {begin between last : Dos Devices Receiver} (begun : begin.Quiet between)
    (ended : between.Quiet last) : begin.Quiet last :=
  ⟨ended.enqueued.trans begun.enqueued, begun.hushed.trans ended.hushed⟩

/-- What is enqueued is delivered last. -/
theorem deliveries_of_enqueued {before after : Dos Devices Receiver} {delivery : Delivery Receiver}
    (enqueued : after.enqueued = delivery :: before.enqueued) :
    after.deliveries = before.deliveries ++ [delivery] := by
  rw [deliveries, enqueued, List.reverse_cons]
  rfl

theorem Quiet.deliveries {before after : Dos Devices Receiver} (quiet : before.Quiet after) :
    after.deliveries = before.deliveries := congrArg List.reverse quiet.enqueued

/-- Prints a command. -/
def command (peripherals : Peripherals Devices) (command : Command) : Call Devices Receiver Unit :=
  print peripherals (Piece.command command.render).text

variable {held : Devices → Contents} {first : Contents} {dos : Dos Devices Receiver}

/-- A command for text files has one of the effects of what it orders. -/
theorem command_effects (peripherals : Peripherals Devices) {command : Command}
    {operation : TextFile.Operation} (well : command.WellFormed)
    (ordered : Command.order? command.render = .ok (.file operation))
    (outside : dos.machine.session.commandMode = false) :
    (Dos.command peripherals command).Ensures dos fun outcome later => ∃ calls,
      TextFile.Effect (dos.machine.session.typing none) operation calls outcome
          later.machine.session ∧
        peripherals.Serves calls dos.machine.devices later.machine.devices ∧
        later.machine.session.commandMode = false ∧ dos.Quiet later := by
  have executed : (Command.execute peripherals command.render).Ensures
        (dos.machine.typing none)
      fun outcome later => ∃ calls,
        TextFile.Effect (dos.machine.session.typing none) operation calls outcome later.session ∧
          peripherals.Serves calls dos.machine.devices later.devices ∧
          later.session.commandMode = false ∧ dos.machine.Hushed later := by
    refine (Command.execute_obeys (dos.machine.typing none) command.render).mono ?_
    intro outcome later ensured
    obtain ⟨calls, after, obeys, passes⟩ := ensured
    cases obeys with
    | operated comes effect =>
      rw [ordered] at comes
      cases comes
      have retains := effect.retains
      rw [← passes.session] at effect retains
      exact ⟨calls, effect, passes.served, retains.commandMode,
        Machine.hushed_of_shown retains.monitor passes.shown⟩
    | refused refused => rw [ordered] at refused; cases refused
    | enabled comes => rw [ordered] at comes; cases comes
    | disabled comes => rw [ordered] at comes; cases comes
    | switched comes => rw [ordered] at comes; cases comes
  have printed : Dos.command peripherals command dos =
      let executed := Command.execute peripherals command.render (dos.machine.typing none)
      (executed.1, { dos with machine := executed.2 }) := by
    unfold Dos.command Dos.print Dos.within
    rw [printBytes_command well.carriageReturn_notMem outside]
  obtain ⟨calls, effect, served, idle, hushed⟩ := executed
  exact Attempt.ensures_of_apply printed ⟨calls, effect, served, idle, rfl, hushed⟩

/-- Where nothing fails, its calls are faithful. -/
theorem command_operates {name : Name} (steady : peripherals.Steady held first name)
    {command : Command} {operation : TextFile.Operation} (well : command.WellFormed)
    (ordered : Command.order? command.render = .ok (.file operation))
    (only : ∀ other, operation.Fetches other → other = name)
    (outside : dos.machine.session.commandMode = false) :
    (Dos.command peripherals command).Ensures dos fun outcome later => ∃ calls,
      TextFile.Effect (dos.machine.session.typing none) operation calls outcome
          later.machine.session ∧
        AllFaithful first (held dos.machine.devices) calls ∧
        held later.machine.devices = applyAll calls (held dos.machine.devices) ∧
        later.machine.session.commandMode = false ∧ dos.Quiet later := by
  refine (command_effects peripherals well ordered outside).mono ?_
  intro outcome later ensured
  obtain ⟨calls, effect, served, idle, quiet⟩ := ensured
  have faithful := steady.allFaithful served fun other found asked =>
    only other (effect.fetches asked)
  exact ⟨calls, effect, faithful, steady.toSound.serves served, idle, quiet⟩

/-- So are those of a command that asks for no first content, whatever the source has. -/
theorem command_stores (durable : peripherals.Durable held) {command : Command}
    {operation : TextFile.Operation} (well : command.WellFormed)
    (ordered : Command.order? command.render = .ok (.file operation))
    (aside : ∀ other, ¬operation.Fetches other)
    (outside : dos.machine.session.commandMode = false) :
    (Dos.command peripherals command).Ensures dos fun outcome later => ∃ calls,
      TextFile.Effect (dos.machine.session.typing none) operation calls outcome
          later.machine.session ∧
        (∀ first, AllFaithful first (held dos.machine.devices) calls) ∧
        held later.machine.devices = applyAll calls (held dos.machine.devices) ∧
        later.machine.session.commandMode = false ∧ dos.Quiet later := by
  refine (command_effects peripherals well ordered outside).mono ?_
  intro outcome later ensured
  obtain ⟨calls, effect, served, idle, quiet⟩ := ensured
  have faithful (first : Contents) : AllFaithful first (held dos.machine.devices) calls :=
    durable.allFaithful served fun other found asked => aside other (effect.fetches asked)
  exact ⟨calls, effect, faithful, durable.toSound.serves served, idle, quiet⟩

section Named

variable {name : Name} {buffer : Buffer} {value? : Option Nat}

/-- An OPEN finds what the store or the source has for the file. -/
theorem command_openFile (steady : peripherals.Steady held first name)
    (plain : Command.IsPlainName name) (some : name ≠ []) (small : Arguments.IsSmall value?)
    (outside : dos.machine.session.commandMode = false)
    (exposed : Exposed dos.machine.session.buffers (held dos.machine.devices) first name) :
    let content := (held dos.machine.devices name).or (first name)
    (Dos.command peripherals (.named .openFile name (Arguments.textOf .length value?))).Ensures dos
      fun outcome later => outcome = .ok () ∧
        later.machine.session.Holds (.opened name (value?.getD 0) content) ∧
        held later.machine.devices name = content ∧ dos.Quiet later := by
  intro content
  have well := Command.wellFormed_textOf .openFile .length value? plain some
  refine (command_operates steady well (Command.order?_openFile plain some small)
    (fun _ => id) outside).mono ?_
  intro outcome later ensured
  obtain ⟨calls, effect, faithful, stored, idle, quiet⟩ := ensured
  obtain ⟨succeeds, found, kept⟩ := effect.openFile_of_exposed faithful exposed
  exact ⟨succeeds, ⟨found, idle⟩, (congrFun stored name).trans kept, quiet⟩

/-- A CLOSE stores what the file contains. -/
theorem command_close (durable : peripherals.Durable held)
    (plain : Command.IsPlainName buffer.name) (some : buffer.name ≠ [])
    (holds : dos.machine.session.Holds buffer) :
    (Dos.command peripherals (.close buffer.name [])).Ensures dos
      fun outcome later => outcome = .ok () ∧ later.machine.session.commandMode = false ∧
        later.machine.session.buffers.find? buffer.name = none ∧
        held later.machine.devices buffer.name =
          buffer.bytes?.or (held dos.machine.devices buffer.name) ∧ dos.Quiet later := by
  have well : (Command.close buffer.name []).WellFormed := ⟨plain, rfl, .inl rfl⟩
  refine (command_stores durable well (Command.order?_close plain some) (fun _ => id)
    holds.outside).mono ?_
  intro outcome later ensured
  obtain ⟨calls, effect, faithful, stored, idle, quiet⟩ := ensured
  obtain ⟨succeeds, closed, kept⟩ := effect.close_of_found (faithful fun _ => none) holds.found
  exact ⟨succeeds, idle, closed, (congrFun stored buffer.name).trans kept, quiet⟩

/-- A WRITE redirects output to the file. -/
theorem command_write (durable : peripherals.Durable held)
    (plain : Command.IsPlainName buffer.name) (some : buffer.name ≠ [])
    (small : Arguments.IsSmall value?) (holds : dos.machine.session.Holds buffer)
    (pointer : TextFile.writeOffset buffer (value?.getD 0) 0 < TextFile.offsetLimit) :
    (Dos.command peripherals (.named .write buffer.name (Arguments.textOf .record value?))).Ensures
      dos fun outcome later => outcome = .ok () ∧
        later.machine.session.redirection = .writing buffer.name ∧
        later.machine.session.Holds (TextFile.written buffer (value?.getD 0) 0) ∧
        dos.Quiet later := by
  have well := Command.wellFormed_textOf .write .record value? plain some
  refine (command_stores durable well (Command.order?_write plain some small) (fun _ => id)
    holds.outside).mono ?_
  intro outcome later ensured
  obtain ⟨calls, effect, faithful, stored, idle, quiet⟩ := ensured
  obtain ⟨succeeds, redirected, found⟩ :=
    effect.write_of_found (faithful fun _ => none) holds.found pointer
  exact ⟨succeeds, redirected, ⟨found, idle⟩, quiet⟩

/-- A READ redirects input to a file that can be read. -/
theorem command_read (steady : peripherals.Steady held first buffer.name)
    (plain : Command.IsPlainName buffer.name) (some : buffer.name ≠ [])
    (small : Arguments.IsSmall value?) (outside : dos.machine.session.commandMode = false)
    (readable : TextFile.Readable dos.machine.session (held dos.machine.devices) buffer)
    (pointer : value?.getD 0 * buffer.recordLength < TextFile.offsetLimit) :
    (Dos.command peripherals (.named .read buffer.name (Arguments.textOf .record value?))).Ensures
      dos fun outcome later => outcome = .ok () ∧
        later.machine.session.redirection = .reading buffer.name ∧
        later.machine.session.Holds (TextFile.aimed buffer (value?.getD 0) 0) ∧
        dos.Quiet later := by
  have well := Command.wellFormed_textOf .read .record value? plain some
  rw [← Nat.zero_add (_ * _)] at pointer
  refine (command_operates steady well (Command.order?_read plain some small)
    (fun _ => id) outside).mono ?_
  intro outcome later ensured
  obtain ⟨calls, effect, faithful, stored, idle, quiet⟩ := ensured
  have readable : TextFile.Readable (dos.machine.session.typing none)
      (held dos.machine.devices) buffer := readable.congr rfl
  obtain ⟨succeeds, redirected, found⟩ := effect.read_of_readable faithful readable pointer
  exact ⟨succeeds, redirected, ⟨found, idle⟩, quiet⟩

/-- A READ of a file that has no content yet fails and changes nothing. -/
theorem command_read_empty (steady : peripherals.Steady held first buffer.name)
    (plain : Command.IsPlainName buffer.name) (some : buffer.name ≠ [])
    (small : Arguments.IsSmall value?) (holds : dos.machine.session.Holds buffer)
    (empty : buffer.content = none) :
    (Dos.command peripherals (.named .read buffer.name (Arguments.textOf .record value?))).Ensures
      dos fun outcome later => outcome = .error .fileNotFound ∧
        later.machine.session.Holds buffer ∧
        held later.machine.devices = held dos.machine.devices ∧ dos.Quiet later := by
  have well := Command.wellFormed_textOf .read .record value? plain some
  refine (command_operates steady well (Command.order?_read plain some small)
    (fun _ => id) holds.outside).mono ?_
  intro outcome later ensured
  obtain ⟨calls, effect, faithful, stored, idle, quiet⟩ := ensured
  obtain ⟨fails, kept, rfl⟩ := effect.read_of_empty holds.found empty
  refine ⟨fails, ?_, stored, quiet⟩
  rw [kept]
  exact ⟨holds.found, rfl⟩

end Named

section Content

variable {buffer : Buffer}

/-- Text that is printed in write mode is written into the active file. -/
theorem printBytes_writing {machine : Machine Devices} {text : Bytes} {written : Buffer}
    (holds : machine.session.Holds buffer)
    (redirected : machine.session.redirection = .writing buffer.name)
    (content : buffer.content.isSome = true) (begins : controlD ∉ text)
    (wrote : buffer.writeBytes peripherals.platform.fillLimit text = some written) :
    (printBytes peripherals text).Ensures machine fun outcome later => outcome = .ok () ∧
      later.session.Holds written ∧ later.devices = machine.devices ∧ machine.Hushed later := by
  induction text generalizing machine buffer with
  | nil =>
    cases wrote
    exact ⟨rfl, holds, rfl, rfl, fun _ => rfl⟩
  | cons byte rest ih =>
    obtain ⟨here, others⟩ := not_or.mp (List.mem_cons.not.mp begins)
    obtain ⟨between, put, continued⟩ := Option.bind_eq_some_iff.mp wrote
    have spliced : between = buffer.spliced [byte] ∧ (buffer.filePointer ≤ buffer.bytes.length ∨
        buffer.filePointer < peripherals.platform.fillLimit) :=
      Buffer.eq_spliced_of_writeByte content put
    have own := Buffer.name_of_writeByte put
    obtain ⟨mode, active⟩ := Session.redirection_eq_writing_iff.mp redirected
    let next : Machine Devices := { machine with
      session := machine.session.keep between
      shown := machine.shown.append
        (if machine.session.monitor.traces .output then [byte] else []) }
    have first : printByte peripherals byte machine = (.ok (), next) := by
      rw [printByte_of_begins holds.outside (Ne.symm here),
        (printPlain_of_active mode active holds.found content byte).1 spliced.2, ← spliced.1]
    have present : between.content.isSome = true := by
      rw [spliced.1]
      rfl
    have kept : next.session.Holds between :=
      ⟨machine.session.find?_keep_self between, holds.outside⟩
    have active : next.session.redirection = .writing between.name := by
      rw [own]
      exact redirected
    have hushed : machine.Hushed next :=
      Machine.hushed_of_shown rfl (PackedBytes.toBytes_append _ _)
    refine Attempt.Ensures.of_apply_eq ?_ (Attempt.bind_of_ok _ first)
    refine (ih kept active present others continued).mono ?_
    intro outcome later ensured
    obtain ⟨succeeds, holds, devices, more⟩ := ensured
    exact ⟨succeeds, holds, devices, hushed.trans more⟩

/-- A text that is printed in write mode is spliced into the active file at its pointer, as long as
the gap before the pointer can be filled. -/
theorem print_writing {text : Bytes} (holds : dos.machine.session.Holds buffer)
    (redirected : dos.machine.session.redirection = .writing buffer.name)
    (content : buffer.content.isSome = true) (begins : controlD ∉ text)
    (reachable : buffer.filePointer ≤ buffer.bytes.length ∨
      buffer.filePointer < peripherals.platform.fillLimit ∧ text ≠ []) :
    (print peripherals text).Ensures dos fun outcome later => outcome = .ok () ∧
      ∃ full, buffer.IsSpliced text full ∧ later.machine.session.Holds full ∧
        later.machine.devices = dos.machine.devices ∧ dos.Quiet later := by
  obtain ⟨full, wrote, spliced⟩ := Buffer.exists_writeBytes reachable
  have printed : (printBytes peripherals text).Ensures dos.machine _ :=
    printBytes_writing holds redirected content begins wrote
  obtain ⟨succeeds, kept, devices, hushed⟩ := printed
  exact ⟨succeeds, full, spliced, kept, devices, rfl, hushed⟩

/-- A line is read from where the pointer of the active file stands, and waits to be delivered. -/
theorem readLine_reading {line : Bytes} {after : Buffer}
    (holds : dos.machine.session.Holds buffer)
    (redirected : dos.machine.session.redirection = .reading buffer.name)
    (read : buffer.readLine = some (line, after)) (prompt : Bytes) (receiver : Receiver) :
    (Dos.readLine peripherals prompt receiver).Ensures dos fun outcome later =>
      outcome = .ok none ∧ later.machine.session.Holds after ∧
        later.machine.session.redirection = .reading after.name ∧
        later.enqueued = ⟨receiver, .line line⟩ :: dos.enqueued ∧
        later.machine.devices = dos.machine.devices ∧ dos.machine.Hushed later.machine := by
  have found : (dos.machine.session.buffers.find? buffer.name).bind Buffer.readLine =
      some (line, after) := by
    rw [holds.found]
    exact read
  have own : after.name = buffer.name := by
    obtain ⟨before, found, same⟩ := TextFile.readLine_keeps found
    cases holds.found.symm.trans found
    rw [same]
  have relied := Session.relied?_of_reading redirected holds.found (Buffer.isSome_of_readLine read)
  refine Attempt.ensures_of_apply (readLine_of_read relied found prompt receiver) ?_
  refine ⟨rfl, ⟨dos.machine.session.find?_keep_self after, holds.outside⟩, ?_, rfl, rfl, ?_⟩
  · rw [own]
    exact redirected
  · exact Machine.hushed_of_shown rfl (PackedBytes.toBytes_append _ _)

/-- At the end of the active file there is no line, and nothing changes. -/
theorem readLine_ended (holds : dos.machine.session.Holds buffer)
    (redirected : dos.machine.session.redirection = .reading buffer.name)
    (content : buffer.content.isSome = true) (ended : buffer.readLine = none) (prompt : Bytes)
    (receiver : Receiver) :
    Dos.readLine peripherals prompt receiver dos = (.error .endOfData, dos) := by
  have relied := Session.relied?_of_reading redirected holds.found content
  have mode := (Session.relied?_eq_some_iff.mp relied).1
  refine readLine_of_fault mode ?_ prompt receiver
  rw [readActiveLine_of_relied relied, readLine_apply, holds.found, Option.bind_some, ended]

end Content

end Dos

end DosText
