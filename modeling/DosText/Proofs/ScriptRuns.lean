import DosText.Proofs.AgendaWork
import DosText.Proofs.InMemory
import DosText.Proofs.PrintedText
import DosText.Proofs.StoredFiles
import DosText.Script.Computer

/-! Programs that run a script to its end. Whatever a line does and wherever a fault abandons it, no
command is left half typed, so the CLOSE that ends the program is understood as one; and where the
store does not fail, every file that is open then is stored. -/

namespace DosText

open Peripherals (Contents)

variable {Devices Receiver : Type} {peripherals : Peripherals Devices}

/-- A machine between commands. -/
structure Machine.Settled (machine : Machine Devices) : Prop where
  outside : machine.session.commandMode = false
  consistent : machine.session.Consistent

theorem Printed.ofByte_carriageReturn (pending : Option Bytes) :
    (ofByte pending carriageReturn).2 = none := by
  cases pending with
  | none => rfl
  | some typed => rfl

theorem Command.Obeys.pending {session after : Session} {line : Bytes}
    {calls : List Peripherals.Call} {outcome : Except Fault Unit}
    (obeys : Obeys session line calls outcome after) : after.pending = session.pending := by
  cases obeys with
  | operated ordered effect => exact effect.retains.pending
  | _ => rfl

namespace TerminalCall

variable {session after : Session} {calls : List Peripherals.Call} {text : Bytes}
variable {outcome : Except Fault Unit}

/-- What is typed of a command after a character is printed. -/
theorem Effect.pending_of_print {byte : UInt8}
    (effect : Effect session (.print byte : TerminalCall Receiver) calls text outcome after) :
    after.pending = (Printed.ofByte session.pending byte).2 := by
  cases effect with
  | held held => rw [held, Session.pending_typing]
  | commanded ended obeys =>
    rw [ended, obeys.pending, Session.pending_typing, (Printed.ofByte_eq_command ended).2.2]
  | shown outside other =>
    obtain ⟨-, begun, untyped⟩ := Printed.ofByte_eq_plain outside
    rw [outside, begun, untyped]
  | written outside mode effect =>
    obtain ⟨-, begun, untyped⟩ := Printed.ofByte_eq_plain outside
    rw [outside, effect.retains.pending, begun, untyped]

/-- A character that is printed fails only outside commands, or where it ends one. -/
theorem Effect.settled_of_fault {byte : UInt8} {fault : Fault}
    (effect : Effect session (.print byte : TerminalCall Receiver) calls text (.error fault)
      after) : (Printed.ofByte session.pending byte).2 = none := by
  cases effect with
  | commanded ended obeys =>
    rw [ended]
    exact (Printed.ofByte_eq_command ended).2.2
  | written outside mode effect =>
    rw [outside]
    exact (Printed.ofByte_eq_plain outside).2.2

/-- What is asked for at the terminal has no part in commands. -/
theorem Effect.pending_of_asks {call : TerminalCall Receiver}
    (effect : call.Effect session calls text outcome after) (asks : ∀ byte, call ≠ .print byte) :
    after.pending = session.pending := by
  cases effect with
  | held held => exact absurd rfl (asks _)
  | commanded ended obeys => exact absurd rfl (asks _)
  | shown outside other => exact absurd rfl (asks _)
  | written outside mode effect => exact absurd rfl (asks _)
  | _ => rfl

theorem run_settled {dos : Dos Devices Receiver} {call : TerminalCall Receiver}
    (settled : dos.machine.Settled) (asks : ∀ byte, call ≠ .print byte) :
    (call.run peripherals dos).2.machine.Settled := by
  obtain ⟨calls, text, after, effect, passes, -, -⟩ := call.run_effect peripherals dos
  refine ⟨Session.pending_eq_none_iff.mp ?_, ?_⟩
  · rw [passes.session, effect.pending_of_asks asks]
    exact Session.pending_eq_none_iff.mpr settled.outside
  · rw [passes.session]
    exact effect.effect.consistent settled.consistent

end TerminalCall

/-- A printed text that is ended by a carriage return ends outside commands: what it is made of has
no say in that, nor has a fault that abandons it. -/
theorem Dos.printBytes_settled (text : Bytes) {machine : Machine Devices}
    (consistent : machine.session.Consistent) :
    (printBytes peripherals (text ++ [carriageReturn]) machine).2.Settled := by
  induction text generalizing machine with
  | nil =>
    obtain ⟨calls, shown, after, effect, passes⟩ :=
      printByte_effect peripherals Unit machine carriageReturn
    have last : printBytes peripherals [carriageReturn] machine =
        printByte peripherals carriageReturn machine :=
      congrFun (bind_pure (printByte peripherals carriageReturn)) machine
    rw [List.nil_append, last]
    refine ⟨Session.pending_eq_none_iff.mp ?_, ?_⟩
    · rw [passes.session, effect.pending_of_print, Printed.ofByte_carriageReturn]
    · rw [passes.session]
      exact effect.effect.consistent consistent
  | cons byte rest ih =>
    obtain ⟨calls, shown, after, effect, passes⟩ :=
      printByte_effect peripherals Unit machine byte
    rcases printed : printByte peripherals byte machine with ⟨fault | done, later⟩
    · rw [printed] at effect passes
      rw [List.cons_append, printBytes, Attempt.bind_of_error _ printed]
      refine ⟨Session.pending_eq_none_iff.mp ?_, ?_⟩
      · rw [passes.session, effect.pending_of_print, effect.settled_of_fault]
      · rw [passes.session]
        exact effect.effect.consistent consistent
    · rw [printed] at effect passes
      rw [List.cons_append, printBytes, Attempt.bind_of_ok _ printed]
      refine ih ?_
      rw [passes.session]
      exact effect.effect.consistent consistent

/-- A store that does not fail where it works: it tells what it holds, then holds what it is given,
and works on. -/
structure Store.Holds (store : Store Devices) (working : Devices → Prop)
    (held : Devices → Contents) : Prop where
  get : ∀ name devices, working devices →
    (store.get name devices).outcome = .ok (held devices name)
  set : ∀ name content devices, working devices →
    (store.set name content devices).outcome = .ok ()
  updated : ∀ name content devices, working devices →
    held (store.set name content devices).devices =
      Function.update (held devices) name (some content)
  remains : ∀ name content devices, working devices →
    working (store.set name content devices).devices

section Closing

variable {working : Devices → Prop} {held : Devices → Contents}
variable {calls : List Peripherals.Call} {devices last : Devices}

/-- Where the store works, a file is stored, and the store still works. -/
theorem TextFile.Flushes.of_holds (holds : peripherals.store.Holds working held)
    {buffer : Buffer} {outcome : Except Fault Unit} (flushes : Flushes buffer calls outcome)
    (served : peripherals.Serves calls devices last) (works : working devices) :
    outcome = .ok () ∧ working last ∧ held last = buffer.settle (held devices) := by
  cases flushes with
  | empty none =>
    cases served
    unfold Buffer.settle Buffer.bytes?
    rw [none]
    exact ⟨rfl, works, rfl⟩
  | @stored content some =>
    obtain ⟨-, rfl⟩ := served
    unfold Buffer.settle Buffer.bytes?
    rw [some]
    exact ⟨rfl, holds.remains _ _ _ works, holds.updated _ _ _ works⟩
  | @refused content some failure =>
    cases (holds.set buffer.name content.toBytes devices works).symm.trans served.1

/-- Where the store works, all files are stored. -/
theorem TextFile.FlushesAll.of_holds (holds : peripherals.store.Holds working held)
    {buffers : List Buffer} {outcome : Except Fault Unit}
    (flushes : FlushesAll buffers calls outcome)
    (served : peripherals.Serves calls devices last) (works : working devices) :
    outcome = .ok () ∧ working last ∧ held last = Buffer.settleAll buffers (held devices) := by
  induction flushes generalizing devices with
  | nil =>
    cases served
    exact ⟨rfl, works, rfl⟩
  | cons flushed others ih =>
    obtain ⟨between, begun, ended⟩ := served.split
    obtain ⟨-, still, kept⟩ := flushed.of_holds holds begun works
    obtain ⟨done, goes, settled⟩ := ih ended still
    rw [settled, kept]
    exact ⟨done, goes, rfl⟩
  | refused failed => cases (failed.of_holds holds served works).1

/-- The command that closes all files stores them, discards them and succeeds. -/
theorem Command.execute_closeAll (holds : peripherals.store.Holds working held)
    {machine : Machine Devices} (works : working machine.devices) :
    let executed := execute peripherals (ascii "CLOSE") machine
    executed.1 = .ok () ∧ executed.2.session.buffers = .empty ∧ working executed.2.devices ∧
      ∃ visited, visited.Perm (machine.session.buffers.entries.map Prod.snd) ∧
        held executed.2.devices = Buffer.settleAll visited (held machine.devices) := by
  intro executed
  rcases run : execute peripherals (ascii "CLOSE") machine with ⟨outcome, later⟩
  obtain ⟨calls, after, obeys, passes⟩ := (execute_obeys machine (ascii "CLOSE")).apply run
  rw [show executed = (outcome, later) from run, passes.session]
  cases obeys with
  | operated ordered effect =>
    cases order?_closeAll.symm.trans ordered
    cases effect with
    | closeAllRefused perm failed => cases (failed.of_holds holds passes.served works).1
    | closedAll perm flushed =>
      obtain ⟨-, still, stored⟩ := flushed.of_holds holds passes.served works
      exact ⟨rfl, rfl, still, _, perm, stored⟩
    | idle relies other => cases relies
    | unmet relies same absent => cases relies
  | refused refused => cases order?_closeAll.symm.trans refused
  | enabled ordered => cases order?_closeAll.symm.trans ordered
  | disabled ordered => cases order?_closeAll.symm.trans ordered
  | switched ordered => cases order?_closeAll.symm.trans ordered

end Closing

namespace Script

variable {File Outer : Type} {system : System File Outer} {state : State Outer}

/-- A program between two lines of its script. -/
structure State.Settled (state : State Outer) : Prop where
  machine : state.dos.machine.Settled
  waitless : state.dos.enqueued = []

/-- A program that starts is between two lines. -/
theorem settled_of_start {program : Bytes} {arguments : List Bytes} {outer : Outer}
    (started : start system program arguments outer = .ok state) : state.Settled := by
  unfold start at started
  simp only at started
  split at started
  · cases started
  · split at started
    · cases started
    · split at started
      · cases started
      · cases started
        exact ⟨⟨rfl, Session.consistent_initial _⟩, rfl⟩

variable {peripherals : Peripherals (Script.Devices Outer)}
variable {dos : Dos (Script.Devices Outer) Unit}

theorem readCharacter_settled (settled : dos.machine.Settled) :
    (Dos.readCharacter peripherals () dos).2.machine.Settled := by
  have ran : ((TerminalCall.character ()).run peripherals dos).2.machine.Settled :=
    TerminalCall.run_settled settled nofun
  have same : ((TerminalCall.character ()).run peripherals dos).2 =
      (Dos.readCharacter peripherals () dos).2 := by
    exact Attempt.bind_pure_snd _ _ dos
  rwa [same] at ran

theorem askCharacters_settled (count : Nat) (settled : dos.machine.Settled) :
    (State.askCharacters peripherals count dos).2.machine.Settled := by
  induction count generalizing dos with
  | zero => exact settled
  | succ count ih =>
    have asked : (Dos.readCharacter peripherals () dos).2.machine.Settled :=
      readCharacter_settled settled
    rw [State.askCharacters, Attempt.bind_apply]
    rcases character : Dos.readCharacter peripherals () dos with ⟨fault | due, later⟩
    · rwa [character] at asked
    · rw [character] at asked
      exact ih asked

/-- Whatever a line of a script does, it ends outside commands. -/
theorem lineCall_settled (line : Line) (settled : dos.machine.Settled) :
    (State.lineCall peripherals line dos).2.machine.Settled := by
  cases line with
  | print text => exact Dos.printBytes_settled text settled.consistent
  | characters count => exact askCharacters_settled count settled
  | input =>
    have ran : ((TerminalCall.line [code '?'] ()).run peripherals dos).2.machine.Settled :=
      TerminalCall.run_settled settled nofun
    exact ran

namespace State

variable {call : Call (Script.Devices Outer) Unit Unit}

@[simp] theorem session_attempt (state : State Outer)
    (call : Call (Script.Devices Outer) Unit Unit) :
    (state.attempt call).2.dos.machine.session = (call state.dos).2.machine.session := by
  unfold attempt
  simp only
  split <;> rfl

@[simp] theorem devices_attempt (state : State Outer)
    (call : Call (Script.Devices Outer) Unit Unit) :
    (state.attempt call).2.dos.machine.devices = (call state.dos).2.machine.devices := by
  unfold attempt
  simp only
  split <;> rfl

@[simp] theorem peripherals_attempt (state : State Outer)
    (call : Call (Script.Devices Outer) Unit Unit) :
    (state.attempt call).2.peripherals = state.peripherals := by
  unfold attempt
  simp only
  split <;> rfl

theorem fault_attempt_of_ok {call : Call (Script.Devices Outer) Unit Unit}
    (done : (call state.dos).1 = .ok ()) : (state.attempt call).1 = none := by
  unfold attempt
  simp only [done]

theorem Settled.nextLine (settled : state.Settled) (system : System File Outer) :
    (state.nextLine system).2.Settled :=
  ⟨⟨settled.machine.outside, settled.machine.consistent⟩, settled.waitless⟩

section Showing

theorem bounded_showing : (showing : Agenda Empty (State Outer) _ _).Bounded where
  cleared := fun _ => rfl
  act := by
    intro item effect ordered state inserted later shown
    cases ordered
    cases shown
    show 0 + showing.load state + 2 ≤ 2 + showing.load state
    omega
  perform := nofun
  flush := nofun

theorem carryOut_showing (items : List Item) (state : State Outer) :
    showing.carryOut items state =
      (.ok (), { state with output := state.output.append (items.flatMap shownItem) }) := by
  induction items generalizing state with
  | nil =>
    rw [bounded_showing.carryOut_nil, List.flatMap_nil, PackedBytes.append_nil]
    rfl
  | cons item rest ih =>
    rw [bounded_showing.carryOut_act rfl, List.flatMap_cons, ← PackedBytes.append_append]
    show (showing.carryOut [] >>= fun _ => showing.carryOut rest) _ = _
    rw [bounded_showing.carryOut_nil, pure_bind]
    exact ih _

/-- Once deliveries have been shown none waits: all that waited were shown in order, which is all
that showing them has done. -/
theorem showDeliveries_eq (state : State Outer) :
    state.showDeliveries =
      { state with
        dos := { state.dos with enqueued := [] }
        output := state.output.append
          (state.dos.deliveries.flatMap fun delivery => shownItem delivery.item) } := by
  suffices performed : ∃ any, showing.perform state = (.ok any, _) by
    obtain ⟨any, performed⟩ := performed
    exact congrArg Prod.snd (bounded_showing.flush_of_perform performed rfl)
  cases waiting : state.dos.deliveries with
  | nil =>
    have none : state.dos.enqueued = [] := List.reverse_eq_nil_iff.mp waiting
    refine ⟨false, ?_⟩
    rw [Agenda.perform_of_none waiting, List.flatMap_nil, PackedBytes.append_nil, ← none]
  | cons first others =>
    refine ⟨true, ?_⟩
    have items : (first :: others).flatMap (showing : Agenda _ (State Outer) _ _).body =
        (first :: others).map Delivery.item := List.map_eq_flatMap.symm
    rw [Agenda.perform_of_some waiting, bounded_showing.work_batch, items,
      Attempt.bind_of_ok _ (carryOut_showing _ _), List.flatMap_map]
    rfl

end Showing

/-- A line leaves no command half typed and no delivery waiting, even if a fault abandons it. -/
theorem Settled.obey (settled : state.Settled) (text : Bytes) : (state.obey text).Settled := by
  have ended : (lineCall state.peripherals (.read text) state.dos).2.machine.Settled :=
    lineCall_settled (.read text) settled.machine
  have same := session_attempt state (lineCall state.peripherals (.read text))
  rw [State.obey, showDeliveries_eq]
  exact ⟨⟨same ▸ ended.outside, same ▸ ended.consistent⟩, rfl⟩

/-- Between any two lines of a script the program is settled. -/
theorem Settled.obeyAll (settled : state.Settled) (system : System File Outer) (limit : Nat) :
    (state.obeyAll system limit).Settled ∧
      (state.obeyAll system limit).peripherals = state.peripherals := by
  induction limit generalizing state with
  | zero => exact ⟨settled, rfl⟩
  | succ limit ih =>
    have taken := settled.nextLine system
    have same : (state.nextLine system).2.peripherals = state.peripherals := rfl
    unfold State.obeyAll
    rcases next : state.nextLine system with ⟨_ | line, later⟩
    · rw [next] at taken same
      exact ⟨taken, same⟩
    · rw [next] at taken same
      obtain ⟨ended, kept⟩ := ih (taken.obey line)
      refine ⟨ended, kept.trans ?_⟩
      rw [State.obey, showDeliveries_eq]
      exact (peripherals_attempt later _).trans same

/-- What is printed at the end is understood as a command. -/
theorem Settled.print_close (settled : state.Settled) :
    Dos.print state.peripherals (controlD :: ascii "CLOSE" ++ [carriageReturn]) state.dos =
      Dos.within (Command.execute state.peripherals (ascii "CLOSE")) state.dos := by
  have inside : carriageReturn ∉ ascii "CLOSE" := by decide
  have between := settled.machine.consistent.betweenCommands settled.machine.outside
  have printed : Dos.printBytes state.peripherals (Piece.command (ascii "CLOSE")).text
      state.dos.machine = Command.execute state.peripherals (ascii "CLOSE") state.dos.machine :=
    Dos.printBytes_command_between inside between
  exact congrArg (fun done => (done.1, { state.dos with machine := done.2 })) printed

/-- Where the store works, a program that is settled ends well: no file is left open, and the store
has of each file what the file held, or what the store had of it before. -/
theorem Settled.finish (settled : state.Settled) {working : Script.Devices Outer → Prop}
    {held : Script.Devices Outer → Contents}
    (holds : state.peripherals.store.Holds working held)
    (works : working state.dos.machine.devices) :
    state.finish.status = 0 ∧ state.finish.buffers = .empty ∧
      working state.finish.devices ∧
      ∀ name, held state.finish.devices name =
        ((state.dos.machine.session.buffers.find? name).bind Buffer.bytes?).or
          (held state.dos.machine.devices name) := by
  have recognised := settled.print_close
  obtain ⟨succeeds, empty, still, visited, perm, stored⟩ := Command.execute_closeAll holds works
  have done : state.closing.1 = none := by
    refine fault_attempt_of_ok ?_
    rw [recognised]
    exact succeeds
  have session : state.closing.2.dos.machine.session =
      (Command.execute state.peripherals (ascii "CLOSE") state.dos.machine).2.session := by
    refine (session_attempt state _).trans ?_
    rw [recognised]
    rfl
  have devices : state.closing.2.dos.machine.devices =
      (Command.execute state.peripherals (ascii "CLOSE") state.dos.machine).2.devices := by
    refine (devices_attempt state _).trans ?_
    rw [recognised]
    rfl
  refine ⟨?_, ?_, ?_, fun name => ?_⟩
  · show (if state.closing.1.isSome then 1 else 0) = 0
    rw [done]
    rfl
  · exact (congrArg Session.buffers session).trans empty
  · show working state.closing.2.dos.machine.devices
    rwa [devices]
  · show held state.closing.2.dos.machine.devices name = _
    rw [devices, stored, Buffer.settleAll_visited settled.machine.consistent.named perm]

/-- Files are kept in memory, or in the folder that is selected. -/
theorem store_of_start {program : Bytes} {arguments : List Bytes} {outer : Outer}
    (started : start system program arguments outer = .ok state) :
    state.peripherals.store =
      match (Options.read arguments).selection? "store" with
      | none => Script.Devices.memoryPart.store Store.memory
      | some base => Script.Devices.outerPart.store ((Folder.ofBase base).store system.host) := by
  unfold start openStore at started
  simp only at started
  split at started
  · cases started
  · split at started
    · cases started
    · split at started
      · cases started
      · cases started
        cases (Options.read arguments).selection? "store" <;> rfl

/-- A program loses nothing at its end, whatever its script is, whatever it traces and whichever
lines fail, if its store works then. Between any two lines, and behind the last one, no command is
being typed and no delivery waits; so the CLOSE that ends the program is understood as a command.
The program succeeds, no file is left open, and the store that it leaves has of each file that was
open and had content that content. Where a folder is selected, what the program ran on has it. -/
theorem obeyAll_closing {working : Script.Devices Outer → Prop}
    {held : Script.Devices Outer → Contents} {program : Bytes} {arguments : List Bytes}
    {outer : Outer} (started : start system program arguments outer = .ok state)
    (holds : state.peripherals.store.Holds working held) (limit : Nat)
    (works : working (state.obeyAll system limit).dos.machine.devices) :
    let last := state.obeyAll system limit
    let ended := last.finish
    (∀ taken, (state.obeyAll system taken).dos.machine.session.commandMode = false ∧
      (state.obeyAll system taken).dos.deliveries = []) ∧
      Dos.print last.peripherals (controlD :: ascii "CLOSE" ++ [carriageReturn]) last.dos =
        Dos.within (Command.execute last.peripherals (ascii "CLOSE")) last.dos ∧
      ended.status = 0 ∧ ended.buffers = .empty ∧
      ∀ name buffer content, last.dos.machine.session.buffers.find? name = some buffer →
        buffer.content = some content →
        (last.peripherals.store.get name ended.devices).outcome = .ok (some content.toBytes) ∧
        ∀ base, (Options.read arguments).selection? "store" = some base →
          (((Folder.ofBase base).store system.host).get name ended.outer).outcome =
            .ok (some content.toBytes) := by
  intro last ended
  obtain ⟨settled, kept⟩ := (settled_of_start started).obeyAll system limit
  have selected := store_of_start started
  rw [← kept] at holds selected
  obtain ⟨succeeds, empty, still, stored⟩ := settled.finish holds works
  refine ⟨?_, settled.print_close, succeeds, empty, ?_⟩
  · intro taken
    have between := ((settled_of_start started).obeyAll system taken).1
    exact ⟨between.machine.outside, congrArg List.reverse between.waitless⟩
  · intro name buffer content found has
    have got : (last.peripherals.store.get name ended.devices).outcome =
        .ok (some content.toBytes) := by
      rw [holds.get name _ still, stored, found, Option.bind_some, Buffer.bytes?, has]
      rfl
    refine ⟨got, fun base named => ?_⟩
    rw [named] at selected
    rw [selected] at got
    exact got

/-- The files that a program keeps in memory never fail it. -/
theorem holds_memory :
    (Script.Devices.memoryPart.store Store.memory : Store (Script.Devices Outer)).Holds
      (fun _ => True) fun devices => devices.memory.find? where
  get := fun _ _ _ => rfl
  set := fun _ _ _ _ => rfl
  updated := by
    intro name content devices _
    funext other
    rw [Function.update_apply]
    exact Catalog.find?_insert devices.memory name other content
  remains := fun _ _ _ _ => trivial

/-- A script that has a file read that is not there, and ends while another is being written. -/
theorem obeyAll_closing_interrupted :
    let script := ascii "^DOPEN A\n^DWRITE A\nHELLO\n^DREAD B\n<\nTYPED\nMORE"
    let started := start Computer.system (ascii "dos") [ascii "-monitor=C"]
      (.initial .fresh script)
    ∃ state, started = .ok state ∧
      let last := state.obeyAll Computer.system 9
      last.dos.machine.session.redirection = .writing (ascii "A") ∧
        last.finish.status = 0 ∧
        (last.peripherals.store.get (ascii "A") last.finish.devices).outcome =
          .ok (some (ascii "HELLO\rMORE\r")) := by
  intro script started
  have facts : started.toOption.map (fun state =>
      let session := (state.obeyAll Computer.system 9).dos.machine.session
      (session.redirection, (session.buffers.find? (ascii "A")).bind Buffer.bytes?)) =
        some (.writing (ascii "A"), some (ascii "HELLO\rMORE\r")) := by decide +kernel
  obtain ⟨state, begun, same⟩ := Option.map_eq_some_iff.mp facts
  have run : started = .ok state := by
    cases outcome : started with
    | error ended =>
      rw [outcome] at begun
      cases begun
    | ok state =>
      rw [outcome] at begun
      exact congrArg Except.ok (Option.some.inj begun)
  have memory : state.peripherals.store = Script.Devices.memoryPart.store Store.memory :=
    store_of_start run
  obtain ⟨redirected, bytes⟩ := Prod.mk.inj same
  obtain ⟨buffer, found, present⟩ := Option.bind_eq_some_iff.mp bytes
  obtain ⟨content, has, shown⟩ := Option.map_eq_some_iff.mp present
  obtain ⟨-, -, status, -, stored⟩ :=
    obeyAll_closing run (memory ▸ holds_memory) 9 trivial
  refine ⟨state, run, redirected, status, ?_⟩
  rw [← shown]
  exact (stored (ascii "A") buffer content found has).1

end State

end Script

end DosText
