import DosText.Proofs.Deliveries
import DosText.Proofs.InMemory
import DosText.Proofs.PrintedText
import DosText.Proofs.Tracing

/-! Programs on two systems that differ in what they trace. What is printed and what is asked for at
the terminal, what is delivered and when, and what a reset leaves is the same in both; only what is
shown differs, and only by what one of them traces and the other does not. -/

namespace DosText

open Attempt (Respects respects_pure respects_get_bind)

variable {Devices Receiver Value : Type} {peripherals : Peripherals Devices} {nested : Prop}

namespace Dos

/-- Systems whose machines differ in what they trace and in what they have shown. -/
structure Twins (nested : Prop) (left right : Dos Devices Receiver) : Prop where
  machine : left.machine.Twins nested right.machine
  enqueued : right.enqueued = left.enqueued
  restored : nested → left.monitor.Within right.monitor

theorem printPlain_respects (byte : UInt8) :
    (printPlain peripherals byte).Respects (Machine.Twins nested) := by
  intro left right twins
  by_cases mode : left.session.mode = .write
  · have also := twins.mode.trans mode
    rw [printPlain_of_writing mode, printPlain_of_writing also]
    exact TextFile.writeActiveCharacter_respects byte _ _ (twins.trace .output [byte])
  · have also : right.session.mode ≠ .write := by rwa [twins.mode]
    rw [printPlain_of_not_writing mode, printPlain_of_not_writing also]
    exact ⟨rfl, twins.echo [byte]⟩

theorem printByte_respects (byte : UInt8) :
    (printByte peripherals byte).Respects (Machine.Twins nested) := by
  intro left right twins
  rcases framed : Printed.ofByte left.session.pending byte with ⟨printed, pending⟩
  have also : Printed.ofByte right.session.pending byte = (printed, pending) := by
    rw [twins.pending, framed]
  cases printed with
  | held =>
    rw [printByte_of_held framed, printByte_of_held also]
    exact ⟨rfl, twins.update (·.typing pending) fun _ _ => rfl⟩
  | command line =>
    rw [printByte_of_command framed, printByte_of_command also]
    exact Command.execute_respects line _ _ (twins.update (·.typing none) fun _ _ => rfl)
  | plain plain =>
    rw [printByte_of_plain framed, printByte_of_plain also]
    exact printPlain_respects plain _ _ twins

theorem printBytes_respects (text : Bytes) :
    (printBytes peripherals text).Respects (Machine.Twins nested) := by
  induction text with
  | nil => exact respects_pure _
  | cons byte rest ih => exact (printByte_respects byte).bind fun _ => ih

variable {Error : Type}

theorem within_respects {action : Attempt Error (Machine Devices) Value}
    (respects : action.Respects (Machine.Twins nested)) :
    (within action : Attempt Error (Dos Devices Receiver) Value).Respects (Twins nested) := by
  intro left right twins
  obtain ⟨same, after⟩ := respects _ _ twins.machine
  exact ⟨same, after, twins.enqueued, twins.restored⟩

theorem print_respects (text : Bytes) :
    (print peripherals text : Call Devices Receiver Unit).Respects (Twins nested) :=
  within_respects (printBytes_respects text)

theorem enqueue_respects (delivery : Delivery Receiver) :
    (enqueue delivery : Attempt Error (Dos Devices Receiver) Unit).Respects (Twins nested) := by
  refine Attempt.respects_modify ?_
  intro left right twins
  exact ⟨twins.machine, congrArg (delivery :: ·) twins.enqueued, twins.restored⟩

theorem deliver_respects (delivery : Delivery Receiver) :
    (deliver peripherals delivery).Respects (Twins nested) := by
  unfold deliver
  split
  · exact (enqueue_respects delivery).bind fun _ => respects_pure _
  · exact respects_pure _

/-- What is taken from a file, and shown where input is traced, waits in both alike. -/
theorem Twins.taken {left right : Dos Devices Receiver} (twins : left.Twins nested right)
    (buffer : Buffer) (text : Bytes) (delivery : Delivery Receiver) :
    Twins nested
      { left with
        machine := { left.machine with
          session := left.machine.session.keep buffer
          shown := left.machine.shown.append
            (if left.machine.session.monitor.traces .input then text else []) }
        enqueued := delivery :: left.enqueued }
      { right with
        machine := { right.machine with
          session := right.machine.session.keep buffer
          shown := right.machine.shown.append
            (if right.machine.session.monitor.traces .input then text else []) }
        enqueued := delivery :: right.enqueued } where
  machine := (twins.machine.update (·.keep buffer) fun _ _ => rfl).trace .input text
  enqueued := congrArg (delivery :: ·) twins.enqueued
  restored := twins.restored

theorem readCharacter_respects (receiver : Receiver) :
    (readCharacter peripherals receiver).Respects (Twins nested) := by
  intro left right twins
  have buffers := twins.machine.buffers
  by_cases mode : left.machine.session.mode = .read
  · have alike := twins.machine.mode.trans mode
    cases relied : left.machine.session.relied? .read with
    | none =>
      have also := (twins.machine.relied? .read).trans relied
      rw [readCharacter_of_fault mode (readActiveCharacter_of_unmet relied),
        readCharacter_of_fault alike (readActiveCharacter_of_unmet also)]
      exact ⟨rfl, twins⟩
    | some name =>
      have also := (twins.machine.relied? .read).trans relied
      cases read : (left.machine.session.buffers.find? name).bind Buffer.readByte with
      | none =>
        rw [readCharacter_of_ended relied read,
          readCharacter_of_ended also (by rw [buffers, read])]
        exact ⟨rfl, twins⟩
      | some passed =>
        rw [readCharacter_of_read relied read,
          readCharacter_of_read also (by rw [buffers, read])]
        exact ⟨rfl, twins.taken _ _ _⟩
  · have alike : right.machine.session.mode ≠ .read := by rwa [twins.machine.mode]
    rw [readCharacter_of_typed mode, readCharacter_of_typed alike, twins.machine.devices]
    exact deliver_respects _ _ _ ⟨twins.machine.serve _ [], twins.enqueued, twins.restored⟩

theorem readLine_respects (prompt : Bytes) (receiver : Receiver) :
    (readLine peripherals prompt receiver).Respects (Twins nested) := by
  intro left right twins
  have buffers := twins.machine.buffers
  by_cases mode : left.machine.session.mode = .read
  · have alike := twins.machine.mode.trans mode
    cases relied : left.machine.session.relied? .read with
    | none =>
      have also := (twins.machine.relied? .read).trans relied
      rw [readLine_of_fault mode (readActiveLine_of_unmet relied),
        readLine_of_fault alike (readActiveLine_of_unmet also)]
      exact ⟨rfl, twins⟩
    | some name =>
      have also := (twins.machine.relied? .read).trans relied
      cases read : (left.machine.session.buffers.find? name).bind Buffer.readLine with
      | none =>
        rw [readLine_of_ended relied read, readLine_of_ended also (by rw [buffers, read])]
        exact ⟨rfl, twins⟩
      | some passed =>
        rw [readLine_of_read relied read, readLine_of_read also (by rw [buffers, read])]
        exact ⟨rfl, twins.taken _ _ _⟩
  · have alike : right.machine.session.mode ≠ .read := by rwa [twins.machine.mode]
    rw [readLine_of_typed mode, readLine_of_typed alike, twins.machine.devices]
    exact deliver_respects _ _ _
      ⟨(twins.machine.echo prompt).serve _ [], twins.enqueued, twins.restored⟩

/-- A reset restores masks of which one is within the other. -/
theorem reset_respects :
    (reset : Call Devices Receiver Unit).Respects (Twins nested) := by
  intro left right twins
  have noted := twins.machine.serve left.machine.devices
    [Log.info .buffers [.text (ascii "Reset; discarding "),
      .number left.machine.session.buffers.size, .text (ascii " buffers")]]
  refine ⟨rfl, ⟨rfl, twins.machine.devices, ?_, twins.restored, twins.machine.shown⟩,
    twins.enqueued, twins.restored⟩
  show right.machine.log.recordAll _ = left.machine.log.recordAll _
  rw [twins.machine.buffers, twins.machine.log]

end Dos

namespace Application

variable {Value : Type}

/-- Programs that have heard the same, on systems that differ in what they trace. -/
structure Stage.Twins (nested : Prop) (left right : Stage Devices Empty) : Prop where
  dos : left.dos.Twins nested right.dos
  noted : right.noted = left.noted

theorem atTerminal_respects {call : Call Devices (Application.Receiver Empty) Value}
    (respects : call.Respects (Dos.Twins nested)) :
    (atTerminal call).Respects (Stage.Twins nested) := by
  intro left right twins
  obtain ⟨same, after⟩ := respects _ _ twins.dos
  exact ⟨congrArg (·.mapError Failure.fault) same, after, twins.noted⟩

/-- No request of a program tells whether anything is traced. -/
theorem agenda_respectful (peripherals : Peripherals Devices) (nested : Prop) :
    (agenda peripherals Empty.elim).Respectful (Stage.Twins nested) where
  queue := by
    intro left right twins
    exact congrArg List.reverse twins.dos.enqueued.symm
  cleared := by
    intro left right twins
    exact ⟨⟨twins.dos.machine, rfl, twins.dos.restored⟩, twins.noted⟩
  act := by
    intro request effect ordered
    cases request with
    | print text =>
      cases ordered
      exact (atTerminal_respects (Dos.print_respects text)).bind fun _ => respects_pure _
    | characters count label response =>
      cases count with
      | zero =>
        cases ordered
        exact respects_pure _
      | succ count =>
        cases ordered
        exact (atTerminal_respects (Dos.readCharacter_respects _)).bind fun _ => respects_pure _
    | line prompt label response =>
      cases ordered
      exact (atTerminal_respects (Dos.readLine_respects prompt _)).bind fun _ => respects_pure _
    | perform => cases ordered
    | flush => cases ordered
    | reset =>
      cases ordered
      exact (atTerminal_respects Dos.reset_respects).bind fun _ => respects_pure _
    | switchFirmware active =>
      cases ordered
      exact (atTerminal_respects (Dos.within_respects
        (Machine.switchFirmware_respects _ active))).bind fun _ => respects_pure _
    | aside action => exact action.elim
    | hear label item =>
      cases ordered
      refine (Attempt.respects_modify ?_).bind fun _ => respects_pure _
      intro left right twins
      exact ⟨twins.dos, congrArg ((label, item) :: ·) twins.noted⟩

/-- The outcomes of requests that are made one after the other. -/
def outcomesOf {Aside : Type} (peripherals : Peripherals Devices)
    (aside : Aside → Attempt Failure (Machine Devices) Unit) :
    List (Request Aside) → Stage Devices Aside → List (Except Failure Unit)
  | [], _ => []
  | request :: rest, stage =>
    let made := (agenda peripherals aside).carryOut [request] stage
    made.1 :: outcomesOf peripherals aside rest made.2

/-- What the terminal has shown. -/
def Stage.shown (stage : Stage Devices Empty) : Bytes := stage.dos.machine.shown.toBytes

/-- A program and its system, apart from what is traced and what has been shown. -/
def Stage.untraced (stage : Stage Devices Empty) : Stage Devices Empty :=
  { stage with dos := { stage.dos with
      machine := { stage.dos.machine with
        session := { stage.dos.machine.session with monitor := .off }
        shown := .empty }
      monitor := .off } }

variable {left right : Stage Devices Empty}

theorem Stage.Twins.untraced_eq (twins : left.Twins nested right) :
    left.untraced = right.untraced := by
  have session : { left.dos.machine.session with monitor := .off } =
      ({ right.dos.machine.session with monitor := .off } : Session) := by
    rw [twins.dos.machine.session]
  simp only [Stage.untraced, session, twins.noted, twins.dos.enqueued,
    twins.dos.machine.devices, twins.dos.machine.log]

theorem Stage.Twins.serve (peripherals : Peripherals Devices) (twins : left.Twins nested right)
    (requests : List (Request Empty)) :
    outcomesOf peripherals Empty.elim requests left =
        outcomesOf peripherals Empty.elim requests right ∧
      (Application.serve peripherals Empty.elim requests left).Twins nested
        (Application.serve peripherals Empty.elim requests right) := by
  induction requests generalizing left right with
  | nil => exact ⟨rfl, twins⟩
  | cons request rest ih =>
    obtain ⟨same, after⟩ :=
      (agenda_respectful peripherals nested).work [.script [request]] left right twins
    obtain ⟨outcomes, ended⟩ := ih after
    refine ⟨?_, ended⟩
    exact congrArg₂ List.cons same outcomes

theorem Stage.twins_initial (first second : Monitor) (devices : Devices) :
    (Stage.initial first devices : Stage Devices Empty).Twins (first.Within second)
      (.initial second devices) where
  dos := {
    machine := ⟨rfl, rfl, rfl, id, fun _ => .refl []⟩
    enqueued := rfl
    restored := id }
  noted := rfl

/-- Tracing does not interfere. Whatever requests are made, of whatever devices, two systems that
begin with different masks give the same outcomes and agree on everything but their masks and what
they have shown: on the session, the devices and so the store, the deliveries made and those that
wait, and the log. Where all that the first mask traces is traced by the second, the first system
has shown a part of what the second has shown. -/
theorem serve_untraced (peripherals : Peripherals Devices) (devices : Devices)
    (requests : List (Request Empty)) (first second : Monitor) :
    let left := serve peripherals Empty.elim requests (.initial first devices)
    let right := serve peripherals Empty.elim requests (.initial second devices)
    outcomesOf peripherals Empty.elim requests (.initial first devices) =
        outcomesOf peripherals Empty.elim requests (.initial second devices) ∧
      left.untraced = right.untraced ∧
      (first.Within second → left.shown.Sublist right.shown) := by
  intro left right
  obtain ⟨outcomes, twins⟩ := (Stage.twins_initial first second devices).serve peripherals requests
  exact ⟨outcomes, twins.untraced_eq, twins.dos.machine.shown⟩

/-- A file that is read and one that is written, with a fault and a reset between them: of the two
systems one traces nothing at first and the other everything. -/
theorem serve_untraced_everything :
    let peripherals : Peripherals (Catalog Name Bytes) :=
      .inMemory (Catalog.empty.insert (ascii "C") (ascii "X\r")) .none
    let command (line : Bytes) : Request Empty := .print (controlD :: line ++ [carriageReturn])
    let requests : List (Request Empty) := [command (ascii "NOMON C"), command (ascii "READ C"),
      .characters 1 [1] [.print (ascii "!")], .line [] [2] [], .line [] [3] [], .perform,
      .reset, command (ascii "OPEN D"), command (ascii "WRITE D"), .print (ascii "OK")]
    let left := serve peripherals Empty.elim requests (.initial .off .empty)
    let right := serve peripherals Empty.elim requests (.initial 7 .empty)
    Monitor.Within .off 7 ∧
      left.shown = ascii "!" ∧
      right.shown = ascii "NOMON C\rX\r!OPEN D\rWRITE D\rOK" ∧
      left.shown.Sublist right.shown ∧
      outcomesOf peripherals Empty.elim requests (.initial .off .empty) =
        outcomesOf peripherals Empty.elim requests (.initial 7 .empty) ∧
      left.untraced = right.untraced := by
  intro peripherals command requests left right
  have within : Monitor.Within .off 7 := by
    intro trace traced
    cases trace <;> cases traced
  obtain ⟨outcomes, same, part⟩ := serve_untraced peripherals .empty requests .off 7
  exact ⟨within, by decide +kernel, by decide +kernel, part within, outcomes, same⟩

end Application

end DosText
