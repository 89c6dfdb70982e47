import DosText.Proofs.Orders
import DosText.Proofs.Respects

/-! Two machines that differ in what they trace. Whatever operation is performed on both of them and
whatever command line both execute, nothing else tells them apart but what they have shown, and
where one traces no more than the other, it shows a part of what the other shows. -/

namespace DosText

open Attempt (Respects respects_pure respects_throw respects_ofExcept respects_get_bind)

/-- Whatever the first mask traces, the second traces too. -/
def Monitor.Within (first second : Monitor) : Prop :=
  ∀ trace, first.traces trace = true → second.traces trace = true

namespace Monitor

variable {first second : Monitor}

theorem Within.enable (within : first.Within second) (trace : Trace) :
    (first.enable trace).Within (second.enable trace) := by
  intro other traced
  rw [traces_enable, Bool.or_eq_true] at traced ⊢
  exact traced.imp_right (within other)

theorem Within.disable (within : first.Within second) (trace : Trace) :
    (first.disable trace).Within (second.disable trace) := by
  intro other traced
  rw [traces_disable, Bool.and_eq_true] at traced ⊢
  exact traced.imp_right (within other)

theorem Within.foldl {change : Monitor → Trace → Monitor}
    (keeps : ∀ {first second : Monitor}, first.Within second → ∀ trace,
      (change first trace).Within (change second trace))
    (within : first.Within second) (traces : List Trace) :
    (traces.foldl change first).Within (traces.foldl change second) := by
  induction traces generalizing first second with
  | nil => exact within
  | cons trace rest ih => exact ih (keeps within trace)

end Monitor

variable {Devices Receiver Value : Type} {peripherals : Peripherals Devices} {nested : Prop}

namespace Machine

/-- Machines that differ in what they trace and in what they have shown, and in nothing else. Where
their masks are `nested`, the first has shown a part of what the second has shown. -/
structure Twins (nested : Prop) (left right : Machine Devices) : Prop where
  session : right.session = { left.session with monitor := right.session.monitor }
  devices : right.devices = left.devices
  log : right.log = left.log
  traces : nested → left.session.monitor.Within right.session.monitor
  shown : nested → left.shown.toBytes.Sublist right.shown.toBytes

namespace Twins

variable {left right : Machine Devices}

theorem buffers (twins : left.Twins nested right) :
    right.session.buffers = left.session.buffers := by
  rw [twins.session]

theorem mode (twins : left.Twins nested right) : right.session.mode = left.session.mode := by
  rw [twins.session]

theorem relied? (twins : left.Twins nested right) (mode : Mode) :
    right.session.relied? mode = left.session.relied? mode := by
  rw [twins.session]
  rfl

theorem pending (twins : left.Twins nested right) :
    right.session.pending = left.session.pending := by
  rw [twins.session]
  rfl

/-- A change of the session in which the mask has no part. -/
theorem update (twins : left.Twins nested right) (change : Session → Session)
    (blind : ∀ session monitor,
      change { session with monitor } = { change session with monitor }) :
    Twins nested { left with session := change left.session }
      { right with session := change right.session } where
  session := by
    show change right.session =
      { change left.session with monitor := (change right.session).monitor }
    rw [twins.session, blind]
  devices := twins.devices
  log := twins.log
  traces := by
    intro within
    have same (session : Session) : (change session).monitor = session.monitor := by
      have kept := blind session session.monitor
      rw [kept]
    show (change left.session).monitor.Within (change right.session).monitor
    rw [same, same]
    exact twins.traces within
  shown := twins.shown

/-- A change of the masks that leaves one within the other. -/
theorem mask (twins : left.Twins nested right) {first second : Monitor}
    (within : nested → first.Within second) :
    Twins nested { left with session := { left.session with monitor := first } }
      { right with session := { right.session with monitor := second } } where
  session := by
    show ({ right.session with monitor := second } : Session) = _
    rw [twins.session]
  devices := twins.devices
  log := twins.log
  traces := within
  shown := twins.shown

/-- A text that both show. -/
theorem echo (twins : left.Twins nested right) (text : Bytes) :
    Twins nested { left with shown := left.shown.append text }
      { right with shown := right.shown.append text } where
  session := twins.session
  devices := twins.devices
  log := twins.log
  traces := twins.traces
  shown := by
    intro within
    show (left.shown.append text).toBytes.Sublist (right.shown.append text).toBytes
    rw [PackedBytes.toBytes_append, PackedBytes.toBytes_append]
    exact (twins.shown within).append (.refl text)

/-- A text that is shown by those that trace it. -/
theorem trace (twins : left.Twins nested right) (trace : Trace) (text : Bytes) :
    Twins nested
      { left with
        shown := left.shown.append (if left.session.monitor.traces trace then text else []) }
      { right with
        shown := right.shown.append (if right.session.monitor.traces trace then text else []) }
      where
  session := twins.session
  devices := twins.devices
  log := twins.log
  traces := twins.traces
  shown := by
    intro within
    show (left.shown.append _).toBytes.Sublist (right.shown.append _).toBytes
    rw [PackedBytes.toBytes_append, PackedBytes.toBytes_append]
    refine (twins.shown within).append ?_
    by_cases traced : left.session.monitor.traces trace = true
    · have same : (if left.session.monitor.traces trace then text else []) =
          if right.session.monitor.traces trace then text else [] := by
        rw [if_pos traced, if_pos (twins.traces within trace traced)]
      exact same ▸ .refl _
    · rw [if_neg traced]
      exact List.nil_sublist _

/-- Devices that both are left with, and lines that both log. -/
theorem serve (twins : left.Twins nested right) (devices : Devices) (entries : List Log.Entry) :
    Twins nested { left with devices, log := left.log.recordAll entries }
      { right with devices, log := right.log.recordAll entries } where
  session := twins.session
  devices := rfl
  log := congrArg (·.recordAll entries) twins.log
  traces := twins.traces
  shown := twins.shown

end Twins

variable {Error : Type}

theorem update_respects {change : Session → Session}
    (blind : ∀ session monitor,
      change { session with monitor } = { change session with monitor }) :
    (Machine.update change : Attempt Error (Machine Devices) Unit).Respects (Twins nested) :=
  fun _ _ twins => ⟨rfl, twins.update change blind⟩

theorem note_respects (entries : List Log.Entry) :
    (note entries : Attempt Error (Machine Devices) Unit).Respects (Twins nested) := by
  intro left right twins
  have noted := twins.serve left.devices entries
  exact ⟨rfl, noted.session, twins.devices, noted.log, noted.traces, noted.shown⟩

theorem call_respects (request : Devices → Reply Devices Value) :
    (call request : Attempt Error (Machine Devices) _).Respects (Twins nested) := by
  intro left right twins
  unfold call
  rw [twins.devices]
  exact ⟨rfl, twins.serve _ _⟩

theorem demand_respects (request : Devices → Reply Devices Value) (complaint : List Log.Entry) :
    (demand request complaint).Respects (Twins nested) := by
  refine (call_respects request).bind fun outcome => ?_
  cases outcome with
  | ok value => exact respects_pure value
  | error failure => exact (note_respects complaint).bind fun _ => respects_throw _

theorem switchFirmware_respects (console : Console Devices) (active : Bool) :
    (switchFirmware console active : Attempt Error (Machine Devices) Unit).Respects
      (Twins nested) := by
  intro left right twins
  unfold switchFirmware
  rw [twins.devices]
  exact ⟨rfl, twins.serve _ _⟩

end Machine

namespace TextFile

open Machine (Twins demand_respects note_respects update_respects)

theorem find?_bind_respects {name : Name} {next : Option Buffer → Action Devices Value}
    (done : ∀ found, (next found).Respects (Twins nested)) :
    (find? name >>= next).Respects (Twins nested) := by
  have looked : (find? name : Action Devices _).Respects (Twins nested) := by
    intro left right twins
    refine ⟨?_, twins⟩
    show Except.ok (left.session.buffers.find? name) = .ok (right.session.buffers.find? name)
    rw [twins.buffers]
  exact looked.bind done

theorem keep_respects (buffer : Buffer) :
    (Machine.update (·.keep buffer) : Action Devices Unit).Respects (Twins nested) :=
  update_respects fun _ _ => rfl

theorem discard_respects (name : Name) :
    (Machine.update (·.discard name) : Action Devices Unit).Respects (Twins nested) := by
  refine update_respects fun session monitor => ?_
  unfold Session.discard Session.release
  split <;> rfl

theorem load_respects (name : Name) : (load peripherals name).Respects (Twins nested) := by
  simp only [load]
  refine (demand_respects _ _).bind fun stored? => ?_
  cases stored? with
  | some content => exact respects_pure _
  | none =>
    refine (demand_respects _ _).bind fun first? => ?_
    cases first? with
    | some content => exact (demand_respects _ _).bind fun _ => respects_pure _
    | none => exact respects_pure _

theorem flush_respects (buffer : Buffer) :
    (flush peripherals buffer).Respects (Twins nested) := by
  unfold flush
  cases buffer.content with
  | some content => exact demand_respects _ _
  | none => exact respects_pure _

theorem flushAll_respects (buffers : List Buffer) :
    (flushAll peripherals buffers).Respects (Twins nested) := by
  induction buffers with
  | nil => exact respects_pure _
  | cons buffer rest ih => exact (flush_respects buffer).bind fun _ => ih

theorem contentOf_respects (name : Name) :
    (contentOf peripherals name).Respects (Twins nested) := by
  refine find?_bind_respects fun found => ?_
  cases found with
  | some buffer => exact respects_pure _
  | none => exact load_respects name

theorem install_respects (name : Name) (recordLength : Nat) (content : Option Bytes) :
    (install peripherals name recordLength content).Respects (Twins nested) := by
  refine find?_bind_respects fun found => ?_
  cases found with
  | some existing =>
    refine (flush_respects existing).bind fun _ => ?_
    refine (discard_respects name).bind fun _ => ?_
    refine (keep_respects _).bind fun _ => ?_
    exact (note_respects _).bind fun _ => respects_pure _
  | none =>
    refine (keep_respects _).bind fun _ => ?_
    exact (note_respects _).bind fun _ => respects_pure _

theorem openFile_respects (name : Name) (recordLength : Nat) :
    (openFile peripherals name recordLength).Respects (Twins nested) := by
  refine (contentOf_respects name).bind fun content => ?_
  exact (install_respects name recordLength content).bind fun _ => respects_pure _

theorem appendFile_respects (name : Name) (recordLength : Nat) :
    (appendFile peripherals name recordLength).Respects (Twins nested) := by
  refine (contentOf_respects name).bind fun content => ?_
  cases content with
  | none => exact respects_throw _
  | some content =>
    exact (install_respects name recordLength (some content)).bind fun _ => keep_respects _

theorem close_respects (name : Name) : (close peripherals name).Respects (Twins nested) := by
  refine find?_bind_respects fun found => ?_
  cases found with
  | none => exact respects_pure _
  | some buffer =>
    refine (flush_respects buffer).bind fun _ => ?_
    exact (discard_respects name).bind fun _ => note_respects _

theorem closeAll_respects : (closeAll peripherals).Respects (Twins nested) := by
  refine respects_get_bind ?_ ?_
  · intro left right twins
    rw [twins.buffers, twins.devices]
  · intro machine
    refine (flushAll_respects _).bind fun _ => ?_
    exact (note_respects _).bind fun _ => update_respects fun _ _ => rfl

theorem openedOrLoaded_respects (name : Name) :
    (openedOrLoaded peripherals name).Respects (Twins nested) := by
  refine find?_bind_respects fun found => ?_
  cases found with
  | some buffer => exact respects_pure _
  | none => exact (load_respects name).bind fun content => install_respects name 0 content

theorem offset_respects (base count stride : Nat) :
    (offset base count stride : Action Devices Nat).Respects (Twins nested) := by
  rw [offset_eq]
  split
  · exact respects_pure _
  · exact respects_throw _

theorem position_respects (name : Name) (records : Nat) :
    (position peripherals name records).Respects (Twins nested) := by
  refine (openedOrLoaded_respects name).bind fun buffer => ?_
  refine (offset_respects _ _ _).bind fun filePointer => ?_
  exact (offset_respects _ _ _).bind fun recordNumber => keep_respects _

theorem openedForReading_respects (name : Name) :
    (openedForReading peripherals name).Respects (Twins nested) := by
  refine find?_bind_respects fun found => ?_
  cases found with
  | some buffer =>
    show (if buffer.content.isSome then _ else _ : Action Devices Buffer).Respects (Twins nested)
    split
    · exact respects_pure _
    · exact respects_throw _
  | none =>
    refine (load_respects name).bind fun content => ?_
    cases content with
    | none => exact respects_throw _
    | some content => exact install_respects name 0 (some content)

theorem read_respects (name : Name) (record byte : Nat) :
    (read peripherals name record byte).Respects (Twins nested) := by
  refine (openedForReading_respects name).bind fun buffer => ?_
  exact (offset_respects _ _ _).bind fun filePointer => update_respects fun _ _ => rfl

theorem create_respects (buffer : Buffer) :
    (create peripherals buffer).Respects (Twins nested) := by
  unfold create
  cases buffer.content with
  | some content => exact respects_pure _
  | none =>
    refine (demand_respects _ _).bind fun _ => ?_
    exact (note_respects _).bind fun _ => respects_pure _

theorem write_respects (name : Name) (record byte : Nat) :
    (write peripherals name record byte).Respects (Twins nested) := by
  refine find?_bind_respects fun found => ?_
  cases found with
  | none => exact respects_throw _
  | some buffer =>
    have begun (pointer : Nat) : (do
        let content ← create peripherals buffer
        Machine.update fun session =>
          (session.keep { buffer with
            content := some content, filePointer := pointer, recordNumber := record }).activate
              .write name : Action Devices Unit).Respects (Twins nested) :=
      (create_respects buffer).bind fun _ => update_respects fun _ _ => rfl
    show (if buffer.recordLength > 1 then _ else _ : Action Devices Unit).Respects (Twins nested)
    split <;> exact (offset_respects _ _ _).bind begun

theorem delete_respects (name : Name) : (delete peripherals name).Respects (Twins nested) := by
  refine (demand_respects _ _).bind fun stored? => ?_
  cases stored? with
  | none => exact respects_throw _
  | some content => exact (demand_respects _ _).bind fun _ => note_respects _

theorem rename_respects (source target : Name) :
    (rename peripherals source target).Respects (Twins nested) := by
  refine (demand_respects _ _).bind fun stored? => ?_
  cases stored? with
  | none => exact respects_throw _
  | some content =>
    show (if source = target then _ else _ : Action Devices Unit).Respects (Twins nested)
    split
    · exact respects_pure _
    · refine (demand_respects _ _).bind fun _ => ?_
      exact (demand_respects _ _).bind fun _ => note_respects _

theorem readCharacter_respects (name : Name) :
    (readCharacter name : Action Devices UInt8).Respects (Twins nested) := by
  refine find?_bind_respects fun found => ?_
  cases found.bind Buffer.readByte with
  | none => exact respects_throw _
  | some passed => exact (keep_respects passed.2).bind fun _ => respects_pure _

theorem readLine_respects (name : Name) :
    (readLine name : Action Devices Bytes).Respects (Twins nested) := by
  refine find?_bind_respects fun found => ?_
  cases found.bind Buffer.readLine with
  | none => exact respects_throw _
  | some passed => exact (keep_respects passed.2).bind fun _ => respects_pure _

theorem writeCharacter_respects (name : Name) (limit : Nat) (byte : UInt8) :
    (writeCharacter name limit byte : Action Devices Unit).Respects (Twins nested) := by
  refine find?_bind_respects fun found => ?_
  cases found with
  | none => exact respects_throw _
  | some buffer =>
    simp only
    cases buffer.writeByte limit byte with
    | some written => exact keep_respects written
    | none => exact (note_respects _).bind fun _ => respects_throw _

theorem active_respects (mode : Mode) : (active peripherals mode).Respects (Twins nested) := by
  refine respects_get_bind ?_ fun machine => ?_
  · intro left right twins
    rw [twins.relied?]
  · cases machine.session.relied? mode with
    | some name => exact respects_pure name
    | none => exact respects_throw _

theorem readActiveCharacter_respects :
    (readActiveCharacter peripherals).Respects (Twins nested) :=
  (active_respects .read).bind readCharacter_respects

theorem readActiveLine_respects : (readActiveLine peripherals).Respects (Twins nested) :=
  (active_respects .read).bind readLine_respects

theorem writeActiveCharacter_respects (byte : UInt8) :
    (writeActiveCharacter peripherals byte).Respects (Twins nested) :=
  (active_respects .write).bind fun name => writeCharacter_respects name _ byte

/-- What is done in one mode only is done in both or in neither. -/
theorem ifMode_respects {mode : Mode} {action : Action Devices Unit}
    (respects : action.Respects (Twins nested)) :
    (do if (← get).session.mode = mode then action : Action Devices Unit).Respects
      (Twins nested) := by
  refine respects_get_bind ?_ fun machine => ?_
  · intro left right twins
    rw [twins.mode]
  · show (if machine.session.mode = mode then action else pure ()).Respects _
    split
    · exact respects
    · exact respects_pure _

/-- No operation on text files tells whether anything is traced. -/
theorem Operation.perform_respects (operation : Operation) :
    (operation.perform peripherals).Respects (Twins nested) := by
  cases operation with
  | openFile name recordLength => exact openFile_respects name recordLength
  | appendFile name recordLength => exact appendFile_respects name recordLength
  | close name => exact close_respects name
  | closeAll => exact closeAll_respects
  | position name records => exact position_respects name records
  | read name record byte => exact read_respects name record byte
  | write name record byte => exact write_respects name record byte
  | delete name => exact delete_respects name
  | rename source target => exact rename_respects source target
  | deactivate => exact update_respects fun _ _ => rfl
  | readCharacter =>
    exact ifMode_respects (readActiveCharacter_respects.bind fun _ => respects_pure _)
  | readLine => exact ifMode_respects (readActiveLine_respects.bind fun _ => respects_pure _)
  | writeCharacter byte => exact ifMode_respects (writeActiveCharacter_respects byte)

end TextFile

namespace Command

open Machine (Twins)

/-- What is traced may be changed in both, and stays within. -/
theorem Order.perform_respects (order : Order) :
    (order.perform peripherals).Respects (Twins nested) := by
  cases order with
  | file operation => exact operation.perform_respects
  | enable traces =>
    intro left right twins
    exact ⟨rfl, twins.mask fun within => (twins.traces within).foldl Monitor.Within.enable traces⟩
  | disable traces =>
    intro left right twins
    exact ⟨rfl, twins.mask fun within => (twins.traces within).foldl Monitor.Within.disable traces⟩
  | firmware active => exact Machine.switchFirmware_respects _ active

theorem obey_respects (line : Bytes) : (obey peripherals line).Respects (Twins nested) := by
  rw [obey_eq]
  exact (respects_ofExcept _).bind fun order => order.perform_respects

/-- A command line is shown where commands are traced, and obeyed in the same way. -/
theorem execute_respects (line : Bytes) :
    (execute peripherals line).Respects (Twins nested) := by
  let report (action : Action Devices Unit) : Action Devices Unit := do
    tryCatch action fun fault => do
      Machine.note [Log.error .commands [.text line, .text (ascii " failed: "),
        .text fault.message, .text (ascii " ("), .number fault.number, .text (ascii ")")]]
      throw fault
    Machine.note [Log.info .commands [.text (ascii "Performed \""), .text line,
      .text (ascii "\"")]]
  have reports : (report (obey peripherals line)).Respects (Twins nested) := by
    refine Respects.bind ?_ fun _ => Machine.note_respects _
    exact (obey_respects line).recover fun fault =>
      (Machine.note_respects _).bind fun _ => respects_throw fault
  have executed (machine : Machine Devices) : execute peripherals line machine =
      report (obey peripherals line) { machine with
        shown := machine.shown.append (if machine.session.monitor.traces .commands
          then line ++ [carriageReturn] else []) } := by
    unfold execute
    rw [Attempt.bind_apply, Attempt.get_apply]
    by_cases traced : machine.session.monitor.traces .commands = true
    · simp only [traced, if_true]
      rfl
    · simp only [traced, if_false, Bool.false_eq_true, PackedBytes.append_nil]
      rfl
  intro left right twins
  rw [executed, executed]
  exact reports _ _ (twins.trace .commands _)

end Command

end DosText
