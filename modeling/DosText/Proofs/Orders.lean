import DosText.Command.Execution
import DosText.Proofs.FileOperation

/-! What a command line orders, apart from doing it: an operation on text files, a change of what
is traced, or a switch of the firmware. A line that orders nothing ends in its fault before
anything is done. The numbers in an order are those of arguments, so they have 32 bits. -/

namespace DosText

open Peripherals (Call)

/-- Whether the numbers that an operation is given are those that arguments can have. -/
def TextFile.Operation.IsModest : TextFile.Operation → Prop
  | .openFile _ recordLength => recordLength ≤ Arguments.largestValue
  | .appendFile _ recordLength => recordLength ≤ Arguments.largestValue
  | .position _ records => records ≤ Arguments.largestValue
  | .read _ record byte => record ≤ Arguments.largestValue ∧ byte ≤ Arguments.largestValue
  | .write _ record byte => record ≤ Arguments.largestValue ∧ byte ≤ Arguments.largestValue
  | _ => True

/-- Whether an operation is one that a command line can order. Characters are not read or written
by command lines. -/
def TextFile.Operation.FitsLine (operation : TextFile.Operation) : Prop :=
  operation.IsModest ∧ operation.mode? = none

namespace Arguments

theorem value_le_of_scanDigits {base value : Nat} {text : Bytes} {scanned : Nat × Bytes}
    (small : value ≤ largestValue) (found : scanDigits base value text = .ok scanned) :
    scanned.1 ≤ largestValue := by
  fun_induction scanDigits base value text with
  | case1 value =>
    cases found
    exact small
  | case2 value byte rest =>
    cases found
    exact small
  | case3 value byte rest digit isDigit next fits ih => exact ih fits found
  | case4 => cases found

theorem value_le_of_scanValue {text : Bytes} {scanned : Nat × Bytes}
    (found : scanValue text = .ok scanned) : scanned.1 ≤ largestValue := by
  have zero : 0 ≤ largestValue := Nat.zero_le _
  unfold scanValue at found
  split at found
  · exact value_le_of_scanDigits zero found
  · split at found
    · exact value_le_of_scanDigits zero found
    · cases found
      exact zero

theorem value_le_of_readFrom (allowed : List Letter) (arguments : Arguments) (tail : Bytes)
    {given : Arguments} (small : ∀ letter, arguments.value letter ≤ largestValue)
    (read : readFrom allowed arguments tail = .ok given) (letter : Letter) :
    given.value letter ≤ largestValue := by
  fun_induction readFrom allowed arguments tail with
  | case1 arguments =>
    cases read
    exact small letter
  | case2 => cases read
  | case3 => cases read
  | case4 => cases read
  | case5 arguments first rest byte after shape named found member scanned value ih =>
    refine ih ?_ read
    intro other
    rw [value_set]
    split
    · exact value_le_of_scanValue value
    · exact small other
  | case6 => cases read

/-- No argument that is read has a value beyond the largest. -/
theorem value_le_of_read {tail : Bytes} {allowed : List Letter} {given : Arguments}
    (read : Arguments.read tail allowed = .ok given) (letter : Letter) :
    given.value letter ≤ largestValue := by
  refine value_le_of_readFrom allowed none tail ?_ read letter
  intro other
  rw [value_none]
  exact Nat.zero_le _

end Arguments

namespace Command

/-- What a command line can order. -/
inductive Order where
  | file (operation : TextFile.Operation)
  | enable (traces : List Trace)
  | disable (traces : List Trace)
  | firmware (active : Bool)
  deriving DecidableEq, Repr

/-- What the selection of a slot orders. -/
def orderOfSlot (text : Bytes) : Except Fault Order :=
  match integer? (trimBlanks text) with
  | some 0 => .ok (.firmware false)
  | some 3 => .ok (.firmware true)
  | _ => .error .rangeError

/-- What a command with one name orders. -/
def orderOfNamed (verb : Verb) (name : Name) (tail : Bytes) : Except Fault Order := do
  match verb with
  | .openFile =>
    return .file (.openFile name ((← Arguments.read tail [.length]).value .length))
  | .appendFile =>
    return .file (.appendFile name ((← Arguments.read tail [.length]).value .length))
  | .position =>
    return .file (.position name ((← Arguments.read tail [.record]).value .record))
  | .read =>
    let given ← Arguments.read tail [.record, .byte]
    return .file (.read name (given.value .record) (given.value .byte))
  | .write =>
    let given ← Arguments.read tail [.record, .byte]
    return .file (.write name (given.value .record) (given.value .byte))
  | .delete =>
    let _ ← Arguments.read tail []
    return .file (.delete name)
  | .slot =>
    let _ ← Arguments.read tail []
    orderOfSlot name

/-- What a command orders. -/
def orderOf : Command → Except Fault Order
  | .empty => return .file .deactivate
  | .monitor tail => return .enable (← Arguments.read tail Trace.letters).traces
  | .noMonitor tail => return .disable (← Arguments.read tail Trace.letters).traces
  | .named verb name tail => orderOfNamed verb name tail
  | .close name tail => do
    let _ ← Arguments.read tail []
    return .file (if name = [] then .closeAll else .close name)
  | .rename source target tail => do
    let _ ← Arguments.read tail []
    return .file (.rename source target)

/-- What a command line orders. -/
def order? (line : Bytes) : Except Fault Order := do orderOf (← read line)

theorem order?_of_read {line : Bytes} {command : Command} (parsed : read line = .ok command) :
    order? line = orderOf command := by
  unfold order?
  rw [parsed]
  rfl

/-- A command to close nothing in particular closes all files. -/
theorem order?_closeAll : order? (ascii "CLOSE") = .ok (.file .closeAll) := by
  have parsed : read (ascii "CLOSE") = .ok (.close [] []) := by decide
  rw [order?_of_read parsed, orderOf, Arguments.read_nil]
  rfl

variable {Devices : Type} {peripherals : Peripherals Devices}

/-- Carries out an order. -/
def Order.perform (peripherals : Peripherals Devices) : Order → Action Devices Unit
  | .file operation => operation.perform peripherals
  | .enable traces => Machine.update fun session =>
      { session with monitor := traces.foldl Monitor.enable session.monitor }
  | .disable traces => Machine.update fun session =>
      { session with monitor := traces.foldl Monitor.disable session.monitor }
  | .firmware active => Machine.switchFirmware peripherals.console active

/-- The arguments of a command are read before it is known what the command orders. -/
theorem arguments_bind {tail : Bytes} {allowed : List Letter}
    {next : Arguments → Except Fault Order} {action : Arguments → Action Devices Unit}
    (same : ∀ given, action given =
      Attempt.ofExcept (next given) >>= Order.perform peripherals) :
    arguments tail allowed >>= action =
      Attempt.ofExcept (Arguments.read tail allowed >>= next) >>= Order.perform peripherals := by
  unfold arguments
  cases Arguments.read tail allowed with
  | error fault => rfl
  | ok given => exact same given

theorem selectSlot_eq (text : Bytes) :
    selectSlot peripherals text =
      Attempt.ofExcept (orderOfSlot text) >>= Order.perform peripherals := by
  by_cases builtIn : integer? (trimBlanks text) = some 0
  · rw [selectSlot, orderOfSlot, builtIn]
    rfl
  by_cases firmware : integer? (trimBlanks text) = some 3
  · rw [selectSlot, orderOfSlot, firmware]
    rfl
  have selected : selectSlot peripherals text = throw .rangeError := by
    unfold selectSlot
    split
    · next same => exact absurd same builtIn
    · next same => exact absurd same firmware
    · rfl
  have ordered : orderOfSlot text = .error .rangeError := by
    unfold orderOfSlot
    split
    · next same => exact absurd same builtIn
    · next same => exact absurd same firmware
    · rfl
  rw [selected, ordered]
  rfl

theorem performNamed_eq (verb : Verb) (name : Name) (tail : Bytes) :
    performNamed peripherals verb name tail =
      Attempt.ofExcept (orderOfNamed verb name tail) >>= Order.perform peripherals := by
  cases verb with
  | slot => exact arguments_bind fun _ => selectSlot_eq name
  | _ => exact arguments_bind fun _ => rfl

/-- Performing a command is finding out what it orders and carrying that out. -/
theorem perform_eq (command : Command) :
    perform peripherals command =
      Attempt.ofExcept (orderOf command) >>= Order.perform peripherals := by
  cases command with
  | empty => rfl
  | monitor tail => exact arguments_bind fun _ => rfl
  | noMonitor tail => exact arguments_bind fun _ => rfl
  | named verb name tail => exact performNamed_eq verb name tail
  | close name tail =>
    refine arguments_bind fun _ => ?_
    by_cases nameless : name = []
    · rw [if_pos nameless, if_pos nameless]
      rfl
    · rw [if_neg nameless, if_neg nameless]
      rfl
  | rename source target tail => exact arguments_bind fun _ => rfl

theorem obey_eq (line : Bytes) :
    obey peripherals line = Attempt.ofExcept (order? line) >>= Order.perform peripherals := by
  unfold obey order?
  cases read line with
  | error fault => rfl
  | ok command => exact perform_eq command

/-- Whether an order is one that a command line can give. -/
def Order.FitsLine : Order → Prop
  | .file operation => operation.FitsLine
  | _ => True

/-- What succeeds in two parts has succeeded in each. -/
theorem exists_of_bind_eq_ok {Value Other : Type} {first : Except Fault Value}
    {next : Value → Except Fault Other} {result : Other}
    (done : (first >>= next) = .ok result) :
    ∃ value, first = .ok value ∧ next value = .ok result := by
  cases first with
  | error fault => cases done
  | ok value => exact ⟨value, rfl, done⟩

theorem fitsLine_of_arguments {tail : Bytes} {allowed : List Letter}
    {next : Arguments → Except Fault Order} {order : Order}
    (fits : ∀ given, (∀ letter, given.value letter ≤ Arguments.largestValue) →
      next given = .ok order → order.FitsLine)
    (ordered : (Arguments.read tail allowed >>= next) = .ok order) : order.FitsLine := by
  obtain ⟨given, read, orders⟩ := exists_of_bind_eq_ok ordered
  exact fits given (Arguments.value_le_of_read read) orders

theorem fitsLine_of_orderOfNamed {verb : Verb} {name : Name} {tail : Bytes} {order : Order}
    (ordered : orderOfNamed verb name tail = .ok order) : order.FitsLine := by
  cases verb with
  | openFile =>
    refine fitsLine_of_arguments ?_ ordered
    intro given small same
    cases same
    exact ⟨small .length, rfl⟩
  | appendFile =>
    refine fitsLine_of_arguments ?_ ordered
    intro given small same
    cases same
    exact ⟨small .length, rfl⟩
  | position =>
    refine fitsLine_of_arguments ?_ ordered
    intro given small same
    cases same
    exact ⟨small .record, rfl⟩
  | read =>
    refine fitsLine_of_arguments ?_ ordered
    intro given small same
    cases same
    exact ⟨⟨small .record, small .byte⟩, rfl⟩
  | write =>
    refine fitsLine_of_arguments ?_ ordered
    intro given small same
    cases same
    exact ⟨⟨small .record, small .byte⟩, rfl⟩
  | delete =>
    refine fitsLine_of_arguments ?_ ordered
    intro given small same
    cases same
    exact ⟨trivial, rfl⟩
  | slot =>
    refine fitsLine_of_arguments ?_ ordered
    intro given small chosen
    simp only [orderOfSlot] at chosen
    split at chosen <;> cases chosen <;> trivial

/-- What a command line orders, it can order. In particular the numbers have 32 bits. -/
theorem fitsLine_of_order? {line : Bytes} {order : Order} (ordered : order? line = .ok order) :
    order.FitsLine := by
  cases parsed : read line with
  | error fault =>
    unfold order? at ordered
    rw [parsed] at ordered
    cases ordered
  | ok command =>
    rw [order?_of_read parsed] at ordered
    cases command with
    | empty =>
      cases ordered
      exact ⟨trivial, rfl⟩
    | named verb name tail => exact fitsLine_of_orderOfNamed ordered
    | close name tail =>
      refine fitsLine_of_arguments ?_ ordered
      intro given small same
      cases same
      by_cases nameless : name = []
      · rw [if_pos nameless]
        exact ⟨trivial, rfl⟩
      · rw [if_neg nameless]
        exact ⟨trivial, rfl⟩
    | rename source target tail =>
      refine fitsLine_of_arguments ?_ ordered
      intro given small same
      cases same
      exact ⟨trivial, rfl⟩
    | _ =>
      refine fitsLine_of_arguments ?_ ordered
      intro given small same
      cases same
      trivial

/-- The ways in which a command line is obeyed, or is not. -/
inductive Obeys (session : Session) (line : Bytes) :
    List Call → Except Fault Unit → Session → Prop where
  | refused {fault : Fault} (refused : order? line = .error fault) :
    Obeys session line [] (.error fault) session
  | operated {operation : TextFile.Operation} {calls : List Call} {outcome : Except Fault Unit}
    {after : Session} (ordered : order? line = .ok (.file operation))
    (effect : TextFile.Effect session operation calls outcome after) :
    Obeys session line calls outcome after
  | enabled {traces : List Trace} (ordered : order? line = .ok (.enable traces)) :
    Obeys session line [] (.ok ())
      { session with monitor := traces.foldl Monitor.enable session.monitor }
  | disabled {traces : List Trace} (ordered : order? line = .ok (.disable traces)) :
    Obeys session line [] (.ok ())
      { session with monitor := traces.foldl Monitor.disable session.monitor }
  | switched {active : Bool} (ordered : order? line = .ok (.firmware active)) :
    Obeys session line [.firmware active] (.ok ()) session

variable {start machine : Machine Devices} {before : List Call} {session : Session}

theorem obey_obeys (moved : start.Moves peripherals before session machine) (line : Bytes) :
    (obey peripherals line).Ensures machine fun outcome later =>
      ∃ calls after, Obeys session line calls outcome after ∧
        start.Moves peripherals (before ++ calls) after later := by
  rw [obey_eq]
  cases ordered : order? line with
  | error fault => exact ⟨[], session, .refused ordered, moved.still⟩
  | ok order =>
    cases order with
    | file operation =>
      refine (TextFile.perform_effect moved operation).mono ?_
      intro outcome later ensured
      obtain ⟨calls, after, effect, kept⟩ := ensured
      exact ⟨calls, after, .operated ordered effect, kept⟩
    | enable traces =>
      exact ⟨[], _, .enabled ordered, moved.still.change fun session =>
        { session with monitor := traces.foldl Monitor.enable session.monitor }⟩
    | disable traces =>
      exact ⟨[], _, .disabled ordered, moved.still.change fun session =>
        { session with monitor := traces.foldl Monitor.disable session.monitor }⟩
    | firmware active =>
      have switched : peripherals.Serves [.firmware active] machine.devices
          (peripherals.console.firmware active machine.devices).1 := ⟨trivial, rfl⟩
      exact ⟨_, session, .switched ordered, moved.session, moved.shown,
        moved.served.append switched⟩

/-- What is shown of a command line before it is obeyed. -/
def traceOf (session : Session) (line : Bytes) : Bytes :=
  if session.monitor.traces .commands then line ++ [carriageReturn] else []

/-- An action of which it is reported whether it succeeds ends as it would without the report. -/
theorem exists_log_of_reported (action : Action Devices Unit)
    (complaint : Fault → List Log.Entry) (success : List Log.Entry) (machine : Machine Devices) :
    ∃ log, (do
      tryCatch action fun fault => do
        Machine.note (complaint fault)
        throw fault
      Machine.note success : Action Devices Unit) machine =
        ((action machine).1, { (action machine).2 with log }) := by
  rw [Attempt.bind_apply, Attempt.recover_apply]
  rcases action machine with ⟨fault | value, later⟩
  · exact ⟨_, rfl⟩
  · exact ⟨_, rfl⟩

/-- Executing a command line is obeying it, apart from what is shown first and what is logged. -/
theorem exists_execute (peripherals : Peripherals Devices) (machine : Machine Devices)
    (line : Bytes) : ∃ log, execute peripherals line machine =
      let obeyed := obey peripherals line
        { machine with shown := machine.shown.append (traceOf machine.session line) }
      (obeyed.1, { obeyed.2 with log }) := by
  unfold execute traceOf
  rw [Attempt.bind_apply, Attempt.get_apply]
  by_cases traced : machine.session.monitor.traces .commands = true
  · simp only [traced, if_true]
    exact exists_log_of_reported _ _ _ _
  · simp only [traced, if_false, Bool.false_eq_true, PackedBytes.append_nil]
    exact exists_log_of_reported _ _ _ _

theorem execute_obeys (machine : Machine Devices) (line : Bytes) :
    (execute peripherals line).Ensures machine fun outcome later =>
      ∃ calls after, Obeys machine.session line calls outcome after ∧
        machine.Passes peripherals calls (traceOf machine.session line) after later := by
  let shown : Machine Devices :=
    { machine with shown := machine.shown.append (traceOf machine.session line) }
  obtain ⟨log, executed⟩ := exists_execute peripherals machine line
  obtain ⟨calls, after, way, kept⟩ := obey_obeys (.refl peripherals shown) line
  refine Attempt.ensures_of_apply executed ?_
  exact ⟨calls, after, way, (kept.noted log).passes_behind⟩

end Command

end DosText
