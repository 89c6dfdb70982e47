import DosText.Application
import DosText.Proofs.AgendaWork
import DosText.Proofs.Consistency

/-! Inquiries at the terminal, for a character or for a line: what each of them finds, and whether
the answer is due at once or waits. No request of a program gives rise to more than its weight. -/

namespace DosText

/-- The bytes of an open file from its pointer on. -/
def Session.remaining (session : Session) (name : Name) : Bytes :=
  (session.buffers.find? name).elim [] fun buffer => buffer.bytes.drop buffer.filePointer

/-- The bytes that are still to be read where input is redirected, if it is. Where input relies on
no file there are none. -/
def Session.input? (session : Session) : Option Bytes :=
  if session.mode = .read then some ((session.relied? .read).elim [] session.remaining) else none

/-- Where an item comes from. -/
inductive Origin where
  | file
  | console
  deriving DecidableEq, Repr

/-- Whether items of an origin are handed over in the call that asks for them. -/
def Console.atOnce {Devices : Type} (console : Console Devices) : Origin → Bool
  | .file => false
  | .console => !console.deferred

/-- What can be asked for at the terminal. -/
inductive Inquiry where
  | character
  | line (prompt : Bytes)
  deriving DecidableEq, Repr

namespace Inquiry

variable {Devices Receiver : Type}

/-- Asks at the terminal. -/
def ask (peripherals : Peripherals Devices) (receiver : Receiver) :
    Inquiry → Call Devices Receiver (Option (Delivery Receiver))
  | .character => Dos.readCharacter peripherals receiver
  | .line prompt => Dos.readLine peripherals prompt receiver

/-- The first item of some bytes: a byte, or all up to a line end. -/
def first? : Inquiry → Bytes → Option Item
  | .character, bytes => bytes.head?.map .character
  | .line _, bytes => if bytes = [] then none else some (.line (bytes.takeWhile (!isLineEnd ·)))

/-- The next item that is typed. -/
def typed (console : Console Devices) (devices : Devices) : Inquiry → Item
  | .character => .character (console.character devices).1
  | .line prompt => .line (console.line prompt devices).1

/-- What an inquiry finds on a machine: the next item of the file that is read, unless its data has
ended, or an item that is typed. -/
def finds (inquiry : Inquiry) (console : Console Devices) (machine : Machine Devices) :
    Option (Origin × Item) :=
  match machine.session.input? with
  | some bytes => (inquiry.first? bytes).map (.file, ·)
  | none => some (.console, inquiry.typed console machine.devices)

theorem first?_character (session : Session) (name : Name) :
    character.first? (session.remaining name) =
      ((session.buffers.find? name).bind Buffer.readByte).map fun read => .character read.1 := by
  unfold Session.remaining
  cases session.buffers.find? name with
  | none => rfl
  | some buffer =>
    show (buffer.bytes.drop buffer.filePointer).head?.map _ = buffer.readByte.map _
    rw [List.head?_drop, Buffer.readByte_eq, Option.map_map]
    rfl

theorem first?_line (prompt : Bytes) (session : Session) (name : Name) :
    (line prompt).first? (session.remaining name) =
      ((session.buffers.find? name).bind Buffer.readLine).map fun read => .line read.1 := by
  unfold Session.remaining
  cases session.buffers.find? name with
  | none => rfl
  | some buffer =>
    rw [Option.bind_some, Buffer.readLine_eq, Option.elim_some]
    simp only [first?]
    split <;> rfl

variable {inquiry : Inquiry} {console : Console Devices} {machine : Machine Devices}

theorem finds_of_relied {name : Name}
    (relied : machine.session.relied? .read = some name) :
    inquiry.finds console machine =
      (inquiry.first? (machine.session.remaining name)).map (.file, ·) := by
  have mode := (Session.relied?_eq_some_iff.mp relied).1
  simp only [finds, Session.input?, if_pos mode, relied, Option.elim_some]

/-- Nothing is found where input is redirected and relies on no file. -/
theorem finds_of_unmet (mode : machine.session.mode = .read)
    (absent : machine.session.relied? .read = none) : inquiry.finds console machine = none := by
  simp only [finds, Session.input?, if_pos mode, absent, Option.elim_none]
  cases inquiry <;> rfl

theorem finds_of_other (other : machine.session.mode ≠ .read) :
    inquiry.finds console machine = some (.console, inquiry.typed console machine.devices) := by
  simp only [finds, Session.input?, if_neg other]

variable {peripherals : Peripherals Devices} {dos : Dos Devices Receiver}

/-- What an inquiry leaves that is answered: the answer is due at once, or waits. -/
def answered (console : Console Devices) (dos : Dos Devices Receiver) (machine : Machine Devices)
    (origin : Origin) (delivery : Delivery Receiver) :
    Except Fault (Option (Delivery Receiver)) × Dos Devices Receiver :=
  if console.atOnce origin then (.ok (some delivery), { dos with machine })
  else (.ok none, { dos with machine, enqueued := delivery :: dos.enqueued })

theorem deliver_apply (delivery : Delivery Receiver) (dos : Dos Devices Receiver) :
    Dos.deliver peripherals delivery dos =
      answered peripherals.console dos dos.machine .console delivery := by
  unfold Dos.deliver answered Console.atOnce
  cases peripherals.console.deferred <;> rfl

/-- An inquiry that finds nothing is a fault, and changes nothing: the data has ended, unless the
session is not consistent. -/
theorem ask_of_none (nothing : inquiry.finds peripherals.console dos.machine = none)
    (receiver : Receiver) : ∃ fault,
      inquiry.ask peripherals receiver dos = (.error fault, dos) ∧
        (dos.machine.session.Consistent → fault = .endOfData) := by
  by_cases mode : dos.machine.session.mode = .read
  · cases relied : dos.machine.session.relied? .read with
    | none =>
      refine ⟨peripherals.platform.unmet, ?_, ?_⟩
      · cases inquiry with
        | character =>
          exact readCharacter_of_fault mode (readActiveCharacter_of_unmet relied) receiver
        | line prompt =>
          exact readLine_of_fault mode (readActiveLine_of_unmet relied) prompt receiver
      · intro consistent
        obtain ⟨name, met⟩ := consistent.exists_relied? mode nofun
        cases relied.symm.trans met
    | some name =>
      refine ⟨.endOfData, ?_, fun _ => rfl⟩
      rw [finds_of_relied relied, Option.map_eq_none_iff] at nothing
      cases inquiry with
      | character =>
        rw [first?_character, Option.map_eq_none_iff] at nothing
        exact readCharacter_of_ended relied nothing receiver
      | line prompt =>
        rw [first?_line, Option.map_eq_none_iff] at nothing
        exact readLine_of_ended relied nothing prompt receiver
  · rw [finds_of_other mode] at nothing
    cases nothing

/-- An inquiry that finds an item is answered with it. -/
theorem ask_of_some {origin : Origin} {item : Item}
    (found : inquiry.finds peripherals.console dos.machine = some (origin, item))
    (receiver : Receiver) : ∃ machine,
      inquiry.ask peripherals receiver dos =
        answered peripherals.console dos machine origin ⟨receiver, item⟩ := by
  by_cases mode : dos.machine.session.mode = .read
  · cases relied : dos.machine.session.relied? .read with
    | none => cases (finds_of_unmet mode relied).symm.trans found
    | some name =>
      rw [finds_of_relied relied, Option.map_eq_some_iff] at found
      obtain ⟨_, first, ⟨⟩⟩ := found
      cases inquiry with
      | character =>
        rw [first?_character, Option.map_eq_some_iff] at first
        obtain ⟨⟨byte, buffer⟩, read, rfl⟩ := first
        exact ⟨_, readCharacter_of_read relied read receiver⟩
      | line prompt =>
        rw [first?_line, Option.map_eq_some_iff] at first
        obtain ⟨⟨line, buffer⟩, read, rfl⟩ := first
        exact ⟨_, readLine_of_read relied read prompt receiver⟩
  · rw [finds_of_other mode] at found
    cases found
    cases inquiry with
    | character => exact ⟨_, (readCharacter_of_typed mode receiver).trans (deliver_apply _ _)⟩
    | line prompt =>
      exact ⟨_, (readLine_of_typed mode prompt receiver).trans (deliver_apply _ _)⟩

end Inquiry

namespace Application

open Attempt (Ensures)

variable {Devices Aside : Type} {peripherals : Peripherals Devices}
variable {aside : Aside → Attempt Failure (Machine Devices) Unit}
variable {stage later : Stage Devices Aside} {inquiry : Inquiry}

/-- Asks for an item. What is due at once comes before the rest. -/
def asking (peripherals : Peripherals Devices) (inquiry : Inquiry) (receiver : Receiver Aside)
    (rest : List (Request Aside)) : Act Devices Aside (List (Request Aside)) :=
  atTerminal (inquiry.ask peripherals receiver) >>= fun now => pure (dueNow now ++ rest)

theorem order_characters (peripherals : Peripherals Devices)
    (aside : Aside → Attempt Failure (Machine Devices) Unit) (count : Nat) (label : Bytes)
    (response : List (Request Aside)) :
    (agenda peripherals aside).order (.characters (count + 1) label response) =
      .act (asking peripherals .character ⟨label, response⟩
        [.characters count label response]) := rfl

theorem order_line (peripherals : Peripherals Devices)
    (aside : Aside → Attempt Failure (Machine Devices) Unit) (prompt label : Bytes)
    (response : List (Request Aside)) :
    (agenda peripherals aside).order (.line prompt label response) =
      .act (asking peripherals (.line prompt) ⟨label, response⟩ []) := by
  simp only [asking, List.append_nil]
  rfl

theorem atTerminal_of_ok {Value : Type} {call : Call Devices (Receiver Aside) Value}
    {value : Value} {dos : Dos Devices (Receiver Aside)}
    (done : call stage.dos = (.ok value, dos)) :
    atTerminal call stage = (.ok value, { stage with dos }) := by
  unfold atTerminal
  rw [done]
  rfl

theorem atTerminal_of_error {Value : Type} {call : Call Devices (Receiver Aside) Value}
    {fault : Fault} {dos : Dos Devices (Receiver Aside)}
    (failed : call stage.dos = (.error fault, dos)) :
    atTerminal call stage = (.error (.fault fault), { stage with dos }) := by
  unfold atTerminal
  rw [failed]
  rfl

theorem asking_of_none (nothing : inquiry.finds peripherals.console stage.dos.machine = none)
    (receiver : Receiver Aside) (rest : List (Request Aside)) : ∃ fault,
      asking peripherals inquiry receiver rest stage = (.error (.fault fault), stage) ∧
        (stage.dos.machine.session.Consistent → fault = .endOfData) := by
  obtain ⟨fault, asked, ended⟩ := Inquiry.ask_of_none nothing receiver
  exact ⟨fault, Attempt.bind_of_error _ (atTerminal_of_error asked), ended⟩

variable {origin : Origin} {item : Item}

/-- An answer that is due at once begins what is carried out next. -/
theorem asking_of_atOnce
    (found : inquiry.finds peripherals.console stage.dos.machine = some (origin, item))
    (atOnce : peripherals.console.atOnce origin = true) (receiver : Receiver Aside)
    (rest : List (Request Aside)) : ∃ dos,
      dos = (inquiry.ask peripherals receiver stage.dos).2 ∧
      dos.enqueued = stage.dos.enqueued ∧
      asking peripherals inquiry receiver rest stage =
        (.ok (body ⟨receiver, item⟩ ++ rest), { stage with dos }) := by
  obtain ⟨machine, asked⟩ := Inquiry.ask_of_some found receiver
  rw [Inquiry.answered, if_pos atOnce] at asked
  exact ⟨_, (congrArg Prod.snd asked).symm, rfl, Attempt.bind_of_ok _ (atTerminal_of_ok asked)⟩

/-- Any other answer waits behind those that wait. -/
theorem asking_of_waits
    (found : inquiry.finds peripherals.console stage.dos.machine = some (origin, item))
    (waits : peripherals.console.atOnce origin = false) (receiver : Receiver Aside)
    (rest : List (Request Aside)) : ∃ dos,
      dos = (inquiry.ask peripherals receiver stage.dos).2 ∧
      dos.enqueued = ⟨receiver, item⟩ :: stage.dos.enqueued ∧
      asking peripherals inquiry receiver rest stage = (.ok rest, { stage with dos }) := by
  obtain ⟨machine, asked⟩ := Inquiry.ask_of_some found receiver
  rw [Inquiry.answered, if_neg (Bool.eq_false_iff.mp waits)] at asked
  exact ⟨_, (congrArg Prod.snd asked).symm, rfl, Attempt.bind_of_ok _ (atTerminal_of_ok asked)⟩

section Weights

@[simp] theorem weights_agenda (script : List (Request Aside)) :
    (agenda peripherals aside).weights script = weights script := by
  induction script with
  | nil => rw [Agenda.weights_nil, weights]
  | cons request rest ih => rw [Agenda.weights_cons, ih, weights]; rfl

theorem weights_body (delivery : Delivery (Receiver Aside)) :
    weights (body delivery) = 2 + weights delivery.receiver.response := rfl

/-- Asking weighs no more than the response and what it takes to deliver the item. -/
theorem asking_weight (aside : Aside → Attempt Failure (Machine Devices) Unit)
    {receiver : Receiver Aside} {rest inserted : List (Request Aside)}
    (asked : asking peripherals inquiry receiver rest stage = (.ok inserted, later)) :
    weights inserted + (agenda peripherals aside).load later ≤
      weights rest + weights receiver.response + 6 + (agenda peripherals aside).load stage := by
  cases found : inquiry.finds peripherals.console stage.dos.machine with
  | none =>
    obtain ⟨_, failed, -⟩ := asking_of_none found receiver rest
    cases failed.symm.trans asked
  | some answer =>
    obtain ⟨origin, item⟩ := answer
    cases due : peripherals.console.atOnce origin with
    | true =>
      obtain ⟨dos, -, same, done⟩ := asking_of_atOnce found due receiver rest
      cases done.symm.trans asked
      have load : (agenda peripherals aside).load { stage with dos } =
          (agenda peripherals aside).load stage := Agenda.load_congr (congrArg List.reverse same)
      have joined : (agenda peripherals aside).weights (body ⟨receiver, item⟩ ++ rest) = _ :=
        Agenda.weights_append (body ⟨receiver, item⟩) rest
      simp only [weights_agenda, weights_body] at joined
      rw [load, joined]
      omega
    | false =>
      obtain ⟨dos, -, queued, done⟩ := asking_of_waits found due receiver rest
      cases done.symm.trans asked
      have behind : (agenda peripherals aside).queue { stage with dos } =
          (agenda peripherals aside).queue stage ++ [⟨receiver, item⟩] :=
        (congrArg List.reverse queued).trans List.reverse_cons
      have load := Agenda.load_of_enqueued behind
      have heavy : (agenda peripherals aside).weights
          ((agenda peripherals aside).body ⟨receiver, item⟩) =
            2 + weights receiver.response := by
        rw [weights_agenda]
        exact weights_body ⟨receiver, item⟩
      rw [heavy] at load
      rw [load]
      omega

/-- What waits and what is noted are left as they are, and nothing is to be carried out before the
next request. -/
structure Idle (stage : Stage Devices Aside) (outcome : Except Failure (List (Request Aside)))
    (later : Stage Devices Aside) : Prop where
  enqueued : later.dos.enqueued = stage.dos.enqueued
  noted : later.noted = stage.noted
  inserts : ∀ inserted, outcome = .ok inserted → inserted = []

theorem idle_of_keeps {first : Act Devices Aside Unit}
    (keeps : (first stage).2.dos.enqueued = stage.dos.enqueued ∧
      (first stage).2.noted = stage.noted) :
    (first >>= fun _ => pure []).Ensures stage (Idle stage) := by
  have begun : first.Ensures stage fun _ later =>
      later.dos.enqueued = stage.dos.enqueued ∧ later.noted = stage.noted := keeps
  refine begun.bind ?_ ?_
  · intro _ later kept
    exact ⟨kept.1, kept.2, fun _ same => (Except.ok.inj same).symm⟩
  · intro error later kept
    exact ⟨kept.1, kept.2, nofun⟩

/-- The requests that neither ask for anything nor have the queue performed. -/
def Request.IsPlain : Request Aside → Prop
  | .print _ | .reset | .switchFirmware _ | .aside _ => True
  | _ => False

theorem exists_plain (peripherals : Peripherals Devices)
    (aside : Aside → Attempt Failure (Machine Devices) Unit) {request : Request Aside}
    (plain : request.IsPlain) :
    ∃ effect, (agenda peripherals aside).order request = .act effect ∧
      ∀ stage, effect.Ensures stage (Idle stage) := by
  cases request with
  | print text => exact ⟨_, rfl, fun stage => idle_of_keeps ⟨rfl, rfl⟩⟩
  | reset => exact ⟨_, rfl, fun stage => idle_of_keeps ⟨rfl, rfl⟩⟩
  | switchFirmware active => exact ⟨_, rfl, fun stage => idle_of_keeps ⟨rfl, rfl⟩⟩
  | aside action => exact ⟨_, rfl, fun stage => idle_of_keeps ⟨rfl, rfl⟩⟩
  | characters count label response => exact plain.elim
  | line prompt label response => exact plain.elim
  | perform => exact plain.elim
  | flush => exact plain.elim
  | hear label item => exact plain.elim

/-- What carrying out a plain request needs, and what it leaves. -/
theorem idle_weight {effect : Act Devices Aside (List (Request Aside))}
    (idle : effect.Ensures stage (Idle stage)) {inserted : List (Request Aside)}
    (ran : effect stage = (.ok inserted, later)) :
    weights inserted + (agenda peripherals aside).load later + 2 ≤
      2 + (agenda peripherals aside).load stage := by
  obtain ⟨same, _, nothing⟩ := idle.apply ran
  have load : (agenda peripherals aside).load later = (agenda peripherals aside).load stage :=
    Agenda.load_congr (congrArg List.reverse same)
  rw [nothing inserted rfl, load, weights]
  omega

theorem plain_weight {request : Request Aside} (plain : request.IsPlain) : weight request = 2 := by
  cases request with
  | print | reset | switchFirmware | aside => rfl
  | _ => exact plain.elim

/-- The weights of requests pay for what programs do. -/
theorem bounded_agenda : (agenda peripherals aside).Bounded where
  cleared := fun _ => rfl
  act := by
    intro request effect ordered stage inserted later ran
    rw [weights_agenda]
    show _ ≤ weight request + _
    by_cases plain : request.IsPlain
    · obtain ⟨expected, is, idle⟩ := exists_plain peripherals aside plain
      cases is.symm.trans ordered
      rw [plain_weight plain]
      exact idle_weight (idle stage) ran
    · cases request with
      | characters count label response =>
        cases count with
        | zero =>
          cases ordered
          cases ran
          simp only [weights, weight]
          omega
        | succ count =>
          cases (order_characters peripherals aside count label response).symm.trans ordered
          have paid := asking_weight aside ran
          simp only [weights, weight, Nat.succ_mul] at paid ⊢
          omega
      | line prompt label response =>
        cases (order_line peripherals aside prompt label response).symm.trans ordered
        have paid := asking_weight aside ran
        simp only [weights, weight] at paid ⊢
        omega
      | perform => cases ordered
      | flush => cases ordered
      | hear label item =>
        cases ordered
        cases ran
        show 0 + (agenda peripherals aside).load stage + 2 ≤ 2 + _
        omega
      | _ => exact absurd trivial plain
  perform := by
    intro request next ordered any
    cases request with
    | characters count label response => cases count <;> cases ordered
    | perform =>
      cases ordered
      exact Nat.le_succ 2
    | _ => cases ordered
  flush := by
    intro request ordered
    cases request with
    | characters count label response => cases count <;> cases ordered
    | flush => exact Nat.le_refl 2
    | _ => cases ordered

end Weights

end Application

end DosText
