import DosText.Agenda
import DosText.Terminal

/-! A program in front of the terminal. It makes requests one after the other, and answers each
delivery with further requests, made when the delivery arrives. Deliveries are performed only
when a request says so. -/

namespace DosText

namespace Application

/-- What a program can ask for. `Aside` is what it can do behind the back of the terminal. -/
inductive Request (Aside : Type) where
  | print (text : Bytes)
  /-- Asks for a number of characters, one after the other, each answered alike. -/
  | characters (count : Nat) (label : Bytes) (response : List (Request Aside))
  | line (prompt label : Bytes) (response : List (Request Aside))
  | perform
  | flush
  | reset
  | switchFirmware (active : Bool)
  | aside (action : Aside)
  /-- Takes note of a delivery. -/
  | hear (label : Bytes) (item : Item)

instance {Aside : Type} : Inhabited (Request Aside) := ⟨.perform⟩

/-- Who asked for an item, and what follows when it arrives. -/
structure Receiver (Aside : Type) where
  label : Bytes
  response : List (Request Aside)

/-- Why a request was abandoned: a fault, or a store that was used directly and failed. -/
inductive Failure where
  | fault (fault : Fault)
  | storage (failure : Storage.Failure)
  deriving DecidableEq, Repr

/-- The system that a program runs on, and the deliveries that it has taken note of. -/
structure Stage (Devices Aside : Type) where
  dos : Dos Devices (Receiver Aside)
  /-- The deliveries noted, the latest first. -/
  noted : List (Bytes × Item)

variable {Devices Aside Value : Type}

/-- The deliveries that a program has heard of, in the order in which they arrived. -/
def Stage.heard (stage : Stage Devices Aside) : List (Bytes × Item) := stage.noted.reverse

/-- Something done by a program. -/
abbrev Act (Devices Aside : Type) := Attempt Failure (Stage Devices Aside)

/-- Does something at the terminal. -/
def atTerminal (call : Call Devices (Receiver Aside) Value) : Act Devices Aside Value :=
  fun stage =>
    let done := call stage.dos
    (done.1.mapError .fault, { stage with dos := done.2 })

/-- Does something on the machine, behind the back of the terminal. -/
def onMachine (action : Attempt Failure (Machine Devices) Value) : Act Devices Aside Value :=
  fun stage =>
    let done := action stage.dos.machine
    (done.1, { stage with dos := { stage.dos with machine := done.2 } })

/-- What a program does with a delivery: it takes note of it, then makes its requests. -/
def body (delivery : Delivery (Receiver Aside)) : List (Request Aside) :=
  .hear delivery.receiver.label delivery.item :: delivery.receiver.response

/-- What a delivery that is due at once gives rise to. -/
def dueNow (delivery? : Option (Delivery (Receiver Aside))) : List (Request Aside) :=
  match delivery? with
  | some delivery => body delivery
  | none => []

/-- What a request does. `aside` says what is done behind the back of the terminal. -/
def order (peripherals : Peripherals Devices)
    (aside : Aside → Attempt Failure (Machine Devices) Unit) :
    Request Aside → Agenda.Order Failure (Stage Devices Aside) (Request Aside)
  | .print text => .act do
    atTerminal (Dos.print peripherals text)
    return []
  | .characters 0 _ _ => .act (return [])
  | .characters (count + 1) label response => .act do
    let now ← atTerminal (Dos.readCharacter peripherals ⟨label, response⟩)
    return dueNow now ++ [.characters count label response]
  | .line prompt label response => .act do
    return dueNow (← atTerminal (Dos.readLine peripherals prompt ⟨label, response⟩))
  | .perform => .perform fun _ => []
  | .flush => .flush
  | .reset => .act do
    atTerminal Dos.reset
    return []
  | .switchFirmware active => .act do
    atTerminal (Dos.switchFirmware peripherals active)
    return []
  | .aside action => .act do
    onMachine (aside action)
    return []
  | .hear label item => .act do
    modify fun stage => { stage with noted := (label, item) :: stage.noted }
    return []

mutual

/-- A bound on the steps that a request and all that follows from it take. -/
def weight : Request Aside → Nat
  | .characters count _ response => count * (weights response + 8) + 2
  | .line _ _ response => weights response + 10
  | .perform => 3
  | _ => 2

def weights : List (Request Aside) → Nat
  | [] => 0
  | first :: rest => weight first + weights rest

end

/-- How deliveries are performed. -/
def agenda (peripherals : Peripherals Devices)
    (aside : Aside → Attempt Failure (Machine Devices) Unit) :
    Agenda Failure (Stage Devices Aside) (Delivery (Receiver Aside)) (Request Aside) where
  queue stage := stage.dos.deliveries
  clear stage := { stage with dos := { stage.dos with enqueued := [] } }
  body := body
  order := order peripherals aside
  weight := weight

end Application

end DosText
