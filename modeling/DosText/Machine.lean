import DosText.Attempt
import DosText.Fault
import DosText.Session
import DosText.Storage

/-! All that an operation can see or change: the session, the devices around it, what the
terminal shows and the log. What is shown and logged is kept apart from the devices, since
no operation depends on it. -/

namespace DosText

/-- The terminal that the system runs on, apart from what it shows. -/
structure Console (Devices : Type) where
  /-- The next character that is typed. -/
  character : Devices → UInt8 × Devices
  /-- The next line that is typed, after this prompt. -/
  line : Bytes → Devices → Bytes × Devices
  /-- Switches the 80-column firmware, and reports on it. -/
  firmware : Bool → Devices → Devices × List Log.Entry
  /-- Whether input is delivered later, like input from files, instead of at once. -/
  deferred : Bool

/-- What is left to the platform that a system runs on. -/
structure Platform (Devices : Type) where
  /-- The order in which open files are visited. -/
  visited : Devices → Catalog Name Buffer → List Buffer
  visited_perm : ∀ devices buffers,
    (visited devices buffers).Perm (buffers.entries.map Prod.snd)
  /-- A file is not filled with NULs up to this size or beyond. -/
  fillLimit : Nat
  fillLimit_le : fillLimit ≤ 0x8000000000000000
  /-- What ends an operation that relies on an active file where there is none. -/
  unmet : Fault

/-- A platform that visits files in the order in which they were opened, and on which they cannot
be filled up to the fiftieth power of two. -/
def Platform.standard {Devices : Type} : Platform Devices where
  visited _ buffers := buffers.entries.map Prod.snd
  visited_perm _ _ := .refl _
  fillLimit := 0x4000000000000
  fillLimit_le := by decide
  unmet := .ioError

/-- The devices around a session, and the platform that it runs on. -/
structure Peripherals (Devices : Type) where
  store : Store Devices
  source : Source Devices
  console : Console Devices
  platform : Platform Devices := .standard

/-- All that an operation can see or change. -/
structure Machine (Devices : Type) where
  session : Session
  devices : Devices
  /-- What the terminal has shown. -/
  shown : PackedBytes
  log : Log

/-- An operation, which may end in a fault. -/
abbrev Action (Devices : Type) := Attempt Fault (Machine Devices)

namespace Machine

variable {Devices Value Error : Type}

/-- The machine in which nothing has happened yet. -/
def initial (monitor : Monitor) (devices : Devices) : Machine Devices :=
  ⟨.initial monitor, devices, .empty, .empty⟩

/-- Changes the session. -/
def update (change : Session → Session) : Attempt Error (Machine Devices) Unit :=
  modify fun machine => { machine with session := change machine.session }

/-- Shows a text on the terminal. -/
def echo (text : Bytes) : Attempt Error (Machine Devices) Unit :=
  modify fun machine => { machine with shown := machine.shown.append text }

/-- Adds lines to the log. -/
def note (entries : List Log.Entry) : Attempt Error (Machine Devices) Unit :=
  modify fun machine => { machine with log := machine.log.recordAll entries }

/-- Makes a call on the devices and hands over its outcome, a failure included. -/
def call (request : Devices → Reply Devices Value) :
    Attempt Error (Machine Devices) (Except Storage.Failure Value) := fun machine =>
  let reply := request machine.devices
  (.ok reply.outcome,
    { machine with devices := reply.devices, log := machine.log.recordAll reply.report })

/-- Makes a call on the devices. If it fails, a complaint is logged and the fault is one of
input or output. -/
def demand (request : Devices → Reply Devices Value) (complaint : List Log.Entry) :
    Action Devices Value := do
  match ← call request with
  | .ok value => return value
  | .error _ =>
    note complaint
    throw .ioError

/-- Switches the firmware of the terminal. -/
def switchFirmware (console : Console Devices) (active : Bool) :
    Attempt Error (Machine Devices) Unit := fun machine =>
  let switched := console.firmware active machine.devices
  (.ok (), { machine with devices := switched.1, log := machine.log.recordAll switched.2 })

@[simp] theorem update_apply (change : Session → Session) (machine : Machine Devices) :
    (update change : Attempt Error (Machine Devices) Unit) machine =
      (.ok (), { machine with session := change machine.session }) := rfl

@[simp] theorem echo_apply (text : Bytes) (machine : Machine Devices) :
    (echo text : Attempt Error (Machine Devices) Unit) machine =
      (.ok (), { machine with shown := machine.shown.append text }) := rfl

@[simp] theorem note_apply (entries : List Log.Entry) (machine : Machine Devices) :
    (note entries : Attempt Error (Machine Devices) Unit) machine =
      (.ok (), { machine with log := machine.log.recordAll entries }) := rfl

/-- A call that succeeds gives its value and nothing else happens. -/
theorem demand_of_ok {request : Devices → Reply Devices Value} {machine : Machine Devices}
    {value : Value} (complaint : List Log.Entry)
    (succeeds : (request machine.devices).outcome = .ok value) :
    demand request complaint machine =
      (.ok value,
        { machine with
          devices := (request machine.devices).devices
          log := machine.log.recordAll (request machine.devices).report }) := by
  simp [demand, Attempt.bind_apply, call, succeeds]

/-- A call that fails leaves its devices and the complaint behind. -/
theorem demand_of_error {request : Devices → Reply Devices Value} {machine : Machine Devices}
    {failure : Storage.Failure} (complaint : List Log.Entry)
    (fails : (request machine.devices).outcome = .error failure) :
    demand request complaint machine =
      (.error .ioError,
        { machine with
          devices := (request machine.devices).devices
          log := machine.log.recordAll ((request machine.devices).report ++ complaint) }) := by
  simp [demand, Attempt.bind_apply, call, fails, Log.recordAll_append]

end Machine

end DosText
