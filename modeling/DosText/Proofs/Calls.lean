import DosText.Machine
import DosText.Proofs.Ensures
import Mathlib.Logic.Function.Basic

/-! The calls that a machine makes of its peripherals, in order and with their outcomes. What the
calls do to the files that a store holds follows from the list of calls alone, for every store that
does what it says. -/

namespace DosText

namespace Peripherals

/-- A call of the store, of the source or of the console, with its outcome. -/
inductive Call where
  | get (name : Name) (outcome : Except Storage.Failure (Option Bytes))
  | set (name : Name) (content : Bytes) (outcome : Except Storage.Failure Unit)
  | remove (name : Name) (outcome : Except Storage.Failure Unit)
  | fetch (name : Name) (outcome : Except Storage.Failure (Option Bytes))
  | character (typed : UInt8)
  | line (prompt typed : Bytes)
  | firmware (active : Bool)
  deriving DecidableEq

/-- Whether a call is one of the store or of the source. -/
def Call.IsOfFiles : Call → Prop
  | .character _ => False
  | .line _ _ => False
  | .firmware _ => False
  | _ => True

/-- What the names of a store hold. -/
abbrev Contents := Name → Option Bytes

/-- What a store holds after a call: a call that failed has changed nothing. -/
def Call.apply : Call → Contents → Contents
  | .set name content (.ok ()), held => Function.update held name (some content)
  | .remove name (.ok ()), held => Function.update held name none
  | _, held => held

/-- What a store holds after calls. -/
def applyAll (calls : List Call) (held : Contents) : Contents :=
  calls.foldl (fun held call => call.apply held) held

variable {Devices Value : Type} (peripherals : Peripherals Devices)

/-- Whether a call ends as noted. -/
def Ends (devices : Devices) : Call → Prop
  | .get name outcome => (peripherals.store.get name devices).outcome = outcome
  | .set name content outcome => (peripherals.store.set name content devices).outcome = outcome
  | .remove name outcome => (peripherals.store.remove name devices).outcome = outcome
  | .fetch name outcome => (peripherals.source.fetch name devices).outcome = outcome
  | .character typed => (peripherals.console.character devices).1 = typed
  | .line prompt typed => (peripherals.console.line prompt devices).1 = typed
  | .firmware _ => True

/-- The devices after a call. -/
def after (devices : Devices) : Call → Devices
  | .get name _ => (peripherals.store.get name devices).devices
  | .set name content _ => (peripherals.store.set name content devices).devices
  | .remove name _ => (peripherals.store.remove name devices).devices
  | .fetch name _ => (peripherals.source.fetch name devices).devices
  | .character _ => (peripherals.console.character devices).2
  | .line prompt _ => (peripherals.console.line prompt devices).2
  | .firmware active => (peripherals.console.firmware active devices).1

/-- Calls made in turn end as noted, and leave these devices behind. -/
def Serves : List Call → Devices → Devices → Prop
  | [], devices, last => last = devices
  | call :: rest, devices, last =>
    peripherals.Ends devices call ∧ Serves rest (peripherals.after devices call) last

variable {peripherals}

theorem Serves.append {first second : List Call} {devices between last : Devices}
    (begun : peripherals.Serves first devices between)
    (ended : peripherals.Serves second between last) :
    peripherals.Serves (first ++ second) devices last := by
  induction first generalizing devices with
  | nil =>
    cases begun
    exact ended
  | cons call rest ih => exact ⟨begun.1, ih begun.2⟩

theorem Serves.split {begun ended : List Call} {devices last : Devices}
    (served : peripherals.Serves (begun ++ ended) devices last) :
    ∃ between, peripherals.Serves begun devices between ∧
      peripherals.Serves ended between last := by
  induction begun generalizing devices with
  | nil => exact ⟨devices, rfl, served⟩
  | cons call rest ih =>
    obtain ⟨between, others, behind⟩ := ih served.2
    exact ⟨between, ⟨served.1, others⟩, behind⟩

@[simp] theorem applyAll_nil (held : Contents) : applyAll [] held = held := rfl

@[simp] theorem applyAll_cons (call : Call) (rest : List Call) (held : Contents) :
    applyAll (call :: rest) held = applyAll rest (call.apply held) := rfl

theorem applyAll_append (first second : List Call) (held : Contents) :
    applyAll (first ++ second) held = applyAll second (applyAll first held) :=
  List.foldl_append

/-- What is made of the files by peripherals of which each call does what it is for, or fails and
changes nothing. `held` is what the store holds. -/
structure Sound (peripherals : Peripherals Devices) (held : Devices → Contents) : Prop where
  got : ∀ name devices content, (peripherals.store.get name devices).outcome = .ok content →
    content = held devices name
  get : ∀ name devices, held (peripherals.store.get name devices).devices = held devices
  set : ∀ name content devices, (peripherals.store.set name content devices).outcome = .ok () →
    held (peripherals.store.set name content devices).devices =
      Function.update (held devices) name (some content)
  setFailed : ∀ name content devices failure,
    (peripherals.store.set name content devices).outcome = .error failure →
    held (peripherals.store.set name content devices).devices = held devices
  remove : ∀ name devices, (peripherals.store.remove name devices).outcome = .ok () →
    held (peripherals.store.remove name devices).devices = Function.update (held devices) name none
  removeFailed : ∀ name devices failure,
    (peripherals.store.remove name devices).outcome = .error failure →
    held (peripherals.store.remove name devices).devices = held devices
  fetch : ∀ name devices, held (peripherals.source.fetch name devices).devices = held devices
  character : ∀ devices, held (peripherals.console.character devices).2 = held devices
  line : ∀ prompt devices, held (peripherals.console.line prompt devices).2 = held devices
  firmware : ∀ active devices, held (peripherals.console.firmware active devices).1 = held devices

/-- Peripherals whose store never fails. Their source may, and need not always have the same. -/
structure Durable (peripherals : Peripherals Devices) (held : Devices → Contents) : Prop
    extends peripherals.Sound held where
  gets : ∀ name devices, ∃ content, (peripherals.store.get name devices).outcome = .ok content
  sets : ∀ name content devices, (peripherals.store.set name content devices).outcome = .ok ()
  removes : ∀ name devices, (peripherals.store.remove name devices).outcome = .ok ()

/-- Peripherals whose store and source never fail. `first` is what the source has for a name. -/
structure Reliable (peripherals : Peripherals Devices) (held : Devices → Contents)
    (first : Contents) : Prop extends peripherals.Sound held where
  gets : ∀ name devices, ∃ content, (peripherals.store.get name devices).outcome = .ok content
  sets : ∀ name content devices, (peripherals.store.set name content devices).outcome = .ok ()
  removes : ∀ name devices, (peripherals.store.remove name devices).outcome = .ok ()
  fetches : ∀ name devices, (peripherals.source.fetch name devices).outcome = .ok (first name)

variable {held : Devices → Contents} {first : Contents}

theorem Sound.after (sound : peripherals.Sound held) {devices : Devices} {call : Call}
    (ended : peripherals.Ends devices call) :
    held (peripherals.after devices call) = call.apply (held devices) := by
  cases call with
  | get name outcome => exact sound.get name devices
  | set name content outcome =>
    cases outcome with
    | ok value => exact sound.set name content devices ended
    | error failure => exact sound.setFailed name content devices failure ended
  | remove name outcome =>
    cases outcome with
    | ok value => exact sound.remove name devices ended
    | error failure => exact sound.removeFailed name devices failure ended
  | fetch name outcome => exact sound.fetch name devices
  | character typed => exact sound.character devices
  | line prompt typed => exact sound.line prompt devices
  | firmware active => exact sound.firmware active devices

/-- What a store holds after calls can be read off the list of calls. -/
theorem Sound.serves (sound : peripherals.Sound held) {calls : List Call} {devices last : Devices}
    (served : peripherals.Serves calls devices last) :
    held last = applyAll calls (held devices) := by
  induction calls generalizing devices with
  | nil =>
    cases served
    rfl
  | cons call rest ih => rw [applyAll_cons, ← sound.after served.1, ih served.2]

/-- Whether a call of the store or of the source ends as it does where nothing fails: the store
tells what it holds, and the source what it has. -/
def Call.IsFaithful (first : Contents) (held : Contents) : Call → Prop
  | .get name outcome => outcome = .ok (held name)
  | .set _ _ outcome => outcome = .ok ()
  | .remove _ outcome => outcome = .ok ()
  | .fetch name outcome => outcome = .ok (first name)
  | _ => True

/-- Whether each of some calls ends as it does where nothing fails. -/
def AllFaithful (first : Contents) : Contents → List Call → Prop
  | _, [] => True
  | held, call :: rest => call.IsFaithful first held ∧ AllFaithful first (call.apply held) rest

theorem allFaithful_append {first held : Contents} {begun ended : List Call} :
    AllFaithful first held (begun ++ ended) ↔
      AllFaithful first held begun ∧ AllFaithful first (applyAll begun held) ended := by
  induction begun generalizing held with
  | nil => simp [AllFaithful]
  | cons call rest ih => simp [AllFaithful, ih, and_assoc]

/-- Peripherals whose store never fails, and whose source has the same for a name each time. -/
structure Steady (peripherals : Peripherals Devices) (held : Devices → Contents)
    (first : Contents) (name : Name) : Prop extends peripherals.Sound held where
  gets : ∀ name devices, ∃ content, (peripherals.store.get name devices).outcome = .ok content
  sets : ∀ name content devices, (peripherals.store.set name content devices).outcome = .ok ()
  removes : ∀ name devices, (peripherals.store.remove name devices).outcome = .ok ()
  fetches : ∀ devices, (peripherals.source.fetch name devices).outcome = .ok (first name)

theorem Reliable.steady (reliable : peripherals.Reliable held first) (name : Name) :
    peripherals.Steady held first name where
  toSound := reliable.toSound
  gets := reliable.gets
  sets := reliable.sets
  removes := reliable.removes
  fetches := reliable.fetches name

theorem Reliable.durable (reliable : peripherals.Reliable held first) :
    peripherals.Durable held where
  toSound := reliable.toSound
  gets := reliable.gets
  sets := reliable.sets
  removes := reliable.removes

theorem Steady.durable {name : Name} (steady : peripherals.Steady held first name) :
    peripherals.Durable held where
  toSound := steady.toSound
  gets := steady.gets
  sets := steady.sets
  removes := steady.removes

/-- Where the store does not fail, only what the source has can decide how a call ends. -/
theorem Durable.isFaithful (durable : peripherals.Durable held) {devices : Devices} {call : Call}
    (ended : peripherals.Ends devices call) (aside : ∀ name outcome, call ≠ .fetch name outcome) :
    call.IsFaithful first (held devices) := by
  cases call with
  | get name outcome =>
    obtain ⟨content, got⟩ := durable.gets name devices
    have same : outcome = .ok content := ended.symm.trans got
    rw [same, durable.got name devices content got]
    rfl
  | set name content outcome => exact ended.symm.trans (durable.sets name content devices)
  | remove name outcome => exact ended.symm.trans (durable.removes name devices)
  | fetch name outcome => exact absurd rfl (aside name outcome)
  | character typed => trivial
  | line prompt typed => trivial
  | firmware active => trivial

/-- Calls of the store alone are faithful where it does not fail. -/
theorem Durable.allFaithful (durable : peripherals.Durable held) {calls : List Call}
    {devices last : Devices} (served : peripherals.Serves calls devices last)
    (aside : ∀ name outcome, .fetch name outcome ∉ calls) :
    AllFaithful first (held devices) calls := by
  induction calls generalizing devices with
  | nil => trivial
  | cons call rest ih =>
    have here : ∀ name outcome, call ≠ .fetch name outcome :=
      fun name outcome same => aside name outcome (List.mem_cons.mpr (.inl same.symm))
    refine ⟨durable.isFaithful served.1 here, ?_⟩
    rw [← durable.toSound.after served.1]
    exact ih served.2 fun name outcome member => aside name outcome (List.mem_cons_of_mem _ member)

/-- Whether calls fetch first contents for one name at most. -/
def FetchOnly (name : Name) (calls : List Call) : Prop :=
  ∀ other outcome, .fetch other outcome ∈ calls → other = name

theorem FetchOnly.append {name : Name} {begun ended : List Call} (before : FetchOnly name begun)
    (behind : FetchOnly name ended) : FetchOnly name (begun ++ ended) := by
  intro other outcome member
  rcases List.mem_append.mp member with among | among
  · exact before other outcome among
  · exact behind other outcome among

theorem Steady.isFaithful {name : Name} (steady : peripherals.Steady held first name)
    {devices : Devices} {call : Call} (ended : peripherals.Ends devices call)
    (only : FetchOnly name [call]) : call.IsFaithful first (held devices) := by
  cases call with
  | fetch other outcome =>
    cases only other outcome List.mem_cons_self
    exact ended.symm.trans (steady.fetches devices)
  | _ => exact steady.durable.isFaithful ended nofun

/-- Where the store does not fail, every call for a name that the source knows is faithful. -/
theorem Steady.allFaithful {name : Name} (steady : peripherals.Steady held first name)
    {calls : List Call} {devices last : Devices} (served : peripherals.Serves calls devices last)
    (only : FetchOnly name calls) : AllFaithful first (held devices) calls := by
  induction calls generalizing devices with
  | nil => trivial
  | cons call rest ih =>
    have here : FetchOnly name [call] := fun other outcome member =>
      only other outcome (List.mem_cons.mpr (.inl (List.mem_singleton.mp member)))
    refine ⟨steady.isFaithful served.1 here, ?_⟩
    rw [← steady.toSound.after served.1]
    exact ih served.2 fun other outcome member => only other outcome (List.mem_cons_of_mem _ member)

theorem Reliable.isFaithful (reliable : peripherals.Reliable held first) {devices : Devices}
    {call : Call} (ended : peripherals.Ends devices call) :
    call.IsFaithful first (held devices) := by
  cases call with
  | fetch name outcome => exact ended.symm.trans (reliable.fetches name devices)
  | _ => exact (reliable.steady []).isFaithful ended (by simp [FetchOnly])

/-- Where nothing fails, every call that is made is faithful. -/
theorem Reliable.allFaithful (reliable : peripherals.Reliable held first) {calls : List Call}
    {devices last : Devices} (served : peripherals.Serves calls devices last) :
    AllFaithful first (held devices) calls := by
  induction calls generalizing devices with
  | nil => trivial
  | cons call rest ih =>
    refine ⟨reliable.isFaithful served.1, ?_⟩
    rw [← reliable.toSound.after served.1]
    exact ih served.2

end Peripherals

namespace Machine

open Peripherals (Call)

variable {Devices Value Other Error : Type} {peripherals : Peripherals Devices}

/-- A machine has made calls of its peripherals and come to a session, and has shown nothing. -/
structure Moves (peripherals : Peripherals Devices) (before : Machine Devices)
    (calls : List Call) (session : Session) (after : Machine Devices) : Prop where
  session : after.session = session
  shown : after.shown = before.shown
  served : peripherals.Serves calls before.devices after.devices

theorem Moves.refl (peripherals : Peripherals Devices) (machine : Machine Devices) :
    machine.Moves peripherals [] machine.session machine := ⟨rfl, rfl, rfl⟩

variable {start machine : Machine Devices} {calls : List Call} {session : Session}

/-- A machine that makes no more calls. -/
theorem Moves.still (moved : start.Moves peripherals calls session machine) :
    start.Moves peripherals (calls ++ []) session machine := by
  rw [List.append_nil]
  exact moved

/-- A change of the session makes no call. -/
theorem Moves.change (moved : start.Moves peripherals calls session machine)
    (change : Session → Session) :
    start.Moves peripherals calls (change session)
      { machine with session := change machine.session } :=
  ⟨congrArg change moved.session, moved.shown, moved.served⟩

/-- Neither does a line of the log. -/
theorem Moves.noted (moved : start.Moves peripherals calls session machine) (log : Log) :
    start.Moves peripherals calls session { machine with log } :=
  ⟨moved.session, moved.shown, moved.served⟩

/-- A machine has made calls of its peripherals, shown a text and come to a session. -/
structure Passes (peripherals : Peripherals Devices) (before : Machine Devices)
    (calls : List Call) (text : Bytes) (session : Session) (after : Machine Devices) : Prop where
  session : after.session = session
  shown : after.shown.toBytes = before.shown.toBytes ++ text
  served : peripherals.Serves calls before.devices after.devices

theorem Moves.passes (moved : start.Moves peripherals calls session machine) :
    start.Passes peripherals calls [] session machine :=
  ⟨moved.session, by rw [moved.shown, List.append_nil], moved.served⟩

/-- A text that is shown before everything else. -/
theorem Moves.passes_behind {text : Bytes}
    (moved : ({ start with shown := start.shown.append text } : Machine Devices).Moves
      peripherals calls session machine) :
    start.Passes peripherals calls text session machine :=
  ⟨moved.session, by rw [moved.shown, PackedBytes.toBytes_append], moved.served⟩

/-- A text that is shown behind everything else. -/
theorem Moves.passes_before (moved : start.Moves peripherals calls session machine)
    (text : Bytes) : start.Passes peripherals calls text session
      { machine with shown := machine.shown.append text } :=
  ⟨moved.session, by rw [PackedBytes.toBytes_append, moved.shown], moved.served⟩

/-- A demand makes its call, and leaves the session alone. -/
theorem Moves.demand (moved : start.Moves peripherals calls session machine)
    (request : Devices → Reply Devices Value) (complaint : List Log.Entry)
    (call : Except Storage.Failure Value → Call)
    (served : peripherals.Serves [call (request machine.devices).outcome] machine.devices
      (request machine.devices).devices) :
    (Machine.demand request complaint).Ensures machine fun outcome later =>
      (∃ value, outcome = .ok value ∧
        start.Moves peripherals (calls ++ [call (.ok value)]) session later) ∨
      ∃ failure, outcome = .error .ioError ∧
        start.Moves peripherals (calls ++ [call (.error failure)]) session later := by
  unfold Attempt.Ensures
  cases ended : (request machine.devices).outcome with
  | ok value =>
    rw [demand_of_ok complaint ended]
    exact .inl ⟨value, rfl, moved.session, moved.shown, moved.served.append (ended ▸ served)⟩
  | error failure =>
    rw [demand_of_error complaint ended]
    exact .inr ⟨failure, rfl, moved.session, moved.shown, moved.served.append (ended ▸ served)⟩

theorem Moves.demand_bind (moved : start.Moves peripherals calls session machine)
    {request : Devices → Reply Devices Value} {complaint : List Log.Entry}
    {next : Value → Action Devices Other} {condition : Except Fault Other → Machine Devices → Prop}
    (call : Except Storage.Failure Value → Call)
    (served : peripherals.Serves [call (request machine.devices).outcome] machine.devices
      (request machine.devices).devices)
    (done : ∀ value later,
      start.Moves peripherals (calls ++ [call (.ok value)]) session later →
        (next value).Ensures later condition)
    (failed : ∀ failure later,
      start.Moves peripherals (calls ++ [call (.error failure)]) session later →
        condition (.error .ioError) later) :
    (Machine.demand request complaint >>= next).Ensures machine condition := by
  refine (moved.demand request complaint call served).bind ?_ ?_
  · intro value later ensured
    rcases ensured with ⟨_, ⟨⟩, asked⟩ | ⟨_, ⟨⟩, _⟩
    exact done value later asked
  · intro fault later ensured
    rcases ensured with ⟨_, ⟨⟩, _⟩ | ⟨failure, ⟨⟩, asked⟩
    exact failed failure later asked

end Machine

end DosText
