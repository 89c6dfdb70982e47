import DosText.Proofs.SessionFaults
import DosText.Proofs.StoredFiles

/-! What a fault leaves behind in the store. A command that is made of more than one call can fail
between them, and only two commands have changed the store by then: a RENAME that cannot remove the
old file, and a CLOSE of all files that cannot store one of them. -/

namespace DosText

open Peripherals (Contents)

namespace TextFile

variable {session after : Session} {name : Name} {calls : List Peripherals.Call} {fault : Fault}
variable {held : Contents}

/-- The ways in which an operation that fails has changed the store already. -/
inductive Spoils (session : Session) (held : Contents) :
    Operation → List Peripherals.Call → Prop where
  /-- The file stands under its new name, in place of what stood there, and under its old one. -/
  | renamed {source target : Name} {content : Bytes} {failure : Storage.Failure}
    (differ : source ≠ target) (changes : held target ≠ some content) :
    Spoils session held (.rename source target)
      [.get source (.ok (some content)), .set target content (.ok ()),
        .remove source (.error failure)]
  /-- A file that was changed is stored, since it came before the one that cannot be. In which order
  the open files come is left to the platform. -/
  | closed {stored rest : List Buffer} {refused buffer : Buffer} {bytes : Bytes}
    {begun ended : List Peripherals.Call} {fault : Fault}
    (listed : (stored ++ refused :: rest).Perm (session.buffers.entries.map Prod.snd))
    (flushed : FlushesAll stored begun (.ok ())) (failed : Flushes refused ended (.error fault))
    (member : buffer ∈ stored) (bytes? : buffer.bytes? = some bytes)
    (changes : held buffer.name ≠ some bytes) :
    Spoils session held .closeAll (begun ++ ended)

theorem Loads.applyAll_of_none (loads : Loads name calls (.ok none)) :
    Peripherals.applyAll calls held = held := by
  cases loads
  rfl

theorem Finds.applyAll_of_fault (finds : Finds session name calls (.error fault)) :
    Peripherals.applyAll calls held = held := by
  cases finds with
  | loaded closed loads => exact loads.applyAll_of_fault

theorem Finds.applyAll_of_none (finds : Finds session name calls (.ok none)) :
    Peripherals.applyAll calls held = held := by
  generalize outcome? : (Except.ok none : Except Fault (Option Bytes)) = outcome at finds
  cases finds with
  | opened found => rfl
  | loaded closed loads =>
    subst outcome?
    exact loads.applyAll_of_none

/-- A file that takes the place of an open one is not loaded, so nothing is stored if the open one
cannot be. -/
theorem Finds.applyAll_of_refused {content : Option Bytes} {recordLength : Nat}
    {more : List Peripherals.Call} (finds : Finds session name calls (.ok content))
    (installs : Installs session name recordLength content more (.error fault) after) :
    Peripherals.applyAll (calls ++ more) held = held := by
  cases installs with
  | refused found failed =>
    generalize outcome? : (Except.ok content : Except Fault (Option Bytes)) = outcome at finds
    cases finds with
    | opened already => exact failed.applyAll_of_fault
    | loaded closed loads =>
      rw [found] at closed
      cases closed

theorem Obtains.applyAll_of_fault (obtains : Obtains session name calls (.error fault) after) :
    Peripherals.applyAll calls held = held := by
  cases obtains with
  | unread closed loads => exact loads.applyAll_of_fault

theorem Readies.applyAll_of_fault (readies : Readies session name calls (.error fault) after) :
    Peripherals.applyAll calls held = held := by
  cases readies with
  | empty found none => rfl
  | absent closed loads => exact loads.applyAll_of_none
  | unread closed loads => exact loads.applyAll_of_fault

theorem Creates.applyAll_of_fault {buffer : Buffer}
    (creates : Creates buffer calls (.error fault)) :
    Peripherals.applyAll calls held = held := by
  cases creates
  rfl

/-- Files that are stored before one that cannot be leave the store as it was exactly if all of
them were stored already. -/
theorem FlushesAll.applyAll_refused_iff {stored : List Buffer} {refused : Buffer}
    {begun ended : List Peripherals.Call} (distinct : (stored.map Buffer.name).Nodup)
    (flushed : FlushesAll stored begun (.ok ())) (failed : Flushes refused ended (.error fault)) :
    Peripherals.applyAll (begun ++ ended) held = held ↔
      ∀ buffer ∈ stored, ∀ bytes, buffer.bytes? = some bytes → held buffer.name = some bytes := by
  rw [Peripherals.applyAll_append, failed.applyAll_of_fault, flushed.applyAll]
  exact Buffer.settleAll_eq_self_iff distinct held

/-- The first of the open files have different names, in whatever order they come. -/
theorem nodup_of_append {stored rest : List Buffer} (consistent : session.Consistent)
    (listed : (stored ++ rest).Perm (session.buffers.entries.map Prod.snd)) :
    (stored.map Buffer.name).Nodup := by
  have distinct := (listed.map Buffer.name).nodup_iff.mpr (Buffer.nodup_names consistent.named)
  rw [List.map_append] at distinct
  exact (List.nodup_append.mp distinct).1

/-- What an operation has spoilt shows in the store. -/
theorem Spoils.applyAll_ne {operation : Operation}
    (spoils : Spoils session held operation calls) (consistent : session.Consistent) :
    Peripherals.applyAll calls held ≠ held := by
  intro same
  cases spoils with
  | @renamed source target content failure differ changes =>
    have copied : Peripherals.applyAll [.get source (.ok (some content)),
        .set target content (.ok ()), .remove source (.error failure)] held =
        Function.update held target (some content) := rfl
    rw [← same, copied] at changes
    exact changes (Function.update_self target (some content) held)
  | @closed stored rest refused buffer bytes _ _ _ listed flushed failed member bytes? changes =>
    have apart := nodup_of_append consistent listed
    have kept := (flushed.applyAll_refused_iff apart failed).mp same
    exact changes (kept buffer member bytes bytes?)

/-- Files that cannot all be stored have changed the store only if one was changed and stored
before the first that cannot be. -/
theorem FlushesAll.spoils_of_fault {visited : List Buffer} (consistent : session.Consistent)
    (perm : visited.Perm (session.buffers.entries.map Prod.snd))
    (flushes : FlushesAll visited calls (.error fault))
    (changed : Peripherals.applyAll calls held ≠ held) : Spoils session held .closeAll calls := by
  obtain ⟨stored, refused, rest, begun, ended, rfl, rfl, flushed, failed⟩ :=
    flushes.split_of_fault
  have apart := nodup_of_append consistent perm
  by_contra spared
  refine changed ((flushed.applyAll_refused_iff apart failed).mpr ?_)
  intro buffer member bytes bytes?
  by_contra changes
  exact spared (.closed perm flushed failed member bytes? changes)

/-- An operation that fails has changed the store in no other way than these. -/
theorem Effect.spoils_of_fault {operation : Operation}
    (effect : Effect session operation calls (.error fault) after)
    (consistent : session.Consistent) (modest : operation.IsModest)
    (changed : Peripherals.applyAll calls held ≠ held) : Spoils session held operation calls := by
  cases effect with
  | openUnread finds => exact absurd finds.applyAll_of_fault changed
  | openRefused finds installs => exact absurd (finds.applyAll_of_refused installs) changed
  | appendUnread finds => exact absurd finds.applyAll_of_fault changed
  | appendAbsent finds => exact absurd finds.applyAll_of_none changed
  | appendRefused finds installs => exact absurd (finds.applyAll_of_refused installs) changed
  | closeRefused found failed => exact absurd failed.applyAll_of_fault changed
  | closeAllRefused perm failed => exact failed.spoils_of_fault consistent perm changed
  | positionUnread obtains => exact absurd obtains.applyAll_of_fault changed
  | positionBeyond obtains beyond =>
    obtain ⟨_, rfl⟩ := obtains.of_beyond modest.isSized beyond
    exact absurd rfl changed
  | readUnready readies => exact absurd readies.applyAll_of_fault changed
  | readBeyond readies beyond =>
    obtain ⟨_, rfl⟩ := readies.of_beyond (lt_offsetLimit modest.2 modest.1) beyond
    exact absurd rfl changed
  | writeRefused found pointer failed => exact absurd failed.applyAll_of_fault changed
  | @renameHalf source target content differ failure =>
    refine .renamed differ ?_
    intro stored
    have same : Function.update held target (some content) = held := by
      rw [← stored]
      exact Function.update_eq_self target held
    exact changed same
  | _ => exact absurd rfl changed

end TextFile

/-- The ways in which a command line that fails has changed the store already. -/
def Command.Spoils (session : Session) (held : Contents) (line : Bytes)
    (calls : List Peripherals.Call) : Prop :=
  ∃ operation, order? line = .ok (.file operation) ∧
    TextFile.Spoils session held operation calls

theorem Command.Obeys.spoils_of_fault {session after : Session} {line : Bytes}
    {calls : List Peripherals.Call} {fault : Fault} {held : Contents}
    (obeys : Obeys session line calls (.error fault) after) (consistent : session.Consistent)
    (changed : Peripherals.applyAll calls held ≠ held) : Spoils session held line calls := by
  cases obeys with
  | refused refused => exact absurd rfl changed
  | @operated operation _ _ _ ordered effect =>
    have modest := (fitsLine_of_order? ordered).1
    exact ⟨operation, ordered, effect.spoils_of_fault consistent modest changed⟩

variable {Devices Receiver : Type} {earlier peripherals : Peripherals Devices}
variable {held : Devices → Contents}

/-- A command that fails leaves every file in the store as it was, unless it is a RENAME that was
half done or a CLOSE of all files that had stored a change, whichever file the platform comes to
first. What happened before may have happened with other peripherals. -/
theorem Command.execute_fault_held_iff (sound : peripherals.Sound held) {monitor : Monitor}
    {devices : Devices} {dos : Dos Devices Receiver}
    (reached : (Dos.initial monitor devices).Reaches earlier (fun _ _ => True) dos)
    {line : Bytes} {fault : Fault} {later : Machine Devices}
    (failed : execute peripherals line dos.machine = (.error fault, later)) :
    held later.devices = held dos.machine.devices ↔
      ¬∃ calls, peripherals.Serves calls dos.machine.devices later.devices ∧
        Spoils dos.machine.session (held dos.machine.devices) line calls := by
  have consistent := reached.consistent (Session.consistent_initial monitor)
  constructor
  · intro same spoiled
    obtain ⟨calls, served, operation, _, spoils⟩ := spoiled
    exact spoils.applyAll_ne consistent ((sound.serves served).symm.trans same)
  · intro spared
    obtain ⟨calls, after, obeys, kept⟩ := (execute_obeys dos.machine line).apply failed
    by_contra changed
    rw [sound.serves kept.served] at changed
    exact spared ⟨calls, kept.served, obeys.spoils_of_fault consistent changed⟩

/-- A system whose store holds one file. -/
def Dos.holding : Dos (Catalog Name Bytes) Unit :=
  .initial .off (Catalog.empty.insert (ascii "A") (ascii "x"))

/-- Opens two new files and writes a character into each. -/
def Dos.writingTwo : List (Event Unit) :=
  [.file (.openFile (ascii "A") 0), .file (.openFile (ascii "B") 0),
    .file (.write (ascii "A") 0 0), .terminal (.print (code 'x')),
    .file (.write (ascii "B") 0 0), .terminal (.print (code 'y'))]

/-- A system in which two files wait to be written back. -/
def Dos.written : Dos (Catalog Name Bytes) Unit :=
  writingTwo.foldl (fun dos event => (event.run (.inMemory .empty .none) dos).2)
    (.initial .off .empty)

/-- A store in memory in which the first of the two can no longer be written. -/
def Peripherals.withoutFirst (platform : Platform (Catalog Name Bytes)) :
    Peripherals (Catalog Name Bytes) :=
  { Peripherals.inMemory .empty ⟨false, true, false, [ascii "A"]⟩ with platform }

/-- A platform that comes to the files opened last first. -/
def Platform.latestFirst {Devices : Type} : Platform Devices :=
  { (Platform.standard : Platform Devices) with
    visited := fun _ buffers => (buffers.entries.map Prod.snd).reverse
    visited_perm := fun _ _ => List.reverse_perm _ }

theorem Peripherals.Sound.on (sound : peripherals.Sound held) (platform : Platform Devices) :
    { peripherals with platform }.Sound held := { sound with }

theorem Dos.reaches_foldl {allowed : Session → Event Receiver → Prop}
    {start dos : Dos Devices Receiver} (reached : start.Reaches peripherals allowed dos)
    (events : List (Event Receiver)) (free : ∀ session event, allowed session event) :
    start.Reaches peripherals allowed
      (events.foldl (fun dos event => (event.run peripherals dos).2) dos) := by
  induction events generalizing dos with
  | nil => exact reached
  | cons event rest ih => exact ih (reached.step event (free _ event))

theorem Command.exists_execute_of_order? {line : Bytes} {order : Order}
    (ordered : order? line = .ok order) (peripherals : Peripherals Devices)
    (machine : Machine Devices) :
    ∃ log, execute peripherals line machine =
      let performed := order.perform peripherals
        { machine with shown := machine.shown.append (traceOf machine.session line) }
      (performed.1, { performed.2 with log }) := by
  obtain ⟨log, run⟩ := exists_execute peripherals machine line
  rw [obey_eq, ordered] at run
  exact ⟨log, run⟩

/-- A RENAME while nothing can be removed from the store ends in a fault, and the file then stands
under both names. A CLOSE of two files of which the first cannot be stored ends in a fault too;
the second is stored exactly if the platform comes to it first. -/
theorem execute_fault_held_renaming :
    (let peripherals := Peripherals.inMemory .empty ⟨false, false, true, []⟩
    let executed := Command.execute peripherals (ascii "RENAME A,B") Dos.holding.machine
    executed.1 = .error .ioError ∧
      Dos.holding.machine.devices.find? (ascii "B") = none ∧
      executed.2.devices.find? (ascii "B") = some (ascii "x") ∧
      ∃ calls, peripherals.Serves calls Dos.holding.machine.devices executed.2.devices ∧
        Command.Spoils Dos.holding.machine.session Dos.holding.machine.devices.find?
          (ascii "RENAME A,B") calls) ∧
    (let executed := Command.execute (.withoutFirst .standard) (ascii "CLOSE") Dos.written.machine
    executed.1 = .error .ioError ∧ executed.2.devices = Dos.written.machine.devices) ∧
    (let peripherals := Peripherals.withoutFirst .latestFirst
    let executed := Command.execute peripherals (ascii "CLOSE") Dos.written.machine
    executed.1 = .error .ioError ∧
      Dos.written.machine.devices.find? (ascii "B") = some [] ∧
      executed.2.devices.find? (ascii "B") = some (ascii "y") ∧
      ∃ calls, peripherals.Serves calls Dos.written.machine.devices executed.2.devices ∧
        Command.Spoils Dos.written.machine.session Dos.written.machine.devices.find?
          (ascii "CLOSE") calls) := by
  refine ⟨?_, ?_, ?_⟩
  · intro peripherals executed
    have parsed : Command.read (ascii "RENAME A,B") =
        .ok (.rename (ascii "A") (ascii "B") []) := by decide
    have ordered : Command.order? (ascii "RENAME A,B") =
        .ok (.file (.rename (ascii "A") (ascii "B"))) := by
      rw [Command.order?_of_read parsed]
      simp [Command.orderOf, bind, Except.bind, pure, Except.pure]
    obtain ⟨log, run⟩ :=
      Command.exists_execute_of_order? ordered peripherals Dos.holding.machine
    have failed : executed = (.error .ioError, executed.2) := by
      refine Prod.ext ?_ rfl
      rw [show executed = _ from run]
      rfl
    have absent : Dos.holding.machine.devices.find? (ascii "B") = none := by decide
    have copied : executed.2.devices.find? (ascii "B") = some (ascii "x") := by
      rw [show executed = _ from run]
      rfl
    have reached : (Dos.initial .off (Catalog.empty.insert (ascii "A") (ascii "x")) :
        Dos (Catalog Name Bytes) Unit).Reaches peripherals (fun _ _ => True) Dos.holding := .refl
    have kept := Command.execute_fault_held_iff (Peripherals.sound_inMemory _ _) reached failed
    refine ⟨congrArg Prod.fst failed, absent, copied, ?_⟩
    by_contra spared
    have same := kept.mpr spared
    rw [same, absent] at copied
    cases copied
  · obtain ⟨log, run⟩ := Command.exists_execute_of_order? Command.order?_closeAll
      (.withoutFirst .standard) Dos.written.machine
    refine ⟨?_, ?_⟩ <;> rw [run] <;> rfl
  · intro peripherals executed
    obtain ⟨log, run⟩ := Command.exists_execute_of_order? Command.order?_closeAll peripherals
      Dos.written.machine
    have failed : executed = (.error .ioError, executed.2) := by
      refine Prod.ext ?_ rfl
      rw [show executed = _ from run]
      rfl
    have empty : Dos.written.machine.devices.find? (ascii "B") = some [] := by decide
    have stored : executed.2.devices.find? (ascii "B") = some (ascii "y") := by
      rw [show executed = _ from run]
      rfl
    have begun : (Dos.initial .off .empty : Dos (Catalog Name Bytes) Unit).Reaches
      (.inMemory .empty .none) (fun _ _ => True) _ := .refl
    have reached := Dos.reaches_foldl begun Dos.writingTwo fun _ _ => trivial
    have sound := (Peripherals.sound_inMemory .empty ⟨false, true, false, [ascii "A"]⟩).on
      .latestFirst
    have kept := Command.execute_fault_held_iff sound reached failed
    refine ⟨congrArg Prod.fst failed, empty, stored, ?_⟩
    by_contra spared
    have same := congrFun (kept.mpr spared) (ascii "B")
    cases stored.symm.trans (same.trans empty)

end DosText
