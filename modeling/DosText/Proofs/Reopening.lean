import DosText.Proofs.FileEffects
import DosText.Proofs.InMemory

/-! Opening again a file that is open. The file that is opened then has what the open file had, and
not what the store holds, so it is the same as closing the file and opening it only where an open
file without content hides nothing. -/

namespace DosText

open Peripherals (AllFaithful Contents applyAll)

namespace TextFile

variable {session after : Session} {name : Name} {calls : List Peripherals.Call}
variable {held first : Contents} {outcome : Except Fault Unit} {buffer : Buffer}

/-- A file that is open is stored, and opened again with what it had. -/
theorem Effect.openFile_of_found {recordLength : Nat}
    (effect : Effect session (.openFile name recordLength) calls outcome after)
    (faithful : AllFaithful first held calls)
    (found : session.buffers.find? name = some buffer) :
    Leaves outcome after (applyAll calls held)
      ((session.discard name).keep (.opened name recordLength buffer.bytes?))
      (buffer.settle held) := by
  have finding {more : List Peripherals.Call} {content : Except Fault (Option Bytes)}
      (finds : Finds session name more content) : more = [] ∧ content = .ok buffer.bytes? := by
    cases finds with
    | opened opened =>
      cases found.symm.trans opened
      exact ⟨rfl, rfl⟩
    | loaded closed loads => cases found.symm.trans closed
  cases effect with
  | openUnread finds => cases (finding finds).2
  | openRefused finds installs =>
    cases (finding finds).1
    cases installs with
    | refused opened failed =>
      have succeeds := failed.of_faithful faithful
      cases succeeds
  | opened finds installs =>
    obtain ⟨rfl, same⟩ := finding finds
    cases same
    cases installs with
    | fresh closed => cases found.symm.trans closed
    | replaced opened flushed =>
      cases found.symm.trans opened
      exact ⟨rfl, rfl, flushed.applyAll⟩
  | idle relies other => cases relies
  | unmet relies same absent => cases relies

/-- A file that is not open is loaded, and opened with what is loaded. -/
theorem Effect.openFile_of_closed {recordLength : Nat}
    (effect : Effect session (.openFile name recordLength) calls outcome after)
    (faithful : AllFaithful first held calls) (closed : session.buffers.find? name = none) :
    let content := (held name).or (first name)
    Leaves outcome after (applyAll calls held) (session.keep (.opened name recordLength content))
      (Function.update held name content) := by
  have exposed := exposed_of_closed closed held first
  cases effect with
  | openUnread finds =>
    have succeeds := (finds.of_exposed faithful exposed).1
    cases succeeds
  | openRefused finds installs =>
    have succeeds := (installs.of_exposed (Peripherals.allFaithful_append.mp faithful).2 exposed).1
    cases succeeds
  | opened finds installs =>
    obtain ⟨loading, _⟩ := Peripherals.allFaithful_append.mp faithful
    obtain ⟨seen, stored⟩ := finds.of_exposed loading exposed
    cases seen
    cases installs with
    | fresh _ =>
      refine ⟨rfl, rfl, ?_⟩
      rw [List.append_nil, stored]
    | replaced opened flushed => cases closed.symm.trans opened
  | idle relies other => cases relies
  | unmet relies same absent => cases relies

variable {Devices Receiver : Type} {peripherals : Peripherals Devices}
variable {held : Devices → Contents} {machine : Machine Devices}

/-- The run of an operation of which it is known what it leaves. -/
theorem exists_perform (reliable : peripherals.Reliable held first) (operation : Operation)
    {left : Session} {kept : Contents}
    (leaves : ∀ {calls outcome after}, Effect machine.session operation calls outcome after →
      AllFaithful first (held machine.devices) calls →
      Leaves outcome after (applyAll calls (held machine.devices)) left kept) :
    ∃ later, operation.perform peripherals machine = (.ok (), later) ∧ later.session = left ∧
      held later.devices = kept := by
  obtain ⟨calls, after, effect, moved⟩ := perform_effect (.refl peripherals machine) operation
  have known := leaves effect (reliable.allFaithful moved.served)
  refine ⟨_, Prod.ext known.outcome rfl, moved.session.trans known.session, ?_⟩
  exact (reliable.toSound.serves moved.served).trans known.held

/-- Closes a file and opens it again. -/
def reopenFile (peripherals : Peripherals Devices) (name : Name) (recordLength : Nat) :
    Action Devices Unit := do
  close peripherals name
  openFile peripherals name recordLength

/-- Of an open file, a CLOSE and an OPEN leave what the file had, or else what the store or the
source has for it. -/
theorem exists_reopenFile (reliable : peripherals.Reliable held first)
    (found : machine.session.buffers.find? name = some buffer) (recordLength : Nat) :
    let stored := buffer.settle (held machine.devices)
    let content := (stored name).or (first name)
    ∃ later, reopenFile peripherals name recordLength machine = (.ok (), later) ∧
      later.session = (machine.session.discard name).keep (.opened name recordLength content) ∧
      held later.devices = Function.update stored name content := by
  intro stored content
  obtain ⟨between, closed, session, kept⟩ :=
    exists_perform reliable (.close name) fun effect faithful =>
      effect.close_leaves faithful found
  have absent : between.session.buffers.find? name = none := by
    rw [session, Session.find?_discard, if_pos rfl]
  obtain ⟨later, opened, left, holds⟩ :=
    exists_perform reliable (.openFile name recordLength) fun effect faithful =>
      effect.openFile_of_closed faithful absent
  rw [session, kept] at left
  rw [kept] at holds
  exact ⟨later, (Attempt.bind_of_ok _ closed).trans opened, left, holds⟩

end TextFile

/-- Opening a file again is closing it and opening it, in every state that is reached where nothing
fails, exactly unless the open file has no content and there is some for its name elsewhere: then
OPEN goes on without, and CLOSE and OPEN come by it. Only by a RENAME to a name that is open can
content come to be hidden like that. -/
theorem Dos.Reaches.openFile_eq_reopenFile_iff {Devices Receiver : Type}
    {peripherals : Peripherals Devices} {held : Devices → Contents} {first : Contents}
    (reliable : peripherals.Reliable held first) {monitor : Monitor} {devices : Devices}
    {dos : Dos Devices Receiver}
    (reached : (Dos.initial monitor devices).Reaches peripherals (fun _ _ => True) dos)
    {name : Name} {buffer : Buffer}
    (found : dos.machine.session.buffers.find? name = some buffer) (recordLength : Nat) :
    let elsewhere := (held dos.machine.devices name).or (first name)
    let opened := TextFile.openFile peripherals name recordLength dos.machine
    let reopened := TextFile.reopenFile peripherals name recordLength dos.machine
    let agree := opened.2.session = reopened.2.session ∧
      held opened.2.devices = held reopened.2.devices
    opened.1 = .ok () ∧ reopened.1 = .ok () ∧
      opened.2.session.buffers.find? name = some (.opened name recordLength buffer.bytes?) ∧
      reopened.2.session.buffers.find? name =
        some (.opened name recordLength (buffer.bytes?.or elsewhere)) ∧
      (agree ↔ (buffer.bytes? = none → elsewhere = none)) ∧
      ((Dos.initial monitor devices).Reaches peripherals Event.SparesOpen dos → agree) := by
  intro elsewhere opened reopened agree
  have own : buffer.name = name :=
    (reached.consistent (Session.consistent_initial monitor)).named name buffer found
  obtain ⟨left, (opens : opened = _), openedSession, openedHeld⟩ :=
    TextFile.exists_perform reliable (.openFile name recordLength) fun effect faithful =>
      effect.openFile_of_found faithful found
  obtain ⟨right, (reopens : reopened = _), reopenedSession, reopenedHeld⟩ :=
    TextFile.exists_reopenFile reliable found recordLength
  have settled : buffer.settle (held dos.machine.devices) name =
      buffer.bytes?.or (held dos.machine.devices name) := by
    rw [Buffer.settle_apply, if_pos own.symm]
  rw [settled, Option.or_assoc] at reopenedSession reopenedHeld
  have opensWith : opened.2.session.buffers.find? name =
      some (.opened name recordLength buffer.bytes?) := by
    rw [opens, openedSession]
    exact Session.find?_keep_self _ _
  have reopensWith : reopened.2.session.buffers.find? name =
      some (.opened name recordLength (buffer.bytes?.or elsewhere)) := by
    rw [reopens, reopenedSession]
    exact Session.find?_keep_self _ _
  have agrees : agree ↔ (buffer.bytes? = none → elsewhere = none) := by
    constructor
    · rintro ⟨sessions, -⟩ empty
      rw [sessions, reopensWith, empty, Option.none_or] at opensWith
      have same := congrArg Buffer.bytes? (Option.some.inj opensWith)
      rwa [TextFile.bytes?_opened, TextFile.bytes?_opened] at same
    · intro exposed
      have content : buffer.bytes?.or elsewhere = buffer.bytes? := by
        cases bytes? : buffer.bytes? with
        | some bytes => rfl
        | none => exact exposed bytes?
      have stored : buffer.settle (held dos.machine.devices) name = buffer.bytes? := by
        cases bytes? : buffer.bytes? with
        | some bytes => rw [settled, bytes?, Option.some_or]
        | none =>
          have unstored := (Option.or_eq_none_iff.mp (exposed bytes?)).1
          rw [settled, bytes?, Option.none_or, unstored]
      constructor
      · rw [opens, reopens, openedSession, reopenedSession, content]
      · rw [opens, reopens, openedHeld, reopenedHeld, content, ← stored, Function.update_eq_self]
  refine ⟨congrArg Prod.fst opens, congrArg Prod.fst reopens, opensWith, reopensWith, agrees, ?_⟩
  intro spared
  have founded := spared.founded reliable (founded_empty _ first)
  refine agrees.mpr fun empty => ?_
  obtain ⟨unstored, unseeded⟩ := founded.empty name buffer found empty
  exact Option.or_eq_none_iff.mpr ⟨unstored, unseeded⟩

/-- A file that is opened before another is renamed to its name. -/
theorem Dos.openFile_ne_reopenFile_renamed :
    let peripherals := Peripherals.inMemory .empty .none
    let start : Dos (Catalog Name Bytes) Unit :=
      .initial .off (Catalog.empty.insert (ascii "A") (ascii "x"))
    let before := ((Event.execute (ascii "OPEN N")).run peripherals start).2
    let dos := ((Event.execute (ascii "RENAME A,N")).run peripherals before).2
    let opened := TextFile.openFile peripherals (ascii "N") 0 dos.machine
    let reopened := TextFile.reopenFile peripherals (ascii "N") 0 dos.machine
    opened.2.session.buffers.find? (ascii "N") = some (.opened (ascii "N") 0 none) ∧
      reopened.2.session.buffers.find? (ascii "N") =
        some (.opened (ascii "N") 0 (some (ascii "x"))) ∧
      ¬(opened.2.session = reopened.2.session ∧
        opened.2.devices.find? = reopened.2.devices.find?) := by
  intro peripherals start before dos opened reopened
  have reached : start.Reaches peripherals (fun _ _ => True) dos :=
    (Reaches.refl.step (.execute (ascii "OPEN N")) trivial).step
      (.execute (ascii "RENAME A,N")) trivial
  have found : dos.machine.session.buffers.find? (ascii "N") =
      some (.opened (ascii "N") 0 none) := by decide +kernel
  have stored : dos.machine.devices.find? (ascii "N") = some (ascii "x") := by decide +kernel
  obtain ⟨-, -, opens, reopens, agrees, -⟩ := Dos.Reaches.openFile_eq_reopenFile_iff
    (Peripherals.reliable_inMemory .empty) reached found 0
  rw [stored] at reopens agrees
  refine ⟨opens, reopens, ?_⟩
  intro agree
  cases agrees.mp agree rfl

end DosText
