import DosText.Proofs.InMemory
import DosText.Proofs.NamesConcerned
import DosText.Proofs.Places

/-! Files that an operation is not given. Whatever comes of the operation, they are open or not and
stored or not as they were, and one of them stays active unless another file is made active. What is
read or written at the terminal concerns the active file alone, and no stored one. -/

namespace DosText

namespace Peripherals

variable {Devices : Type} {peripherals : Peripherals Devices} {held : Devices → Contents}

/-- Calls that concern other names store nothing under a name and remove nothing from it. -/
theorem applyAll_of_concern {name : Name} {calls : List Call} (concern : Concern (· ≠ name) calls)
    (held : Contents) : applyAll calls held name = held name := by
  induction calls generalizing held with
  | nil => rfl
  | cons call rest ih =>
    have here := concern call List.mem_cons_self
    rw [applyAll_cons, ih fun later member => concern later (List.mem_cons_of_mem call member)]
    cases call with
    | set written content outcome =>
      have differ : name ≠ written := (here written rfl).symm
      cases outcome with
      | ok done => exact Function.update_of_ne differ _ _
      | error failure => rfl
    | remove removed outcome =>
      have differ : name ≠ removed := (here removed rfl).symm
      cases outcome with
      | ok done => exact Function.update_of_ne differ _ _
      | error failure => rfl
    | _ => rfl

/-- Whether a call for one name leaves alone what the store holds under every other, whether the
call fails or not. `held` is what the store holds. -/
def Separates (peripherals : Peripherals Devices) (held : Devices → Contents) : Prop :=
  ∀ devices (call : Call) name, call.name? ≠ some name →
    held (peripherals.after devices call) name = held devices name

/-- Calls that concern other names leave alone what is held under a name. -/
theorem Separates.serves (separates : peripherals.Separates held) {name : Name} {calls : List Call}
    {devices last : Devices} (served : peripherals.Serves calls devices last)
    (concern : Concern (· ≠ name) calls) : held last name = held devices name := by
  induction calls generalizing devices with
  | nil =>
    cases served
    rfl
  | cons call rest ih =>
    have other : call.name? ≠ some name :=
      fun same => concern call List.mem_cons_self name same rfl
    have behind := ih served.2 fun later member => concern later (List.mem_cons_of_mem call member)
    rw [behind, separates devices call name other]

/-- A store of which each call does what it is for, or nothing, keeps its names apart. -/
theorem Sound.separates (sound : peripherals.Sound held) : peripherals.Separates held := by
  intro devices call name other
  cases call with
  | get asked outcome => exact congrFun (sound.get asked devices) name
  | set written content outcome =>
    show held (peripherals.store.set written content devices).devices name = _
    rcases done : (peripherals.store.set written content devices).outcome with failure | _
    · rw [sound.setFailed written content devices failure done]
    · rw [sound.set written content devices done]
      exact Function.update_of_ne (fun same => other (congrArg some same.symm)) _ _
  | remove removed outcome =>
    show held (peripherals.store.remove removed devices).devices name = _
    rcases done : (peripherals.store.remove removed devices).outcome with failure | _
    · rw [sound.removeFailed removed devices failure done]
    · rw [sound.remove removed devices done]
      exact Function.update_of_ne (fun same => other (congrArg some same.symm)) _ _
  | fetch asked outcome => exact congrFun (sound.fetch asked devices) name
  | character typed => exact congrFun (sound.character devices) name
  | line prompt typed => exact congrFun (sound.line prompt devices) name
  | firmware active => exact congrFun (sound.firmware active devices) name

end Peripherals

open Peripherals (Concern)

namespace TextFile

variable {session after : Session} {name other : Name} {calls : List Peripherals.Call}

/-- The redirection that an operation is for. -/
def Operation.redirection? : Operation → Option Redirection
  | .read name _ _ => some (.reading name)
  | .write name _ _ => some (.writing name)
  | _ => none

theorem Installs.redirection_of_ne {recordLength : Nat} {content : Option Bytes}
    {outcome : Except Fault Buffer}
    (installs : Installs session name recordLength content calls outcome after)
    (inactive : session.redirection.active? ≠ some name) :
    after.redirection = session.redirection := by
  cases installs with
  | fresh closed => rfl
  | replaced found flushed => exact Session.redirection_discard_of_ne inactive
  | refused found failed => rfl

theorem Obtains.redirection {outcome : Except Fault Buffer}
    (obtains : Obtains session name calls outcome after) :
    after.redirection = session.redirection := by
  cases obtains <;> rfl

theorem Readies.redirection {outcome : Except Fault Buffer}
    (readies : Readies session name calls outcome after) :
    after.redirection = session.redirection := by
  cases readies <;> rfl

/-- A file stays active, whatever is done to others, until another file is made active. -/
theorem Effect.redirection_of_others {operation : Operation} {outcome : Except Fault Unit}
    (effect : Effect session operation calls outcome after) (given : operation.names ≠ [])
    (absent : other ∉ operation.names) (active : session.redirection.active? = some other) :
    after.redirection = session.redirection ∨
      outcome = .ok () ∧ operation.redirection? = some after.redirection := by
  have inactive (name : Name) (member : name ∈ operation.names) :
      session.redirection.active? ≠ some name := by
    intro same
    cases active.symm.trans same
    exact absent member
  cases effect with
  | openRefused finds installs =>
    exact .inl (installs.redirection_of_ne (inactive _ List.mem_cons_self))
  | opened finds installs =>
    exact .inl (installs.redirection_of_ne (inactive _ List.mem_cons_self))
  | appendRefused finds installs =>
    exact .inl (installs.redirection_of_ne (inactive _ List.mem_cons_self))
  | appended finds installs =>
    exact .inl (installs.redirection_of_ne (inactive _ List.mem_cons_self))
  | closed found flushed =>
    exact .inl (Session.redirection_discard_of_ne (inactive _ List.mem_cons_self))
  | positionUnread obtains => exact .inl obtains.redirection
  | positionBeyond obtains beyond => exact .inl obtains.redirection
  | positioned obtains pointer number => exact .inl obtains.redirection
  | readUnready readies => exact .inl readies.redirection
  | readBeyond readies beyond => exact .inl readies.redirection
  | reading readies pointer => exact .inr ⟨rfl, rfl⟩
  | writing found pointer creates => exact .inr ⟨rfl, rfl⟩
  | closedAll perm flushed => exact absurd rfl given
  | deactivated => exact absurd rfl given
  | _ => exact .inl rfl

/-- DELETE and RENAME change stored files only. -/
theorem Effect.session_of_delete {outcome : Except Fault Unit}
    (effect : Effect session (.delete name) calls outcome after) : after = session := by
  cases effect with
  | idle relies other => cases relies
  | unmet relies same absent => cases relies
  | _ => rfl

theorem Effect.session_of_rename {target : Name} {outcome : Except Fault Unit}
    (effect : Effect session (.rename name target) calls outcome after) : after = session := by
  cases effect with
  | idle relies other => cases relies
  | unmet relies same absent => cases relies
  | _ => rfl

/-- A file that an operation is not given is open or not as it was. -/
theorem Effect.find?_of_others {operation : Operation} {outcome : Except Fault Unit}
    (consistent : session.Consistent) (effect : Effect session operation calls outcome after)
    (given : operation.names ≠ []) (absent : other ∉ operation.names) :
    after.buffers.find? other = session.buffers.find? other := by
  have differ (name : Name) (member : name ∈ operation.names) : other ≠ name := by
    rintro rfl
    exact absent member
  cases operation with
  | openFile name recordLength =>
    exact effect.find?_of_ne consistent rfl (differ name List.mem_cons_self)
  | appendFile name recordLength =>
    exact effect.find?_of_ne consistent rfl (differ name List.mem_cons_self)
  | position name records =>
    exact effect.find?_of_ne consistent rfl (differ name List.mem_cons_self)
  | read name record byte =>
    exact effect.find?_of_ne consistent rfl (differ name List.mem_cons_self)
  | write name record byte =>
    exact effect.find?_of_ne consistent rfl (differ name List.mem_cons_self)
  | close name =>
    cases effect with
    | closed found flushed =>
      rw [Session.find?_discard, if_neg (differ name List.mem_cons_self)]
    | idle relies other => cases relies
    | unmet relies same absent => cases relies
    | _ => rfl
  | delete name => rw [effect.session_of_delete]
  | rename source target => rw [effect.session_of_rename]
  | _ => exact absurd rfl given

/-- What is stored under a name that an operation is not given stays as it is. -/
theorem Effect.concern_of_others {operation : Operation} {outcome : Except Fault Unit}
    (consistent : session.Consistent) (effect : Effect session operation calls outcome after)
    (given : operation.names ≠ []) (absent : other ∉ operation.names) :
    Concern (· ≠ other) calls := by
  refine (effect.concern consistent).mono ?_
  rintro name (member | ⟨rfl, -⟩) rfl
  · exact absent member
  · exact given rfl

/-- Reading and writing characters makes no calls, and concerns the active file alone. -/
theorem Effect.of_characters {operation : Operation} {outcome : Except Fault Unit}
    (consistent : session.Consistent) (effect : Effect session operation calls outcome after)
    (characters : operation.mode? ≠ none) :
    calls = [] ∧ ∀ other, session.redirection.active? ≠ some other →
      after.buffers.find? other = session.buffers.find? other := by
  have elsewhere {name : Name} (moves : operation.file? session.redirection = some name)
      (active : session.redirection.active? = some name) :
      ∀ other, session.redirection.active? ≠ some other →
        after.buffers.find? other = session.buffers.find? other := by
    intro other inactive
    refine effect.find?_of_ne consistent moves ?_
    rintro rfl
    exact inactive active
  cases effect with
  | characterRead redirected read =>
    exact ⟨rfl, elsewhere (by rw [redirected]; rfl) (by rw [redirected]; rfl)⟩
  | lineRead redirected read =>
    exact ⟨rfl, elsewhere (by rw [redirected]; rfl) (by rw [redirected]; rfl)⟩
  | characterWritten redirected modest wrote =>
    exact ⟨rfl, elsewhere (by rw [redirected]; rfl) (by rw [redirected]; rfl)⟩
  | idle relies inactive => exact ⟨rfl, fun _ _ => rfl⟩
  | unmet relies same absent => exact ⟨rfl, fun _ _ => rfl⟩
  | characterEnd redirected ended => exact ⟨rfl, fun _ _ => rfl⟩
  | lineEnd redirected ended => exact ⟨rfl, fun _ _ => rfl⟩
  | characterRefused redirected refused => exact ⟨rfl, fun _ _ => rfl⟩
  | _ => exact absurd rfl characters

end TextFile

variable {Devices Receiver : Type} {peripherals : Peripherals Devices}
variable {held : Devices → Peripherals.Contents}

/-- Files do not disturb each other. In every session that is reached, a file that an operation is
not given stays open or not, with the same content and place, and stored or not, whatever comes of
the operation. If it is active it stays so, unless the operation succeeds in making another file
active. DELETE and RENAME change nothing in the session. Characters that are read or written change
no open file but the active one, and nothing that is stored. -/
theorem Dos.Reaches.perform_spares (separates : peripherals.Separates held) {monitor : Monitor}
    {devices : Devices} {allowed : Session → Event Receiver → Prop} {dos : Dos Devices Receiver}
    (reached : (Dos.initial monitor devices).Reaches peripherals allowed dos)
    (operation : TextFile.Operation) :
    let session := dos.machine.session
    let run := operation.perform peripherals dos.machine
    (∀ other, operation.names ≠ [] → other ∉ operation.names →
      run.2.session.buffers.find? other = session.buffers.find? other ∧
      held run.2.devices other = held dos.machine.devices other ∧
      (session.redirection.active? = some other →
        run.2.session.redirection = session.redirection ∨
          run.1 = .ok () ∧ operation.redirection? = some run.2.session.redirection)) ∧
    (∀ name, operation = .delete name → run.2.session = session) ∧
    (∀ source target, operation = .rename source target → run.2.session = session) ∧
    (operation.mode? ≠ none →
      run.2.devices = dos.machine.devices ∧
      ∀ other, session.redirection.active? ≠ some other →
        run.2.session.buffers.find? other = session.buffers.find? other) := by
  intro session run
  have consistent := reached.consistent (Session.consistent_initial monitor)
  obtain ⟨calls, after, effect, moved⟩ :=
    TextFile.perform_effect (.refl peripherals dos.machine) operation
  rw [← moved.session] at effect
  refine ⟨?_, ?_, ?_, ?_⟩
  · intro other given absent
    exact ⟨effect.find?_of_others consistent given absent,
      separates.serves moved.served (effect.concern_of_others consistent given absent),
      effect.redirection_of_others given absent⟩
  · rintro name rfl
    exact effect.session_of_delete
  · rintro source target rfl
    exact effect.session_of_rename
  · intro characters
    obtain ⟨rfl, spared⟩ := effect.of_characters consistent characters
    exact ⟨moved.served, spared⟩

/-- One file is open for writing when another one is opened once more. -/
theorem Dos.perform_spares_writing :
    let peripherals := Peripherals.inMemory .empty .none
    let start : Dos (Catalog Name Bytes) Unit := .initial .off .empty
    let opened := ((Event.file (.openFile (ascii "A") 4)).run peripherals start).2
    let writing := ((Event.file (.write (ascii "A") 2 0)).run peripherals opened).2
    let dos := ((Event.file (.openFile (ascii "B") 0)).run peripherals writing).2
    let run := (TextFile.Operation.openFile (ascii "B") 7).perform peripherals dos.machine
    run.2.session.buffers.find? (ascii "A") = dos.machine.session.buffers.find? (ascii "A") ∧
      run.2.devices.find? (ascii "A") = dos.machine.devices.find? (ascii "A") ∧
      run.2.session.redirection = .writing (ascii "A") := by
  intro peripherals start opened writing dos run
  have reached : start.Reaches peripherals (fun _ _ => True) dos :=
    ((Dos.Reaches.refl.step (.file (.openFile (ascii "A") 4)) trivial).step
      (.file (.write (ascii "A") 2 0)) trivial).step (.file (.openFile (ascii "B") 0)) trivial
  have active : dos.machine.session.redirection = .writing (ascii "A") := by decide +kernel
  -- From here on it does not matter how the system came about.
  clear_value dos
  have separates := (Peripherals.sound_inMemory .empty .none).separates
  obtain ⟨spares, -⟩ := Dos.Reaches.perform_spares separates reached (.openFile (ascii "B") 7)
  obtain ⟨buffer, stored, kept⟩ := spares (ascii "A") (by decide) (by decide)
  refine ⟨buffer, stored, ?_⟩
  rcases kept (by rw [active]; rfl) with kept | ⟨-, redirects⟩
  · exact kept.trans active
  · cases redirects

end DosText
