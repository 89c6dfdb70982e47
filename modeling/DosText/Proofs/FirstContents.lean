import DosText.Proofs.FileEffects
import DosText.Proofs.InMemory

/-! How often the first content of a name is obtained. It is asked for only where the store has
nothing for the name, and stored at once, so that it is obtained again only after the name has been
taken from the store. -/

namespace DosText

namespace Peripherals

variable {Devices Value : Type}

/-- A reply of devices that keep a list of calls: the call is noted with its outcome. -/
def noting (calls : List Call) (call : Except Storage.Failure Value → Call)
    (reply : Reply Devices Value) : Reply (Devices × List Call) Value :=
  ⟨reply.outcome, (reply.devices, calls ++ [call reply.outcome]), reply.report⟩

/-- Peripherals that keep a list of the calls that are made of them. -/
def recorded (peripherals : Peripherals Devices) : Peripherals (Devices × List Call) where
  store := {
    get := fun name devices =>
      noting devices.2 (.get name) (peripherals.store.get name devices.1)
    set := fun name content devices =>
      noting devices.2 (.set name content) (peripherals.store.set name content devices.1)
    remove := fun name devices =>
      noting devices.2 (.remove name) (peripherals.store.remove name devices.1) }
  source := {
    fetch := fun name devices =>
      noting devices.2 (.fetch name) (peripherals.source.fetch name devices.1) }
  console := {
    character := fun devices =>
      let typed := peripherals.console.character devices.1
      (typed.1, typed.2, devices.2 ++ [.character typed.1])
    line := fun prompt devices =>
      let typed := peripherals.console.line prompt devices.1
      (typed.1, typed.2, devices.2 ++ [.line prompt typed.1])
    firmware := fun active devices =>
      let switched := peripherals.console.firmware active devices.1
      ((switched.1, devices.2 ++ [.firmware active]), switched.2)
    deferred := peripherals.console.deferred }

variable {peripherals : Peripherals Devices} {held : Devices → Contents} {first : Contents}

/-- What is recorded has no part in what a store holds. -/
theorem Sound.recorded (sound : peripherals.Sound held) :
    peripherals.recorded.Sound fun devices => held devices.1 where
  got := fun name devices => sound.got name devices.1
  get := fun name devices => sound.get name devices.1
  set := fun name content devices => sound.set name content devices.1
  setFailed := fun name content devices => sound.setFailed name content devices.1
  remove := fun name devices => sound.remove name devices.1
  removeFailed := fun name devices => sound.removeFailed name devices.1
  fetch := fun name devices => sound.fetch name devices.1
  character := fun devices => sound.character devices.1
  line := fun prompt devices => sound.line prompt devices.1
  firmware := fun active devices => sound.firmware active devices.1

theorem Durable.recorded (durable : peripherals.Durable held) :
    peripherals.recorded.Durable fun devices => held devices.1 where
  toSound := durable.toSound.recorded
  gets := fun name devices => durable.gets name devices.1
  sets := fun name content devices => durable.sets name content devices.1
  removes := fun name devices => durable.removes name devices.1

/-- Every call that is made is recorded, and nothing else. -/
theorem Serves.recorded {calls : List Call} {devices last : Devices × List Call}
    (served : peripherals.recorded.Serves calls devices last) : last.2 = devices.2 ++ calls := by
  induction calls generalizing devices with
  | nil =>
    cases served
    rw [List.append_nil]
  | cons call rest ih =>
    obtain ⟨ended, others⟩ := served
    have noted : (peripherals.recorded.after devices call).2 = devices.2 ++ [call] := by
      cases call <;> cases ended <;> rfl
    rw [ih others, noted, List.append_assoc, List.singleton_append]

/-- First content is obtained only where the store has none for the name, and is stored at once. -/
def Call.IsThrifty (held : Contents) (rest : List Call) : Call → Prop
  | .fetch name (.ok (some content)) =>
    held name = none ∧ rest.head? = some (.set name content (.ok ()))
  | _ => True

/-- Whether this is so each time that first content is obtained. -/
def Thrifty : Contents → List Call → Prop
  | _, [] => True
  | held, call :: rest => call.IsThrifty held rest ∧ Thrifty (call.apply held) rest

section Thrifty

variable {stored : Contents} {begun ended calls : List Call} {name : Name}

theorem Thrifty.append (before : Thrifty stored begun)
    (behind : Thrifty (applyAll begun stored) ended) : Thrifty stored (begun ++ ended) := by
  induction begun generalizing stored with
  | nil => exact behind
  | cons call rest ih =>
    refine ⟨?_, ih before.2 behind⟩
    have here := before.1
    cases call with
    | fetch name outcome =>
      rcases outcome with failure | _ | content
      · trivial
      · trivial
      · refine ⟨here.1, ?_⟩
        show (rest ++ ended).head? = _
        rw [List.head?_append, here.2, Option.some_or]
    | _ => trivial

theorem Thrifty.drop (thrifty : Thrifty stored (begun ++ ended)) :
    Thrifty (applyAll begun stored) ended := by
  induction begun generalizing stored with
  | nil => exact thrifty
  | cons call rest ih => exact ih thrifty.2

/-- What a store has no longer, has been taken from it. -/
theorem remove_mem_of_applyAll (present : stored name ≠ none)
    (absent : applyAll calls stored name = none) : .remove name (.ok ()) ∈ calls := by
  induction calls generalizing stored with
  | nil => exact absurd absent present
  | cons call rest ih =>
    by_cases removes : call = .remove name (.ok ())
    · exact removes ▸ List.mem_cons_self
    · refine List.mem_cons_of_mem call (ih ?_ absent)
      cases call with
      | set other content outcome =>
        rcases outcome with failure | done
        · exact present
        · show Function.update stored other (some content) name ≠ none
          rw [Function.update_apply]
          split
          · simp
          · exact present
      | remove other outcome =>
        rcases outcome with failure | done
        · exact present
        · have differ : name ≠ other := fun same => removes (same ▸ rfl)
          show Function.update stored other none name ≠ none
          rwa [Function.update_of_ne differ]
      | _ => exact present

/-- Between two times that the first content of a name is obtained, the name is taken from the
store. -/
theorem Thrifty.remove_mem {before between behind : List Call} {content again : Bytes}
    (thrifty : Thrifty stored (before ++ .fetch name (.ok (some content)) ::
      (between ++ .fetch name (.ok (some again)) :: behind))) :
    .remove name (.ok ()) ∈ between := by
  have stores (held : Contents) : (Call.set name content (.ok ())).apply held name ≠ none := by
    rw [Call.apply, Function.update_self]
    exact Option.some_ne_none content
  obtain ⟨⟨_, storing⟩, later⟩ := thrifty.drop
  cases between with
  | nil => cases storing
  | cons call rest =>
    cases storing
    obtain ⟨-, later⟩ := later
    obtain ⟨⟨absent, _⟩, -⟩ := later.drop
    exact List.mem_cons_of_mem _ (remove_mem_of_applyAll (stores _) absent)

/-- Calls that obtain first content only where there is none, and take only these names from the
store. -/
structure Careful (stored : Contents) (allowed : Name → Prop) (calls : List Call) : Prop where
  thrifty : Thrifty stored calls
  removed : ∀ name outcome, .remove name outcome ∈ calls → allowed name

variable {allowed : Name → Prop}

theorem careful_nil : Careful stored allowed [] := ⟨trivial, by simp⟩

theorem Careful.append (before : Careful stored allowed begun)
    (behind : Careful (applyAll begun stored) allowed ended) :
    Careful stored allowed (begun ++ ended) where
  thrifty := before.thrifty.append behind.thrifty
  removed := by
    intro name outcome member
    rcases List.mem_append.mp member with among | among
    · exact before.removed name outcome among
    · exact behind.removed name outcome among

/-- Calls of the console concern no files. -/
theorem careful_of_elsewhere (elsewhere : ∀ call ∈ calls, ¬call.IsOfFiles) :
    Careful stored allowed calls := by
  induction calls generalizing stored with
  | nil => exact careful_nil
  | cons call rest ih =>
    have here := elsewhere call List.mem_cons_self
    have alone : Careful stored allowed [call] := by
      cases call with
      | character typed => exact ⟨⟨trivial, trivial⟩, by simp⟩
      | line prompt typed => exact ⟨⟨trivial, trivial⟩, by simp⟩
      | firmware active => exact ⟨⟨trivial, trivial⟩, by simp⟩
      | _ => exact absurd trivial here
    exact alone.append (ih fun other member => elsewhere other (List.mem_cons_of_mem call member))

end Thrifty

end Peripherals

open Peripherals (Careful Contents careful_nil careful_of_elsewhere)

variable {Devices Receiver : Type} {peripherals : Peripherals Devices} {stored : Contents}
variable {held : Devices → Contents} {calls : List Peripherals.Call} {devices last : Devices}
variable {allowed : Name → Prop}

namespace TextFile

variable {session after : Session} {name : Name} {buffer : Buffer} {outcome : Except Fault Unit}

theorem Loads.careful (durable : peripherals.Durable held) {found : Except Fault (Option Bytes)}
    (loads : Loads name calls found) (served : peripherals.Serves calls devices last) :
    Careful (held devices) allowed calls := by
  cases loads with
  | stored content => exact ⟨⟨trivial, trivial⟩, by simp⟩
  | absent => exact ⟨⟨trivial, trivial, trivial⟩, by simp⟩
  | seeded content =>
    have absent : held devices name = none := (durable.got name devices none served.1).symm
    exact ⟨⟨trivial, ⟨absent, rfl⟩, trivial, trivial⟩, by simp⟩
  | unread failure => exact ⟨⟨trivial, trivial⟩, by simp⟩
  | unfetched failure => exact ⟨⟨trivial, trivial, trivial⟩, by simp⟩
  | unstored content failure =>
    obtain ⟨_, _, refused, _⟩ := served
    cases (durable.sets name content _).symm.trans refused

theorem Flushes.careful (flushes : Flushes buffer calls outcome) :
    Careful stored allowed calls := by
  cases flushes with
  | empty none => exact careful_nil
  | stored some => exact ⟨⟨trivial, trivial⟩, by simp⟩
  | refused some failure => exact ⟨⟨trivial, trivial⟩, by simp⟩

theorem FlushesAll.careful {buffers : List Buffer} (flushes : FlushesAll buffers calls outcome) :
    Careful stored allowed calls := by
  induction flushes generalizing stored with
  | nil => exact careful_nil
  | cons flushed others ih => exact flushed.careful.append ih
  | refused failed => exact failed.careful

theorem Creates.careful {created : Except Fault PackedBytes}
    (creates : Creates buffer calls created) : Careful stored allowed calls := by
  cases creates with
  | kept some => exact careful_nil
  | created none => exact ⟨⟨trivial, trivial⟩, by simp⟩
  | refused none failure => exact ⟨⟨trivial, trivial⟩, by simp⟩

theorem Finds.careful (durable : peripherals.Durable held) {found : Except Fault (Option Bytes)}
    (finds : Finds session name calls found) (served : peripherals.Serves calls devices last) :
    Careful (held devices) allowed calls := by
  cases finds with
  | opened found => exact careful_nil
  | loaded closed loads => exact loads.careful durable served

theorem Installs.careful {recordLength : Nat} {content : Option Bytes}
    {installed : Except Fault Buffer}
    (installs : Installs session name recordLength content calls installed after) :
    Careful stored allowed calls := by
  cases installs with
  | fresh closed => exact careful_nil
  | replaced opened flushed => exact flushed.careful
  | refused opened failed => exact failed.careful

/-- A file is found, and opened then. -/
theorem Finds.installs_careful (durable : peripherals.Durable held) {more : List Peripherals.Call}
    {recordLength : Nat} {content : Option Bytes} {found : Except Fault (Option Bytes)}
    {installed : Except Fault Buffer} (finds : Finds session name calls found)
    (installs : Installs session name recordLength content more installed after)
    (served : peripherals.Serves (calls ++ more) devices last) :
    Careful (held devices) allowed (calls ++ more) := by
  obtain ⟨between, finding, _⟩ := served.split
  exact (finds.careful durable finding).append installs.careful

theorem Obtains.careful (durable : peripherals.Durable held) {obtained : Except Fault Buffer}
    (obtains : Obtains session name calls obtained after)
    (served : peripherals.Serves calls devices last) : Careful (held devices) allowed calls := by
  cases obtains with
  | opened found => exact careful_nil
  | loaded closed loads => exact loads.careful durable served
  | unread closed loads => exact loads.careful durable served

theorem Readies.careful (durable : peripherals.Durable held) {ready : Except Fault Buffer}
    (readies : Readies session name calls ready after)
    (served : peripherals.Serves calls devices last) : Careful (held devices) allowed calls := by
  cases readies with
  | opened found some => exact careful_nil
  | empty found none => exact careful_nil
  | loaded closed loads => exact loads.careful durable served
  | absent closed loads => exact loads.careful durable served
  | unread closed loads => exact loads.careful durable served

/-- The names that an operation may take from the store. -/
def Operation.Removes : Operation → Name → Prop
  | .delete name, other => other = name
  | .rename source target, other => other = source ∧ source ≠ target
  | _, _ => False

/-- Whatever an operation does, first content is obtained only where there is none and is stored at
once; and only a DELETE and a RENAME take a name from the store. -/
theorem Effect.careful (durable : peripherals.Durable held) {operation : Operation}
    (effect : Effect session operation calls outcome after)
    (served : peripherals.Serves calls devices last) :
    Careful (held devices) operation.Removes calls := by
  cases effect with
  | openUnread finds => exact finds.careful durable served
  | openRefused finds installs => exact finds.installs_careful durable installs served
  | opened finds installs => exact finds.installs_careful durable installs served
  | appendUnread finds => exact finds.careful durable served
  | appendAbsent finds => exact finds.careful durable served
  | appendRefused finds installs => exact finds.installs_careful durable installs served
  | appended finds installs => exact finds.installs_careful durable installs served
  | closeRefused found failed => exact failed.careful
  | closed found flushed => exact flushed.careful
  | closeAllRefused perm failed => exact failed.careful
  | closedAll perm flushed => exact flushed.careful
  | positionUnread obtains => exact obtains.careful durable served
  | positionBeyond obtains beyond => exact obtains.careful durable served
  | positioned obtains pointer number => exact obtains.careful durable served
  | readUnready readies => exact readies.careful durable served
  | readBeyond readies beyond => exact readies.careful durable served
  | reading readies pointer => exact readies.careful durable served
  | writeRefused found pointer failed => exact failed.careful
  | writing found pointer creates => exact creates.careful
  | deleteUnread failure => exact ⟨⟨trivial, trivial⟩, by simp⟩
  | deleteAbsent => exact ⟨⟨trivial, trivial⟩, by simp⟩
  | deleteRefused content failure =>
    exact ⟨⟨trivial, trivial, trivial⟩, by simp [Operation.Removes]⟩
  | deleted content => exact ⟨⟨trivial, trivial, trivial⟩, by simp [Operation.Removes]⟩
  | renameUnread failure => exact ⟨⟨trivial, trivial⟩, by simp⟩
  | renameAbsent => exact ⟨⟨trivial, trivial⟩, by simp⟩
  | renameSame content same => exact ⟨⟨trivial, trivial⟩, by simp⟩
  | renameRefused content differ failure => exact ⟨⟨trivial, trivial, trivial⟩, by simp⟩
  | renameHalf content differ failure =>
    exact ⟨⟨trivial, trivial, trivial, trivial⟩, by simp [Operation.Removes, differ]⟩
  | renamed content differ =>
    exact ⟨⟨trivial, trivial, trivial, trivial⟩, by simp [Operation.Removes, differ]⟩
  | _ => exact careful_nil

end TextFile

/-- The names that an event may take from the store. -/
def Event.Removes (event : Event Receiver) (session : Session) (name : Name) : Prop :=
  ∃ operation, event.operation? session = some operation ∧ operation.Removes name

theorem Event.Effect.careful {session after : Session} {event : Event Receiver}
    {outcome : Except Fault Unit} (durable : peripherals.Durable held)
    (effect : event.Effect session calls outcome after)
    (served : peripherals.Serves calls devices last) :
    Careful (held devices) (event.Removes session) calls := by
  cases effect with
  | operated operates typed effect =>
    have careful := effect.careful durable served
    refine ⟨careful.thrifty, ?_⟩
    intro name outcome member
    exact ⟨_, operates, careful.removed name outcome member⟩
  | aside idle keeps elsewhere buffers active mode typed => exact careful_of_elsewhere elsewhere
  | discarded monitor idle discards => exact careful_nil

/-- A whole run obtains first content only where there is none and stores it at once, and takes
only those names from the store that its events take. -/
theorem Dos.Reaches.careful {start dos : Dos Devices Receiver}
    {permitted : Session → Event Receiver → Prop} (durable : peripherals.Durable held)
    (reached : start.Reaches peripherals permitted dos) (allowed : Name → Prop)
    (removes : ∀ session event name, permitted session event → event.Removes session name →
      allowed name) :
    ∃ calls, peripherals.Serves calls start.machine.devices dos.machine.devices ∧
      Careful (held start.machine.devices) allowed calls := by
  induction reached with
  | refl => exact ⟨[], rfl, careful_nil⟩
  | @step dos reached event fits ih =>
    obtain ⟨before, begun, known⟩ := ih
    obtain ⟨calls, effect, served⟩ := event.run_effect peripherals dos
    have careful := effect.careful durable served
    refine ⟨before ++ calls, begun.append served, known.append ?_⟩
    rw [← durable.toSound.serves begun]
    refine ⟨careful.thrifty, ?_⟩
    intro name outcome member
    exact removes _ event name fits (careful.removed name outcome member)

namespace Peripherals

/-- Whether a call obtains the first content of a name. -/
def Call.Obtains (name : Name) : Call → Bool
  | .fetch other (.ok (some _)) => other == name
  | _ => false

/-- First content that is obtained twice is obtained again behind the first time. -/
theorem exists_obtained_twice {history : List Call} {name : Name}
    (twice : 1 < history.countP (·.Obtains name)) :
    ∃ before between behind first again,
      history = before ++ .fetch name (.ok (some first)) ::
        (between ++ .fetch name (.ok (some again)) :: behind) := by
  have fetched {call : Call} (obtains : call.Obtains name = true) :
      ∃ content, call = .fetch name (.ok (some content)) := by
    cases call with
    | fetch other outcome =>
      rcases outcome with failure | _ | content
      · cases obtains
      · cases obtains
      · exact ⟨content, by rw [eq_of_beq obtains]⟩
    | _ => cases obtains
  rw [List.countP_eq_length_filter] at twice
  cases obtained : history.filter (·.Obtains name) with
  | nil => simp [obtained] at twice
  | cons earlier rest =>
    cases rest with
    | nil => simp [obtained] at twice
    | cons later others =>
      obtain ⟨before, tail, split, -, here, remaining⟩ := List.filter_eq_cons_iff.mp obtained
      obtain ⟨between, behind, rejoined, -, there, -⟩ := List.filter_eq_cons_iff.mp remaining
      obtain ⟨first, rfl⟩ := fetched here
      obtain ⟨again, rfl⟩ := fetched there
      exact ⟨before, between, behind, first, again, by rw [split, rejoined]⟩

end Peripherals

/-- Between two times that the first content of a name is obtained, the name is taken from the
store, in every run over a store that does not fail, whatever the source has. Only a DELETE of the
name and a RENAME of it to another take it from there: where there is none of these, its first
content is obtained at most once. -/
theorem Dos.Reaches.fetched_again (durable : peripherals.Durable held) {monitor : Monitor}
    {dos : Dos (Devices × List Peripherals.Call) Receiver}
    (reached : (Dos.initial monitor (devices, [])).Reaches peripherals.recorded
      (fun _ _ => True) dos) (name : Name) :
    let history := dos.machine.devices.2
    (∀ before between behind first again,
      history = before ++ .fetch name (.ok (some first)) ::
        (between ++ .fetch name (.ok (some again)) :: behind) →
      .remove name (.ok ()) ∈ between) ∧
    ((Dos.initial monitor (devices, [])).Reaches peripherals.recorded
      (fun session event => ¬event.Removes session name) dos →
      history.countP (·.Obtains name) ≤ 1) := by
  intro history
  have apart : ∀ before between behind first again,
      history = before ++ .fetch name (.ok (some first)) ::
        (between ++ .fetch name (.ok (some again)) :: behind) →
      .remove name (.ok ()) ∈ between := by
    intro before between behind first again split
    obtain ⟨calls, served, careful⟩ :=
      reached.careful durable.recorded (fun _ => True) fun _ _ _ _ _ => trivial
    have recorded : history = calls := served.recorded
    rw [← recorded, split] at careful
    exact careful.thrifty.remove_mem
  refine ⟨apart, ?_⟩
  intro spared
  obtain ⟨calls, served, careful⟩ := spared.careful durable.recorded (· ≠ name)
    fun session event other spares removes same => spares (same ▸ removes)
  have recorded : history = calls := served.recorded
  by_contra more
  obtain ⟨before, between, behind, first, again, split⟩ :=
    Peripherals.exists_obtained_twice (Nat.lt_of_not_le more)
  have member : Peripherals.Call.remove name (.ok ()) ∈ calls := by
    rw [← recorded, split]
    simp [apart before between behind first again split]
  exact careful.removed name _ member rfl

/-- A file that is opened, closed, deleted and opened again: its first content is obtained twice. -/
theorem Dos.fetched_again_deleted :
    let name := ascii "A"
    let source := Catalog.empty.insert name (ascii "x")
    let peripherals := (Peripherals.inMemory source .none).recorded
    let start : Dos (Catalog Name Bytes × List Peripherals.Call) Unit := .initial .off (.empty, [])
    let opened := ((Event.file (.openFile name 0)).run peripherals start).2
    let closed := ((Event.file (.close name)).run peripherals opened).2
    let deleted := ((Event.file (.delete name)).run peripherals closed).2
    let reopened := ((Event.file (.openFile name 0)).run peripherals deleted).2
    closed.machine.devices.2.countP (·.Obtains name) ≤ 1 ∧
      reopened.machine.devices.2.countP (·.Obtains name) = 2 ∧
      .remove name (.ok ()) ∈ reopened.machine.devices.2 := by
  intro name source peripherals start opened closed deleted reopened
  have durable := (Peripherals.reliable_inMemory source).durable
  have begun : start.Reaches peripherals (fun session event => ¬event.Removes session name)
      closed := by
    refine (Reaches.refl.step (.file (.openFile name 0)) ?_).step (.file (.close name)) ?_
    · rintro ⟨_, ⟨⟩, removes⟩
      exact removes
    · rintro ⟨_, ⟨⟩, removes⟩
      exact removes
  have anyhow : start.Reaches peripherals (fun _ _ => True) closed :=
    (Reaches.refl.step (.file (.openFile name 0)) trivial).step (.file (.close name)) trivial
  have reached : start.Reaches peripherals (fun _ _ => True) reopened :=
    (anyhow.step (.file (.delete name)) trivial).step (.file (.openFile name 0)) trivial
  have once := (Dos.Reaches.fetched_again durable anyhow name).2 begun
  have split : reopened.machine.devices.2 =
      [.get name (.ok none)] ++ .fetch name (.ok (some (ascii "x"))) ::
        ([.set name (ascii "x") (.ok ()), .set name (ascii "x") (.ok ()),
          .get name (.ok (some (ascii "x"))), .remove name (.ok ()), .get name (.ok none)] ++
        .fetch name (.ok (some (ascii "x"))) :: [.set name (ascii "x") (.ok ())]) := by
    decide +kernel
  have between := (Dos.Reaches.fetched_again durable reached name).1 _ _ _ _ _ split
  have twice : reopened.machine.devices.2.countP (·.Obtains name) = 2 := by decide +kernel
  refine ⟨once, twice, ?_⟩
  rw [split]
  exact List.mem_append_right _ (List.mem_cons_of_mem _ (List.mem_append_left _ between))

end DosText
