import DosText.Proofs.CommandGrammar
import DosText.Proofs.Consistency

/-! Which names the store and the source are asked for. An operation concerns the names that it is
given, and those of open files if it closes all of them; a file that is open was open before or is
one of the names given. So a whole run concerns no other names than its operations were given, and
command lines never give the empty name. -/

namespace DosText

namespace Peripherals

/-- The name that a call of the store or of the source concerns. -/
@[simp] def Call.name? : Call → Option Name
  | .get name _ => some name
  | .set name _ _ => some name
  | .remove name _ => some name
  | .fetch name _ => some name
  | _ => none

/-- Whether calls concern only names of a kind. -/
def Concern (proper : Name → Prop) (calls : List Call) : Prop :=
  ∀ call ∈ calls, ∀ name, call.name? = some name → proper name

variable {proper wider : Name → Prop} {calls begun ended : List Call}

theorem concern_nil : Concern proper [] := by simp [Concern]

theorem Concern.append (before : Concern proper begun) (behind : Concern proper ended) :
    Concern proper (begun ++ ended) := by
  intro call member
  rcases List.mem_append.mp member with among | among
  · exact before call among
  · exact behind call among

theorem Concern.mono (concern : Concern proper calls)
    (follows : ∀ name, proper name → wider name) : Concern wider calls :=
  fun call member name named => follows name (concern call member name named)

/-- Calls of the console concern no name. -/
theorem concern_of_elsewhere (elsewhere : ∀ call ∈ calls, ¬call.IsOfFiles) :
    Concern proper calls := by
  intro call member name named
  cases call with
  | character typed => cases named
  | line prompt typed => cases named
  | firmware active => cases named
  | _ => exact absurd trivial (elsewhere _ member)

end Peripherals

open Peripherals (Concern concern_nil concern_of_elsewhere)

namespace TextFile

variable {session after : Session} {name other : Name} {calls : List Peripherals.Call}
variable {buffer : Buffer}

/-- The names that an operation is given. -/
@[simp] def Operation.names : Operation → List Name
  | .openFile name _ => [name]
  | .appendFile name _ => [name]
  | .close name => [name]
  | .position name _ => [name]
  | .read name _ _ => [name]
  | .write name _ _ => [name]
  | .delete name => [name]
  | .rename source target => [source, target]
  | _ => []

/-- The names that an operation concerns in a session. -/
def Operation.Concerns (session : Session) (operation : Operation) (name : Name) : Prop :=
  name ∈ operation.names ∨
    operation = .closeAll ∧ ∃ buffer, session.buffers.find? name = some buffer

theorem Loads.concern {outcome : Except Fault (Option Bytes)} (loads : Loads name calls outcome) :
    Concern (· = name) calls := by
  cases loads <;> simp [Concern]

theorem Flushes.concern {outcome : Except Fault Unit} (flushes : Flushes buffer calls outcome) :
    Concern (· = buffer.name) calls := by
  cases flushes <;> simp [Concern]

theorem FlushesAll.concern {buffers : List Buffer} {outcome : Except Fault Unit}
    (flushes : FlushesAll buffers calls outcome) :
    Concern (fun name => ∃ buffer ∈ buffers, name = buffer.name) calls := by
  induction flushes with
  | nil => exact concern_nil
  | cons flushed others ih =>
    refine Concern.append (flushed.concern.mono ?_) (ih.mono ?_)
    · intro name same
      exact ⟨_, List.mem_cons_self, same⟩
    · rintro name ⟨later, member, same⟩
      exact ⟨later, List.mem_cons_of_mem _ member, same⟩
  | refused failed => exact failed.concern.mono fun name same => ⟨_, List.mem_cons_self, same⟩

theorem Creates.concern {outcome : Except Fault PackedBytes}
    (creates : Creates buffer calls outcome) : Concern (· = buffer.name) calls := by
  cases creates <;> simp [Concern]

theorem Finds.concern {outcome : Except Fault (Option Bytes)}
    (finds : Finds session name calls outcome) : Concern (· = name) calls := by
  cases finds with
  | opened found => exact concern_nil
  | loaded closed loads => exact loads.concern

theorem Installs.concern (consistent : session.Consistent) {recordLength : Nat}
    {content : Option Bytes} {outcome : Except Fault Buffer}
    (installs : Installs session name recordLength content calls outcome after) :
    Concern (· = name) calls := by
  cases installs with
  | fresh closed => exact concern_nil
  | replaced found flushed =>
    exact flushed.concern.mono fun other same => same.trans (consistent.named name _ found)
  | refused found failed =>
    exact failed.concern.mono fun other same => same.trans (consistent.named name _ found)

theorem Obtains.concern {outcome : Except Fault Buffer}
    (obtains : Obtains session name calls outcome after) : Concern (· = name) calls := by
  cases obtains with
  | opened found => exact concern_nil
  | loaded closed loads => exact loads.concern
  | unread closed loads => exact loads.concern

theorem Readies.concern {outcome : Except Fault Buffer}
    (readies : Readies session name calls outcome after) : Concern (· = name) calls := by
  cases readies with
  | opened found present => exact concern_nil
  | empty found absent => exact concern_nil
  | loaded closed loads => exact loads.concern
  | absent closed loads => exact loads.concern
  | unread closed loads => exact loads.concern

/-- What concerns the only name that an operation is given concerns a name that it is given. -/
theorem given {operation : Operation} (concern : Concern (· = name) calls)
    (member : name ∈ operation.names) : Concern (operation.Concerns session) calls :=
  concern.mono fun _ same => .inl (same ▸ member)

/-- Storing all open files concerns their names. -/
theorem FlushesAll.concern_entries (consistent : session.Consistent) {visited : List Buffer}
    {outcome : Except Fault Unit} (flushes : FlushesAll visited calls outcome)
    (perm : visited.Perm (session.buffers.entries.map Prod.snd)) :
    Concern (Operation.closeAll.Concerns session) calls := by
  refine flushes.concern.mono ?_
  rintro name ⟨buffer, member, rfl⟩
  exact .inr ⟨rfl, _, Session.find?_of_listed consistent.named (perm.mem_iff.mp member)⟩

/-- The store and the source are only asked for names that an operation concerns. -/
theorem Effect.concern (consistent : session.Consistent) {operation : Operation}
    {outcome : Except Fault Unit} (effect : Effect session operation calls outcome after) :
    Concern (operation.Concerns session) calls := by
  cases effect with
  | openUnread finds => exact given finds.concern List.mem_cons_self
  | openRefused finds installs =>
    exact given (finds.concern.append (installs.concern consistent)) List.mem_cons_self
  | opened finds installs =>
    exact given (finds.concern.append (installs.concern consistent)) List.mem_cons_self
  | appendUnread finds => exact given finds.concern List.mem_cons_self
  | appendAbsent finds => exact given finds.concern List.mem_cons_self
  | appendRefused finds installs =>
    exact given (finds.concern.append (installs.concern consistent)) List.mem_cons_self
  | appended finds installs =>
    exact given (finds.concern.append (installs.concern consistent)) List.mem_cons_self
  | closeRefused found failed =>
    have own := consistent.named _ _ found
    exact given (own ▸ failed.concern) List.mem_cons_self
  | closed found flushed =>
    have own := consistent.named _ _ found
    exact given (own ▸ flushed.concern) List.mem_cons_self
  | closeAllRefused perm failed => exact failed.concern_entries consistent perm
  | closedAll perm flushed => exact flushed.concern_entries consistent perm
  | positionUnread obtains => exact given obtains.concern List.mem_cons_self
  | positionBeyond obtains beyond => exact given obtains.concern List.mem_cons_self
  | positioned obtains pointer number => exact given obtains.concern List.mem_cons_self
  | readUnready readies => exact given readies.concern List.mem_cons_self
  | readBeyond readies beyond => exact given readies.concern List.mem_cons_self
  | reading readies pointer => exact given readies.concern List.mem_cons_self
  | writeRefused found pointer failed =>
    have own := consistent.named _ _ found
    exact given (own ▸ failed.concern) List.mem_cons_self
  | writing found pointer creates =>
    have own := consistent.named _ _ found
    exact given (own ▸ creates.concern) List.mem_cons_self
  | deleteUnread failure => simp [Concern, Operation.Concerns]
  | deleteAbsent => simp [Concern, Operation.Concerns]
  | deleteRefused content failure => simp [Concern, Operation.Concerns]
  | deleted content => simp [Concern, Operation.Concerns]
  | renameUnread failure => simp [Concern, Operation.Concerns]
  | renameAbsent => simp [Concern, Operation.Concerns]
  | renameSame content same => simp [Concern, Operation.Concerns]
  | renameRefused content differ failure => simp [Concern, Operation.Concerns]
  | renameHalf content differ failure => simp [Concern, Operation.Concerns]
  | renamed content differ => simp [Concern, Operation.Concerns]
  | _ => exact concern_nil

/-- Whether each open file of a session was open in an earlier one, or has one of some names. -/
def Within (session : Session) (names : List Name) (after : Session) : Prop :=
  ∀ name buffer, after.buffers.find? name = some buffer →
    name ∈ names ∨ ∃ before, session.buffers.find? name = some before

section Within

variable {names : List Name} {changed : Buffer}

theorem within_refl (session : Session) (names : List Name) : Within session names session :=
  fun _ buffer found => .inr ⟨buffer, found⟩

theorem Within.keep (within : Within session names after) (member : changed.name ∈ names) :
    Within session names (after.keep changed) := by
  intro name buffer found
  rw [Session.find?_keep] at found
  split at found
  · next same => exact .inl (same ▸ member)
  · exact within name buffer found

/-- A file that is changed is open already. -/
theorem Within.change (within : Within session names after)
    (found : after.buffers.find? changed.name = some buffer) :
    Within session names (after.keep changed) := by
  intro name other kept
  rw [Session.find?_keep] at kept
  split at kept
  · next same => exact within name buffer (same ▸ found)
  · exact within name other kept

theorem Within.discard (within : Within session names after) (discarded : Name) :
    Within session names (after.discard discarded) := by
  intro name buffer found
  rw [Session.find?_discard] at found
  split at found
  · cases found
  · exact within name buffer found

theorem Installs.within {recordLength : Nat} {content : Option Bytes}
    {outcome : Except Fault Buffer}
    (installs : Installs session name recordLength content calls outcome after) :
    Within session [name] after := by
  cases installs with
  | fresh closed => exact (within_refl session _).keep List.mem_cons_self
  | replaced found flushed =>
    exact ((within_refl session _).discard name).keep List.mem_cons_self
  | refused found failed => exact within_refl session _

theorem Obtains.within {outcome : Except Fault Buffer}
    (obtains : Obtains session name calls outcome after) : Within session [name] after := by
  cases obtains with
  | loaded closed loads => exact (within_refl session _).keep List.mem_cons_self
  | _ => exact within_refl session _

theorem Readies.within {outcome : Except Fault Buffer}
    (readies : Readies session name calls outcome after) : Within session [name] after := by
  cases readies with
  | loaded closed loads => exact (within_refl session _).keep List.mem_cons_self
  | _ => exact within_refl session _

end Within

/-- A file that is open after an operation was open before, or is one that it was given. -/
theorem Effect.within (consistent : session.Consistent) {operation : Operation}
    {outcome : Except Fault Unit} (effect : Effect session operation calls outcome after) :
    Within session operation.names after := by
  cases effect with
  | openRefused finds installs => exact installs.within
  | opened finds installs => exact installs.within
  | appendRefused finds installs => exact installs.within
  | appended finds installs =>
    obtain ⟨rfl, found⟩ := installs.found
    exact installs.within.change found
  | closed found flushed => exact (within_refl session _).discard _
  | closedAll perm flushed =>
    intro name buffer found
    cases found
  | positionUnread obtains => exact obtains.within
  | positionBeyond obtains beyond => exact obtains.within
  | @positioned name _ _ buffer _ obtains pointer number =>
    have own := (obtains.consistent consistent).named name buffer obtains.found
    exact obtains.within.keep (own ▸ List.mem_cons_self)
  | readUnready readies => exact readies.within
  | readBeyond readies beyond => exact readies.within
  | @reading name _ _ _ buffer _ readies pointer =>
    have own := (readies.consistent consistent).named name buffer readies.found.1
    exact readies.within.keep (own ▸ List.mem_cons_self)
  | @writing name _ _ buffer _ _ found pointer creates =>
    have own := consistent.named name buffer found
    exact (within_refl session _).keep (own ▸ List.mem_cons_self)
  | characterRead redirected read =>
    obtain ⟨before, found, same⟩ := readByte_keeps read
    rw [same]
    exact (within_refl session _).change (consistent.named _ before found ▸ found)
  | lineRead redirected read =>
    obtain ⟨before, found, same⟩ := readLine_keeps read
    rw [same]
    exact (within_refl session _).change (consistent.named _ before found ▸ found)
  | characterWritten redirected modest wrote =>
    obtain ⟨before, found, present, same⟩ := writeByte_keeps wrote
    rw [same]
    exact (within_refl session _).change (consistent.named _ before found ▸ found)
  | _ => exact within_refl session _

end TextFile

namespace Command

theorem IsRequiredName.ne_nil {name : Name} (required : IsRequiredName name) : name ≠ [] := by
  rcases required with rfl | ⟨some, -⟩
  · exact List.cons_ne_nil _ _
  · exact some

/-- Whether the names of a command are there. Only CLOSE can go without one. -/
def NamesFiles : Command → Prop
  | .named _ name _ => name ≠ []
  | .rename source target _ => source ≠ [] ∧ target ≠ []
  | _ => True

theorem namesFiles_of_read {line : Bytes} {command : Command}
    (parsed : read line = .ok command) : command.NamesFiles := by
  have well := wellFormed_of_read parsed
  cases command with
  | named verb name tail => exact well.1.ne_nil
  | rename source target tail => exact ⟨well.1.ne_nil, well.2.1.ne_nil⟩
  | _ => trivial

/-- A command with one name orders an operation on that name. -/
theorem names_of_orderOfNamed {verb : Verb} {name : Name} {tail : Bytes}
    {operation : TextFile.Operation}
    (ordered : orderOfNamed verb name tail = .ok (.file operation)) : operation.names = [name] := by
  cases verb with
  | slot =>
    obtain ⟨given, _, chosen⟩ := exists_of_bind_eq_ok ordered
    simp only [orderOfSlot] at chosen
    split at chosen <;> cases chosen
  | _ =>
    obtain ⟨given, _, same⟩ := exists_of_bind_eq_ok ordered
    cases same
    rfl

/-- No command line orders anything of the empty name: CLOSE without a name closes all files. -/
theorem ne_nil_of_operation? {line : Bytes} {operation : TextFile.Operation}
    (comes : operation? line = some operation) : ∀ name ∈ operation.names, name ≠ [] := by
  unfold operation? at comes
  split at comes
  · next ordered fits =>
    cases comes
    obtain ⟨command, parsed, orders⟩ := exists_of_bind_eq_ok fits
    have present := namesFiles_of_read parsed
    cases command with
    | empty =>
      cases orders
      simp
    | monitor tail =>
      obtain ⟨given, _, same⟩ := exists_of_bind_eq_ok orders
      cases same
    | noMonitor tail =>
      obtain ⟨given, _, same⟩ := exists_of_bind_eq_ok orders
      cases same
    | named verb name tail =>
      rw [names_of_orderOfNamed orders]
      simpa [NamesFiles] using present
    | close name tail =>
      obtain ⟨given, _, same⟩ := exists_of_bind_eq_ok orders
      cases same
      split
      · simp
      · next nonempty => simpa using nonempty
    | rename source target tail =>
      obtain ⟨given, _, same⟩ := exists_of_bind_eq_ok orders
      cases same
      simpa [NamesFiles] using present
  · cases comes

end Command

variable {Devices Receiver : Type} {peripherals : Peripherals Devices} {proper : Name → Prop}

/-- Whether an operation that an event comes down to is given only names of a kind. -/
def Event.Names (proper : Name → Prop) (event : Event Receiver) (session : Session) : Prop :=
  ∀ operation, event.operation? session = some operation → ∀ name ∈ operation.names, proper name

/-- Whatever is done from command lines and at the terminal is given only names that are there. -/
theorem Event.names_ne_nil {event : Event Receiver} (typed : ∀ operation, event ≠ .file operation)
    (session : Session) : event.Names (· ≠ []) session := by
  intro operation comes
  rcases Event.operation?_origin comes with rfl | ⟨line, ordered⟩ | relies
  · exact absurd rfl (typed operation)
  · exact Command.ne_nil_of_operation? ordered
  · cases operation with
    | readCharacter => simp
    | readLine => simp
    | writeCharacter byte => simp
    | _ => exact absurd rfl relies

/-- Whether every open file has a name of a kind. -/
def Session.AllNamed (proper : Name → Prop) (session : Session) : Prop :=
  ∀ name buffer, session.buffers.find? name = some buffer → proper name

theorem Event.Effect.concern {session after : Session} {event : Event Receiver}
    {calls : List Peripherals.Call} {outcome : Except Fault Unit}
    (effect : event.Effect session calls outcome after) (consistent : session.Consistent)
    (names : event.Names proper session) (named : session.AllNamed proper) :
    Concern proper calls ∧ after.AllNamed proper := by
  cases effect with
  | @operated operation commandMode command _ _ _ operates typed effect =>
    have given := names operation operates
    have before : Session.Consistent { session with commandMode, command } :=
      consistent.congr rfl rfl rfl typed
    refine ⟨(effect.concern before).mono ?_, ?_⟩
    · rintro name (member | ⟨_, buffer, found⟩)
      · exact given name member
      · exact named name buffer found
    · intro name buffer found
      rcases effect.within before name buffer found with member | ⟨earlier, opened⟩
      · exact given name member
      · exact named name earlier opened
  | aside idle keeps elsewhere buffers active mode typed =>
    refine ⟨concern_of_elsewhere elsewhere, ?_⟩
    intro name buffer found
    rw [buffers] at found
    exact named name buffer found
  | discarded monitor idle discards =>
    refine ⟨concern_nil, ?_⟩
    intro name buffer found
    cases found

/-- A whole run asks the store and the source for no other names than its operations are given. -/
theorem Dos.Reaches.concern {start dos : Dos Devices Receiver}
    (reached : start.Reaches peripherals (fun session event => event.Names proper session) dos)
    (consistent : start.machine.session.Consistent)
    (named : start.machine.session.AllNamed proper) :
    ∃ calls, peripherals.Serves calls start.machine.devices dos.machine.devices ∧
      Concern proper calls ∧ dos.machine.session.AllNamed proper := by
  induction reached with
  | refl => exact ⟨[], rfl, concern_nil, named⟩
  | @step dos reached event names ih =>
    obtain ⟨before, served, concern, known⟩ := ih
    obtain ⟨calls, effect, more⟩ := event.run_effect peripherals dos
    obtain ⟨further, kept⟩ := effect.concern (reached.consistent consistent) names known
    exact ⟨before ++ calls, served.append more, concern.append further, kept⟩

end DosText
