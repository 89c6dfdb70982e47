import DosText.Proofs.FileView
import DosText.Proofs.OtherFiles

/-! Files that were deleted. DELETE removes a file from the store alone, and an open file of its
name keeps its content. That content is put back when the open file is closed or opened once more.
Otherwise a deleted file stays away until something is written, renamed or printed under its
name. -/

namespace DosText

open Peripherals (Contents AllFaithful applyAll)

/-- Whether there is nothing, or else just what may be there. -/
def AtMost (allowed? found? : Option Bytes) : Prop :=
  ∀ content, found? = some content → allowed? = some content

namespace AtMost

variable {allowed? between? found? other? : Option Bytes}

theorem refl (found? : Option Bytes) : AtMost found? found? := fun _ => id

theorem none (allowed? : Option Bytes) : AtMost allowed? Option.none := nofun

theorem trans (wider : AtMost allowed? between?) (narrower : AtMost between? found?) :
    AtMost allowed? found? :=
  fun content there => wider content (narrower content there)

theorem or (first : AtMost allowed? found?) (second : AtMost allowed? other?) :
    AtMost allowed? (found?.or other?) := by
  cases found? with
  | none => exact second
  | some content => exact first

theorem eq_none (nothing : AtMost Option.none found?) : found? = Option.none := by
  cases found? with
  | none => rfl
  | some content => cases nothing content rfl

end AtMost

/-- The content of an open file, if it has any. -/
def Session.copy? (session : Session) (name : Name) : Option Bytes :=
  (session.buffers.find? name).bind Buffer.bytes?

/-- What may be left of a file: nothing but `copy?` in its open file, and nothing but `back?` in the
store, which can have come from the open file only. -/
structure Leftover (name : Name) (copy? back? : Option Bytes) (session : Session)
    (held : Contents) : Prop where
  opened : AtMost copy? (session.copy? name)
  stored : AtMost back? (held name)
  covered : AtMost copy? back?

namespace Leftover

variable {name : Name} {copy? back? : Option Bytes} {session after : Session}
variable {held later : Contents} {buffer changed : Buffer}

/-- What is left of a file depends on that file alone. -/
theorem congr (left : Leftover name copy? back? session held)
    (opened : after.buffers.find? name = session.buffers.find? name)
    (stored : later name = held name) : Leftover name copy? back? after later where
  opened := by
    rw [Session.copy?, opened]
    exact left.opened
  stored := by
    rw [stored]
    exact left.stored
  covered := left.covered

theorem keep (left : Leftover name copy? back? session held)
    (fits : changed.name = name → AtMost copy? changed.bytes?) :
    Leftover name copy? back? (session.keep changed) held where
  opened := by
    rw [Session.copy?, Session.find?_keep]
    split
    · next same => exact fits same.symm
    · exact left.opened
  stored := left.stored
  covered := left.covered

/-- An open file that is moved in, whichever it is. -/
theorem replace (left : Leftover name copy? back? session held) {listed : Name}
    (found : session.buffers.find? listed = some buffer) (own : changed.name = listed)
    (same : changed.content = buffer.content) :
    Leftover name copy? back? (session.keep changed) held := by
  refine left.keep ?_
  rintro rfl
  subst own
  have here := left.opened
  rw [Session.copy?, found] at here
  rw [Buffer.bytes?, same]
  exact here

theorem activate (left : Leftover name copy? back? session held) (mode : Mode) (active : Name) :
    Leftover name copy? back? (session.activate mode active) held :=
  left.congr rfl rfl

theorem discard (left : Leftover name copy? back? session held) (discarded : Name) :
    Leftover name copy? back? (session.discard discarded) held where
  opened := by
    rw [Session.copy?, Session.find?_discard]
    split
    · exact .none copy?
    · exact left.opened
  stored := left.stored
  covered := left.covered

/-- The open file is stored, if that is where the content in the store may come from. -/
theorem settle (left : Leftover name copy? back? session held)
    (found : session.buffers.find? name = some buffer) (own : buffer.name = name)
    (writes : session.copy? name ≠ none → back? = copy?) :
    Leftover name copy? back? session (buffer.settle held) where
  opened := left.opened
  stored := by
    have here : session.copy? name = buffer.bytes? := by rw [Session.copy?, found, Option.bind_some]
    rw [Buffer.settle_apply, if_pos own.symm, ← here]
    refine AtMost.or ?_ left.stored
    intro content there
    rw [writes (by rw [there]; exact Option.some_ne_none content)]
    exact left.opened content there
  covered := left.covered

theorem remove (left : Leftover name copy? back? session held) :
    Leftover name copy? back? session (Function.update held name none) where
  opened := left.opened
  stored := by
    rw [Function.update_self]
    exact .none back?
  covered := left.covered

end Leftover

namespace TextFile

variable {session after : Session} {name : Name} {calls more : List Peripherals.Call}
variable {held first : Contents} {copy? back? : Option Bytes}

/-- Where the source has nothing, loading stores nothing. -/
theorem Loads.held_of_faithful {outcome : Except Fault (Option Bytes)}
    (loads : Loads name calls outcome) (faithful : AllFaithful first held calls)
    (unseeded : first name = none) :
    outcome = .ok (held name) ∧ applyAll calls held name = held name := by
  obtain ⟨same, stored⟩ := loads.of_faithful faithful
  rw [unseeded, Option.or_none] at same stored
  rw [stored, Function.update_self]
  exact ⟨same, rfl⟩

theorem atMost_opened {recordLength : Nat} {content : Option Bytes}
    (fits : AtMost copy? content) :
    AtMost copy? (Buffer.opened name recordLength content).bytes? := by
  rw [bytes?_opened]
  exact fits

theorem Finds.leftover {outcome : Except Fault (Option Bytes)}
    (finds : Finds session name calls outcome) (faithful : AllFaithful first held calls)
    (unseeded : first name = none) (left : Leftover name copy? back? session held) :
    (∃ content, outcome = .ok content ∧ AtMost copy? content) ∧
      Leftover name copy? back? session (applyAll calls held) := by
  cases finds with
  | opened found =>
    have here := left.opened
    rw [Session.copy?, found] at here
    exact ⟨⟨_, rfl, here⟩, left⟩
  | loaded closed loads =>
    obtain ⟨same, stored⟩ := loads.held_of_faithful faithful unseeded
    exact ⟨⟨_, same, left.covered.trans left.stored⟩, left.congr rfl stored⟩

theorem Installs.leftover {recordLength : Nat} {content : Option Bytes}
    {outcome : Except Fault Buffer} (consistent : session.Consistent)
    (installs : Installs session name recordLength content calls outcome after)
    (faithful : AllFaithful first held calls) (fits : AtMost copy? content)
    (writes : session.copy? name ≠ none → back? = copy?)
    (left : Leftover name copy? back? session held) :
    Leftover name copy? back? after (applyAll calls held) := by
  cases installs with
  | fresh closed => exact left.keep fun _ => atMost_opened fits
  | replaced found flushed =>
    have settled := left.settle found (consistent.named name _ found) writes
    rw [flushed.applyAll]
    exact (settled.discard name).keep fun _ => atMost_opened fits
  | refused found failed =>
    have succeeds := failed.of_faithful faithful
    cases succeeds

theorem Obtains.leftover {outcome : Except Fault Buffer}
    (obtains : Obtains session name calls outcome after) (faithful : AllFaithful first held calls)
    (unseeded : first name = none) (left : Leftover name copy? back? session held) :
    Leftover name copy? back? after (applyAll calls held) := by
  cases obtains with
  | opened found => exact left
  | @loaded _ content closed loads =>
    obtain ⟨same, stored⟩ := loads.held_of_faithful faithful unseeded
    cases same
    exact (left.congr rfl stored).keep fun _ => atMost_opened (left.covered.trans left.stored)
  | unread closed loads =>
    have succeeds := (loads.of_faithful faithful).1
    cases succeeds

theorem Readies.leftover {outcome : Except Fault Buffer}
    (readies : Readies session name calls outcome after) (faithful : AllFaithful first held calls)
    (unseeded : first name = none) (left : Leftover name copy? back? session held) :
    Leftover name copy? back? after (applyAll calls held) := by
  cases readies with
  | opened found some => exact left
  | empty found none => exact left
  | loaded closed loads =>
    have obtains : Obtains session name calls _ _ := .loaded closed loads
    exact obtains.leftover faithful unseeded left
  | absent closed loads =>
    exact left.congr rfl (loads.held_of_faithful faithful unseeded).2
  | unread closed loads =>
    have succeeds := (loads.of_faithful faithful).1
    cases succeeds

/-- Whether an operation gives content to a name anew. -/
def Operation.Puts (redirection : Redirection) (name : Name) : Operation → Prop
  | .write written _ _ => written = name
  | .rename _ target => target = name
  | .writeCharacter _ => redirection = .writing name
  | _ => False

/-- Whether an operation stores the open file of a name, if there is one. -/
def Operation.Stores (name : Name) : Operation → Prop
  | .openFile opened _ => opened = name
  | .appendFile opened _ => opened = name
  | .close closed => closed = name
  | .closeAll => True
  | _ => False

/-- A file is put in place of the open one of its name. -/
theorem Finds.installs_leftover {recordLength : Nat} {content : Option Bytes}
    {outcome : Except Fault Buffer} (consistent : session.Consistent)
    (finds : Finds session name calls (.ok content))
    (installs : Installs session name recordLength content more outcome after)
    (faithful : AllFaithful first held (calls ++ more)) (unseeded : first name = none)
    (writes : session.copy? name ≠ none → back? = copy?)
    (left : Leftover name copy? back? session held) :
    AtMost copy? content ∧ Leftover name copy? back? after (applyAll (calls ++ more) held) := by
  obtain ⟨found, put⟩ := Peripherals.allFaithful_append.mp faithful
  obtain ⟨⟨other, same, fits⟩, kept⟩ := finds.leftover found unseeded left
  cases same
  rw [Peripherals.applyAll_append]
  exact ⟨fits, installs.leftover consistent put fits writes kept⟩

/-- What is left of a file after an operation that is given its name. -/
theorem Effect.leftover_of_given {operation : Operation} {outcome : Except Fault Unit}
    (consistent : session.Consistent) (effect : Effect session operation calls outcome after)
    (faithful : AllFaithful first held calls) (unseeded : first name = none)
    (given : name ∈ operation.names) (keeps : ¬operation.Puts session.redirection name)
    (writes : operation.Stores name → session.copy? name ≠ none → back? = copy?)
    (left : Leftover name copy? back? session held) :
    Leftover name copy? back? after (applyAll calls held) := by
  cases effect with
  | openUnread finds =>
    cases List.mem_singleton.mp given
    exact (finds.leftover faithful unseeded left).2
  | openRefused finds installs =>
    cases List.mem_singleton.mp given
    exact (finds.installs_leftover consistent installs faithful unseeded (writes rfl) left).2
  | opened finds installs =>
    cases List.mem_singleton.mp given
    exact (finds.installs_leftover consistent installs faithful unseeded (writes rfl) left).2
  | appendUnread finds =>
    cases List.mem_singleton.mp given
    exact (finds.leftover faithful unseeded left).2
  | appendAbsent finds =>
    cases List.mem_singleton.mp given
    exact (finds.leftover faithful unseeded left).2
  | appendRefused finds installs =>
    cases List.mem_singleton.mp given
    exact (finds.installs_leftover consistent installs faithful unseeded (writes rfl) left).2
  | appended finds installs =>
    cases List.mem_singleton.mp given
    have put := finds.installs_leftover consistent installs faithful unseeded (writes rfl) left
    obtain ⟨rfl, found⟩ := installs.found
    exact put.2.replace found rfl rfl
  | closeAbsent closed => exact left
  | closeRefused found failed =>
    have succeeds := failed.of_faithful faithful
    cases succeeds
  | closed found flushed =>
    cases List.mem_singleton.mp given
    have settled := left.settle found (consistent.named name _ found) (writes rfl)
    rw [flushed.applyAll]
    exact settled.discard name
  | positionUnread obtains =>
    cases List.mem_singleton.mp given
    exact obtains.leftover faithful unseeded left
  | positionBeyond obtains beyond =>
    cases List.mem_singleton.mp given
    exact obtains.leftover faithful unseeded left
  | positioned obtains pointer number =>
    cases List.mem_singleton.mp given
    have own := (obtains.consistent consistent).named name _ obtains.found
    exact (obtains.leftover faithful unseeded left).replace obtains.found own rfl
  | readUnready readies =>
    cases List.mem_singleton.mp given
    exact readies.leftover faithful unseeded left
  | readBeyond readies beyond =>
    cases List.mem_singleton.mp given
    exact readies.leftover faithful unseeded left
  | reading readies pointer =>
    cases List.mem_singleton.mp given
    have own := (readies.consistent consistent).named name _ readies.found.1
    refine Leftover.activate ?_ .read name
    exact (readies.leftover faithful unseeded left).replace readies.found.1 own rfl
  | writing found pointer creates => exact absurd (List.mem_singleton.mp given).symm keeps
  | deleted content =>
    cases List.mem_singleton.mp given
    exact left.remove
  | renameHalf content differ failure =>
    obtain ⟨-, -, removed, -⟩ := faithful
    cases removed
  | @renamed source target content differ =>
    have other : name ≠ target := fun same => keeps same.symm
    have own : name = source := by
      rcases List.mem_cons.mp given with same | last
      · exact same
      · exact absurd (List.mem_singleton.mp last) other
    subst own
    exact (left.congr rfl (Function.update_of_ne other _ _)).remove
  | closedAll perm flushed => cases given
  | characterRead redirected read => cases given
  | lineRead redirected read => cases given
  | characterWritten redirected modest wrote => cases given
  | deactivated => cases given
  | closeAllRefused perm failed => cases given
  | writeRefused found pointer failed => exact absurd (List.mem_singleton.mp given).symm keeps
  | renameRefused content differ failure => exact left
  | _ => exact left

/-- What is left of a file after an operation that is given no name. -/
theorem Effect.leftover_of_nameless {operation : Operation} {outcome : Except Fault Unit}
    (consistent : session.Consistent) (effect : Effect session operation calls outcome after)
    (faithful : AllFaithful first held calls) (nameless : operation.names = [])
    (keeps : ¬operation.Puts session.redirection name)
    (writes : operation.Stores name → session.copy? name ≠ none → back? = copy?)
    (left : Leftover name copy? back? session held) :
    Leftover name copy? back? after (applyAll calls held) := by
  cases effect with
  | closeAllRefused perm failed =>
    have succeeds := failed.of_faithful faithful
    cases succeeds
  | closedAll perm flushed =>
    rw [flushed.applyAll]
    refine ⟨.none copy?, ?_, left.covered⟩
    rw [Buffer.settleAll_visited consistent.named perm]
    refine AtMost.or ?_ left.stored
    intro content there
    rw [writes trivial (fun nothing => nomatch there.symm.trans nothing)]
    exact left.opened content there
  | deactivated => exact left.congr rfl rfl
  | characterRead redirected read =>
    obtain ⟨before, found, same⟩ := readByte_keeps read
    rw [same]
    exact left.replace found (consistent.named _ before found) rfl
  | lineRead redirected read =>
    obtain ⟨before, found, same⟩ := readLine_keeps read
    rw [same]
    exact left.replace found (consistent.named _ before found) rfl
  | @characterWritten other limit byte written redirected modest wrote =>
    obtain ⟨before, found, -, same⟩ := writeByte_keeps wrote
    refine left.keep fun own => absurd ?_ keeps
    show session.redirection = .writing name
    rw [redirected, ← own, same, consistent.named other before found]
  | idle relies other => exact left
  | unmet relies same absent => exact left
  | characterEnd redirected ended => exact left
  | lineEnd redirected ended => exact left
  | characterRefused redirected refused => exact left
  | _ => cases nameless

/-- Where nothing is put under a name anew, no more than before is left of its file. -/
theorem Effect.leftover {operation : Operation} {outcome : Except Fault Unit}
    (consistent : session.Consistent) (effect : Effect session operation calls outcome after)
    (faithful : AllFaithful first held calls) (unseeded : first name = none)
    (keeps : ¬operation.Puts session.redirection name)
    (writes : operation.Stores name → session.copy? name ≠ none → back? = copy?)
    (left : Leftover name copy? back? session held) :
    Leftover name copy? back? after (applyAll calls held) := by
  by_cases nameless : operation.names = []
  · exact effect.leftover_of_nameless consistent faithful nameless keeps writes left
  by_cases given : name ∈ operation.names
  · exact effect.leftover_of_given consistent faithful unseeded given keeps writes left
  · exact left.congr (effect.find?_of_others consistent nameless given)
      (Peripherals.applyAll_of_concern (effect.concern_of_others consistent nameless given) held)

/-- A DELETE that succeeds leaves nothing stored. -/
theorem Effect.held_of_deleted (effect : Effect session (.delete name) calls (.ok ()) after)
    (held : Contents) : applyAll calls held name = none := by
  cases effect with
  | deleted content => exact Function.update_self name none held
  | idle relies other => cases relies

theorem settle_of_copy {buffer : Buffer} (consistent : session.Consistent)
    (found : session.buffers.find? name = some buffer) (some : session.copy? name ≠ none) :
    buffer.settle held name = session.copy? name := by
  have here : session.copy? name = buffer.bytes? := by rw [Session.copy?, found, Option.bind_some]
  rw [Buffer.settle_apply, if_pos (consistent.named name buffer found).symm, here]
  rw [here] at some
  obtain ⟨content, bytes?⟩ := Option.ne_none_iff_exists'.mp some
  rw [bytes?, Option.some_or]

theorem not_copy_of_closed (closed : session.buffers.find? name = none) :
    session.copy? name = none := by
  rw [Session.copy?, closed, Option.bind_none]

/-- The content of an open file is what is found of it. -/
theorem Finds.of_copy {outcome : Except Fault (Option Bytes)}
    (finds : Finds session name calls outcome) (some : session.copy? name ≠ none) :
    outcome = .ok (session.copy? name) := by
  cases finds with
  | opened found =>
    rw [Session.copy?, found]
    rfl
  | loaded closed loads => exact absurd (not_copy_of_closed closed) some

theorem Installs.held_of_copy {recordLength : Nat} {content : Option Bytes}
    {outcome : Except Fault Buffer} (consistent : session.Consistent)
    (installs : Installs session name recordLength content more outcome after)
    (faithful : AllFaithful first held (calls ++ more)) (some : session.copy? name ≠ none) :
    applyAll (calls ++ more) held name = session.copy? name := by
  obtain ⟨-, put⟩ := Peripherals.allFaithful_append.mp faithful
  cases installs with
  | fresh closed => exact absurd (not_copy_of_closed closed) some
  | replaced found flushed =>
    rw [Peripherals.applyAll_append, flushed.applyAll]
    exact settle_of_copy consistent found some
  | refused found failed =>
    have succeeds := failed.of_faithful put
    cases succeeds

theorem Operation.mode?_of_stores {operation : Operation} (stores : operation.Stores name) :
    operation.mode? = none := by
  cases operation <;> first | rfl | cases stores

/-- An open file that has content is found in the store after an operation that stores it. -/
theorem Effect.held_of_stores {operation : Operation} {outcome : Except Fault Unit}
    (consistent : session.Consistent) (effect : Effect session operation calls outcome after)
    (faithful : AllFaithful first held calls) (stores : operation.Stores name)
    (some : session.copy? name ≠ none) : applyAll calls held name = session.copy? name := by
  cases effect with
  | openUnread finds =>
    cases stores
    cases finds.of_copy some
  | openRefused finds installs =>
    cases stores
    exact installs.held_of_copy consistent faithful some
  | opened finds installs =>
    cases stores
    exact installs.held_of_copy consistent faithful some
  | appendUnread finds =>
    cases stores
    cases finds.of_copy some
  | appendAbsent finds =>
    cases stores
    exact absurd (Except.ok.inj (finds.of_copy some)).symm some
  | appendRefused finds installs =>
    cases stores
    exact installs.held_of_copy consistent faithful some
  | appended finds installs =>
    cases stores
    exact installs.held_of_copy consistent faithful some
  | closeAbsent closed =>
    cases stores
    exact absurd (not_copy_of_closed closed) some
  | closeRefused found failed =>
    have succeeds := failed.of_faithful faithful
    cases succeeds
  | closed found flushed =>
    cases stores
    rw [flushed.applyAll]
    exact settle_of_copy consistent found some
  | closeAllRefused perm failed =>
    have succeeds := failed.of_faithful faithful
    cases succeeds
  | closedAll perm flushed =>
    rw [flushed.applyAll, Buffer.settleAll_visited consistent.named perm]
    obtain ⟨content, here⟩ := Option.ne_none_iff_exists'.mp some
    show (session.copy? name).or (held name) = _
    rw [here, Option.some_or]
  | idle relies other => cases relies.symm.trans (Operation.mode?_of_stores stores)
  | unmet relies same absent => cases relies.symm.trans (Operation.mode?_of_stores stores)
  | _ => cases stores

end TextFile

/-- Whether an event gives content to a name anew: by a WRITE, as the target of a RENAME or by
printing to it. -/
def Event.Puts {Receiver : Type} (session : Session) (event : Event Receiver) (name : Name) :
    Prop :=
  ∃ operation, event.operation? session = some operation ∧
    operation.Puts session.redirection name

/-- Whether an event stores the content of the open file of a name: by closing that file or all
files, or by opening it once more. -/
def Event.PutsBack {Receiver : Type} (session : Session) (event : Event Receiver) (name : Name) :
    Prop :=
  session.copy? name ≠ none ∧
    ∃ operation, event.operation? session = some operation ∧ operation.Stores name

section Runs

variable {Devices Receiver : Type} {peripherals : Peripherals Devices}
variable {held : Devices → Contents} {first : Contents} {name : Name} {copy? back? : Option Bytes}

theorem Event.Effect.leftover {session after : Session} {event : Event Receiver}
    {calls : List Peripherals.Call} {outcome : Except Fault Unit} {held : Contents}
    (consistent : session.Consistent) (effect : event.Effect session calls outcome after)
    (faithful : AllFaithful first held calls) (unseeded : first name = none)
    (keeps : ¬event.Puts session name) (writes : event.PutsBack session name → back? = copy?)
    (left : Leftover name copy? back? session held) :
    Leftover name copy? back? after (applyAll calls held) := by
  cases effect with
  | @operated operation commandMode command _ _ _ operates typed effect =>
    have begun : Leftover name copy? back? { session with commandMode, command } held :=
      left.congr rfl rfl
    have same : Session.Consistent { session with commandMode, command } :=
      consistent.congr rfl rfl rfl typed
    refine effect.leftover same faithful unseeded ?_ ?_ begun
    · intro puts
      exact keeps ⟨operation, operates, puts⟩
    · intro stores there
      exact writes ⟨there, operation, operates, stores⟩
  | aside idle kept elsewhere buffers active mode typed =>
    rw [Peripherals.applyAll_elsewhere elsewhere]
    exact left.congr (by rw [buffers]) rfl
  | discarded monitor idle discards => exact ⟨.none copy?, left.stored, left.covered⟩

/-- No more is left of a file than at the start, as long as nothing is put under its name anew. -/
theorem Dos.Reaches.leftover (reliable : peripherals.Reliable held first)
    (unseeded : first name = none) {allowed : Session → Event Receiver → Prop}
    {start dos : Dos Devices Receiver} (reached : start.Reaches peripherals allowed dos)
    (consistent : start.machine.session.Consistent)
    (keeps : ∀ session event, allowed session event → ¬event.Puts session name)
    (writes : ∀ session event, allowed session event → event.PutsBack session name →
      back? = copy?)
    (left : Leftover name copy? back? start.machine.session (held start.machine.devices)) :
    Leftover name copy? back? dos.machine.session (held dos.machine.devices) := by
  induction reached with
  | refl => exact left
  | @step dos reached event fits ih =>
    obtain ⟨calls, effect, served⟩ := event.run_effect peripherals dos
    rw [reliable.toSound.serves served]
    exact effect.leftover (reached.consistent consistent) (reliable.allFaithful served) unseeded
      (keeps _ event fits) (writes _ event fits) ih

/-- An event that stores an open file leaves its content in the store. -/
theorem Event.PutsBack.held_run (reliable : peripherals.Reliable held first)
    {event : Event Receiver} {dos : Dos Devices Receiver}
    (puts : event.PutsBack dos.machine.session name)
    (consistent : dos.machine.session.Consistent) :
    held (event.run peripherals dos).2.machine.devices name = dos.machine.session.copy? name := by
  obtain ⟨some, operation, comes, stores⟩ := puts
  obtain ⟨calls, effect, served⟩ := event.run_effect peripherals dos
  obtain ⟨commandMode, command, typed, stored⟩ := effect.operation comes
  have same : Session.Consistent { dos.machine.session with commandMode, command } :=
    consistent.congr rfl rfl rfl typed
  rw [reliable.toSound.serves served]
  have there := stored.held_of_stores same (reliable.allFaithful served) stores some
  exact there

theorem Dos.run_delete (reliable : peripherals.Reliable held first) {event : Event Receiver}
    {dos : Dos Devices Receiver}
    (deletes : event.operation? dos.machine.session = some (.delete name))
    (succeeds : (event.run peripherals dos).1 = .ok ()) :
    held (event.run peripherals dos).2.machine.devices name = none := by
  obtain ⟨calls, effect, served⟩ := event.run_effect peripherals dos
  rw [succeeds] at effect
  obtain ⟨commandMode, command, -, deleted⟩ := effect.operation deletes
  rw [reliable.toSound.serves served]
  exact deleted.held_of_deleted _

/-- A file that was deleted stays so, where nothing fails and the source has no content for it, as
long as nothing is put under its name anew by a WRITE, as the target of a RENAME or by printing to
it. All that can come back is the content that its open file had when it was deleted: it is in the
store after CLOSE, OPEN or APPEND of the file while it is open with content, and nothing else ever
is. -/
theorem Dos.Reaches.deleted_stays (reliable : peripherals.Reliable held first)
    (unseeded : first name = none) {monitor : Monitor} {devices : Devices}
    {allowed : Session → Event Receiver → Prop} {dos : Dos Devices Receiver}
    (reached : (Dos.initial monitor devices).Reaches peripherals allowed dos)
    {event : Event Receiver}
    (deletes : event.operation? dos.machine.session = some (.delete name))
    (succeeds : (event.run peripherals dos).1 = .ok ()) :
    let deleted := (event.run peripherals dos).2
    let copy? := deleted.machine.session.copy? name
    held deleted.machine.devices name = none ∧
    (∀ later, deleted.Reaches peripherals (fun session event =>
        ¬event.Puts session name ∧ ¬event.PutsBack session name) later →
      held later.machine.devices name = none) ∧
    ∀ later, deleted.Reaches peripherals (fun session event => ¬event.Puts session name) later →
      (∀ content, held later.machine.devices name = some content → copy? = some content) ∧
      ∀ next : Event Receiver, next.PutsBack later.machine.session name →
        held (next.run peripherals later).2.machine.devices name = copy? := by
  intro deleted copy?
  have gone : held deleted.machine.devices name = none :=
    Dos.run_delete reliable deletes succeeds
  have consistent : deleted.machine.session.Consistent := by
    obtain ⟨calls, effect, -⟩ := event.run_effect peripherals dos
    exact effect.consistent (reached.consistent (Session.consistent_initial monitor))
  refine ⟨gone, ?_, ?_⟩
  -- Where nothing is put back, the store may have nothing; else it may have the copy.
  · intro later goes
    have begun : Leftover name copy? none deleted.machine.session
        (held deleted.machine.devices) := ⟨.refl copy?, gone ▸ .none none, .none copy?⟩
    have left := goes.leftover reliable unseeded consistent (fun _ _ fits => fits.1)
      (fun _ _ fits puts => absurd puts fits.2) begun
    exact left.stored.eq_none
  · intro later goes
    have begun : Leftover name copy? copy? deleted.machine.session
        (held deleted.machine.devices) := ⟨.refl copy?, gone ▸ .none copy?, .refl copy?⟩
    have left := goes.leftover reliable unseeded consistent (fun _ _ fits => fits)
      (fun _ _ _ _ => rfl) begun
    refine ⟨left.stored, ?_⟩
    intro next puts
    obtain ⟨content, here⟩ := Option.ne_none_iff_exists'.mp puts.1
    rw [puts.held_run reliable (goes.consistent consistent), here, left.opened content here]

end Runs

/-- A command line puts nothing under a name anew if the operation that it orders does not. -/
theorem Event.not_puts_of_operation? {session : Session} {line : Bytes}
    {operation : TextFile.Operation} {name : Name}
    (comes : Command.operation? line = some operation)
    (keeps : ¬operation.Puts session.redirection name) :
    ¬(Event.execute line : Event Unit).Puts session name := by
  rintro ⟨other, same, puts⟩
  cases comes.symm.trans same
  exact keeps puts

/-- A file that is deleted and opened then has no content, and closing it stores none. -/
theorem Dos.deleted_stays_reopened :
    let peripherals := Peripherals.inMemory .empty .none
    let start : Dos (Catalog Name Bytes) Unit :=
      .initial .off (Catalog.empty.insert (ascii "A") (ascii "x"))
    let deleted := ((Event.execute (ascii "DELETE A")).run peripherals start).2
    let opened := ((Event.execute (ascii "OPEN A")).run peripherals deleted).2
    let closed := ((Event.execute (ascii "CLOSE A")).run peripherals opened).2
    start.machine.devices.find? (ascii "A") = some (ascii "x") ∧
      closed.machine.devices.find? (ascii "A") = none := by
  intro peripherals start deleted opened closed
  have opens : Command.operation? (ascii "OPEN A") = some (.openFile (ascii "A") 0) := by
    decide +kernel
  have closes : Command.operation? (ascii "CLOSE A") = some (.close (ascii "A")) := by
    decide +kernel
  have goes : deleted.Reaches peripherals
      (fun session event => ¬event.Puts session (ascii "A")) closed :=
    (Dos.Reaches.refl.step (.execute (ascii "OPEN A"))
      (Event.not_puts_of_operation? opens id)).step (.execute (ascii "CLOSE A"))
        (Event.not_puts_of_operation? closes id)
  have begun : start.Reaches peripherals (fun _ _ => True) start := .refl
  have deletes : (Event.execute (ascii "DELETE A") : Event Unit).operation?
      start.machine.session = some (.delete (ascii "A")) := by decide +kernel
  obtain ⟨-, -, stays⟩ := Dos.Reaches.deleted_stays (Peripherals.reliable_inMemory .empty) rfl
    begun deletes (by decide +kernel)
  obtain ⟨copied, -⟩ := stays closed goes
  refine ⟨by decide +kernel, ?_⟩
  have unopened : deleted.machine.session.copy? (ascii "A") = none := by decide +kernel
  exact AtMost.eq_none (unopened ▸ copied)

/-- A file that is open when it is deleted comes back when it is closed, though nothing is put
under its name anew. -/
theorem Dos.deleted_comes_back :
    let peripherals := Peripherals.inMemory .empty .none
    let start : Dos (Catalog Name Bytes) Unit :=
      .initial .off (Catalog.empty.insert (ascii "A") (ascii "x"))
    let opened := ((Event.execute (ascii "OPEN A")).run peripherals start).2
    let deleting : Event Unit := .execute (ascii "DELETE A")
    let deleted := (deleting.run peripherals opened).2
    deleting.operation? opened.machine.session = some (.delete (ascii "A")) ∧
      (deleting.run peripherals opened).1 = .ok () ∧
      ¬∀ later, deleted.Reaches peripherals
          (fun session event => ¬event.Puts session (ascii "A")) later →
        later.machine.devices.find? (ascii "A") = none := by
  intro peripherals start opened deleting deleted
  refine ⟨by decide +kernel, by decide +kernel, ?_⟩
  intro stays
  have closes : Command.operation? (ascii "CLOSE A") = some (.close (ascii "A")) := by
    decide +kernel
  have gone := stays _ (Dos.Reaches.refl.step (.execute (ascii "CLOSE A"))
    (Event.not_puts_of_operation? closes id))
  exact absurd gone (by decide +kernel)

end DosText
