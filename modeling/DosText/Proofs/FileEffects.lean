import DosText.Proofs.FileView

/-! What an operation on one file does where nothing fails: which first contents it can ask for, and
what it makes of the file that it opens, closes, writes or reads. -/

namespace DosText

open Peripherals (AllFaithful Contents FetchOnly applyAll)

/-- No open file hides what the store or the source has for a name: if one of the name is open, it
has no content, and there is none elsewhere. -/
def Exposed (buffers : Catalog Name Buffer) (held first : Contents) (name : Name) : Prop :=
  ∀ buffer, buffers.find? name = some buffer →
    buffer.bytes? = none ∧ held name = none ∧ first name = none

theorem exposed_of_closed {buffers : Catalog Name Buffer} {name : Name}
    (closed : buffers.find? name = none) (held first : Contents) :
    Exposed buffers held first name := by
  intro buffer found
  rw [closed] at found
  cases found

/-- A name without content has none anywhere. -/
theorem exposed_of_absent {buffers : Catalog Name Buffer} {held first : Contents} {name : Name}
    (absent : fileView buffers held first name = none) :
    Exposed buffers held first name ∧ held name = none ∧ first name = none := by
  rw [fileView, Option.or_eq_none_iff, Option.or_eq_none_iff] at absent
  obtain ⟨unopened, unstored, unseeded⟩ := absent
  refine ⟨?_, unstored, unseeded⟩
  intro buffer found
  rw [found, Option.bind_some] at unopened
  exact ⟨unopened, unstored, unseeded⟩

namespace TextFile

variable {session after : Session} {name : Name} {calls : List Peripherals.Call}
variable {held first : Contents} {outcome : Except Fault Unit} {buffer : Buffer}

/-- The names whose first content an operation can ask for. -/
def Operation.Fetches : Operation → Name → Prop
  | .openFile name _, other => other = name
  | .appendFile name _, other => other = name
  | .position name _, other => other = name
  | .read name _ _, other => other = name
  | _, _ => False

theorem Loads.fetchOnly {found : Except Fault (Option Bytes)} (loads : Loads name calls found) :
    FetchOnly name calls := by
  cases loads <;> simp [FetchOnly]

theorem Flushes.fetch_notMem (flushes : Flushes buffer calls outcome) (other : Name)
    (found : Except Storage.Failure (Option Bytes)) : .fetch other found ∉ calls := by
  cases flushes <;> simp

theorem FlushesAll.fetch_notMem {buffers : List Buffer}
    (flushes : FlushesAll buffers calls outcome) (other : Name)
    (found : Except Storage.Failure (Option Bytes)) : .fetch other found ∉ calls := by
  induction flushes with
  | nil => simp
  | cons flushed others ih =>
    intro member
    rcases List.mem_append.mp member with here | later
    · exact flushed.fetch_notMem other found here
    · exact ih later
  | refused failed => exact failed.fetch_notMem other found

theorem Finds.fetchOnly {found : Except Fault (Option Bytes)}
    (finds : Finds session name calls found) : FetchOnly name calls := by
  cases finds with
  | opened found => simp [FetchOnly]
  | loaded closed loads => exact loads.fetchOnly

theorem Installs.fetchOnly {recordLength : Nat} {content : Option Bytes}
    {installed : Except Fault Buffer}
    (installs : Installs session name recordLength content calls installed after) :
    FetchOnly name calls := by
  intro other found asked
  cases installs with
  | fresh closed => cases asked
  | replaced opened flushed => exact absurd asked (flushed.fetch_notMem other found)
  | refused opened failed => exact absurd asked (failed.fetch_notMem other found)

theorem Obtains.fetchOnly {obtained : Except Fault Buffer}
    (obtains : Obtains session name calls obtained after) : FetchOnly name calls := by
  cases obtains with
  | opened found => simp [FetchOnly]
  | loaded closed loads => exact loads.fetchOnly
  | unread closed loads => exact loads.fetchOnly

theorem Readies.fetchOnly {ready : Except Fault Buffer}
    (readies : Readies session name calls ready after) : FetchOnly name calls := by
  cases readies with
  | opened found some => simp [FetchOnly]
  | empty found none => simp [FetchOnly]
  | loaded closed loads => exact loads.fetchOnly
  | absent closed loads => exact loads.fetchOnly
  | unread closed loads => exact loads.fetchOnly

/-- An operation asks for no other first content than that of its own name. -/
theorem Effect.fetches {operation : Operation}
    (effect : Effect session operation calls outcome after) {other : Name}
    {found : Except Storage.Failure (Option Bytes)} (asked : .fetch other found ∈ calls) :
    operation.Fetches other := by
  cases effect with
  | openUnread finds => exact finds.fetchOnly other found asked
  | openRefused finds installs => exact finds.fetchOnly.append installs.fetchOnly other found asked
  | opened finds installs => exact finds.fetchOnly.append installs.fetchOnly other found asked
  | appendUnread finds => exact finds.fetchOnly other found asked
  | appendAbsent finds => exact finds.fetchOnly other found asked
  | appendRefused finds installs =>
    exact finds.fetchOnly.append installs.fetchOnly other found asked
  | appended finds installs => exact finds.fetchOnly.append installs.fetchOnly other found asked
  | closeRefused opened failed => exact absurd asked (failed.fetch_notMem other found)
  | closed opened flushed => exact absurd asked (flushed.fetch_notMem other found)
  | closeAllRefused perm failed => exact absurd asked (failed.fetch_notMem other found)
  | closedAll perm flushed => exact absurd asked (flushed.fetch_notMem other found)
  | positionUnread obtains => exact obtains.fetchOnly other found asked
  | positionBeyond obtains beyond => exact obtains.fetchOnly other found asked
  | positioned obtains pointer number => exact obtains.fetchOnly other found asked
  | readUnready readies => exact readies.fetchOnly other found asked
  | readBeyond readies beyond => exact readies.fetchOnly other found asked
  | reading readies pointer => exact readies.fetchOnly other found asked
  | writeRefused opened pointer failed =>
    cases failed with
    | refused none failure => simp at asked
  | writing opened pointer creates => cases creates <;> simp at asked
  | _ => simp at asked

theorem Finds.of_exposed {found : Except Fault (Option Bytes)}
    (finds : Finds session name calls found) (faithful : AllFaithful first held calls)
    (exposed : Exposed session.buffers held first name) :
    found = .ok ((held name).or (first name)) ∧
      applyAll calls held = Function.update held name ((held name).or (first name)) := by
  cases finds with
  | opened found =>
    obtain ⟨empty, unstored, unseeded⟩ := exposed _ found
    rw [unstored, unseeded, Option.none_or, ← unstored, Function.update_eq_self, unstored]
    exact ⟨congrArg Except.ok empty, rfl⟩
  | loaded closed loads => exact loads.of_faithful faithful

/-- A file without content that is replaced is not stored. -/
theorem Installs.of_exposed {recordLength : Nat} {content : Option Bytes}
    {installed : Except Fault Buffer} {stored : Contents}
    (installs : Installs session name recordLength content calls installed after)
    (faithful : AllFaithful first stored calls)
    (exposed : Exposed session.buffers held first name) :
    installed = .ok (.opened name recordLength content) ∧ applyAll calls stored = stored := by
  cases installs with
  | fresh closed => exact ⟨rfl, rfl⟩
  | replaced found flushed =>
    refine ⟨rfl, ?_⟩
    rw [flushed.applyAll, Buffer.settle, (exposed _ found).1]
  | refused found failed =>
    have succeeds := failed.of_faithful faithful
    cases succeeds

/-- A file is opened with what the store or the source has for it, which is stored by then. -/
theorem Effect.openFile_of_exposed {recordLength : Nat}
    (effect : Effect session (.openFile name recordLength) calls outcome after)
    (faithful : AllFaithful first held calls)
    (exposed : Exposed session.buffers held first name) :
    let content := (held name).or (first name)
    outcome = .ok () ∧
      after.buffers.find? name = some (.opened name recordLength content) ∧
      applyAll calls held name = content := by
  cases effect with
  | openUnread finds =>
    have succeeds := (finds.of_exposed faithful exposed).1
    cases succeeds
  | openRefused finds installs =>
    have succeeds := (installs.of_exposed (Peripherals.allFaithful_append.mp faithful).2 exposed).1
    cases succeeds
  | opened finds installs =>
    obtain ⟨loading, replacing⟩ := Peripherals.allFaithful_append.mp faithful
    obtain ⟨seen, stored⟩ := finds.of_exposed loading exposed
    cases seen
    obtain ⟨same, kept⟩ := installs.of_exposed replacing exposed
    cases same
    refine ⟨rfl, installs.found.2, ?_⟩
    rw [Peripherals.applyAll_append, kept, stored, Function.update_self]
  | idle relies other => cases relies
  | unmet relies same absent => cases relies

/-- What an operation leaves that succeeds: the session, and what the store holds then. -/
structure Leaves (outcome : Except Fault Unit) (after : Session) (stored : Contents)
    (session : Session) (held : Contents) : Prop where
  outcome : outcome = .ok ()
  session : after = session
  held : stored = held

/-- A file that is open is stored and discarded by a CLOSE. -/
theorem Effect.close_leaves (effect : Effect session (.close name) calls outcome after)
    (faithful : AllFaithful first held calls)
    (found : session.buffers.find? name = some buffer) :
    Leaves outcome after (applyAll calls held) (session.discard name) (buffer.settle held) := by
  cases effect with
  | closeAbsent closed => cases found.symm.trans closed
  | closeRefused opened failed =>
    have succeeds := failed.of_faithful faithful
    cases succeeds
  | closed opened flushed =>
    cases found.symm.trans opened
    exact ⟨rfl, rfl, flushed.applyAll⟩
  | idle relies other => cases relies
  | unmet relies same absent => cases relies

/-- A file is closed and its content stored. -/
theorem Effect.close_of_found (effect : Effect session (.close buffer.name) calls outcome after)
    (faithful : AllFaithful first held calls)
    (found : session.buffers.find? buffer.name = some buffer) :
    outcome = .ok () ∧ after.buffers.find? buffer.name = none ∧
      applyAll calls held buffer.name = buffer.bytes?.or (held buffer.name) := by
  obtain ⟨succeeds, discarded, stored⟩ := effect.close_leaves faithful found
  refine ⟨succeeds, ?_, ?_⟩
  · rw [discarded, Session.find?_discard, if_pos rfl]
  · rw [stored, Buffer.settle_apply, if_pos rfl]

/-- A file as a WRITE leaves it: with content, its pointer where output begins. -/
def written (buffer : Buffer) (record byte : Nat) : Buffer :=
  { buffer with
    content := some (buffer.content.getD .empty)
    filePointer := writeOffset buffer record byte
    recordNumber := record }

theorem Effect.write_of_found {record byte : Nat}
    (effect : Effect session (.write buffer.name record byte) calls outcome after)
    (faithful : AllFaithful first held calls)
    (found : session.buffers.find? buffer.name = some buffer)
    (pointer : writeOffset buffer record byte < offsetLimit) :
    outcome = .ok () ∧ after.redirection = .writing buffer.name ∧
      after.buffers.find? buffer.name = some (written buffer record byte) := by
  cases effect with
  | writeAbsent closed =>
    cases found.symm.trans closed
  | writeBeyond opened beyond =>
    cases found.symm.trans opened
    exact absurd pointer beyond
  | writeRefused opened fits failed =>
    cases failed with
    | refused none failure =>
      obtain ⟨stored, -⟩ := faithful
      cases stored
  | @writing _ _ _ _ _ content opened fits creates =>
    cases found.symm.trans opened
    have given : some content = some (buffer.content.getD .empty) := by
      cases creates with
      | kept present => rw [present]; rfl
      | created none => rw [none]; rfl
    rw [given]
    exact ⟨rfl, rfl, session.find?_keep_self _⟩
  | idle relies other => cases relies
  | unmet relies same absent => cases relies

/-- A file as a READ leaves it, its pointer where input begins. -/
def aimed (buffer : Buffer) (record byte : Nat) : Buffer :=
  { buffer with filePointer := byte + record * buffer.recordLength, recordNumber := record }

/-- A file that can be read: it is open and has content, or it is not open and the store has
content for it. -/
inductive Readable (session : Session) (held : Contents) : Buffer → Prop where
  | opened {buffer : Buffer} (found : session.buffers.find? buffer.name = some buffer)
    (content : buffer.content.isSome = true) : Readable session held buffer
  | stored {name : Name} {content : Bytes} (closed : session.buffers.find? name = none)
    (stored : held name = some content) : Readable session held (.opened name 0 (some content))

/-- Whether a file can be read depends on the open files alone, as far as the session goes. -/
theorem Readable.congr {session other : Session} {held : Contents} {buffer : Buffer}
    (readable : Readable session held buffer) (buffers : other.buffers = session.buffers) :
    Readable other held buffer := by
  cases readable with
  | opened found content => exact .opened (buffers ▸ found) content
  | stored closed stored => exact .stored (buffers ▸ closed) stored

theorem Readies.of_readable {ready : Except Fault Buffer}
    (readies : Readies session buffer.name calls ready after)
    (faithful : AllFaithful first held calls) (readable : Readable session held buffer) :
    ready = .ok buffer := by
  cases readable with
  | opened found content =>
    cases readies with
    | opened opened some =>
      cases found.symm.trans opened
      rfl
    | empty opened none =>
      cases found.symm.trans opened
      rw [none] at content
      cases content
    | loaded closed loads => cases found.symm.trans closed
    | absent closed loads => cases found.symm.trans closed
    | unread closed loads => cases found.symm.trans closed
  | @stored name content closed stored =>
    have loaded {found : Except Fault (Option Bytes)} (loads : Loads name calls found) :
        found = .ok (some content) := by
      rw [(loads.of_faithful faithful).1, stored]
      rfl
    cases readies with
    | opened opened some => cases closed.symm.trans opened
    | empty opened none => cases closed.symm.trans opened
    | loaded _ loads =>
      cases loaded loads
      rfl
    | absent _ loads => cases loaded loads
    | unread _ loads => cases loaded loads

theorem Readies.of_empty {ready : Except Fault Buffer}
    (readies : Readies session buffer.name calls ready after)
    (found : session.buffers.find? buffer.name = some buffer) (empty : buffer.content = none) :
    ready = .error .fileNotFound ∧ after = session ∧ calls = [] := by
  cases readies with
  | opened opened some =>
    cases found.symm.trans opened
    rw [empty] at some
    cases some
  | empty opened none => exact ⟨rfl, rfl, rfl⟩
  | loaded closed loads => cases found.symm.trans closed
  | absent closed loads => cases found.symm.trans closed
  | unread closed loads => cases found.symm.trans closed

theorem Effect.read_of_readable {record byte : Nat}
    (effect : Effect session (.read buffer.name record byte) calls outcome after)
    (faithful : AllFaithful first held calls) (readable : Readable session held buffer)
    (pointer : byte + record * buffer.recordLength < offsetLimit) :
    outcome = .ok () ∧ after.redirection = .reading buffer.name ∧
      after.buffers.find? buffer.name = some (aimed buffer record byte) := by
  cases effect with
  | readUnready readies => cases readies.of_readable faithful readable
  | readBeyond readies beyond =>
    cases readies.of_readable faithful readable
    exact absurd pointer beyond
  | @reading _ _ _ _ _ later readies fits =>
    cases readies.of_readable faithful readable
    exact ⟨rfl, rfl, later.find?_keep_self _⟩
  | idle relies other => cases relies
  | unmet relies same absent => cases relies

/-- An open file that has no content yet cannot be read. -/
theorem Effect.read_of_empty {record byte : Nat}
    (effect : Effect session (.read buffer.name record byte) calls outcome after)
    (found : session.buffers.find? buffer.name = some buffer) (empty : buffer.content = none) :
    outcome = .error .fileNotFound ∧ after = session ∧ calls = [] := by
  cases effect with
  | readUnready readies =>
    obtain ⟨same, kept, nothing⟩ := readies.of_empty found empty
    cases same
    exact ⟨rfl, kept, nothing⟩
  | readBeyond readies beyond => cases (readies.of_empty found empty).1
  | reading readies fits => cases (readies.of_empty found empty).1
  | idle relies other => cases relies
  | unmet relies same absent => cases relies

end TextFile

end DosText
