import DosText.Proofs.Consistency
import DosText.Proofs.StoredFiles

/-! The content of every file as a program sees it, wherever it is kept: in an open file, in the
store or still in the source. Files move between these places all the time, and the view of them
stays the same as long as an open file without content has none anywhere else. -/

namespace DosText

open Peripherals (Contents AllFaithful applyAll)

/-- The content of each name: that of its open file, else the stored one, else the first one. -/
def fileView (buffers : Catalog Name Buffer) (held first : Contents) : Contents := fun name =>
  ((buffers.find? name).bind Buffer.bytes?).or ((held name).or (first name))

/-- What the view of files rests on: files are listed under their own names, and an open file that
has no content has none in the store and in the source either. -/
structure Founded (buffers : Catalog Name Buffer) (held first : Contents) : Prop where
  named : ∀ name buffer, buffers.find? name = some buffer → buffer.name = name
  empty : ∀ name buffer, buffers.find? name = some buffer → buffer.bytes? = none →
    held name = none ∧ first name = none

/-- A change of open files and of the store that no program sees. -/
structure Keeps (first : Contents) (buffers : Catalog Name Buffer) (held : Contents)
    (later : Catalog Name Buffer) (stored : Contents) : Prop where
  founded : Founded later stored first
  view : fileView later stored first = fileView buffers held first

section Changes

variable {buffers later : Catalog Name Buffer} {held stored first : Contents} {name : Name}

theorem founded_empty (held first : Contents) : Founded .empty held first where
  named := nofun
  empty := nofun

/-- Files that are listed under their own names stay so. -/
theorem named_insert
    (named : ∀ name buffer, buffers.find? name = some buffer → buffer.name = name)
    {buffer : Buffer} (own : buffer.name = name) (other : Name) (opened : Buffer)
    (listed : (buffers.insert name buffer).find? other = some opened) : opened.name = other := by
  rw [Catalog.find?_insert] at listed
  split at listed
  · next same =>
    cases listed
    exact own.trans same.symm
  · exact named other opened listed

theorem Keeps.trans {last : Catalog Name Buffer} {kept : Contents}
    (begun : Keeps first buffers held later stored) (ended : Keeps first later stored last kept) :
    Keeps first buffers held last kept :=
  ⟨ended.founded, ended.view.trans begun.view⟩

namespace Founded

theorem refl (founded : Founded buffers held first) : Keeps first buffers held buffers held :=
  ⟨founded, rfl⟩

/-- The content of an open file is what a program sees of it, even if there is none. -/
theorem bytes?_eq (founded : Founded buffers held first) {buffer : Buffer}
    (found : buffers.find? name = some buffer) :
    buffer.bytes? = fileView buffers held first name := by
  unfold fileView
  rw [found, Option.bind_some]
  cases bytes? : buffer.bytes? with
  | some bytes => rfl
  | none =>
    obtain ⟨unstored, unseeded⟩ := founded.empty name buffer found bytes?
    rw [unstored, unseeded]
    rfl

/-- The first content of a name can be stored. -/
theorem load (founded : Founded buffers held first) (name : Name) :
    Keeps first buffers held buffers
      (Function.update held name ((held name).or (first name))) := by
  refine ⟨⟨founded.named, ?_⟩, ?_⟩
  · intro other buffer found bytes?
    obtain ⟨unstored, unseeded⟩ := founded.empty other buffer found bytes?
    refine ⟨?_, unseeded⟩
    rw [Function.update_apply]
    split
    · next same =>
      subst same
      rw [unstored, unseeded]
      rfl
    · exact unstored
  · funext other
    unfold fileView
    rw [Function.update_apply]
    split
    · next same =>
      subst same
      rw [Option.or_assoc, Option.or_self]
    · rfl

/-- An open file can be stored. -/
theorem settle (founded : Founded buffers held first) {buffer : Buffer}
    (found : buffers.find? name = some buffer) :
    Keeps first buffers held buffers (buffer.settle held) := by
  have own := founded.named name buffer found
  refine ⟨⟨founded.named, ?_⟩, ?_⟩
  · intro other opened listed bytes?
    obtain ⟨unstored, unseeded⟩ := founded.empty other opened listed bytes?
    refine ⟨?_, unseeded⟩
    rw [Buffer.settle_apply, own]
    split
    · next same =>
      subst same
      rw [found] at listed
      cases listed
      rw [bytes?, unstored]
      rfl
    · exact unstored
  · funext other
    unfold fileView
    rw [Buffer.settle_apply, own]
    split
    · next same =>
      subst same
      rw [found, Option.bind_some, ← Option.or_assoc, ← Option.or_assoc, Option.or_self,
        Option.or_assoc]
    · rfl

/-- A file can be put in place if its content is what a program sees anyway. -/
theorem insert (founded : Founded buffers held first) {buffer : Buffer}
    (named : buffer.name = name) (same : buffer.bytes? = fileView buffers held first name) :
    Keeps first buffers held (buffers.insert name buffer) held := by
  refine ⟨⟨named_insert founded.named named, ?_⟩, ?_⟩
  · intro other opened listed bytes?
    rw [Catalog.find?_insert] at listed
    split at listed
    · next own =>
      cases listed
      subst own
      rw [same, fileView, Option.or_eq_none_iff, Option.or_eq_none_iff] at bytes?
      exact bytes?.2
    · exact founded.empty other opened listed bytes?
  · funext other
    by_cases own : other = name
    · subst own
      rw [fileView, Catalog.find?_insert_self, Option.bind_some, same, fileView, Option.or_assoc,
        Option.or_self]
    · rw [fileView, Catalog.find?_insert, if_neg own]
      rfl

/-- An open file can be changed as long as its content stays. -/
theorem replace (founded : Founded buffers held first)
    {buffer changed : Buffer} (found : buffers.find? name = some buffer)
    (named : changed.name = buffer.name) (same : changed.content = buffer.content) :
    Keeps first buffers held (buffers.insert changed.name changed) held := by
  have own := founded.named name buffer found
  rw [named, own]
  refine founded.insert (named.trans own) ?_
  rw [← founded.bytes?_eq found, Buffer.bytes?, same]
  rfl

/-- An open file can be stored and discarded. -/
theorem close (founded : Founded buffers held first) {buffer : Buffer}
    (found : buffers.find? name = some buffer) :
    Keeps first buffers held (buffers.erase name) (buffer.settle held) := by
  have own := founded.named name buffer found
  have settled := (founded.settle found).founded
  refine ⟨⟨?_, ?_⟩, ?_⟩
  · intro other opened listed
    rw [Catalog.find?_erase] at listed
    split at listed
    · cases listed
    · exact settled.named other opened listed
  · intro other opened listed bytes?
    rw [Catalog.find?_erase] at listed
    split at listed
    · cases listed
    · exact settled.empty other opened listed bytes?
  · funext other
    unfold fileView
    rw [Catalog.find?_erase, Buffer.settle_apply, own]
    split
    · next same =>
      subst same
      rw [found, Option.bind_none, Option.none_or, Option.bind_some, Option.or_assoc]
    · rfl

/-- All open files can be stored and discarded, in whatever order. -/
theorem closeAll (founded : Founded buffers held first) {visited : List Buffer}
    (perm : visited.Perm (buffers.entries.map Prod.snd)) :
    Keeps first buffers held .empty (Buffer.settleAll visited held) := by
  refine ⟨founded_empty _ _, ?_⟩
  funext name
  unfold fileView
  rw [Catalog.find?_empty, Buffer.settleAll_visited founded.named perm, Option.bind_none,
    Option.none_or, Option.or_assoc]

/-- Whatever content a file is given, the view stays founded. -/
theorem renew (founded : Founded buffers held first) {buffer : Buffer} {bytes : Bytes}
    (named : buffer.name = name) (bytes? : buffer.bytes? = some bytes) :
    Founded (buffers.insert name buffer) held first where
  named := named_insert founded.named named
  empty := by
    intro other opened listed missing
    rw [Catalog.find?_insert] at listed
    split at listed
    · cases listed
      rw [bytes?] at missing
      cases missing
    · exact founded.empty other opened listed missing

/-- Nor is it shaken by what is stored under a name, unless a file is open there and empty. -/
theorem store (founded : Founded buffers held first) (content : Bytes)
    (safe : ∀ buffer, buffers.find? name = some buffer → buffer.bytes? ≠ none) :
    Founded buffers (Function.update held name (some content)) first where
  named := founded.named
  empty := by
    intro other buffer found bytes?
    have differ : other ≠ name := by
      rintro rfl
      exact safe buffer found bytes?
    rw [Function.update_apply, if_neg differ]
    exact founded.empty other buffer found bytes?

theorem remove (founded : Founded buffers held first) (name : Name) :
    Founded buffers (Function.update held name none) first where
  named := founded.named
  empty := by
    intro other buffer found bytes?
    obtain ⟨unstored, unseeded⟩ := founded.empty other buffer found bytes?
    refine ⟨?_, unseeded⟩
    rw [Function.update_apply, unstored, ite_self]

end Founded

theorem fileView_insert_of_ne {other : Name} (differ : other ≠ name) (buffer : Buffer) :
    fileView (buffers.insert name buffer) held first other = fileView buffers held first other := by
  unfold fileView
  rw [Catalog.find?_insert, if_neg differ]

theorem fileView_update_of_ne {other : Name} (differ : other ≠ name) (content : Option Bytes) :
    fileView buffers (Function.update held name content) first other =
      fileView buffers held first other := by
  unfold fileView
  rw [Function.update_apply, if_neg differ]

end Changes

namespace TextFile

variable {session after : Session} {name : Name} {calls : List Peripherals.Call}
variable {held first : Contents}

/-- Where nothing fails, what is loaded is what the store has or else the source, and the store has
it from then on. -/
theorem Loads.of_faithful {outcome : Except Fault (Option Bytes)}
    (loads : Loads name calls outcome) (faithful : AllFaithful first held calls) :
    outcome = .ok ((held name).or (first name)) ∧
      applyAll calls held = Function.update held name ((held name).or (first name)) := by
  cases loads with
  | stored content =>
    obtain ⟨got, -⟩ := faithful
    have stored : some content = held name := Except.ok.inj got
    rw [← stored, Option.some_or, stored, Function.update_eq_self]
    exact ⟨rfl, rfl⟩
  | absent =>
    obtain ⟨got, fetched, -⟩ := faithful
    have unstored : none = held name := Except.ok.inj got
    have unseeded : none = first name := Except.ok.inj fetched
    rw [← unseeded, ← unstored, Option.or_none, unstored, Function.update_eq_self]
    exact ⟨rfl, rfl⟩
  | seeded content =>
    obtain ⟨got, fetched, -⟩ := faithful
    have unstored : none = held name := Except.ok.inj got
    have seeded : some content = first name := Except.ok.inj fetched
    rw [← seeded, ← unstored, Option.none_or]
    exact ⟨rfl, rfl⟩
  | unread failure =>
    obtain ⟨got, -⟩ := faithful
    cases got
  | unfetched failure =>
    obtain ⟨-, fetched, -⟩ := faithful
    cases fetched
  | unstored content failure =>
    obtain ⟨-, -, stored, -⟩ := faithful
    cases stored

theorem Flushes.of_faithful {buffer : Buffer} {outcome : Except Fault Unit}
    (flushes : Flushes buffer calls outcome) (faithful : AllFaithful first held calls) :
    outcome = .ok () := by
  cases flushes with
  | empty none => rfl
  | stored some => rfl
  | refused some failure =>
    obtain ⟨stored, -⟩ := faithful
    cases stored

theorem FlushesAll.of_faithful {buffers : List Buffer} {outcome : Except Fault Unit}
    (flushes : FlushesAll buffers calls outcome) (faithful : AllFaithful first held calls) :
    outcome = .ok () := by
  induction flushes generalizing held with
  | nil => rfl
  | cons flushed others ih => exact ih (Peripherals.allFaithful_append.mp faithful).2
  | refused failed =>
    have succeeds := failed.of_faithful faithful
    cases succeeds

/-- The content that the system finds is what a program sees. -/
theorem Finds.of_faithful {outcome : Except Fault (Option Bytes)}
    (finds : Finds session name calls outcome) (founded : Founded session.buffers held first)
    (faithful : AllFaithful first held calls) :
    outcome = .ok (fileView session.buffers held first name) ∧
      Keeps first session.buffers held session.buffers (applyAll calls held) := by
  cases finds with
  | opened found =>
    rw [← founded.bytes?_eq found]
    exact ⟨rfl, founded.refl⟩
  | loaded closed loads =>
    obtain ⟨same, stored⟩ := loads.of_faithful faithful
    rw [same, stored, fileView, closed]
    exact ⟨rfl, founded.load name⟩

theorem bytes?_opened (name : Name) (recordLength : Nat) (content : Option Bytes) :
    (Buffer.opened name recordLength content).bytes? = content := by
  cases content with
  | none => rfl
  | some bytes => exact congrArg some (PackedBytes.toBytes_ofBytes bytes)

/-- A file that is opened with what a program sees of it leaves the view alone. -/
theorem Installs.of_faithful {recordLength : Nat} {content : Option Bytes}
    {outcome : Except Fault Buffer}
    (installs : Installs session name recordLength content calls outcome after)
    (founded : Founded session.buffers held first) (faithful : AllFaithful first held calls)
    (seen : content = fileView session.buffers held first name) :
    outcome = .ok (.opened name recordLength content) ∧
      Keeps first session.buffers held after.buffers (applyAll calls held) := by
  cases installs with
  | fresh closed =>
    exact ⟨rfl, founded.insert rfl ((bytes?_opened name recordLength content).trans seen)⟩
  | replaced found flushed =>
    refine ⟨rfl, ?_⟩
    have closed := founded.close found
    rw [flushed.applyAll]
    refine closed.trans ?_
    rw [← closed.view] at seen
    have opened := closed.founded.insert rfl
      ((bytes?_opened name recordLength content).trans seen)
    simpa only [Session.keep, Session.buffers_discard] using opened
  | refused found failed =>
    have succeeds := failed.of_faithful faithful
    cases succeeds

theorem Obtains.of_faithful {outcome : Except Fault Buffer}
    (obtains : Obtains session name calls outcome after)
    (founded : Founded session.buffers held first) (faithful : AllFaithful first held calls) :
    Keeps first session.buffers held after.buffers (applyAll calls held) := by
  cases obtains with
  | opened found => exact founded.refl
  | loaded closed loads =>
    have finds : Finds session name calls _ := .loaded closed loads
    obtain ⟨same, kept⟩ := finds.of_faithful founded faithful
    have seen := (Except.ok.inj same).trans (congrFun kept.view name).symm
    exact kept.trans (kept.founded.insert rfl ((bytes?_opened _ _ _).trans seen))
  | unread closed loads =>
    have succeeds := (loads.of_faithful faithful).1
    cases succeeds

theorem Readies.of_faithful {outcome : Except Fault Buffer}
    (readies : Readies session name calls outcome after)
    (founded : Founded session.buffers held first) (faithful : AllFaithful first held calls) :
    Keeps first session.buffers held after.buffers (applyAll calls held) := by
  cases readies with
  | opened found some => exact founded.refl
  | empty found none => exact founded.refl
  | loaded closed loads =>
    have obtains : Obtains session name calls _ _ := .loaded closed loads
    exact obtains.of_faithful founded faithful
  | absent closed loads =>
    have finds : Finds session name calls _ := .loaded closed loads
    exact (finds.of_faithful founded faithful).2
  | unread closed loads =>
    have succeeds := (loads.of_faithful faithful).1
    cases succeeds

/-- The names whose content an operation can change for a program. -/
def Operation.Changes (redirection : Redirection) : Operation → Name → Prop
  | .write name _ _, other => other = name
  | .writeCharacter _, other => redirection = .writing other
  | .delete name, other => other = name
  | .rename source target, other => other = source ∨ other = target
  | _, _ => False

/-- Whether an operation stores a file under the name of one that is open. -/
def Operation.Overwrites (buffers : Catalog Name Buffer) : Operation → Prop
  | .rename _ target => buffers.find? target ≠ none
  | _ => False

/-- A file whose place is taken by one that is opened with the same content. -/
theorem Finds.installs_of_faithful {recordLength : Nat} {content : Option Bytes}
    {more : List Peripherals.Call} {outcome : Except Fault Buffer}
    (finds : Finds session name calls (.ok content))
    (installs : Installs session name recordLength content more outcome after)
    (founded : Founded session.buffers held first)
    (faithful : AllFaithful first held (calls ++ more)) :
    Keeps first session.buffers held after.buffers (applyAll (calls ++ more) held) := by
  obtain ⟨found, opened⟩ := Peripherals.allFaithful_append.mp faithful
  obtain ⟨same, kept⟩ := finds.of_faithful founded found
  have seen := (Except.ok.inj same).trans (congrFun kept.view name).symm
  rw [Peripherals.applyAll_append]
  exact kept.trans (installs.of_faithful kept.founded opened seen).2

/-- An operation that can change nothing, where nothing fails, leaves the view of every file. -/
theorem Effect.keeps_of_faithful {operation : Operation} {outcome : Except Fault Unit}
    (effect : Effect session operation calls outcome after)
    (founded : Founded session.buffers held first) (faithful : AllFaithful first held calls)
    (quiet : ∀ name, ¬operation.Changes session.redirection name) :
    Keeps first session.buffers held after.buffers (applyAll calls held) := by
  cases effect with
  | openUnread finds => exact (finds.of_faithful founded faithful).2
  | openRefused finds installs => exact finds.installs_of_faithful installs founded faithful
  | opened finds installs => exact finds.installs_of_faithful installs founded faithful
  | appendUnread finds => exact (finds.of_faithful founded faithful).2
  | appendAbsent finds => exact (finds.of_faithful founded faithful).2
  | appendRefused finds installs => exact finds.installs_of_faithful installs founded faithful
  | appended finds installs =>
    have kept := finds.installs_of_faithful installs founded faithful
    exact kept.trans (kept.founded.replace installs.found.2 rfl rfl)
  | closeAbsent closed => exact founded.refl
  | closeRefused found failed =>
    have succeeds := failed.of_faithful faithful
    cases succeeds
  | closed found flushed =>
    rw [flushed.applyAll, Session.buffers_discard]
    exact founded.close found
  | closeAllRefused perm failed =>
    have succeeds := failed.of_faithful faithful
    cases succeeds
  | closedAll perm flushed =>
    rw [flushed.applyAll]
    exact founded.closeAll perm
  | positionUnread obtains => exact obtains.of_faithful founded faithful
  | positionBeyond obtains beyond => exact obtains.of_faithful founded faithful
  | positioned obtains pointer number =>
    have kept := obtains.of_faithful founded faithful
    exact kept.trans (kept.founded.replace obtains.found rfl rfl)
  | readUnready readies => exact readies.of_faithful founded faithful
  | readBeyond readies beyond => exact readies.of_faithful founded faithful
  | reading readies pointer =>
    have kept := readies.of_faithful founded faithful
    exact kept.trans (kept.founded.replace readies.found.1 rfl rfl)
  | deactivated => exact founded.refl
  | idle relies other => exact founded.refl
  | unmet relies same absent => exact founded.refl
  | characterEnd redirected ended => exact founded.refl
  | characterRead redirected read =>
    obtain ⟨before, found, same⟩ := readByte_keeps read
    rw [same]
    exact founded.replace found rfl rfl
  | lineEnd redirected ended => exact founded.refl
  | lineRead redirected read =>
    obtain ⟨before, found, same⟩ := readLine_keeps read
    rw [same]
    exact founded.replace found rfl rfl
  | characterRefused redirected refused => exact absurd redirected (quiet _)
  | characterWritten redirected modest wrote => exact absurd redirected (quiet _)
  | renameUnread failure => exact absurd (Or.inl rfl) (quiet _)
  | renameAbsent => exact absurd (Or.inl rfl) (quiet _)
  | renameSame content same => exact absurd (Or.inl rfl) (quiet _)
  | renameRefused content differ failure => exact absurd (Or.inl rfl) (quiet _)
  | renameHalf content differ failure => exact absurd (Or.inl rfl) (quiet _)
  | renamed content differ => exact absurd (Or.inl rfl) (quiet _)
  | _ => exact absurd rfl (quiet _)

/-- A WRITE gives a file that has no content the empty one, and changes nothing else. -/
theorem Effect.write_of_faithful {record byte : Nat} {outcome : Except Fault Unit}
    (effect : Effect session (.write name record byte) calls outcome after)
    (founded : Founded session.buffers held first) (faithful : AllFaithful first held calls) :
    Founded after.buffers (applyAll calls held) first ∧
      (∀ other, other ≠ name → fileView after.buffers (applyAll calls held) first other =
        fileView session.buffers held first other) ∧
      (fileView after.buffers (applyAll calls held) first name =
          fileView session.buffers held first name ∨
        fileView session.buffers held first name = none ∧
          fileView after.buffers (applyAll calls held) first name = some []) := by
  cases effect with
  | writeAbsent closed => exact ⟨founded, fun _ _ => rfl, .inl rfl⟩
  | writeBeyond found beyond => exact ⟨founded, fun _ _ => rfl, .inl rfl⟩
  | writeRefused found pointer failed =>
    cases failed with
    | refused none failure =>
      obtain ⟨stored, -⟩ := faithful
      cases stored
  | @writing _ _ _ buffer _ content found pointer creates =>
    have own := founded.named name buffer found
    let positioned : Buffer := { buffer with
      content := some content
      filePointer := writeOffset buffer record byte
      recordNumber := record }
    cases creates with
    | kept some =>
      have kept : Keeps first session.buffers held
        (session.buffers.insert positioned.name positioned) held :=
          founded.replace found rfl some.symm
      exact ⟨kept.founded, fun other _ => congrFun kept.view other, .inl (congrFun kept.view name)⟩
    | created none =>
      have bytes? : positioned.bytes? = some [] := rfl
      have renewed : Founded (session.buffers.insert name positioned) held first :=
        founded.renew own bytes?
      have before : fileView session.buffers held first name = Option.none := by
        rw [← founded.bytes?_eq found, Buffer.bytes?, none]
        rfl
      subst own
      refine ⟨renewed.store [] ?_, ?_, .inr ⟨before, ?_⟩⟩
      · intro listed there
        rw [Catalog.find?_insert_self] at there
        cases there
        rw [bytes?]
        exact Option.some_ne_none []
      · intro other differ
        exact (fileView_update_of_ne differ _).trans (fileView_insert_of_ne differ positioned)
      · have seen : (session.buffers.insert buffer.name positioned).find? buffer.name =
          some positioned := Catalog.find?_insert_self _ _ _
        show fileView (session.buffers.insert buffer.name positioned) _ first buffer.name = _
        rw [fileView, seen]
        rfl
  | idle relies other => cases relies
  | unmet relies same absent => cases relies

theorem Effect.writeCharacter_of_faithful {byte : UInt8} {outcome : Except Fault Unit}
    (effect : Effect session (.writeCharacter byte) calls outcome after)
    (founded : Founded session.buffers held first) :
    Founded after.buffers (applyAll calls held) first ∧
      ∀ other, session.redirection ≠ .writing other →
        fileView after.buffers (applyAll calls held) first other =
          fileView session.buffers held first other := by
  cases effect with
  | idle relies other => exact ⟨founded, fun _ _ => rfl⟩
  | unmet relies same absent => exact ⟨founded, fun _ _ => rfl⟩
  | characterRefused redirected refused => exact ⟨founded, fun _ _ => rfl⟩
  | @characterWritten name _ _ written redirected modest wrote =>
    obtain ⟨before, found, present, same⟩ := writeByte_keeps wrote
    have own : written.name = name := by
      rw [same]
      exact founded.named name before found
    obtain ⟨content, content?⟩ := Option.isSome_iff_exists.mp present
    have bytes? : written.bytes? = some content.toBytes := by
      rw [Buffer.bytes?, content?]
      rfl
    refine ⟨founded.renew rfl bytes?, ?_⟩
    intro other elsewhere
    refine fileView_insert_of_ne ?_ written
    rintro rfl
    exact elsewhere (own ▸ redirected)

theorem Effect.delete_of_faithful {outcome : Except Fault Unit}
    (effect : Effect session (.delete name) calls outcome after)
    (founded : Founded session.buffers held first) :
    Founded after.buffers (applyAll calls held) first ∧
      ∀ other, other ≠ name → fileView after.buffers (applyAll calls held) first other =
        fileView session.buffers held first other := by
  cases effect with
  | deleted content =>
    exact ⟨founded.remove name, fun other differ => fileView_update_of_ne differ none⟩
  | _ => exact ⟨founded, fun _ _ => rfl⟩

theorem Effect.rename_of_faithful {source target : Name} {outcome : Except Fault Unit}
    (effect : Effect session (.rename source target) calls outcome after)
    (founded : Founded session.buffers held first) (faithful : AllFaithful first held calls) :
    (session.buffers.find? target = none → Founded after.buffers (applyAll calls held) first) ∧
      ∀ other, other ≠ source → other ≠ target →
        fileView after.buffers (applyAll calls held) first other =
          fileView session.buffers held first other := by
  cases effect with
  | renameHalf content differ failure =>
    obtain ⟨-, -, removed, -⟩ := faithful
    cases removed
  | renamed content differ =>
    constructor
    · intro closed
      have safe : ∀ buffer, session.buffers.find? target = some buffer → buffer.bytes? ≠ none := by
        rw [closed]
        nofun
      exact (founded.store content safe).remove source
    · intro other left right
      exact (fileView_update_of_ne left none).trans (fileView_update_of_ne right _)
  | _ => exact ⟨fun _ => founded, fun _ _ _ => rfl⟩

/-- What an operation leaves where nothing fails: the view of every name that it cannot change,
and what that view rests on. -/
theorem Effect.of_faithful {operation : Operation} {outcome : Except Fault Unit}
    (effect : Effect session operation calls outcome after)
    (founded : Founded session.buffers held first) (faithful : AllFaithful first held calls) :
    (¬operation.Overwrites session.buffers →
      Founded after.buffers (applyAll calls held) first) ∧
      ∀ name, ¬operation.Changes session.redirection name →
        fileView after.buffers (applyAll calls held) first name =
          fileView session.buffers held first name := by
  cases operation with
  | write name record byte =>
    obtain ⟨kept, others, _⟩ := effect.write_of_faithful founded faithful
    exact ⟨fun _ => kept, others⟩
  | writeCharacter byte =>
    obtain ⟨kept, others⟩ := effect.writeCharacter_of_faithful founded
    exact ⟨fun _ => kept, others⟩
  | delete name =>
    obtain ⟨kept, others⟩ := effect.delete_of_faithful founded
    exact ⟨fun _ => kept, others⟩
  | rename source target =>
    obtain ⟨kept, others⟩ := effect.rename_of_faithful founded faithful
    exact ⟨fun spared => kept (not_not.mp spared),
      fun other elsewhere => others other (elsewhere ∘ .inl) (elsewhere ∘ .inr)⟩
  | _ =>
    have kept := effect.keeps_of_faithful founded faithful fun _ => id
    exact ⟨fun _ => kept.founded, fun name _ => congrFun kept.view name⟩

/-- Whether an operation closes the file of a name. -/
def Operation.Closes : Operation → Name → Prop
  | .close name, other => other = name
  | .closeAll, _ => True
  | _, _ => False

theorem Operation.mode?_of_closes {operation : Operation} (closes : operation.Closes name) :
    operation.mode? = none := by
  cases operation <;> first | rfl | cases closes

/-- A file that is closed is stored as a program sees it. -/
theorem Effect.stores_of_closes {operation : Operation} {buffer : Buffer}
    (effect : Effect session operation calls (.ok ()) after)
    (founded : Founded session.buffers held first) (closes : operation.Closes name)
    (found : session.buffers.find? name = some buffer) (content : buffer.content.isSome = true) :
    applyAll calls held name = fileView session.buffers held first name := by
  obtain ⟨packed, content?⟩ := Option.isSome_iff_exists.mp content
  have bytes? : buffer.bytes? = some packed.toBytes := by
    rw [Buffer.bytes?, content?]
    rfl
  rw [← founded.bytes?_eq found, bytes?]
  cases effect with
  | closeAbsent closed =>
    cases closes
    rw [found] at closed
    cases closed
  | closed opened flushed =>
    cases closes
    rw [found] at opened
    cases opened
    rw [flushed.applyAll, Buffer.settle_apply, founded.named name buffer found, if_pos rfl, bytes?,
      Option.some_or]
  | closedAll perm flushed =>
    rw [flushed.applyAll, Buffer.settleAll_visited founded.named perm, found, Option.bind_some,
      bytes?, Option.some_or]
  | idle relies other => cases (Operation.mode?_of_closes closes).symm.trans relies
  | _ => cases closes

end TextFile

/-- The names whose content an event can change for a program. -/
def Event.Changes {Receiver : Type} (session : Session) (event : Event Receiver) (name : Name) :
    Prop :=
  event.Discards ∨ ∃ operation, event.operation? session = some operation ∧
    operation.Changes session.redirection name

/-- Whether an event renames no file to the name of one that is open. -/
def Event.SparesOpen {Receiver : Type} (session : Session) (event : Event Receiver) : Prop :=
  ∀ operation, event.operation? session = some operation → ¬operation.Overwrites session.buffers

theorem Event.sparesOpen_of {Receiver : Type} {session : Session} {event : Event Receiver}
    {operation : TextFile.Operation} (comes : event.operation? session = some operation)
    (spares : ¬operation.Overwrites session.buffers) : event.SparesOpen session := by
  intro other same
  rw [comes] at same
  cases same
  exact spares

theorem Peripherals.applyAll_elsewhere {calls : List Call} {held : Contents}
    (elsewhere : ∀ call ∈ calls, ¬call.IsOfFiles) : applyAll calls held = held := by
  induction calls with
  | nil => rfl
  | cons call rest ih =>
    have here := elsewhere call List.mem_cons_self
    have nothing : call.apply held = held := by
      cases call <;> first | rfl | exact absurd trivial here
    rw [applyAll_cons, nothing]
    exact ih fun other member => elsewhere other (List.mem_cons_of_mem call member)

theorem Event.Effect.of_faithful {Receiver : Type} {session after : Session}
    {event : Event Receiver} {calls : List Peripherals.Call} {outcome : Except Fault Unit}
    {held first : Contents} (effect : event.Effect session calls outcome after)
    (founded : Founded session.buffers held first) (faithful : AllFaithful first held calls) :
    (event.SparesOpen session → Founded after.buffers (applyAll calls held) first) ∧
      ∀ name, ¬event.Changes session name →
        fileView after.buffers (applyAll calls held) first name =
          fileView session.buffers held first name := by
  cases effect with
  | operated operates typed effect =>
    obtain ⟨kept, others⟩ := effect.of_faithful founded faithful
    refine ⟨fun spares => kept (spares _ operates), ?_⟩
    intro name elsewhere
    exact others name fun changes => elsewhere (.inr ⟨_, operates, changes⟩)
  | aside idle keeps elsewhere buffers active mode typed =>
    rw [buffers, Peripherals.applyAll_elsewhere elsewhere]
    exact ⟨fun _ => founded, fun _ _ => rfl⟩
  | discarded monitor idle discards =>
    exact ⟨fun _ => founded_empty _ _, fun name elsewhere => absurd (.inl discards) elsewhere⟩

theorem Event.Effect.operation {Receiver : Type} {session after : Session}
    {event : Event Receiver} {calls : List Peripherals.Call} {outcome : Except Fault Unit}
    (effect : event.Effect session calls outcome after) {operation : TextFile.Operation}
    (comes : event.operation? session = some operation) : ∃ commandMode command,
      (session.TypesInside → Session.TypesInside { session with commandMode, command }) ∧
      TextFile.Effect { session with commandMode, command } operation calls outcome after := by
  cases effect with
  | operated operates typed effect =>
    rw [comes] at operates
    cases operates
    exact ⟨_, _, typed, effect⟩
  | aside idle keeps elsewhere buffers active mode typed =>
    rw [comes] at idle
    cases idle
  | discarded monitor idle discards =>
    rw [comes] at idle
    cases idle

variable {Devices Receiver : Type} {peripherals : Peripherals Devices}
variable {held : Devices → Contents} {first : Contents}

/-- What the view of files rests on holds of every system reached, if it holds at the start. -/
theorem Dos.Reaches.founded (reliable : peripherals.Reliable held first)
    {start dos : Dos Devices Receiver}
    (reached : start.Reaches peripherals Event.SparesOpen dos)
    (begun : Founded start.machine.session.buffers (held start.machine.devices) first) :
    Founded dos.machine.session.buffers (held dos.machine.devices) first := by
  induction reached with
  | refl => exact begun
  | @step dos reached event spares ih =>
    obtain ⟨calls, effect, served⟩ := event.run_effect peripherals dos
    rw [reliable.toSound.serves served]
    exact (effect.of_faithful ih (reliable.allFaithful served)).1 spares

/-- What a program sees of its files where nothing fails. Only a WRITE, a character that is written,
a DELETE, a RENAME and a reset can change it, and only for the names concerned, whether they
succeed or not; a WRITE at most gives a file that was not there the empty content. A file that is
closed is stored as the program saw it. -/
theorem Dos.Reaches.fileView_run (reliable : peripherals.Reliable held first)
    {start dos : Dos Devices Receiver}
    (reached : start.Reaches peripherals Event.SparesOpen dos)
    (fresh : start.machine.session.buffers = .empty) (event : Event Receiver) :
    let before := dos.machine.session
    let outcome := (event.run peripherals dos).1
    let later := (event.run peripherals dos).2.machine
    let saw := fileView before.buffers (held dos.machine.devices) first
    let sees := fileView later.session.buffers (held later.devices) first
    (∀ name, ¬event.Changes before name → sees name = saw name) ∧
      (∀ name record byte, event.operation? before = some (.write name record byte) →
        sees name = saw name ∨ saw name = none ∧ sees name = some []) ∧
      ∀ operation name buffer, event.operation? before = some operation →
        operation.Closes name → outcome = .ok () →
        before.buffers.find? name = some buffer → buffer.content.isSome = true →
        held later.devices name = saw name := by
  have begun : Founded start.machine.session.buffers (held start.machine.devices) first := by
    rw [fresh]
    exact founded_empty _ _
  have founded := reached.founded reliable begun
  obtain ⟨calls, effect, served⟩ := event.run_effect peripherals dos
  have faithful := reliable.allFaithful served
  intro before outcome later saw sees
  have stored : held later.devices = applyAll calls (held dos.machine.devices) :=
    reliable.toSound.serves served
  refine ⟨?_, ?_, ?_⟩
  · intro name elsewhere
    show fileView later.session.buffers (held later.devices) first name = _
    rw [stored]
    exact (effect.of_faithful founded faithful).2 name elsewhere
  · intro name record byte writes
    show fileView later.session.buffers (held later.devices) first name = _ ∨
      _ ∧ fileView later.session.buffers (held later.devices) first name = _
    rw [stored]
    obtain ⟨_, _, _, wrote⟩ := effect.operation writes
    exact (wrote.write_of_faithful founded faithful).2.2
  · intro operation name buffer comes closes done found content
    rw [stored]
    obtain ⟨_, _, _, closed⟩ := effect.operation comes
    rw [show (event.run peripherals dos).1 = .ok () from done] at closed
    exact closed.stores_of_closes founded closes found content

/-- A file that is made, written to and closed is in the store. -/
theorem fileView_run_closing : ∃ dos : Dos (Catalog Name Bytes) Unit,
    (Dos.initial 0 .empty).Reaches (.inMemory .empty .none) Event.SparesOpen dos ∧
      fileView dos.machine.session.buffers dos.machine.devices.find? (fun _ => none) (ascii "A") =
        some (ascii "x") ∧
      ((Event.file (.close (ascii "A"))).run (.inMemory .empty .none) dos).2.machine.devices.find?
        (ascii "A") = some (ascii "x") := by
  have begun : (Dos.initial 0 .empty : Dos (Catalog Name Bytes) Unit).Reaches
    (.inMemory .empty .none) Event.SparesOpen _ := .refl
  have opened := begun.step (.file (.openFile (ascii "A") 0)) (Event.sparesOpen_of rfl id)
  have writing := opened.step (.file (.write (ascii "A") 0 0)) (Event.sparesOpen_of rfl id)
  have written := writing.step (.terminal (.print 0x78)) (Event.sparesOpen_of rfl id)
  obtain ⟨_, _, closed⟩ := Dos.Reaches.fileView_run (Peripherals.reliable_inMemory .empty) written
    rfl (.file (.close (ascii "A")))
  have stored := closed (.close (ascii "A")) (ascii "A") _ rfl rfl rfl rfl rfl
  exact ⟨_, written, rfl, stored⟩

end DosText
