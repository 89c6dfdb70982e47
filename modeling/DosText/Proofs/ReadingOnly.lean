import DosText.Proofs.Consistency
import DosText.Proofs.FirstContents
import DosText.Proofs.FileView

/-! Sessions in which files are only read. Open files are written back as they are closed and as
they are opened again, so that the store keeps its contents only because each open file has the
content that is stored under its name. Operations that only read leave every open file in that
state, whatever fails. -/

namespace DosText

open Peripherals (Contents)

namespace Peripherals

/-- Whether a store has gone from one set of contents to another by first contents alone: what was
stored is still stored, and what is new was obtained by one of the calls. -/
def Seeds (calls : List Call) (held kept : Contents) : Prop :=
  ∀ name, kept name = held name ∨
    held name = none ∧ ∃ content, kept name = some content ∧
      .fetch name (.ok (some content)) ∈ calls

variable {calls begun ended : List Call} {held between kept : Contents} {name : Name}

theorem seeds_of_eq (same : kept = held) : Seeds calls held kept :=
  fun name => .inl (congrFun same name)

theorem Seeds.stored {content : Bytes} (seeds : Seeds calls held kept)
    (stored : held name = some content) : kept name = some content := by
  rcases seeds name with same | ⟨absent, _⟩
  · rw [same, stored]
  · rw [absent] at stored
    cases stored

theorem Seeds.append (before : Seeds begun held between) (behind : Seeds ended between kept) :
    Seeds (begun ++ ended) held kept := by
  intro name
  rcases behind name with same | ⟨absent, content, stored, fetched⟩
  · rcases before name with earlier | ⟨absent, content, stored, fetched⟩
    · exact .inl (same.trans earlier)
    · exact .inr ⟨absent, content, same.trans stored, List.mem_append_left _ fetched⟩
  · refine .inr ⟨?_, content, stored, List.mem_append_right _ fetched⟩
    rcases before name with earlier | ⟨_, other, seeded, _⟩
    · exact earlier.symm.trans absent
    · rw [seeded] at absent
      cases absent

end Peripherals

open Peripherals (Seeds seeds_of_eq)

/-- Whether every open file is listed under its own name and has the content that is stored under
that name, as far as it has any. -/
structure Session.Clean (session : Session) (held : Contents) : Prop where
  named : ∀ name buffer, session.buffers.find? name = some buffer → buffer.name = name
  stored : ∀ name buffer bytes, session.buffers.find? name = some buffer →
    buffer.bytes? = some bytes → held name = some bytes

namespace Session

variable {session other : Session} {held kept : Contents} {buffer changed : Buffer} {name : Name}
variable {calls : List Peripherals.Call}

theorem clean_of_empty (empty : session.buffers = .empty) (held : Contents) :
    session.Clean held where
  named := by simp [empty]
  stored := by simp [empty]

theorem Clean.congr (clean : session.Clean held) (same : other.buffers = session.buffers) :
    other.Clean held where
  named := by simpa only [same] using clean.named
  stored := by simpa only [same] using clean.stored

/-- First contents that are stored meanwhile concern no open file that has content. -/
theorem Clean.seeded (clean : session.Clean held) (seeds : Seeds calls held kept) :
    session.Clean kept where
  named := clean.named
  stored name buffer bytes found bytes? :=
    seeds.stored (clean.stored name buffer bytes found bytes?)

theorem Clean.keep (clean : session.Clean held)
    (stored : ∀ bytes, buffer.bytes? = some bytes → held buffer.name = some bytes) :
    (session.keep buffer).Clean held where
  named name found kept := by
    rw [find?_keep] at kept
    split at kept
    · next same =>
      cases kept
      exact same.symm
    · exact clean.named name found kept
  stored name found bytes kept bytes? := by
    rw [find?_keep] at kept
    split at kept
    · next same =>
      cases kept
      exact same ▸ stored bytes bytes?
    · exact clean.stored name found bytes kept bytes?

/-- An open file may be moved in, as long as its content is not touched. -/
theorem Clean.move (clean : session.Clean held) (found : session.buffers.find? name = some buffer)
    (named : changed.name = buffer.name) (content : changed.content = buffer.content) :
    (session.keep changed).Clean held := by
  refine clean.keep fun bytes bytes? => ?_
  rw [Buffer.bytes?, content] at bytes?
  rw [named, clean.named name buffer found]
  exact clean.stored name buffer bytes found bytes?

theorem Clean.discard (clean : session.Clean held) (name : Name) :
    (session.discard name).Clean held where
  named other buffer kept := by
    rw [find?_discard] at kept
    split at kept
    · cases kept
    · exact clean.named other buffer kept
  stored other buffer bytes kept bytes? := by
    rw [find?_discard] at kept
    split at kept
    · cases kept
    · exact clean.stored other buffer bytes kept bytes?

/-- A file is as the store has it if it is opened with what the store has. -/
theorem Clean.openWith (clean : session.Clean held) {recordLength : Nat} {content : Option Bytes}
    (stored : ∀ bytes, content = some bytes → held name = some bytes) :
    (session.keep (.opened name recordLength content)).Clean held := by
  refine clean.keep fun bytes bytes? => ?_
  rw [TextFile.bytes?_opened] at bytes?
  exact stored bytes bytes?

end Session

variable {Devices Receiver : Type} {peripherals : Peripherals Devices}
variable {held : Devices → Contents} {calls : List Peripherals.Call} {devices last : Devices}

namespace TextFile

variable {session after : Session} {name : Name}

/-- What is loaded is stored afterwards, and obtained from the source if it was not before. -/
theorem Loads.seeds (sound : peripherals.Sound held) {outcome : Except Fault (Option Bytes)}
    (loads : Loads name calls outcome) (served : peripherals.Serves calls devices last) :
    Seeds calls (held devices) (held last) ∧
      ∀ content, outcome = .ok (some content) → held last name = some content := by
  have settled := sound.serves served
  cases loads with
  | stored content =>
    refine ⟨seeds_of_eq settled, ?_⟩
    rintro _ ⟨⟩
    rw [settled]
    exact (sound.got name devices _ served.1).symm
  | seeded content =>
    have absent : held devices name = none := (sound.got name devices none served.1).symm
    have kept : held last = Function.update (held devices) name (some content) := settled
    refine ⟨?_, ?_⟩
    · intro other
      by_cases same : other = name
      · subst same
        refine .inr ⟨absent, content, ?_, by simp⟩
        rw [kept, Function.update_self]
      · left
        rw [kept, Function.update_of_ne same]
    · rintro _ ⟨⟩
      rw [kept, Function.update_self]
  | _ => exact ⟨seeds_of_eq settled, by simp⟩

theorem Flushes.applyAll_of_stored {buffer : Buffer} {outcome : Except Fault Unit}
    {stored : Contents} (flushes : Flushes buffer calls outcome)
    (present : ∀ bytes, buffer.bytes? = some bytes → stored buffer.name = some bytes) :
    Peripherals.applyAll calls stored = stored := by
  cases flushes with
  | empty none => rfl
  | @stored content some =>
    have bytes := present content.toBytes (by rw [Buffer.bytes?, some]; rfl)
    show Function.update stored buffer.name _ = stored
    rw [← bytes, Function.update_eq_self]
  | refused some failure => rfl

/-- Storing files again that are stored already changes nothing, wherever it stops. -/
theorem FlushesAll.applyAll_of_stored {buffers : List Buffer} {outcome : Except Fault Unit}
    {stored : Contents} (flushes : FlushesAll buffers calls outcome)
    (present : ∀ buffer ∈ buffers, ∀ bytes, buffer.bytes? = some bytes →
      stored buffer.name = some bytes) :
    Peripherals.applyAll calls stored = stored := by
  induction flushes with
  | nil => rfl
  | cons flushed others ih =>
    rw [Peripherals.applyAll_append,
      flushed.applyAll_of_stored (present _ List.mem_cons_self)]
    exact ih fun buffer member => present buffer (List.mem_cons_of_mem _ member)
  | refused failed => exact failed.applyAll_of_stored (present _ List.mem_cons_self)

/-- In a clean session, writing an open file back leaves the store as it is. -/
theorem Flushes.held_eq (sound : peripherals.Sound held) {buffer : Buffer}
    {outcome : Except Fault Unit} (flushes : Flushes buffer calls outcome)
    (served : peripherals.Serves calls devices last) (clean : session.Clean (held devices))
    (found : session.buffers.find? name = some buffer) : held last = held devices := by
  rw [sound.serves served]
  refine flushes.applyAll_of_stored fun bytes bytes? => ?_
  rw [clean.named name buffer found]
  exact clean.stored name buffer bytes found bytes?

/-- So does writing all open files back, in whatever order. -/
theorem FlushesAll.held_eq (sound : peripherals.Sound held) {visited : List Buffer}
    {outcome : Except Fault Unit} (flushes : FlushesAll visited calls outcome)
    (perm : visited.Perm (session.buffers.entries.map Prod.snd))
    (served : peripherals.Serves calls devices last) (clean : session.Clean (held devices)) :
    held last = held devices := by
  rw [sound.serves served]
  refine flushes.applyAll_of_stored fun buffer member bytes bytes? => ?_
  have listed := perm.mem_iff.mp member
  exact clean.stored _ buffer bytes (Session.find?_of_listed clean.named listed) bytes?

/-- Whatever content is found for a name is stored under it. -/
theorem Finds.seeds (sound : peripherals.Sound held) {outcome : Except Fault (Option Bytes)}
    (finds : Finds session name calls outcome) (served : peripherals.Serves calls devices last)
    (clean : session.Clean (held devices)) :
    Seeds calls (held devices) (held last) ∧
      ∀ content, outcome = .ok (some content) → held last name = some content := by
  cases finds with
  | opened found =>
    cases served
    refine ⟨seeds_of_eq rfl, fun content same => ?_⟩
    exact clean.stored name _ content found (Except.ok.inj same)
  | loaded closed loads => exact loads.seeds sound served

/-- A file that is opened with what is stored leaves a clean session, whether or not an earlier
file of its name can be written back. -/
theorem Installs.clean (sound : peripherals.Sound held) {recordLength : Nat}
    {content : Option Bytes} {outcome : Except Fault Buffer}
    (installs : Installs session name recordLength content calls outcome after)
    (served : peripherals.Serves calls devices last) (clean : session.Clean (held devices))
    (stored : ∀ bytes, content = some bytes → held devices name = some bytes) :
    after.Clean (held last) ∧ held last = held devices := by
  cases installs with
  | fresh closed =>
    cases served
    exact ⟨clean.openWith stored, rfl⟩
  | replaced found flushed =>
    rw [flushed.held_eq sound served clean found]
    exact ⟨(clean.discard name).openWith stored, rfl⟩
  | refused found failed =>
    rw [failed.held_eq sound served clean found]
    exact ⟨clean, rfl⟩

/-- A file is found, and opened then. -/
theorem Finds.installs_clean (sound : peripherals.Sound held) {more : List Peripherals.Call}
    {recordLength : Nat} {content : Option Bytes} {outcome : Except Fault Buffer}
    (finds : Finds session name calls (.ok content))
    (installs : Installs session name recordLength content more outcome after)
    (served : peripherals.Serves (calls ++ more) devices last)
    (clean : session.Clean (held devices)) :
    after.Clean (held last) ∧ Seeds (calls ++ more) (held devices) (held last) := by
  obtain ⟨between, finding, installing⟩ := served.split
  obtain ⟨seeds, stored⟩ := finds.seeds sound finding clean
  obtain ⟨opened, same⟩ := installs.clean sound installing (clean.seeded seeds)
    fun bytes same => stored bytes (congrArg Except.ok same)
  exact ⟨opened, seeds.append (seeds_of_eq same)⟩

theorem Obtains.clean (sound : peripherals.Sound held) {outcome : Except Fault Buffer}
    (obtains : Obtains session name calls outcome after)
    (served : peripherals.Serves calls devices last) (clean : session.Clean (held devices)) :
    after.Clean (held last) ∧ Seeds calls (held devices) (held last) := by
  cases obtains with
  | opened found =>
    cases served
    exact ⟨clean, seeds_of_eq rfl⟩
  | loaded closed loads =>
    obtain ⟨seeds, stored⟩ := loads.seeds sound served
    refine ⟨(clean.seeded seeds).openWith fun bytes same => ?_, seeds⟩
    exact stored bytes (congrArg Except.ok same)
  | unread closed loads =>
    have seeds := (loads.seeds sound served).1
    exact ⟨clean.seeded seeds, seeds⟩

theorem Readies.clean (sound : peripherals.Sound held) {outcome : Except Fault Buffer}
    (readies : Readies session name calls outcome after)
    (served : peripherals.Serves calls devices last) (clean : session.Clean (held devices)) :
    after.Clean (held last) ∧ Seeds calls (held devices) (held last) := by
  cases readies with
  | opened found present =>
    cases served
    exact ⟨clean, seeds_of_eq rfl⟩
  | empty found absent =>
    cases served
    exact ⟨clean, seeds_of_eq rfl⟩
  | loaded closed loads =>
    obtain ⟨seeds, stored⟩ := loads.seeds sound served
    refine ⟨(clean.seeded seeds).openWith fun bytes same => ?_, seeds⟩
    exact stored bytes (congrArg Except.ok same)
  | absent closed loads =>
    have seeds := (loads.seeds sound served).1
    exact ⟨clean.seeded seeds, seeds⟩
  | unread closed loads =>
    have seeds := (loads.seeds sound served).1
    exact ⟨clean.seeded seeds, seeds⟩

/-- Whether an operation only reads: it neither puts anything into a file nor deletes or renames
one. Opening and closing files is part of reading them. -/
def Operation.OnlyReads : Operation → Prop
  | .write _ _ _ => False
  | .delete _ => False
  | .rename _ _ => False
  | .writeCharacter _ => False
  | _ => True

/-- Whatever comes of an operation that only reads, every open file still has what is stored under
its name, and nothing but first contents has come into the store. -/
theorem Effect.clean (sound : peripherals.Sound held) {operation : Operation}
    {outcome : Except Fault Unit} (effect : Effect session operation calls outcome after)
    (served : peripherals.Serves calls devices last) (reads : operation.OnlyReads)
    (clean : session.Clean (held devices)) :
    after.Clean (held last) ∧ Seeds calls (held devices) (held last) := by
  have still (made : calls = []) : last = devices := by
    subst made
    exact served
  cases effect with
  | openUnread finds =>
    have seeds := (finds.seeds sound served clean).1
    exact ⟨clean.seeded seeds, seeds⟩
  | openRefused finds installs => exact finds.installs_clean sound installs served clean
  | opened finds installs => exact finds.installs_clean sound installs served clean
  | appendUnread finds =>
    have seeds := (finds.seeds sound served clean).1
    exact ⟨clean.seeded seeds, seeds⟩
  | appendAbsent finds =>
    have seeds := (finds.seeds sound served clean).1
    exact ⟨clean.seeded seeds, seeds⟩
  | appendRefused finds installs => exact finds.installs_clean sound installs served clean
  | appended finds installs =>
    obtain ⟨opened, seeds⟩ := finds.installs_clean sound installs served clean
    exact ⟨opened.move installs.found.2 rfl rfl, seeds⟩
  | closeRefused found failed =>
    rw [failed.held_eq sound served clean found]
    exact ⟨clean, seeds_of_eq rfl⟩
  | closed found flushed =>
    rw [flushed.held_eq sound served clean found]
    exact ⟨clean.discard _, seeds_of_eq rfl⟩
  | closeAllRefused perm failed =>
    rw [failed.held_eq sound perm served clean]
    exact ⟨clean, seeds_of_eq rfl⟩
  | closedAll perm flushed =>
    rw [flushed.held_eq sound perm served clean]
    exact ⟨Session.clean_of_empty rfl _, seeds_of_eq rfl⟩
  | positionUnread obtains => exact obtains.clean sound served clean
  | positionBeyond obtains beyond => exact obtains.clean sound served clean
  | positioned obtains pointer number =>
    obtain ⟨obtained, seeds⟩ := obtains.clean sound served clean
    exact ⟨obtained.move obtains.found rfl rfl, seeds⟩
  | readUnready readies => exact readies.clean sound served clean
  | readBeyond readies beyond => exact readies.clean sound served clean
  | reading readies pointer =>
    obtain ⟨ready, seeds⟩ := readies.clean sound served clean
    refine ⟨Session.Clean.congr (ready.move readies.found.1 ?_ ?_) rfl, seeds⟩
    · rfl
    · rfl
  | deactivated =>
    rw [still rfl]
    exact ⟨clean.congr rfl, seeds_of_eq rfl⟩
  | characterRead redirected read =>
    obtain ⟨before, found, same⟩ := readByte_keeps read
    rw [still rfl, same]
    exact ⟨clean.move found rfl rfl, seeds_of_eq rfl⟩
  | lineRead redirected read =>
    obtain ⟨before, found, same⟩ := readLine_keeps read
    rw [still rfl, same]
    exact ⟨clean.move found rfl rfl, seeds_of_eq rfl⟩
  | closeAbsent closed =>
    rw [still rfl]
    exact ⟨clean, seeds_of_eq rfl⟩
  | idle relies other =>
    rw [still rfl]
    exact ⟨clean, seeds_of_eq rfl⟩
  | unmet relies same absent =>
    rw [still rfl]
    exact ⟨clean, seeds_of_eq rfl⟩
  | characterEnd redirected ended =>
    rw [still rfl]
    exact ⟨clean, seeds_of_eq rfl⟩
  | lineEnd redirected ended =>
    rw [still rfl]
    exact ⟨clean, seeds_of_eq rfl⟩
  | _ => exact absurd reads id

end TextFile

/-- Whether an event only reads files, in a session. -/
def Event.OnlyReads (event : Event Receiver) (session : Session) : Prop :=
  ∀ operation, event.operation? session = some operation → operation.OnlyReads

theorem Event.onlyReads_of {event : Event Receiver} {session : Session}
    {operation : TextFile.Operation} (comes : event.operation? session = some operation)
    (reads : operation.OnlyReads) : event.OnlyReads session := by
  intro other same
  rw [comes] at same
  cases same
  exact reads

theorem Event.Effect.clean {session after : Session} {event : Event Receiver}
    {outcome : Except Fault Unit} (sound : peripherals.Sound held)
    (effect : event.Effect session calls outcome after)
    (served : peripherals.Serves calls devices last) (reads : event.OnlyReads session)
    (clean : session.Clean (held devices)) :
    after.Clean (held last) ∧ Seeds calls (held devices) (held last) := by
  cases effect with
  | operated operates typed effect =>
    exact effect.clean sound served (reads _ operates) (clean.congr rfl)
  | aside idle keeps elsewhere buffers active mode typed =>
    have same : held last = held devices := by
      rw [sound.serves served, Peripherals.applyAll_elsewhere elsewhere]
    rw [same]
    exact ⟨clean.congr buffers, seeds_of_eq rfl⟩
  | discarded monitor idle discards =>
    cases served
    exact ⟨Session.clean_of_empty rfl _, seeds_of_eq rfl⟩

/-- A whole run of events that only read leaves a clean session, and nothing but first contents
comes into the store. -/
theorem Dos.Reaches.clean (sound : peripherals.Sound held) {start dos : Dos Devices Receiver}
    (reached : start.Reaches peripherals (fun session event => event.OnlyReads session) dos)
    (begun : start.machine.session.Clean (held start.machine.devices)) :
    ∃ calls, peripherals.Serves calls start.machine.devices dos.machine.devices ∧
      dos.machine.session.Clean (held dos.machine.devices) ∧
      Seeds calls (held start.machine.devices) (held dos.machine.devices) := by
  induction reached with
  | refl => exact ⟨[], rfl, begun, seeds_of_eq rfl⟩
  | @step dos reached event reads ih =>
    obtain ⟨before, served, clean, seeds⟩ := ih
    obtain ⟨calls, effect, more⟩ := event.run_effect peripherals dos
    obtain ⟨still, seeded⟩ := effect.clean sound more reads clean
    exact ⟨before ++ calls, served.append more, still, seeds.append seeded⟩

/-- Every call that was made has ended as noted, for the devices of that time. -/
theorem Peripherals.Serves.ends_of_mem {call : Call}
    (served : peripherals.Serves calls devices last) (member : call ∈ calls) :
    ∃ between, peripherals.Ends between call := by
  induction calls generalizing devices with
  | nil => cases member
  | cons first rest ih =>
    rcases List.mem_cons.mp member with rfl | later
    · exact ⟨devices, served.1⟩
    · exact ih served.2 later

/-- Reading never changes what is stored. From no open files on, let commands that only read, reads
of characters and lines, resets and anything else that concerns no files follow on each other in
any order, over any store and any source, each call of which may fail: every name keeps the content
it had in the store, and a name that is new there has the content that the source told for it. -/
theorem Dos.Reaches.store_of_onlyReads (sound : peripherals.Sound held)
    {start dos : Dos (Devices × List Peripherals.Call) Receiver}
    (unopened : start.machine.session.buffers = .empty) (begun : start.machine.devices.2 = [])
    (reached : start.Reaches peripherals.recorded
      (fun session event => event.OnlyReads session) dos) :
    let before := held start.machine.devices.1
    let now := held dos.machine.devices.1
    (∀ name content, before name = some content → now name = some content) ∧
      (∀ name content, before name = none → now name = some content →
        .fetch name (.ok (some content)) ∈ dos.machine.devices.2) ∧
      ∀ first : Contents,
        (∀ name devices content, (peripherals.source.fetch name devices).outcome = .ok content →
          content = first name) →
        ∀ name content, before name = none → now name = some content →
          first name = some content := by
  intro before now
  obtain ⟨calls, served, -, seeds⟩ :=
    reached.clean sound.recorded (Session.clean_of_empty unopened _)
  have history : dos.machine.devices.2 = calls := by
    rw [served.recorded, begun, List.nil_append]
  have fetched : ∀ name content, before name = none → now name = some content →
      .fetch name (.ok (some content)) ∈ calls := by
    intro name content absent present
    rcases seeds name with same | ⟨-, seeded, stored, fetched⟩
    · have kept : now name = none := same.trans absent
      rw [kept] at present
      cases present
    · have same : now name = some seeded := stored
      rw [same] at present
      cases present
      exact fetched
  refine ⟨fun name content stored => seeds.stored stored, ?_, ?_⟩
  · rw [history]
    exact fetched
  · intro first tells name content absent present
    obtain ⟨devices, told⟩ := served.ends_of_mem (fetched name content absent present)
    exact (tells name devices.1 _ told).symm

/-- Two files that are opened, one of them for the first time, read and closed. -/
theorem Dos.store_of_onlyReads_closed :
    let source := Catalog.empty.insert (ascii "A") (ascii "x")
    let stored := Catalog.empty.insert (ascii "B") (ascii "y")
    let peripherals := (Peripherals.inMemory source .none).recorded
    let start : Dos (Catalog Name Bytes × List Peripherals.Call) Unit :=
      .initial .off (stored, [])
    let opened := ((Event.execute (ascii "OPEN A")).run peripherals start).2
    let reading := ((Event.execute (ascii "READ B")).run peripherals opened).2
    let read := ((Event.terminal (.line [] ())).run peripherals reading).2
    let reopened := ((Event.execute (ascii "OPEN B,L5")).run peripherals read).2
    let closed := ((Event.execute (ascii "CLOSE")).run peripherals reopened).2
    closed.machine.devices.1.find? (ascii "B") = some (ascii "y") ∧
      closed.machine.devices.1.find? (ascii "A") = some (ascii "x") ∧
      .fetch (ascii "A") (.ok (some (ascii "x"))) ∈ closed.machine.devices.2 := by
  intro source stored peripherals start opened reading read reopened closed
  have opens : Command.operation? (ascii "OPEN A") = some (.openFile (ascii "A") 0) := by
    decide +kernel
  have redirects : Command.operation? (ascii "READ B") = some (.read (ascii "B") 0 0) := by
    decide +kernel
  have reopens : Command.operation? (ascii "OPEN B,L5") = some (.openFile (ascii "B") 5) := by
    decide +kernel
  have closes : Command.operation? (ascii "CLOSE") = some .closeAll := by decide +kernel
  have reached : start.Reaches peripherals (fun session event => event.OnlyReads session)
      closed := by
    refine .step (.step (.step (.step (.step .refl _ ?_) _ ?_) _ ?_) _ ?_) _ ?_
    · exact Event.onlyReads_of opens trivial
    · exact Event.onlyReads_of redirects trivial
    · intro operation comes
      simp only [Event.operation?, TerminalCall.operation?] at comes
      split at comes
      · cases comes
        trivial
      · cases comes
    · exact Event.onlyReads_of reopens trivial
    · exact Event.onlyReads_of closes trivial
  obtain ⟨keeps, history, tells⟩ := reached.store_of_onlyReads
    (Peripherals.sound_inMemory source .none) rfl rfl
  have present : closed.machine.devices.1.find? (ascii "A") = some (ascii "x") := by
    decide +kernel
  exact ⟨keeps _ _ rfl, present, history _ _ rfl present⟩

end DosText
