import DosText.Proofs.Events
import DosText.Proofs.InMemory

/-! What holds of every session that can be reached: the open files are listed under their own
names, their records lie apart, and a redirection concerns an open file that has content. Every
effect preserves this, a fault or not. -/

namespace DosText

namespace Session

/-- The active file is open and has content. -/
theorem Consistent.found {session : Session} (consistent : session.Consistent) {name : Name}
    (active : session.active = some (.file name)) :
    ∃ buffer, session.buffers.find? name = some buffer ∧ buffer.content.isSome = true := by
  obtain ⟨other, buffer, same, found, content⟩ := consistent.points _ active
  cases same
  exact ⟨buffer, found, content⟩

/-- Input or output in a mode finds the file that it relies on. -/
theorem Consistent.exists_relied? {session : Session} (consistent : session.Consistent)
    {mode : Mode} (same : session.mode = mode) (redirected : mode ≠ .none) :
    ∃ name, session.relied? mode = some name := by
  have active : session.active ≠ none := fun idle =>
    redirected (same.symm.trans (consistent.idle.mpr idle))
  obtain ⟨pointer, pointed⟩ := Option.ne_none_iff_exists'.mp active
  obtain ⟨name, buffer, rfl, found, content⟩ := consistent.points pointer pointed
  refine ⟨name, relied?_eq_some_iff.mpr ⟨same, pointed, ?_⟩⟩
  rw [found]
  exact content

/-- Consistency does not concern what is traced. -/
theorem Consistent.congr {session other : Session} (consistent : session.Consistent)
    (buffers : other.buffers = session.buffers) (active : other.active = session.active)
    (mode : other.mode = session.mode) (typed : session.TypesInside → other.TypesInside) :
    other.Consistent where
  named := by rw [buffers]; exact consistent.named
  apart := by rw [buffers]; exact consistent.apart
  idle := by rw [mode, active]; exact consistent.idle
  points := by rw [buffers, active]; exact consistent.points
  typed := typed consistent.typed

theorem Consistent.deactivate {session : Session} (consistent : session.Consistent) :
    session.deactivate.Consistent where
  named := consistent.named
  apart := consistent.apart
  idle := by simp [Session.deactivate]
  points := by simp [Session.deactivate]
  typed := consistent.typed

theorem Consistent.release {session : Session} (consistent : session.Consistent) (name : Name) :
    (session.release name).Consistent := by
  unfold Session.release
  split
  · exact consistent.deactivate
  · exact consistent

/-- A file that is not active can be taken from the open ones. -/
theorem Consistent.erase {session : Session} (consistent : session.Consistent) {name : Name}
    (released : session.active ≠ some (.file name)) :
    { session with buffers := session.buffers.erase name }.Consistent where
  named := by
    intro other buffer found
    rw [Catalog.find?_erase] at found
    split at found
    · cases found
    · exact consistent.named other buffer found
  apart := by
    intro other buffer found
    rw [Catalog.find?_erase] at found
    split at found
    · cases found
    · exact consistent.apart other buffer found
  idle := consistent.idle
  points := by
    intro pointer pointed
    obtain ⟨other, buffer, rfl, found, content⟩ := consistent.points pointer pointed
    have differ : other ≠ name := by
      rintro rfl
      exact released pointed
    refine ⟨other, buffer, rfl, ?_, content⟩
    rw [Catalog.find?_erase, if_neg differ]
    exact found
  typed := consistent.typed

theorem Consistent.discard {session : Session} (consistent : session.Consistent) (name : Name) :
    (session.discard name).Consistent := by
  have kept := (consistent.release name).erase (session.active_release_ne name)
  rw [buffers_release] at kept
  rw [discard_eq]
  exact kept

/-- A file can be put in place, unless it has lost the content that a redirection concerns. -/
theorem Consistent.keep {session : Session} (consistent : session.Consistent) {buffer : Buffer}
    (apart : 0 < buffer.recordLength)
    (content : session.active = some (.file buffer.name) → buffer.content.isSome = true) :
    (session.keep buffer).Consistent where
  named := by
    intro name found opened
    rw [find?_keep] at opened
    split at opened
    · next same =>
      cases opened
      exact same.symm
    · exact consistent.named name found opened
  apart := by
    intro name found opened
    rw [find?_keep] at opened
    split at opened
    · cases opened
      exact apart
    · exact consistent.apart name found opened
  idle := consistent.idle
  points := by
    intro pointer pointed
    obtain ⟨name, opened, rfl, found, present⟩ := consistent.points pointer pointed
    by_cases same : name = buffer.name
    · subst same
      exact ⟨buffer.name, buffer, rfl, find?_keep_self session buffer, content pointed⟩
    · refine ⟨name, opened, rfl, ?_, present⟩
      rw [find?_keep, if_neg same]
      exact found
  typed := consistent.typed

/-- An open file can be changed as long as it keeps its name, its records and any content. -/
theorem Consistent.replace {session : Session} (consistent : session.Consistent) {name : Name}
    {buffer changed : Buffer} (found : session.buffers.find? name = some buffer)
    (named : changed.name = buffer.name) (records : changed.recordLength = buffer.recordLength)
    (content : buffer.content.isSome = true → changed.content.isSome = true) :
    (session.keep changed).Consistent := by
  have own := consistent.named name buffer found
  refine consistent.keep ?_ ?_
  · rw [records]
    exact consistent.apart name buffer found
  · intro pointed
    rw [named, own] at pointed
    obtain ⟨opened, there, present⟩ := consistent.found pointed
    rw [found] at there
    cases there
    exact content present

/-- A redirection to an open file can begin once the file has content. -/
theorem Consistent.redirect {session : Session} (consistent : session.Consistent)
    {mode : Mode} {name : Name} {buffer changed : Buffer} (redirected : mode ≠ .none)
    (found : session.buffers.find? name = some buffer) (named : changed.name = buffer.name)
    (records : changed.recordLength = buffer.recordLength)
    (content : changed.content.isSome = true) :
    ((session.keep changed).activate mode name).Consistent := by
  have kept := consistent.replace found named records fun _ => content
  have own : changed.name = name := named.trans (consistent.named name buffer found)
  refine ⟨kept.named, kept.apart, ?_, ?_, kept.typed⟩
  · simp [Session.activate, redirected]
  · rintro pointer ⟨⟩
    exact ⟨name, changed, rfl, own ▸ find?_keep_self session changed, content⟩

end Session

namespace TextFile

variable {session after : Session} {name : Name} {calls : List Peripherals.Call}

/-- A file that is opened stands under its name, with the content it was opened with. -/
theorem Installs.found {recordLength : Nat} {content : Option Bytes} {buffer : Buffer}
    (installs : Installs session name recordLength content calls (.ok buffer) after) :
    buffer = .opened name recordLength content ∧ after.buffers.find? name = some buffer := by
  cases installs with
  | fresh closed => exact ⟨rfl, by rw [Session.find?_keep]; exact if_pos rfl⟩
  | replaced found flushed => exact ⟨rfl, by rw [Session.find?_keep]; exact if_pos rfl⟩

theorem Installs.consistent {recordLength : Nat} {content : Option Bytes}
    {outcome : Except Fault Buffer}
    (installs : Installs session name recordLength content calls outcome after)
    (consistent : session.Consistent) : after.Consistent := by
  have apart := Buffer.recordLength_opened_pos name recordLength content
  cases installs with
  | fresh closed =>
    refine consistent.keep apart ?_
    intro pointed
    obtain ⟨buffer, opened, present⟩ := consistent.found pointed
    rw [show (Buffer.opened name recordLength content).name = name from rfl, closed] at opened
    cases opened
  | replaced found flushed =>
    refine (consistent.discard name).keep apart ?_
    intro pointed
    exact absurd pointed (session.active_discard_ne name)
  | refused found failed => exact consistent

theorem Obtains.found {buffer : Buffer}
    (obtains : Obtains session name calls (.ok buffer) after) :
    after.buffers.find? name = some buffer := by
  cases obtains with
  | opened found => exact found
  | loaded closed loads =>
    rw [Session.find?_keep]
    exact if_pos rfl

theorem Obtains.consistent {outcome : Except Fault Buffer}
    (obtains : Obtains session name calls outcome after) (consistent : session.Consistent) :
    after.Consistent := by
  cases obtains with
  | opened found => exact consistent
  | @loaded _ content closed loads =>
    have installs : Installs session name 0 content [] _ _ := .fresh closed
    exact installs.consistent consistent
  | unread closed loads => exact consistent

theorem Readies.found {buffer : Buffer}
    (readies : Readies session name calls (.ok buffer) after) :
    after.buffers.find? name = some buffer ∧ buffer.content.isSome = true := by
  cases readies with
  | opened found some => exact ⟨found, some⟩
  | loaded closed loads =>
    rw [Session.find?_keep]
    exact ⟨if_pos rfl, rfl⟩

theorem Readies.consistent {outcome : Except Fault Buffer}
    (readies : Readies session name calls outcome after) (consistent : session.Consistent) :
    after.Consistent := by
  cases readies with
  | @loaded _ content closed loads =>
    have installs : Installs session name 0 (some content) [] _ _ := .fresh closed
    exact installs.consistent consistent
  | _ => exact consistent

theorem readByte_keeps {found : Option Buffer} {byte : UInt8} {buffer : Buffer}
    (read : found.bind Buffer.readByte = some (byte, buffer)) :
    ∃ before, found = some before ∧
      buffer = { before with filePointer := buffer.filePointer } := by
  cases found with
  | none => cases read
  | some before =>
    refine ⟨before, rfl, ?_⟩
    simp only [Option.bind_some, Buffer.readByte] at read
    split at read
    · cases read
    · cases read
      rfl

theorem readLine_keeps {found : Option Buffer} {line : Bytes} {buffer : Buffer}
    (read : found.bind Buffer.readLine = some (line, buffer)) :
    ∃ before, found = some before ∧
      buffer = { before with filePointer := buffer.filePointer } := by
  cases found with
  | none => cases read
  | some before =>
    refine ⟨before, rfl, ?_⟩
    simp only [Option.bind_some, Buffer.readLine] at read
    split at read
    · cases read
    · cases read
      rfl

theorem writeByte_keeps {found : Option Buffer} {limit : Nat} {byte : UInt8} {written : Buffer}
    (wrote : found.bind (·.writeByte limit byte) = some written) :
    ∃ before, found = some before ∧ written.content.isSome = true ∧
      written = { before with
        content := written.content
        filePointer := written.filePointer } := by
  cases found with
  | none => cases wrote
  | some before =>
    refine ⟨before, rfl, ?_⟩
    simp only [Option.bind_some, Buffer.writeByte] at wrote
    split at wrote
    · cases wrote
      exact ⟨rfl, rfl⟩
    · cases wrote

/-- Every effect of every operation leaves a consistent session. -/
theorem Effect.consistent {operation : Operation} {outcome : Except Fault Unit}
    (effect : Effect session operation calls outcome after) (consistent : session.Consistent) :
    after.Consistent := by
  cases effect with
  | openRefused finds installs => exact installs.consistent consistent
  | opened finds installs => exact installs.consistent consistent
  | appendRefused finds installs => exact installs.consistent consistent
  | appended finds installs =>
    have found := installs.found.2
    exact (installs.consistent consistent).replace found rfl rfl id
  | closed found flushed => exact consistent.discard _
  | closedAll perm flushed =>
    refine ⟨by simp, by simp, ?_, ?_, consistent.typed⟩
    · simp [Session.deactivate]
    · simp [Session.deactivate]
  | positionUnread obtains => exact obtains.consistent consistent
  | positionBeyond obtains beyond => exact obtains.consistent consistent
  | positioned obtains pointer number =>
    exact (obtains.consistent consistent).replace obtains.found rfl rfl id
  | readUnready readies => exact readies.consistent consistent
  | readBeyond readies beyond => exact readies.consistent consistent
  | reading readies pointer =>
    obtain ⟨found, present⟩ := readies.found
    exact (readies.consistent consistent).redirect (by decide) found rfl rfl present
  | writing found pointer creates => exact consistent.redirect (by decide) found rfl rfl rfl
  | deactivated => exact consistent.deactivate
  | characterRead redirected read =>
    obtain ⟨before, found, same⟩ := readByte_keeps read
    rw [same]
    exact consistent.replace found rfl rfl id
  | lineRead redirected read =>
    obtain ⟨before, found, same⟩ := readLine_keeps read
    rw [same]
    exact consistent.replace found rfl rfl id
  | characterWritten redirected modest wrote =>
    obtain ⟨before, found, present, same⟩ := writeByte_keeps wrote
    refine consistent.replace found ?_ ?_ fun _ => present
    · rw [same]
    · rw [same]
  | _ => exact consistent

end TextFile

variable {Devices Receiver : Type} {peripherals : Peripherals Devices}

theorem Event.Effect.consistent {session after : Session} {event : Event Receiver}
    {calls : List Peripherals.Call} {outcome : Except Fault Unit}
    (effect : event.Effect session calls outcome after) (consistent : session.Consistent) :
    after.Consistent := by
  cases effect with
  | operated operates typed effect => exact effect.consistent (consistent.congr rfl rfl rfl typed)
  | aside idle keeps elsewhere buffers active mode typed =>
    exact consistent.congr buffers active mode typed
  | discarded monitor idle discards => exact Session.consistent_initial monitor

/-- No event leaves a consistent session inconsistent, whether it ends in a fault or not. -/
theorem Event.run_consistent (peripherals : Peripherals Devices) (event : Event Receiver)
    {dos : Dos Devices Receiver} (consistent : dos.machine.session.Consistent) :
    (event.run peripherals dos).2.machine.session.Consistent := by
  obtain ⟨calls, effect, _⟩ := event.run_effect peripherals dos
  exact effect.consistent consistent

/-- A session that is reached from a consistent one is consistent. -/
theorem Dos.Reaches.consistent {allowed : Session → Event Receiver → Prop}
    {start dos : Dos Devices Receiver} (reached : start.Reaches peripherals allowed dos)
    (begun : start.machine.session.Consistent) : dos.machine.session.Consistent := by
  induction reached with
  | refl => exact begun
  | step reached event fits ih => exact event.run_consistent peripherals ih

variable {unmet : Fault}

/-- The same peripherals on a platform on which this fault ends an operation that relies on an
active file where there is none. -/
def Peripherals.unmetBy (peripherals : Peripherals Devices) (unmet : Fault) :
    Peripherals Devices :=
  { peripherals with platform := { peripherals.platform with unmet } }

theorem TextFile.flushAll_unmetBy (buffers : List Buffer) :
    TextFile.flushAll (peripherals.unmetBy unmet) buffers =
      TextFile.flushAll peripherals buffers := by
  induction buffers with
  | nil => rfl
  | cons buffer rest ih =>
    unfold TextFile.flushAll
    rw [ih]
    rfl

/-- Only characters are read from and written to the active file. -/
theorem TextFile.Operation.perform_unmetBy {operation : TextFile.Operation}
    (aside : operation.mode? = none) :
    operation.perform (peripherals.unmetBy unmet) = operation.perform peripherals := by
  cases operation with
  | closeAll =>
    unfold TextFile.Operation.perform TextFile.closeAll
    simp only [flushAll_unmetBy]
    rfl
  | readCharacter => cases aside
  | readLine => cases aside
  | writeCharacter byte => cases aside
  | _ => rfl

/-- No command line relies on the active file. -/
theorem Command.execute_unmetBy (line : Bytes) :
    Command.execute (peripherals.unmetBy unmet) line = Command.execute peripherals line := by
  have obeyed : obey (peripherals.unmetBy unmet) line = obey peripherals line := by
    rw [obey_eq, obey_eq]
    cases ordered : order? line with
    | error fault => rfl
    | ok order =>
      cases order with
      | file operation =>
        exact TextFile.Operation.perform_unmetBy (fitsLine_of_order? ordered).2
      | _ => rfl
  unfold execute
  rw [obeyed]

theorem Dos.printPlain_unmetBy {machine : Machine Devices}
    (consistent : machine.session.Consistent) (byte : UInt8) :
    Dos.printPlain (peripherals.unmetBy unmet) byte machine =
      Dos.printPlain peripherals byte machine := by
  by_cases mode : machine.session.mode = .write
  · obtain ⟨name, relied⟩ := consistent.exists_relied? mode nofun
    let traced := if machine.session.monitor.traces .output then [byte] else []
    let echoed : Machine Devices := { machine with shown := machine.shown.append traced }
    have here : echoed.session.relied? .write = some name := relied
    rw [printPlain_of_writing mode, printPlain_of_writing mode,
      writeActiveCharacter_of_relied here, writeActiveCharacter_of_relied here]
    rfl
  · rw [printPlain_of_not_writing mode, printPlain_of_not_writing mode]

theorem Dos.printByte_unmetBy {machine : Machine Devices}
    (consistent : machine.session.Consistent) (byte : UInt8) :
    Dos.printByte (peripherals.unmetBy unmet) byte machine =
      Dos.printByte peripherals byte machine := by
  rcases framed : Printed.ofByte machine.session.pending byte with ⟨printed, pending⟩
  cases printed with
  | held => rw [printByte_of_held framed, printByte_of_held framed]
  | command line =>
    rw [printByte_of_command framed, printByte_of_command framed, Command.execute_unmetBy]
  | plain plain =>
    rw [printByte_of_plain framed, printByte_of_plain framed, printPlain_unmetBy consistent]

theorem Dos.readCharacter_unmetBy {dos : Dos Devices Receiver}
    (consistent : dos.machine.session.Consistent) (receiver : Receiver) :
    Dos.readCharacter (peripherals.unmetBy unmet) receiver dos =
      Dos.readCharacter peripherals receiver dos := by
  by_cases mode : dos.machine.session.mode = .read
  · obtain ⟨name, relied⟩ := consistent.exists_relied? mode nofun
    unfold Dos.readCharacter
    simp only [Attempt.bind_apply, Attempt.get_apply, if_pos mode, Dos.within,
      readActiveCharacter_of_relied relied]
  · rw [readCharacter_of_typed mode, readCharacter_of_typed mode]
    rfl

theorem Dos.readLine_unmetBy {dos : Dos Devices Receiver}
    (consistent : dos.machine.session.Consistent) (prompt : Bytes) (receiver : Receiver) :
    Dos.readLine (peripherals.unmetBy unmet) prompt receiver dos =
      Dos.readLine peripherals prompt receiver dos := by
  by_cases mode : dos.machine.session.mode = .read
  · obtain ⟨name, relied⟩ := consistent.exists_relied? mode nofun
    unfold Dos.readLine
    simp only [Attempt.bind_apply, Attempt.get_apply, if_pos mode, Dos.within,
      readActiveLine_of_relied relied]
  · rw [readLine_of_typed mode, readLine_of_typed mode]
    rfl

/-- Where the session is consistent, every call at the terminal that relies on an active file finds
one. -/
theorem TerminalCall.run_unmetBy (call : TerminalCall Receiver) {dos : Dos Devices Receiver}
    (consistent : dos.machine.session.Consistent) :
    call.run (peripherals.unmetBy unmet) dos = call.run peripherals dos := by
  cases call with
  | print byte =>
    show Dos.within _ dos = Dos.within _ dos
    simp only [Dos.within, Dos.printByte_unmetBy consistent]
  | character receiver =>
    show (Dos.readCharacter _ receiver >>= _) dos = (Dos.readCharacter _ receiver >>= _) dos
    rw [Attempt.bind_apply, Attempt.bind_apply, Dos.readCharacter_unmetBy consistent]
  | line prompt receiver =>
    show (Dos.readLine _ prompt receiver >>= _) dos = (Dos.readLine _ prompt receiver >>= _) dos
    rw [Attempt.bind_apply, Attempt.bind_apply, Dos.readLine_unmetBy consistent]

/-- What a session stands for once it is reached from a new one, whatever has happened: it has a
mode exactly if it has an active file, a pointer at the active file does not dangle and the file has
content, every file is listed under its own name, its records at least one byte apart, and nothing
is typed of a command outside one. So no call at the terminal comes to where an active file is
missing: it makes no difference to any of them what would happen there. -/
theorem Dos.Reaches.represents {monitor : Monitor} {devices : Devices}
    {dos : Dos Devices Receiver}
    (reached : (Dos.initial monitor devices).Reaches peripherals (fun _ _ => True) dos) :
    let session := dos.machine.session
    (session.mode = .none ↔ session.active = none) ∧
      (∀ pointer, session.active = some pointer → ∃ name buffer, pointer = .file name ∧
        session.buffers.find? name = some buffer ∧ buffer.content.isSome = true) ∧
      (∀ name buffer, session.buffers.find? name = some buffer →
        buffer.name = name ∧ 1 ≤ buffer.recordLength) ∧
      (session.commandMode = false → session.command = []) ∧
      ∀ (call : TerminalCall Receiver) (unmet : Fault),
        call.run (peripherals.unmetBy unmet) dos = call.run peripherals dos := by
  have consistent := reached.consistent (Session.consistent_initial monitor)
  refine ⟨consistent.idle, consistent.points, ?_, consistent.typed, ?_⟩
  · intro name buffer found
    exact ⟨consistent.named name buffer found, consistent.apart name buffer found⟩
  · exact fun call unmet => call.run_unmetBy consistent

/-- A character printed behind OPEN and WRITE finds the file that it goes to. -/
theorem represents_while_writing : ∃ dos : Dos (Catalog Name Bytes) Unit,
    (Dos.initial 0 .empty).Reaches (.inMemory .empty .none) (fun _ _ => True) dos ∧
      dos.machine.session.mode = .write ∧ dos.machine.session.active = some (.file (ascii "A")) ∧
      ∀ unmet, (TerminalCall.print (code 'X')).run
          (Peripherals.unmetBy (.inMemory .empty .none) unmet) dos =
        (TerminalCall.print (code 'X')).run (.inMemory .empty .none) dos := by
  have begun : (Dos.initial 0 .empty : Dos (Catalog Name Bytes) Unit).Reaches
    (.inMemory .empty .none) (fun _ _ => True) _ := .refl
  have opened := begun.step (.file (.openFile (ascii "A") 0)) trivial
  have writing := opened.step (.file (.write (ascii "A") 0 0)) trivial
  obtain ⟨_, _, _, _, met⟩ := Dos.Reaches.represents writing
  exact ⟨_, writing, rfl, rfl, met (.print (code 'X'))⟩

end DosText
