import DosText.Proofs.Consistency
import DosText.Proofs.InMemory

/-! Where files stand. Pointers and record numbers are words, yet each operation leaves a file
exactly where sums and products of numbers of any size put it, or is refused because they are too
large: offsets are tried before they are worked out, and characters are only read and written
where a file has, or is given, a content that reaches there. -/

namespace DosText

/-- Where a file stands: its pointer and its record number, as numbers of any size. -/
structure Place where
  filePointer : Nat
  recordNumber : Nat
  deriving DecidableEq, Repr

/-- Whether words can hold a place. -/
def Place.IsAddressable (place : Place) : Prop :=
  place.filePointer < TextFile.offsetLimit ∧ place.recordNumber < TextFile.offsetLimit

instance (place : Place) : Decidable place.IsAddressable :=
  inferInstanceAs (Decidable (_ ∧ _))

/-- Where an open file stands. -/
def Buffer.place (buffer : Buffer) : Place := ⟨buffer.filePointer, buffer.recordNumber⟩

/-- A file as an operation finds it. One that is not open is opened for sequential access, its
pointer at the beginning. -/
def Session.standing (session : Session) (name : Name) : Buffer :=
  (session.buffers.find? name).getD (.opened name 0 none)

/-- Whether every open file is shorter than the largest word, as what is kept in memory is. -/
def Session.FitsMemory (session : Session) : Prop :=
  ∀ entry ∈ session.buffers.entries, entry.2.bytes.length + 1 < TextFile.offsetLimit

instance (session : Session) : Decidable session.FitsMemory :=
  inferInstanceAs (Decidable (∀ entry ∈ _, _))

theorem Session.FitsMemory.found {session : Session} (fits : session.FitsMemory) {name : Name}
    {buffer : Buffer} (found : session.buffers.find? name = some buffer) :
    buffer.bytes.length + 1 < TextFile.offsetLimit :=
  fits (name, buffer) ((Catalog.find?_eq_some_iff _ _ _).mp found)

theorem Session.standing_of_find? {session : Session} {name : Name} {buffer : Buffer}
    (found : session.buffers.find? name = some buffer) : session.standing name = buffer := by
  rw [standing, found, Option.getD_some]

theorem Session.standing_of_closed {session : Session} {name : Name}
    (closed : session.buffers.find? name = none) :
    session.standing name = .opened name 0 none := by
  rw [standing, closed, Option.getD_none]

namespace Buffer

variable {buffer moved : Buffer}

/-- A pointer that has passed over a byte has not passed the end. -/
theorem filePointer_lt_of_readByte {byte : UInt8} (read : buffer.readByte = some (byte, moved)) :
    buffer.filePointer < buffer.bytes.length ∧
      moved = { buffer with filePointer := buffer.filePointer + 1 } := by
  have present : buffer.filePointer < buffer.bytes.length := by
    by_contra ended
    rw [(readByte_eq_none_iff buffer).mpr (Nat.le_of_not_lt ended)] at read
    cases read
  rw [readByte_eq, List.getElem?_eq_getElem present] at read
  cases read
  exact ⟨present, rfl⟩

/-- Neither has one that has passed over a line. -/
theorem filePointer_lt_of_readLine {line : Bytes} (read : buffer.readLine = some (line, moved)) :
    buffer.filePointer < buffer.bytes.length ∧
      moved = { buffer with
        filePointer := buffer.filePointer +
          min (line.length + 1) (buffer.bytes.length - buffer.filePointer) } ∧
      line = (buffer.bytes.drop buffer.filePointer).takeWhile (!isLineEnd ·) := by
  have present : buffer.filePointer < buffer.bytes.length := by
    by_contra ended
    rw [(readLine_eq_none_iff buffer).mpr (Nat.le_of_not_lt ended)] at read
    cases read
  rw [readLine_eq] at read
  have some : buffer.bytes.drop buffer.filePointer ≠ [] := by
    rw [Ne, List.drop_eq_nil_iff]
    omega
  simp only [some, if_false, List.length_drop] at read
  cases read
  exact ⟨present, rfl, rfl⟩

/-- A byte that is written stands before the pointer afterwards. -/
theorem filePointer_le_of_writeByte {limit : Nat} {byte : UInt8}
    (wrote : buffer.writeByte limit byte = some moved) :
    moved.filePointer ≤ moved.bytes.length ∧
      moved = { buffer with
        content := moved.content
        filePointer := buffer.filePointer + 1 } := by
  have length : buffer.filePointer + 1 ≤ moved.bytes.length := by
    rw [bytes_of_writeByte buffer moved limit byte wrote, List.length_set, List.length_append,
      List.length_replicate]
    omega
  simp only [writeByte] at wrote
  split at wrote
  · cases wrote
    exact ⟨length, rfl⟩
  · cases wrote

/-- A byte is written at the end of the data, before it, or where a file can be filled up to. -/
theorem filePointer_of_writeByte {limit : Nat} {byte : UInt8}
    (wrote : buffer.writeByte limit byte = some moved) :
    buffer.filePointer ≤ buffer.bytes.length ∨ buffer.filePointer < limit := by
  simp only [writeByte] at wrote
  split at wrote
  · next reachable =>
    rw [← PackedBytes.length_toBytes] at reachable
    exact reachable
  · cases wrote

end Buffer

namespace TextFile

variable {session after : Session} {name : Name} {calls : List Peripherals.Call}

/-- The file whose place an operation changes. -/
def Operation.file? (redirection : Redirection) : Operation → Option Name
  | .openFile name _ => some name
  | .appendFile name _ => some name
  | .position name _ => some name
  | .read name _ _ => some name
  | .write name _ _ => some name
  | .readCharacter =>
    match redirection with
    | .reading name => some name
    | _ => none
  | .readLine =>
    match redirection with
    | .reading name => some name
    | _ => none
  | .writeCharacter _ =>
    match redirection with
    | .writing name => some name
    | _ => none
  | _ => none

/-- Input and output in a mode that the session is not in moves in no file. -/
theorem Operation.file?_of_idle {operation : Operation} {mode : Mode}
    (relies : operation.mode? = some mode) (other : session.mode ≠ mode) :
    operation.file? session.redirection = none := by
  have reads (name : Name) (read : mode = .read) : session.redirection ≠ .reading name :=
    fun redirected => other (read ▸ (Session.redirection_eq_reading_iff.mp redirected).1)
  have writes (name : Name) (write : mode = .write) : session.redirection ≠ .writing name :=
    fun redirected => other (write ▸ (Session.redirection_eq_writing_iff.mp redirected).1)
  cases operation with
  | readCharacter =>
    cases relies
    cases redirected : session.redirection with
    | reading name => exact absurd redirected (reads name rfl)
    | _ => rfl
  | readLine =>
    cases relies
    cases redirected : session.redirection with
    | reading name => exact absurd redirected (reads name rfl)
    | _ => rfl
  | writeCharacter byte =>
    cases relies
    cases redirected : session.redirection with
    | writing name => exact absurd redirected (writes name rfl)
    | _ => rfl
  | _ => cases relies

/-- Where an operation takes a file, in numbers of any size. `found` is the file before, and
`length` that of its content, to the end of which APPEND goes. -/
def Operation.destination (found : Buffer) (length : Nat) : Operation → Place
  | .openFile _ _ => ⟨0, 0⟩
  | .appendFile _ recordLength => ⟨length, length / max recordLength 1⟩
  | .position _ records =>
    ⟨found.filePointer + records * found.recordLength, found.recordNumber + records⟩
  | .read _ record byte => ⟨byte + record * found.recordLength, record⟩
  | .write _ record byte => ⟨writeOffset found record byte, record⟩
  | .readCharacter => ⟨found.filePointer + 1, found.recordNumber⟩
  | .readLine =>
    let rest := found.bytes.drop found.filePointer
    let line := rest.takeWhile (!isLineEnd ·)
    ⟨found.filePointer + min (line.length + 1) rest.length, found.recordNumber⟩
  | .writeCharacter _ => ⟨found.filePointer + 1, found.recordNumber⟩
  | _ => found.place

/-- Whether the numbers that an operation is given are words. -/
def Operation.IsSized : Operation → Prop
  | .openFile _ recordLength => recordLength < offsetLimit
  | .appendFile _ recordLength => recordLength < offsetLimit
  | .position _ records => records < offsetLimit
  | .read _ record byte => record < offsetLimit ∧ byte < offsetLimit
  | .write _ record byte => record < offsetLimit ∧ byte < offsetLimit
  | _ => True

/-- The open file of a name; it is not opened for that. -/
def opened {Devices : Type} (name : Name) : Action Devices Buffer := do
  match ← find? name with
  | some buffer => return buffer
  | none => throw .fileNotFound

/-- How an operation that is given an offset gets hold of its file, which may fail, before it works
the offset out. -/
def Operation.prepare? {Devices : Type} (peripherals : Peripherals Devices) :
    Operation → Option (Action Devices Buffer)
  | .position name _ => some (openedOrLoaded peripherals name)
  | .read name _ _ => some (openedForReading peripherals name)
  | .write name _ _ => some (opened name)
  | _ => none

theorem Obtains.standing {buffer : Buffer}
    (obtains : Obtains session name calls (.ok buffer) after) :
    ∃ content, buffer = { session.standing name with content } := by
  cases obtains with
  | opened found => exact ⟨buffer.content, by rw [Session.standing_of_find? found]⟩
  | loaded closed loads => exact ⟨_, by rw [Session.standing_of_closed closed]; rfl⟩

theorem Readies.standing {buffer : Buffer}
    (readies : Readies session name calls (.ok buffer) after) :
    ∃ content, buffer = { session.standing name with content } := by
  cases readies with
  | opened found some => exact ⟨buffer.content, by rw [Session.standing_of_find? found]⟩
  | loaded closed loads => exact ⟨_, by rw [Session.standing_of_closed closed]; rfl⟩

theorem Session.name_standing (consistent : session.Consistent) (name : Name) :
    (session.standing name).name = name := by
  cases found : session.buffers.find? name with
  | some buffer =>
    rw [Session.standing_of_find? found]
    exact consistent.named name buffer found
  | none =>
    rw [Session.standing_of_closed found]
    rfl

/-- A file that is put back under its name is found there. -/
theorem find?_keep_of_named {changed : Buffer} (named : changed.name = name) :
    (session.keep changed).buffers.find? name = some changed := by
  rw [Session.find?_keep, if_pos named.symm]

theorem find?_keep_of_ne {changed : Buffer} {other : Name} (named : changed.name = name)
    (differ : other ≠ name) :
    (session.keep changed).buffers.find? other = session.buffers.find? other := by
  rw [Session.find?_keep, if_neg (named ▸ differ)]

/-- A file that is opened is left at its beginning, and APPEND takes it to its end. -/
theorem Installs.place {recordLength : Nat} {content : Option Bytes} {buffer : Buffer}
    (installs : Installs session name recordLength content calls (.ok buffer) after) :
    buffer.place = ⟨0, 0⟩ ∧ buffer.name = name ∧ buffer.recordLength = max recordLength 1 ∧
      buffer.bytes = content.getD [] := by
  obtain ⟨rfl, _⟩ := installs.found
  exact ⟨rfl, rfl, rfl, Buffer.bytes_opened name recordLength content⟩

/-- An operation that succeeds leaves its file where sums and products of numbers of any size take
it. -/
theorem Effect.place {operation : Operation} (consistent : session.Consistent)
    (effect : Effect session operation calls (.ok ()) after)
    (moves : operation.file? session.redirection = some name) :
    ∃ moved, after.buffers.find? name = some moved ∧
      moved.place = operation.destination (session.standing name) moved.bytes.length := by
  have named := Session.name_standing consistent name
  cases effect with
  | opened finds installs =>
    cases moves
    exact ⟨_, installs.found.2, installs.place.1⟩
  | @appended _ _ content _ _ buffer _ finds installs =>
    cases moves
    obtain ⟨_, own, apart, bytes⟩ := installs.place
    refine ⟨_, find?_keep_of_named own, ?_⟩
    show _ = Operation.destination _ buffer.bytes.length (.appendFile _ _)
    rw [bytes]
    simp only [Operation.destination, Buffer.place, Option.getD_some, apart]
  | positioned obtains pointer number =>
    cases moves
    obtain ⟨content, rfl⟩ := obtains.standing
    exact ⟨_, find?_keep_of_named named, rfl⟩
  | reading readies pointer =>
    cases moves
    obtain ⟨content, rfl⟩ := readies.standing
    exact ⟨_, find?_keep_of_named named, rfl⟩
  | writing found pointer creates =>
    cases moves
    rw [Session.standing_of_find? found] at named ⊢
    exact ⟨_, find?_keep_of_named named, rfl⟩
  | idle relies other =>
    rw [Operation.file?_of_idle relies other] at moves
    cases moves
  | characterRead redirected read =>
    rw [redirected] at moves
    cases moves
    obtain ⟨before, found, passed⟩ := Option.bind_eq_some_iff.mp read
    rw [Session.standing_of_find? found] at named ⊢
    obtain ⟨_, rfl⟩ := Buffer.filePointer_lt_of_readByte passed
    exact ⟨_, find?_keep_of_named named, rfl⟩
  | lineRead redirected read =>
    rw [redirected] at moves
    cases moves
    obtain ⟨before, found, passed⟩ := Option.bind_eq_some_iff.mp read
    rw [Session.standing_of_find? found] at named ⊢
    obtain ⟨_, rfl, rfl⟩ := Buffer.filePointer_lt_of_readLine passed
    refine ⟨_, find?_keep_of_named named, ?_⟩
    simp only [Operation.destination, List.length_drop]
    rfl
  | characterWritten redirected modest wrote =>
    rw [redirected] at moves
    cases moves
    obtain ⟨before, found, passed⟩ := Option.bind_eq_some_iff.mp wrote
    rw [Session.standing_of_find? found] at named ⊢
    obtain ⟨_, same⟩ := Buffer.filePointer_le_of_writeByte passed
    rw [same]
    exact ⟨_, find?_keep_of_named named, rfl⟩
  | _ => cases moves

theorem Installs.find?_of_ne {recordLength : Nat} {content : Option Bytes}
    {outcome : Except Fault Buffer} {other : Name}
    (installs : Installs session name recordLength content calls outcome after)
    (differ : other ≠ name) : after.buffers.find? other = session.buffers.find? other := by
  cases installs with
  | fresh closed => exact find?_keep_of_ne rfl differ
  | replaced found flushed =>
    rw [find?_keep_of_ne rfl differ, Session.find?_discard, if_neg differ]
  | refused found failed => rfl

theorem Obtains.find?_of_ne {outcome : Except Fault Buffer} {other : Name}
    (obtains : Obtains session name calls outcome after) (differ : other ≠ name) :
    after.buffers.find? other = session.buffers.find? other := by
  cases obtains with
  | opened found => rfl
  | loaded closed loads => exact find?_keep_of_ne rfl differ
  | unread closed loads => rfl

theorem Readies.find?_of_ne {outcome : Except Fault Buffer} {other : Name}
    (readies : Readies session name calls outcome after) (differ : other ≠ name) :
    after.buffers.find? other = session.buffers.find? other := by
  cases readies with
  | loaded closed loads => exact find?_keep_of_ne rfl differ
  | _ => rfl

/-- An operation that moves in one file leaves all others as they are, whatever comes of it. -/
theorem Effect.find?_of_ne {operation : Operation} {outcome : Except Fault Unit} {other : Name}
    (consistent : session.Consistent) (effect : Effect session operation calls outcome after)
    (moves : operation.file? session.redirection = some name) (differ : other ≠ name) :
    after.buffers.find? other = session.buffers.find? other := by
  have named := Session.name_standing consistent name
  cases effect with
  | openRefused finds installs =>
    cases moves
    exact installs.find?_of_ne differ
  | opened finds installs =>
    cases moves
    exact installs.find?_of_ne differ
  | appendRefused finds installs =>
    cases moves
    exact installs.find?_of_ne differ
  | appended finds installs =>
    cases moves
    have own := installs.place.2.1
    rw [← installs.find?_of_ne differ]
    exact find?_keep_of_ne own differ
  | closed found flushed => cases moves
  | closedAll perm flushed => cases moves
  | positionUnread obtains =>
    cases moves
    exact obtains.find?_of_ne differ
  | positionBeyond obtains beyond =>
    cases moves
    exact obtains.find?_of_ne differ
  | positioned obtains pointer number =>
    cases moves
    have elsewhere := obtains.find?_of_ne differ
    obtain ⟨content, rfl⟩ := obtains.standing
    rw [← elsewhere]
    exact find?_keep_of_ne named differ
  | readUnready readies =>
    cases moves
    exact readies.find?_of_ne differ
  | readBeyond readies beyond =>
    cases moves
    exact readies.find?_of_ne differ
  | reading readies pointer =>
    cases moves
    have elsewhere := readies.find?_of_ne differ
    obtain ⟨content, rfl⟩ := readies.standing
    rw [← elsewhere]
    exact find?_keep_of_ne named differ
  | writing found pointer creates =>
    cases moves
    have own := consistent.named name _ found
    exact find?_keep_of_ne own differ
  | characterRead redirected read =>
    rw [redirected] at moves
    cases moves
    obtain ⟨before, found, same⟩ := readByte_keeps read
    rw [same]
    exact find?_keep_of_ne (consistent.named name before found) differ
  | lineRead redirected read =>
    rw [redirected] at moves
    cases moves
    obtain ⟨before, found, same⟩ := readLine_keeps read
    rw [same]
    exact find?_keep_of_ne (consistent.named name before found) differ
  | characterWritten redirected modest wrote =>
    rw [redirected] at moves
    cases moves
    obtain ⟨before, found, present, same⟩ := writeByte_keeps wrote
    rw [same]
    exact find?_keep_of_ne (consistent.named name before found) differ
  | _ => rfl

/-- Where every open file stands, words can hold. -/
def AllAddressable (session : Session) : Prop :=
  ∀ name buffer, session.buffers.find? name = some buffer → buffer.place.IsAddressable

theorem AllAddressable.keep {changed : Buffer} (all : AllAddressable session)
    (place : changed.place.IsAddressable) : AllAddressable (session.keep changed) := by
  intro name buffer found
  rw [Session.find?_keep] at found
  split at found
  · cases found
    exact place
  · exact all name buffer found

theorem AllAddressable.discard (all : AllAddressable session) (name : Name) :
    AllAddressable (session.discard name) := by
  intro other buffer found
  rw [Session.find?_discard] at found
  split at found
  · cases found
  · exact all other buffer found

theorem addressable_opened (name : Name) (recordLength : Nat) (content : Option Bytes) :
    (Buffer.opened name recordLength content).place.IsAddressable := by
  show (⟨0, 0⟩ : Place).IsAddressable
  decide

theorem Installs.allAddressable {recordLength : Nat} {content : Option Bytes}
    {outcome : Except Fault Buffer} (all : AllAddressable session)
    (installs : Installs session name recordLength content calls outcome after) :
    AllAddressable after := by
  cases installs with
  | fresh closed => exact all.keep (addressable_opened name recordLength content)
  | replaced found flushed =>
    exact (all.discard name).keep (addressable_opened name recordLength content)
  | refused found failed => exact all

theorem Obtains.allAddressable {outcome : Except Fault Buffer} (all : AllAddressable session)
    (obtains : Obtains session name calls outcome after) : AllAddressable after := by
  cases obtains with
  | opened found => exact all
  | loaded closed loads => exact all.keep (addressable_opened name 0 _)
  | unread closed loads => exact all

theorem Readies.allAddressable {outcome : Except Fault Buffer} (all : AllAddressable session)
    (readies : Readies session name calls outcome after) : AllAddressable after := by
  cases readies with
  | loaded closed loads => exact all.keep (addressable_opened name 0 _)
  | _ => exact all

/-- No operation takes a file where words cannot say it is, as long as files fit into memory. -/
theorem Effect.allAddressable {operation : Operation} {outcome : Except Fault Unit}
    (effect : Effect session operation calls outcome after) (all : AllAddressable session)
    (fits : after.FitsMemory) (sized : operation.IsSized) : AllAddressable after := by
  cases effect with
  | openRefused finds installs => exact installs.allAddressable all
  | opened finds installs => exact installs.allAddressable all
  | appendRefused finds installs => exact installs.allAddressable all
  | @appended _ _ content _ _ buffer _ finds installs =>
    obtain ⟨_, own, _, bytes⟩ := installs.place
    have length := fits.found (find?_keep_of_named own)
    change buffer.bytes.length + 1 < offsetLimit at length
    rw [show buffer.bytes = content from bytes] at length
    have number := Nat.div_le_self content.length buffer.recordLength
    exact (installs.allAddressable all).keep ⟨by simp only [Buffer.place]; omega,
      by simp only [Buffer.place]; omega⟩
  | closed found flushed => exact all.discard _
  | closedAll perm flushed =>
    intro name buffer found
    cases found
  | positionUnread obtains => exact obtains.allAddressable all
  | positionBeyond obtains beyond => exact obtains.allAddressable all
  | positioned obtains pointer number => exact (obtains.allAddressable all).keep ⟨pointer, number⟩
  | readUnready readies => exact readies.allAddressable all
  | readBeyond readies beyond => exact readies.allAddressable all
  | reading readies pointer => exact (readies.allAddressable all).keep ⟨pointer, sized.1⟩
  | writing found pointer creates => exact all.keep ⟨pointer, sized.1⟩
  | characterRead redirected read =>
    obtain ⟨before, found, passed⟩ := Option.bind_eq_some_iff.mp read
    obtain ⟨present, rfl⟩ := Buffer.filePointer_lt_of_readByte passed
    have length := fits.found (find?_keep_of_named rfl)
    change before.bytes.length + 1 < offsetLimit at length
    exact all.keep ⟨by simp only [Buffer.place]; omega, (all _ before found).2⟩
  | lineRead redirected read =>
    obtain ⟨before, found, passed⟩ := Option.bind_eq_some_iff.mp read
    obtain ⟨present, rfl, -⟩ := Buffer.filePointer_lt_of_readLine passed
    have length := fits.found (find?_keep_of_named rfl)
    change before.bytes.length + 1 < offsetLimit at length
    exact all.keep ⟨by simp only [Buffer.place]; omega, (all _ before found).2⟩
  | characterWritten redirected modest wrote =>
    obtain ⟨before, found, passed⟩ := Option.bind_eq_some_iff.mp wrote
    obtain ⟨reached, same⟩ := Buffer.filePointer_le_of_writeByte passed
    have length := fits.found (find?_keep_of_named rfl)
    have number : before.recordNumber < offsetLimit := (all _ before found).2
    refine all.keep ⟨by simp only [Buffer.place]; omega, ?_⟩
    rw [same]
    exact number
  | _ => exact all

/-- Loading a file fails only because of the store or of the source. -/
theorem Loads.eq_ioError {fault : Fault} (loads : Loads name calls (.error fault)) :
    fault = .ioError := by
  cases loads <;> rfl

theorem Obtains.eq_ioError {fault : Fault}
    (obtains : Obtains session name calls (.error fault) after) : fault = .ioError := by
  cases obtains with
  | unread closed loads => exact loads.eq_ioError

theorem Readies.ne_invalidOption {fault : Fault}
    (readies : Readies session name calls (.error fault) after) : fault ≠ .invalidOption := by
  cases readies with
  | empty found none => decide
  | absent closed loads => decide
  | unread closed loads =>
    rw [loads.eq_ioError]
    decide

section Refused

variable {Devices : Type} {peripherals : Peripherals Devices} {machine : Machine Devices}

/-- An offset that words cannot hold is refused; with any other, what follows decides. -/
theorem offset_bind_refused_iff {Value : Type} {base count stride : Nat}
    {next : Nat → Action Devices Value} :
    ((offset base count stride >>= next) machine).1 = .error .invalidOption ↔
      (base + count * stride < offsetLimit →
        (next (base + count * stride) machine).1 = .error .invalidOption) := by
  rw [offset_eq]
  by_cases fits : base + count * stride < offsetLimit
  · rw [if_pos fits]
    exact ⟨fun refused _ => refused, fun refused => refused fits⟩
  · rw [if_neg fits]
    exact ⟨fun _ fit => absurd fit fits, fun _ => rfl⟩

theorem position_refused_iff (records length : Nat) :
    (position peripherals name records machine).1 = .error .invalidOption ↔
      (∃ buffer between, openedOrLoaded peripherals name machine = (.ok buffer, between)) ∧
        ¬((Operation.position name records).destination
          (machine.session.standing name) length).IsAddressable := by
  obtain ⟨calls, after, obtains, _⟩ := openedOrLoaded_obtains (.refl peripherals machine) name
  rw [position, Attempt.bind_apply]
  rcases run : openedOrLoaded peripherals name machine with ⟨fault | buffer, between⟩
  · rw [run] at obtains
    obtain rfl : fault = .ioError := obtains.eq_ioError
    simp
  · rw [run] at obtains
    obtain ⟨content, same⟩ := Obtains.standing obtains
    subst same
    simp only [offset_bind_refused_iff, Nat.mul_one]
    constructor
    · intro refused
      refine ⟨⟨_, _, rfl⟩, ?_⟩
      rintro ⟨pointer, number⟩
      have done := refused pointer number
      cases done
    · rintro ⟨-, beyond⟩ pointer number
      exact absurd ⟨pointer, number⟩ beyond

theorem read_refused_iff {record byte : Nat} (length : Nat) (sized : record < offsetLimit) :
    (read peripherals name record byte machine).1 = .error .invalidOption ↔
      (∃ buffer between, openedForReading peripherals name machine = (.ok buffer, between)) ∧
        ¬((Operation.read name record byte).destination
          (machine.session.standing name) length).IsAddressable := by
  obtain ⟨calls, after, readies, _⟩ := openedForReading_readies (.refl peripherals machine) name
  rw [read, Attempt.bind_apply]
  rcases run : openedForReading peripherals name machine with ⟨fault | buffer, between⟩
  · rw [run] at readies
    have other := readies.ne_invalidOption
    simp [other]
  · rw [run] at readies
    obtain ⟨content, same⟩ := Readies.standing readies
    subst same
    simp only [offset_bind_refused_iff]
    constructor
    · intro refused
      refine ⟨⟨_, _, rfl⟩, ?_⟩
      rintro ⟨pointer, number⟩
      have done := refused pointer
      cases done
    · rintro ⟨-, beyond⟩ pointer
      exact absurd ⟨pointer, sized⟩ beyond

theorem openedOrLoaded_of_find? {buffer : Buffer}
    (found : machine.session.buffers.find? name = some buffer) :
    openedOrLoaded peripherals name machine = (.ok buffer, machine) := by
  have run : openedOrLoaded peripherals name machine =
      (match machine.session.buffers.find? name with
      | some buffer => pure buffer
      | none => do install peripherals name 0 (← load peripherals name) :
        Action Devices Buffer) machine := rfl
  rw [run, found]
  rfl

theorem opened_eq_iff {buffer : Buffer} {between : Machine Devices} :
    opened name machine = (.ok buffer, between) ↔
      machine.session.buffers.find? name = some buffer ∧ between = machine := by
  have run : opened name machine =
      (match machine.session.buffers.find? name with
      | some buffer => pure buffer
      | none => throw .fileNotFound : Action Devices Buffer) machine := rfl
  rw [run]
  cases found : machine.session.buffers.find? name with
  | some buffer => simp [eq_comm]
  | none => simp

theorem write_refused_iff {record byte : Nat} (length : Nat) (sized : record < offsetLimit) :
    (write peripherals name record byte machine).1 = .error .invalidOption ↔
      (∃ buffer between, opened name machine = (.ok buffer, between)) ∧
        ¬((Operation.write name record byte).destination
          (machine.session.standing name) length).IsAddressable := by
  obtain ⟨calls, after, effect, _⟩ := write_effect (.refl peripherals machine) name record byte
  constructor
  · intro refused
    rw [refused] at effect
    cases effect with
    | writeBeyond found beyond =>
      rw [Session.standing_of_find? found]
      exact ⟨⟨_, _, opened_eq_iff.mpr ⟨found, rfl⟩⟩, fun fits => beyond fits.1⟩
    | writeRefused found pointer failed => cases failed
    | unmet relies same absent => cases relies
  · rintro ⟨⟨buffer, between, got⟩, beyond⟩
    have found := (opened_eq_iff.mp got).1
    rw [Session.standing_of_find? found] at beyond
    generalize outcome : (write peripherals name record byte machine).1 = ended at effect
    cases effect with
    | writeAbsent closed =>
      rw [found] at closed
      cases closed
    | writeBeyond opened beyond => rfl
    | writeRefused opened pointer failed =>
      rw [found] at opened
      cases opened
      exact absurd ⟨pointer, sized⟩ beyond
    | writing opened pointer creates =>
      rw [found] at opened
      cases opened
      exact absurd ⟨pointer, sized⟩ beyond
    | idle relies other => cases relies
    | unmet relies same absent => cases relies

end Refused

/-- No character or line is read or written at the largest word. -/
theorem Effect.filePointer_lt {operation : Operation} (fits : session.FitsMemory)
    (effect : Effect session operation calls (.ok ()) after)
    (moves : operation.file? session.redirection = some name)
    (relies : operation.mode? ≠ none) :
    (session.standing name).filePointer + 1 < offsetLimit := by
  cases effect with
  | idle relies other =>
    rw [Operation.file?_of_idle relies other] at moves
    cases moves
  | characterRead redirected read =>
    rw [redirected] at moves
    cases moves
    obtain ⟨before, found, passed⟩ := Option.bind_eq_some_iff.mp read
    have present := (Buffer.filePointer_lt_of_readByte passed).1
    have length := fits.found found
    rw [Session.standing_of_find? found]
    omega
  | lineRead redirected read =>
    rw [redirected] at moves
    cases moves
    obtain ⟨before, found, passed⟩ := Option.bind_eq_some_iff.mp read
    have present := (Buffer.filePointer_lt_of_readLine passed).1
    have length := fits.found found
    rw [Session.standing_of_find? found]
    omega
  | characterWritten redirected modest wrote =>
    rw [redirected] at moves
    cases moves
    obtain ⟨before, found, passed⟩ := Option.bind_eq_some_iff.mp wrote
    have length := fits.found found
    rw [Session.standing_of_find? found]
    rcases Buffer.filePointer_of_writeByte passed with present | fillable
    · omega
    · unfold offsetLimit at modest ⊢
      omega
  | _ => exact absurd rfl relies

/-- Numbers that arguments can have are words. -/
theorem Operation.IsModest.isSized {operation : Operation} (modest : operation.IsModest) :
    operation.IsSized := by
  have words : Arguments.largestValue < offsetLimit := by decide
  cases operation with
  | openFile name recordLength => exact Nat.lt_of_le_of_lt modest words
  | appendFile name recordLength => exact Nat.lt_of_le_of_lt modest words
  | position name records => exact Nat.lt_of_le_of_lt modest words
  | read name record byte =>
    exact ⟨Nat.lt_of_le_of_lt modest.1 words, Nat.lt_of_le_of_lt modest.2 words⟩
  | write name record byte =>
    exact ⟨Nat.lt_of_le_of_lt modest.1 words, Nat.lt_of_le_of_lt modest.2 words⟩
  | _ => trivial

end TextFile

open TextFile (AllAddressable)

theorem Command.isSized_of_operation? {line : Bytes} {operation : TextFile.Operation}
    (comes : Command.operation? line = some operation) : operation.IsSized := by
  unfold Command.operation? at comes
  split at comes
  · next ordered fits =>
    cases comes
    exact (Command.fitsLine_of_order? fits).1.isSized
  · cases comes

variable {Devices Receiver : Type} {peripherals : Peripherals Devices}

/-- Whether the numbers that are handed over in an event are words. Those of command lines are. -/
def Event.IsSized : Event Receiver → Prop
  | .file operation => operation.IsSized
  | _ => True

theorem Event.IsSized.operation {session : Session} {event : Event Receiver}
    {operation : TextFile.Operation} (sized : event.IsSized)
    (comes : event.operation? session = some operation) : operation.IsSized := by
  rcases Event.operation?_origin comes with rfl | ⟨line, ordered⟩ | relies
  · exact sized
  · exact Command.isSized_of_operation? ordered
  · cases operation with
    | readCharacter => trivial
    | readLine => trivial
    | writeCharacter byte => trivial
    | _ => exact absurd rfl relies

theorem Event.Effect.allAddressable {session after : Session} {event : Event Receiver}
    {calls : List Peripherals.Call} {outcome : Except Fault Unit}
    (effect : event.Effect session calls outcome after) (all : AllAddressable session)
    (fits : after.FitsMemory) (sized : event.IsSized) : AllAddressable after := by
  cases effect with
  | operated operates typed effect =>
    exact effect.allAddressable all fits (sized.operation operates)
  | aside idle keeps elsewhere buffers active mode typed =>
    intro name buffer found
    rw [buffers] at found
    exact all name buffer found
  | discarded monitor idle discards =>
    intro name buffer found
    cases found

/-- As long as files fit into memory, words can hold where every one of them stands. -/
theorem Dos.Reaches.allAddressable {start dos : Dos Devices Receiver}
    (reached : start.Reaches peripherals
      (fun session event => session.FitsMemory ∧ event.IsSized) dos)
    (begun : AllAddressable start.machine.session) (fits : dos.machine.session.FitsMemory) :
    AllAddressable dos.machine.session := by
  induction reached with
  | refl => exact begun
  | @step dos reached event allowed ih =>
    obtain ⟨calls, effect, _⟩ := event.run_effect peripherals dos
    exact effect.allAddressable (ih allowed.1) fits allowed.2

/-- Places never wrap. In every session that is reached while files fit into memory, words hold
where each file stands. An operation that succeeds takes its file exactly where sums and products
of numbers of any size put it, and leaves the others where they are; it reads or writes nothing at
the largest word. POSITION, READ and WRITE are refused for their offset exactly if they get hold of
their file and words could not hold the place that they take it to. -/
theorem Dos.Reaches.perform_destination {monitor : Monitor} {devices : Devices}
    {dos : Dos Devices Receiver}
    (reached : (Dos.initial monitor devices).Reaches peripherals
      (fun session event => session.FitsMemory ∧ event.IsSized) dos)
    (fits : dos.machine.session.FitsMemory) :
    let session := dos.machine.session
    AllAddressable session ∧
      ∀ (operation : TextFile.Operation) (name : Name), operation.IsSized →
        operation.file? session.redirection = some name →
        let found := session.standing name
        let run := operation.perform peripherals dos.machine
        (run.1 = .ok () →
          (∃ moved, run.2.session.buffers.find? name = some moved ∧
            moved.place = operation.destination found moved.bytes.length) ∧
          (∀ other, other ≠ name →
            run.2.session.buffers.find? other = session.buffers.find? other) ∧
          (operation.mode? ≠ none → found.filePointer + 1 < TextFile.offsetLimit)) ∧
        ∀ prepare length, operation.prepare? peripherals = some prepare →
          (run.1 = .error .invalidOption ↔
            (∃ buffer between, prepare dos.machine = (.ok buffer, between)) ∧
              ¬(operation.destination found length).IsAddressable) := by
  intro session
  have consistent := reached.consistent (Session.consistent_initial monitor)
  refine ⟨reached.allAddressable (by intro name buffer found; cases found) fits, ?_⟩
  intro operation name sized moves found run
  obtain ⟨calls, after, effect, moved⟩ :=
    TextFile.perform_effect (.refl peripherals dos.machine) operation
  rw [← moved.session] at effect
  refine ⟨?_, ?_⟩
  · intro done
    rw [done] at effect
    exact ⟨effect.place consistent moves,
      fun other differ => effect.find?_of_ne consistent moves differ,
      effect.filePointer_lt fits moves⟩
  · intro prepare length prepares
    cases operation with
    | position name records =>
      cases prepares
      cases moves
      exact TextFile.position_refused_iff records length
    | read name record byte =>
      cases prepares
      cases moves
      exact TextFile.read_refused_iff length sized.1
    | write name record byte =>
      cases prepares
      cases moves
      exact TextFile.write_refused_iff length sized.1
    | _ => cases prepares

/-- A file that is not open is moved on to the largest word, and can be moved no further. -/
theorem Dos.perform_destination_largest :
    let name := ascii "A"
    let largest := TextFile.offsetLimit - 1
    let peripherals := Peripherals.inMemory .empty .none
    let start : Dos (Catalog Name Bytes) Unit := .initial .off .empty
    let moving : Event Unit := .file (.position name largest)
    let moved := (moving.run peripherals start).2
    (∃ buffer, moved.machine.session.buffers.find? name = some buffer ∧
      buffer.place = ⟨largest, largest⟩) ∧
    ((TextFile.Operation.position name 1).perform peripherals moved.machine).1 =
      .error .invalidOption := by
  intro name largest peripherals start moving moved
  have begun : start.Reaches peripherals
      (fun session event => session.FitsMemory ∧ event.IsSized) start := .refl
  have sized : moving.IsSized := show largest < TextFile.offsetLimit by decide
  have reached := begun.step moving ⟨by decide, sized⟩
  obtain ⟨_, first⟩ := Dos.Reaches.perform_destination begun (by decide)
  obtain ⟨_, later⟩ := Dos.Reaches.perform_destination reached (by decide +kernel)
  obtain ⟨⟨buffer, kept, place⟩, -⟩ :=
    (first (.position name largest) name sized rfl).1 (by decide +kernel)
  have refused := (later (.position name 1) name (show 1 < TextFile.offsetLimit by decide) rfl).2
    (TextFile.openedOrLoaded peripherals name) 0 rfl
  have got : TextFile.openedOrLoaded peripherals name moved.machine =
      (.ok buffer, moved.machine) := TextFile.openedOrLoaded_of_find? kept
  refine ⟨⟨buffer, kept, ?_⟩, refused.mpr ⟨⟨_, _, got⟩, by decide +kernel⟩⟩
  have before : start.machine.session.standing name = .opened name 0 none := rfl
  rw [place, before]
  show (⟨0 + largest * 1, 0 + largest⟩ : Place) = ⟨largest, largest⟩
  rw [Nat.mul_one, Nat.zero_add]

end DosText
