import DosText.Proofs.FileCommands

/-! Files of records that lie a fixed distance apart, each of them written and read as a line. Such
a file behaves as an array of lines, in whatever order its records are written: no text reaches into
the next record, and NULs stand for the empty lines of records that were passed over. -/

namespace DosText

open Peripherals (Contents)

/-- The texts that were written into records, the latest first. -/
abbrev Records := List (Nat × Bytes)

/-- The line that is read from a record: the text last written there, or the empty line if only a
later record was written. Behind the last record there is none. -/
def Records.line? (records : Records) (record : Nat) : Option Bytes :=
  (records.lookup record).or (if records.any (record < ·.1) then some [] else none)

/-- At an offset stands a line and what ends it. -/
def LineAt (bytes : Bytes) (offset : Nat) (line : Bytes) : Prop :=
  ∃ stop, isLineEnd stop = true ∧ line ++ [stop] <+: bytes.drop offset

namespace LineAt

variable {bytes text line : Bytes} {offset start : Nat}

/-- A text that is put down elsewhere leaves a line alone. -/
theorem splice (stands : LineAt bytes offset line)
    (apart : offset + line.length < start ∨ start + text.length ≤ offset) :
    LineAt (DosText.splice bytes start text) offset line := by
  obtain ⟨stop, ends, begins⟩ := stands
  refine ⟨stop, ends, ?_⟩
  rw [List.prefix_iff_getElem?] at begins ⊢
  intro index within
  have there := begins index within
  have length : (line ++ [stop]).length = line.length + 1 := List.length_append
  rw [List.getElem?_drop] at there ⊢
  exact getElem?_splice_of_some (by omega) there

/-- A line that is put down stands there. -/
theorem of_splice (bytes : Bytes) (offset : Nat) (line : Bytes) :
    LineAt (DosText.splice bytes offset (line ++ [carriageReturn])) offset line := by
  refine ⟨carriageReturn, rfl, ?_⟩
  rw [drop_splice]
  exact List.prefix_append _ _

/-- In the gap before a text that is put down behind the end of the data, every line is empty. -/
theorem of_gap (beyond : bytes.length ≤ offset) (before : offset < start) :
    LineAt (DosText.splice bytes start text) offset [] := by
  refine ⟨0, rfl, ?_⟩
  rw [List.prefix_iff_getElem?]
  intro index within
  have first : index = 0 := by
    have length : ([] ++ [(0 : UInt8)]).length = 1 := rfl
    omega
  subst first
  rw [List.getElem?_drop, Nat.add_zero, getElem?_splice_before before,
    List.getElem?_eq_none beyond]
  rfl

end LineAt

namespace Records

variable {records : Records} {length record : Nat} {text : Bytes}

theorem line?_cons (records : Records) (record : Nat) (text : Bytes) (other : Nat) :
    line? ((record, text) :: records) other =
      if other = record then some text
      else (line? records other).or (if other < record then some [] else none) := by
  unfold line?
  rw [List.lookup_cons, List.any_cons]
  by_cases same : other = record
  · simp [same]
  · have differ : (other == record) = false := beq_false_of_ne same
    rw [differ, if_neg same]
    cases records.lookup other with
    | some line => rfl
    | none =>
      cases records.any (other < ·.1) <;> simp

theorem line?_of_lookup {line : Bytes} (written : records.lookup record = some line) :
    records.line? record = some line := by
  rw [line?, written, Option.some_or]

/-- A record that was passed over holds the empty line. -/
theorem line?_of_passed (unwritten : records.lookup record = none)
    (passed : ∃ entry ∈ records, record < entry.1) : records.line? record = some [] := by
  obtain ⟨entry, member, later⟩ := passed
  have any : records.any (record < ·.1) = true :=
    List.any_eq_true.mpr ⟨entry, member, decide_eq_true later⟩
  rw [line?, unwritten, Option.none_or, if_pos any]

/-- Behind every record that was written there is no line. -/
theorem line?_of_behind (behind : ∀ entry ∈ records, entry.1 < record) :
    records.line? record = none := by
  have any : ¬records.any (record < ·.1) = true := by
    intro later
    obtain ⟨entry, member, before⟩ := List.any_eq_true.mp later
    exact absurd (of_decide_eq_true before) (Nat.lt_asymm (behind entry member))
  have unwritten : records.lookup record = none := by
    rw [List.lookup_eq_none_iff]
    intro entry member
    exact bne_iff_ne.mpr (Nat.ne_of_gt (behind entry member))
  rw [line?, unwritten, Option.none_or, if_neg any]

/-- What a file holds is what was written into its records. -/
structure Fills (records : Records) (length : Nat) (bytes : Bytes) : Prop where
  short : ∀ entry ∈ records, entry.2.length < length
  free : ∀ entry ∈ records, ∀ byte ∈ entry.2, isLineEnd byte = false
  stands : ∀ record line, records.line? record = some line → LineAt bytes (record * length) line
  ends : ∀ record, records.line? record = none → bytes.length ≤ record * length

theorem fills_nil (length : Nat) : Fills [] length [] where
  short := nofun
  free := nofun
  stands := by
    intro record line found
    cases found
  ends := fun _ _ => Nat.zero_le _

/-- A line that is read from a record was written there, or is empty. -/
theorem mem_of_line? {line : Bytes} (found : records.line? record = some line) :
    (record, line) ∈ records ∨ line = [] := by
  rw [line?, Option.or_eq_some_iff] at found
  rcases found with written | ⟨-, passed⟩
  · obtain ⟨later, earlier, same, -⟩ := List.lookup_eq_some_iff.mp written
    left
    rw [same]
    exact List.mem_append_right later List.mem_cons_self
  · split at passed
    · cases passed
      exact .inr rfl
    · cases passed

section Fills

variable {bytes : Bytes}

theorem Fills.length_lt {line : Bytes} (fills : Fills records length bytes)
    (found : records.line? record = some line) (positive : 0 < length) :
    line.length < length := by
  rcases mem_of_line? found with written | rfl
  · exact fills.short _ written
  · exact positive

theorem Fills.isLineEnd_eq_false {line : Bytes} (fills : Fills records length bytes)
    (found : records.line? record = some line) : ∀ byte ∈ line, isLineEnd byte = false := by
  rcases mem_of_line? found with written | rfl
  · exact fills.free _ written
  · nofun

/-- Writing a text into a record leaves all other records alone. -/
theorem Fills.write (fills : Fills records length bytes)
    (short : text.length < length) (free : ∀ byte ∈ text, isLineEnd byte = false) (record : Nat) :
    Fills ((record, text) :: records) length
      (splice bytes (record * length) (text ++ [carriageReturn])) where
  short := List.forall_mem_cons.mpr ⟨short, fills.short⟩
  free := List.forall_mem_cons.mpr ⟨free, fills.free⟩
  stands := by
    intro other line found
    rw [line?_cons] at found
    by_cases same : other = record
    · rw [if_pos same] at found
      cases found
      subst same
      exact LineAt.of_splice bytes _ text
    rw [if_neg same] at found
    cases before : records.line? other with
    | some line =>
      rw [before, Option.some_or] at found
      cases found
      have fits := fills.length_lt before (Nat.zero_lt_of_lt short)
      refine (fills.stands other line before).splice ?_
      rw [List.length_append, List.length_singleton]
      rcases Nat.lt_or_gt_of_ne same with earlier | later
      · have next := Nat.mul_le_mul_right length (Nat.succ_le_of_lt earlier)
        rw [Nat.succ_mul] at next
        omega
      · have next := Nat.mul_le_mul_right length (Nat.succ_le_of_lt later)
        rw [Nat.succ_mul] at next
        omega
    | none =>
      rw [before, Option.none_or] at found
      split at found
      · next earlier =>
        cases found
        refine LineAt.of_gap (fills.ends other before) ?_
        exact Nat.mul_lt_mul_of_pos_right earlier (Nat.zero_lt_of_lt short)
      · cases found
  ends := by
    intro other found
    rw [line?_cons] at found
    split at found
    · cases found
    · next differ =>
      rw [Option.or_eq_none_iff] at found
      obtain ⟨before, behind⟩ := found
      split at behind
      · cases behind
      · next passed =>
        have old := fills.ends other before
        have next := Nat.mul_le_mul_right length (show record + 1 ≤ other by omega)
        rw [Nat.succ_mul] at next
        rw [length_splice, List.length_append, List.length_singleton]
        omega

end Fills

end Records

/-- What a program does with a file of records. -/
inductive RecordStep (Receiver : Type) where
  | write (record : Nat) (text : Bytes)
  /-- Closes the file and opens it again. -/
  | reopen
  | read (record : Nat) (prompt : Bytes) (receiver : Receiver)

namespace RecordStep

variable {Devices Receiver : Type}

/-- Prints the commands and the text of a step, and asks for the line of a record that is read. -/
def run (peripherals : Peripherals Devices) (name : Name) (length : Nat) :
    RecordStep Receiver → Call Devices Receiver Unit
  | write record text => do
    Dos.command peripherals (.named .write name (Arguments.textOf .record (some record)))
    Dos.print peripherals (text ++ [carriageReturn])
  | reopen => do
    Dos.command peripherals (.close name [])
    Dos.command peripherals (.named .openFile name (Arguments.textOf .length (some length)))
  | read record prompt receiver => do
    Dos.command peripherals (.named .read name (Arguments.textOf .record (some record)))
    let _ ← Dos.readLine peripherals prompt receiver

/-- Whether a step stays within records of a length that a file can have, up to the end of which it
can be filled, and writes one line at most. -/
def Fits (length limit : Nat) : RecordStep Receiver → Prop
  | write record text =>
    record ≤ Arguments.largestValue ∧ text.length < length ∧
      (record + 1) * length ≤ limit ∧
      ∀ byte ∈ text, byte ≠ controlD ∧ isLineEnd byte = false
  | reopen => True
  | read record _ _ => record ≤ Arguments.largestValue

instance (length limit : Nat) : (step : RecordStep Receiver) → Decidable (step.Fits length limit)
  | write record text =>
    -- The bytes of the text are looked at, and not all bytes that there are.
    haveI : Decidable (∀ byte ∈ text, byte ≠ controlD ∧ isLineEnd byte = false) :=
      List.decidableBAll _ text
    inferInstanceAs (Decidable (record ≤ Arguments.largestValue ∧ text.length < length ∧
      (record + 1) * length ≤ limit ∧
      ∀ byte ∈ text, byte ≠ controlD ∧ isLineEnd byte = false))
  | reopen => .isTrue trivial
  | read record _ _ => Nat.decLe record Arguments.largestValue

/-- What is written into the records once a step is done. -/
def records (before : Records) : RecordStep Receiver → Records
  | write record text => (record, text) :: before
  | _ => before

/-- What an array of lines answers to a step: the deliveries to be made, or a fault. -/
def answer (before : Records) : RecordStep Receiver → Except Fault (List (Delivery Receiver))
  | write _ _ => .ok []
  | reopen => .ok []
  | read record _ receiver =>
    if before = [] then .error .fileNotFound
    else
      match before.line? record with
      | some line => .ok [⟨receiver, .line line⟩]
      | none => .error .endOfData

/-- The deliveries that come with an answer; none come with a fault. -/
def deliveries (answer : Except Fault (List (Delivery Receiver))) : List (Delivery Receiver) :=
  match answer with
  | .ok made => made
  | .error _ => []

/-- What is written into the records once steps are done in turn. -/
def recordsAfter (before : Records) (steps : List (RecordStep Receiver)) : Records :=
  steps.foldl records before

/-- What an array of lines answers to steps in turn. -/
def answers (before : Records) :
    List (RecordStep Receiver) → List (Except Fault (List (Delivery Receiver)))
  | [] => []
  | step :: rest => step.answer before :: answers (step.records before) rest

/-- Takes steps in turn, each of them whatever came of those before it. -/
def runEach (peripherals : Peripherals Devices) (name : Name) (length : Nat) :
    List (RecordStep Receiver) → Dos Devices Receiver →
      List (Except Fault Unit) × Dos Devices Receiver
  | [], dos => ([], dos)
  | step :: rest, dos =>
    let first := step.run peripherals name length dos
    let later := runEach peripherals name length rest first.2
    (first.1 :: later.1, later.2)

/-- A file is open with records of a length, and holds what was written into them. It has content,
in memory or in the store, only if anything was written. -/
structure Stands (session : Session) (held first : Contents) (length : Nat) (records : Records)
    (buffer : Buffer) : Prop where
  holds : session.Holds buffer
  recordLength : buffer.recordLength = length
  fills : records.Fills length buffer.bytes
  content : buffer.content.isSome = true ↔ records ≠ []
  blank : records = [] → held buffer.name = none ∧ first buffer.name = none

section Stands

variable {session : Session} {held first : Contents} {length : Nat} {records : Records}
variable {buffer : Buffer}

theorem Stands.eq_none_of_nil (stands : Stands session held first length records buffer)
    (nothing : records = []) : buffer.content = none := by
  rw [← Option.not_isSome_iff_eq_none, stands.content]
  exact not_not.mpr nothing

theorem Stands.eq_nil_of_bytes? (stands : Stands session held first length records buffer)
    (empty : buffer.bytes? = none) : records = [] := by
  rw [Buffer.bytes?, Option.map_eq_none_iff] at empty
  by_contra written
  have present := stands.content.mpr written
  rw [empty] at present
  cases present

/-- A pointer can be moved, once the file has content. -/
theorem Stands.move (stands : Stands session held first length records buffer)
    (written : records ≠ []) {later : Session} {filePointer recordNumber : Nat}
    (holds : later.Holds { buffer with filePointer, recordNumber }) (stored : Contents) :
    Stands later stored first length records { buffer with filePointer, recordNumber } where
  holds := holds
  recordLength := stands.recordLength
  fills := stands.fills
  content := stands.content
  blank nothing := absurd nothing written

end Stands

variable {peripherals : Peripherals Devices} {held : Devices → Contents} {first : Contents}
variable {dos : Dos Devices Receiver} {buffer : Buffer} {length : Nat} {before : Records}

theorem run_write (steady : peripherals.Steady held first buffer.name)
    (plain : Command.IsPlainName buffer.name) (some : buffer.name ≠ []) (apart : 2 ≤ length)
    (stands : Stands dos.machine.session (held dos.machine.devices) first length before buffer)
    {record : Nat} {text : Bytes}
    (fits : (write record text : RecordStep Receiver).Fits length
      peripherals.platform.fillLimit) :
    ((write record text).run peripherals buffer.name length).Ensures dos fun outcome later =>
      outcome = .ok () ∧ later.deliveries = dos.deliveries ∧
        ∃ after, after.name = buffer.name ∧ Stands later.machine.session
          (held later.machine.devices) first length ((record, text) :: before) after := by
  obtain ⟨small, short, within, free⟩ := fits
  have named := Arguments.isSmall_some small
  have start : TextFile.writeOffset buffer record 0 = record * length := by
    rw [TextFile.writeOffset, stands.recordLength, if_pos (by omega), Nat.zero_add]
  have near : record * length < peripherals.platform.fillLimit := by
    rw [Nat.succ_mul] at within
    omega
  have pointer : TextFile.writeOffset buffer record 0 < TextFile.offsetLimit := by
    rw [start]
    exact (near.trans_le peripherals.platform.fillLimit_le).trans (by decide)
  unfold run
  refine (Dos.command_write steady.durable plain some named stands.holds pointer).andThen ?_
  intro writing ensured
  obtain ⟨redirected, holds, writes⟩ := ensured
  have begins : controlD ∉ text ++ [carriageReturn] := by
    intro member
    rcases List.mem_append.mp member with inside | last
    · exact (free controlD inside).1 rfl
    · cases List.mem_singleton.mp last
  have reachable :
      (TextFile.written buffer record 0).filePointer < peripherals.platform.fillLimit := by
    show TextFile.writeOffset buffer record 0 < _
    rwa [start]
  refine (Dos.print_writing holds redirected rfl begins (.inr ⟨reachable, by simp⟩)).mono ?_
  intro outcome later ensured
  obtain ⟨succeeds, full, spliced, filled, devices, prints⟩ := ensured
  have bytes : full.bytes = splice buffer.bytes (record * length) (text ++ [carriageReturn]) := by
    rw [← start]
    exact spliced.bytes
  refine ⟨succeeds, (writes.trans prints).deliveries, full, spliced.name, ?_⟩
  refine ⟨filled, spliced.recordLength.trans stands.recordLength, ?_, ?_, nofun⟩
  · rw [bytes]
    exact stands.fills.write short (fun byte part => (free byte part).2) record
  · exact iff_of_true (spliced.content rfl) (List.cons_ne_nil _ _)

theorem run_reopen (steady : peripherals.Steady held first buffer.name)
    (plain : Command.IsPlainName buffer.name) (some : buffer.name ≠ []) (apart : 2 ≤ length)
    (small : length ≤ Arguments.largestValue)
    (stands : Stands dos.machine.session (held dos.machine.devices) first length before buffer) :
    (reopen.run peripherals buffer.name length).Ensures dos fun outcome later =>
      outcome = .ok () ∧ later.deliveries = dos.deliveries ∧
        ∃ after, after.name = buffer.name ∧ Stands later.machine.session
          (held later.machine.devices) first length before after := by
  have named := Arguments.isSmall_some small
  unfold run
  refine (Dos.command_close steady.durable plain some stands.holds).andThen ?_
  intro closed ensured
  obtain ⟨idle, unopened, stored, closes⟩ := ensured
  have exposed := exposed_of_closed unopened (held closed.machine.devices) first
  refine (Dos.command_openFile steady plain some named idle exposed).mono ?_
  intro outcome later ensured
  obtain ⟨succeeds, holds, kept, opens⟩ := ensured
  have content : (held closed.machine.devices buffer.name).or (first buffer.name) =
      buffer.bytes? := by
    rw [stored]
    cases bytes? : buffer.bytes? with
    | some bytes => rfl
    | none =>
      obtain ⟨unstored, unseeded⟩ := stands.blank (stands.eq_nil_of_bytes? bytes?)
      rw [unstored, unseeded]
      rfl
  rw [content] at holds kept
  refine ⟨succeeds, (closes.trans opens).deliveries,
    .opened buffer.name length buffer.bytes?, rfl, holds, Nat.max_eq_left (by omega), ?_, ?_, ?_⟩
  · rw [Buffer.bytes_opened, Buffer.getD_bytes?]
    exact stands.fills
  · rw [← stands.content]
    show (Option.map _ buffer.bytes?).isSome = true ↔ _
    rw [Option.isSome_map, Buffer.bytes?, Option.isSome_map]
  · intro nothing
    have empty : buffer.bytes? = none := by
      rw [Buffer.bytes?, stands.eq_none_of_nil nothing]
      rfl
    exact ⟨kept.trans empty, (stands.blank nothing).2⟩

/-- Nothing is read from a file into which nothing was written. -/
theorem run_read_nil (steady : peripherals.Steady held first buffer.name)
    (plain : Command.IsPlainName buffer.name) (some : buffer.name ≠ [])
    (stands : Stands dos.machine.session (held dos.machine.devices) first length [] buffer)
    {record : Nat} (near : record ≤ Arguments.largestValue) (prompt : Bytes)
    (receiver : Receiver) :
    ((read record prompt receiver).run peripherals buffer.name length).Ensures dos
      fun outcome later => outcome = .error .fileNotFound ∧ later.deliveries = dos.deliveries ∧
        ∃ after, after.name = buffer.name ∧ Stands later.machine.session
          (held later.machine.devices) first length [] after := by
  have named := Arguments.isSmall_some near
  unfold run
  refine (Dos.command_read_empty steady plain some named stands.holds
    (stands.eq_none_of_nil rfl)).abandon ?_
  intro later ensured
  obtain ⟨holds, stored, quiet⟩ := ensured
  refine ⟨rfl, quiet.deliveries, buffer, rfl, holds, stands.recordLength,
    stands.fills, stands.content, ?_⟩
  rw [stored]
  exact stands.blank

/-- A record of a file is read as the line in it, or the data ends before it. -/
theorem run_read_written (steady : peripherals.Steady held first buffer.name)
    (plain : Command.IsPlainName buffer.name) (some : buffer.name ≠ [])
    (small : length ≤ Arguments.largestValue)
    (stands : Stands dos.machine.session (held dos.machine.devices) first length before buffer)
    (written : before ≠ []) {record : Nat} (near : record ≤ Arguments.largestValue)
    (prompt : Bytes) (receiver : Receiver) :
    ((read record prompt receiver).run peripherals buffer.name length).Ensures dos
      fun outcome later => (match before.line? record with
        | Option.some line => outcome = .ok () ∧
          later.deliveries = dos.deliveries ++ [⟨receiver, .line line⟩]
        | none => outcome = .error .endOfData ∧ later.deliveries = dos.deliveries) ∧
        ∃ after, after.name = buffer.name ∧ Stands later.machine.session
          (held later.machine.devices) first length before after := by
  have named := Arguments.isSmall_some near
  have pointer : record * buffer.recordLength < TextFile.offsetLimit := by
    rw [stands.recordLength]
    exact Nat.lt_of_le_of_lt (Nat.mul_le_mul near small) (by decide)
  have readable : TextFile.Readable dos.machine.session (held dos.machine.devices) buffer :=
    .opened stands.holds.found (stands.content.mpr written)
  unfold run
  refine (Dos.command_read steady plain some named stands.holds.outside readable
    pointer).andThen ?_
  intro reading ensured
  obtain ⟨redirected, holds, reads⟩ := ensured
  let aimed : Buffer := TextFile.aimed buffer record 0
  have kept : Stands reading.machine.session (held reading.machine.devices) first length before
      aimed := stands.move written holds _
  have start : aimed.filePointer = record * length := by
    show 0 + record * buffer.recordLength = _
    rw [stands.recordLength, Nat.zero_add]
  cases line? : before.line? record with
  | some line =>
    obtain ⟨stop, ends, behind, remaining⟩ := stands.fills.stands record line line?
    have here : aimed.bytes.drop aimed.filePointer = line ++ stop :: behind := by
      rw [start]
      exact remaining.symm.trans (List.append_assoc line [stop] behind)
    have read := Buffer.readLine_of_drop (stands.fills.isLineEnd_eq_false line?) ends here
    refine (Dos.readLine_reading holds redirected read prompt receiver).andThen ?_
    intro later ensured
    obtain ⟨holds, -, enqueued, devices, -⟩ := ensured
    let passed : Buffer := { aimed with filePointer := aimed.filePointer + (line.length + 1) }
    have made : later.deliveries = dos.deliveries ++ [⟨receiver, .line line⟩] := by
      rw [Dos.deliveries_of_enqueued enqueued, reads.deliveries]
    exact ⟨⟨rfl, made⟩, passed, rfl, kept.move written holds _⟩
  | none =>
    have ended : aimed.readLine = none := by
      rw [Buffer.readLine_eq_none_iff, start]
      exact stands.fills.ends record line?
    refine Attempt.ensures_of_apply
      (Attempt.bind_of_error _
        (Dos.readLine_ended holds redirected (stands.content.mpr written) ended prompt receiver)) ?_
    exact ⟨⟨rfl, reads.deliveries⟩, aimed, rfl, kept⟩

/-- A step is answered as by an array of lines, and leaves what the array becomes. -/
theorem run_answer (steady : peripherals.Steady held first buffer.name)
    (plain : Command.IsPlainName buffer.name) (some : buffer.name ≠ []) (apart : 2 ≤ length)
    (small : length ≤ Arguments.largestValue)
    (stands : Stands dos.machine.session (held dos.machine.devices) first length before buffer)
    (step : RecordStep Receiver) (fits : step.Fits length peripherals.platform.fillLimit) :
    (step.run peripherals buffer.name length).Ensures dos fun outcome later =>
      outcome = (step.answer before).map (fun _ => ()) ∧
        later.deliveries = dos.deliveries ++ deliveries (step.answer before) ∧
        ∃ after, after.name = buffer.name ∧ Stands later.machine.session
          (held later.machine.devices) first length (step.records before) after := by
  cases step with
  | write record text =>
    refine (run_write steady plain some apart stands fits).mono ?_
    intro outcome later ensured
    obtain ⟨succeeds, none, stood⟩ := ensured
    exact ⟨succeeds, none.trans (List.append_nil _).symm, stood⟩
  | reopen =>
    refine (run_reopen steady plain some apart small stands).mono ?_
    intro outcome later ensured
    obtain ⟨succeeds, none, stood⟩ := ensured
    exact ⟨succeeds, none.trans (List.append_nil _).symm, stood⟩
  | read record prompt receiver =>
    by_cases nothing : before = []
    · subst nothing
      refine (run_read_nil steady plain some stands fits prompt receiver).mono ?_
      intro outcome later ensured
      obtain ⟨fails, none, stood⟩ := ensured
      exact ⟨fails, none.trans (List.append_nil _).symm, stood⟩
    · refine (run_read_written steady plain some small stands nothing fits prompt receiver).mono ?_
      intro outcome later ensured
      obtain ⟨reply, stood⟩ := ensured
      rw [answer, if_neg nothing]
      cases line? : before.line? record with
      | some line =>
        rw [line?] at reply
        exact ⟨reply.1, reply.2, stood⟩
      | none =>
        rw [line?] at reply
        exact ⟨reply.1, reply.2.trans (List.append_nil _).symm, stood⟩

/-- Steps taken in turn are answered as by an array of lines. -/
theorem runEach_answers (steady : peripherals.Steady held first buffer.name)
    (plain : Command.IsPlainName buffer.name) (some : buffer.name ≠ []) (apart : 2 ≤ length)
    (small : length ≤ Arguments.largestValue)
    (stands : Stands dos.machine.session (held dos.machine.devices) first length before buffer)
    {steps : List (RecordStep Receiver)}
    (fits : ∀ step ∈ steps, step.Fits length peripherals.platform.fillLimit) :
    let ran := runEach peripherals buffer.name length steps dos
    ran.1 = (answers before steps).map (·.map fun _ => ()) ∧
      ran.2.deliveries = dos.deliveries ++ (answers before steps).flatMap deliveries ∧
      ∃ after, after.name = buffer.name ∧ Stands ran.2.machine.session
        (held ran.2.machine.devices) first length (recordsAfter before steps) after := by
  induction steps generalizing dos buffer before with
  | nil => exact ⟨rfl, (List.append_nil _).symm, buffer, rfl, stands⟩
  | cons step rest ih =>
    obtain ⟨here, later⟩ := List.forall_mem_cons.mp fits
    obtain ⟨outcome, made, after, own, stood⟩ :=
      run_answer steady plain some apart small stands step here
    rw [← own] at steady plain some
    obtain ⟨outcomes, others, last, same, ended⟩ := ih steady plain some stood later
    rw [own] at outcomes others same ended
    refine ⟨?_, ?_, last, same, ended⟩
    · rw [runEach, answers, List.map_cons, ← outcome, ← outcomes]
    · rw [answers, List.flatMap_cons, ← List.append_assoc, ← made]
      exact others

/-- A new file that is opened with records of a length behaves as an array of lines, whatever is
written into its records and in whatever order, and however often it is closed and opened again in
between: every step is answered as by the array. A record that is read then gives the text last
written there; it gives the empty line if only later records were written, and behind the last
record the data ends. -/
theorem runEach_records {name : Name} (steady : peripherals.Steady held first name)
    (plain : Command.IsPlainName name) (some : name ≠ [])
    (outside : dos.machine.session.commandMode = false)
    (absent : fileView dos.machine.session.buffers (held dos.machine.devices) first name = none)
    (apart : 2 ≤ length) (small : length ≤ Arguments.largestValue) :
    ∃ opened, Dos.command peripherals
        (.named .openFile name (Arguments.textOf .length (Option.some length))) dos =
          (.ok (), opened) ∧
      ∀ steps : List (RecordStep Receiver),
        (∀ step ∈ steps, step.Fits length peripherals.platform.fillLimit) →
        let ran := runEach peripherals name length steps opened
        let written := recordsAfter [] steps
        ran.1 = (answers [] steps).map (·.map fun _ => ()) ∧
          ran.2.deliveries = dos.deliveries ++ (answers [] steps).flatMap deliveries ∧
          ∀ record ≤ Arguments.largestValue, ∀ prompt receiver, written ≠ [] →
            let asked := (read record prompt receiver).run peripherals name length ran.2
            (∀ text, written.lookup record = Option.some text → asked.1 = .ok () ∧
              asked.2.deliveries = ran.2.deliveries ++ [⟨receiver, .line text⟩]) ∧
            (written.lookup record = none → (∃ entry ∈ written, record < entry.1) →
              asked.1 = .ok () ∧
                asked.2.deliveries = ran.2.deliveries ++ [⟨receiver, .line []⟩]) ∧
            ((∀ entry ∈ written, entry.1 < record) →
              asked.1 = .error .endOfData ∧ asked.2.deliveries = ran.2.deliveries) := by
  have named : Arguments.IsSmall (Option.some length) := by
    intro value same
    cases same
    exact small
  obtain ⟨exposed, unstored, unseeded⟩ := exposed_of_absent absent
  obtain ⟨opened, ran, holds, stored, quiet⟩ := (Dos.command_openFile steady plain some named
    outside exposed).exists_run
  rw [unstored, unseeded] at holds stored
  let fresh : Buffer := .opened name length none
  have begun : Stands opened.machine.session (held opened.machine.devices) first length []
      fresh := by
    refine ⟨holds, Nat.max_eq_left (by omega), Records.fills_nil length, ?_, ?_⟩
    · exact iff_of_false nofun (not_not.mpr rfl)
    · exact fun _ => ⟨stored, unseeded⟩
  refine ⟨opened, ran, ?_⟩
  intro steps fits
  have answered := runEach_answers (show peripherals.Steady held first fresh.name from steady)
    plain some apart small begun fits
  obtain ⟨outcomes, made, last, own, stands⟩ := answered
  have same : last.name = name := own
  refine ⟨outcomes, quiet.deliveries ▸ made, ?_⟩
  intro record near prompt receiver written
  have replied := run_read_written (same ▸ steady) (same ▸ plain) (same ▸ some) small stands written
    near prompt receiver
  rw [same] at replied
  obtain ⟨reply, -⟩ := replied
  refine ⟨?_, ?_, ?_⟩
  · intro text latest
    rwa [Records.line?_of_lookup latest] at reply
  · intro unwritten passed
    rwa [Records.line?_of_passed unwritten passed] at reply
  · intro behind
    rwa [Records.line?_of_behind behind] at reply

/-- A record that is written over, one that is passed over and one behind the last. -/
theorem runEach_records_sparse :
    let name := ascii "DATA"
    let steps := [write 2 (ascii "ABC"), reopen, write 0 (ascii "X"), write 2 (ascii "Y")]
    ∃ opened : Dos (Catalog Name Bytes) Unit,
      let last := (runEach (.inMemory .empty .none) name 4 steps opened).2
      let ask record := (read record [] ()).run (.inMemory .empty .none) name 4 last
      last.deliveries = [] ∧ (ask 2).2.deliveries.map Delivery.item = [.line (ascii "Y")] ∧
        (ask 1).2.deliveries.map Delivery.item = [.line []] ∧ (ask 3).1 = .error .endOfData := by
  intro name steps
  have steady := (Peripherals.reliable_inMemory .empty).steady name
  let start : Dos (Catalog Name Bytes) Unit := .initial .off .empty
  have outside : start.machine.session.commandMode = false := rfl
  have absent : fileView start.machine.session.buffers (Catalog.find? start.machine.devices)
      (Catalog.empty : Catalog Name Bytes).find? name = none := rfl
  obtain ⟨opened, _, ran⟩ := runEach_records steady (by decide) (by decide) outside absent
    (show 2 ≤ 4 by decide) (by decide)
  have fits : ∀ step ∈ steps, step.Fits 4 0x4000000000000 := by decide
  obtain ⟨_, made, asked⟩ := ran steps fits
  refine ⟨opened, made, ?_, ?_, ?_⟩
  · rw [((asked 2 (by decide) [] () (by decide)).1 (ascii "Y") rfl).2, made]
    rfl
  · rw [((asked 1 (by decide) [] () (by decide)).2.1 rfl (by decide)).2, made]
    rfl
  · exact ((asked 3 (by decide) [] () (by decide)).2.2 (by decide)).1

end RecordStep

end DosText
