import DosText.Proofs.Transfers

/-! The operations on text files as data, and everything that each of them can do: the calls it
makes, the outcome and the session it leaves. What holds of every operation is proved from this
list, without a look into any of them. -/

namespace DosText

namespace TextFile

open Peripherals (Call)

/-- Something that can be done with the text files of a machine. Characters are read from and
written to the file that input or output is redirected to. -/
inductive Operation where
  | openFile (name : Name) (recordLength : Nat)
  | appendFile (name : Name) (recordLength : Nat)
  | close (name : Name)
  | closeAll
  | position (name : Name) (records : Nat)
  | read (name : Name) (record byte : Nat)
  | write (name : Name) (record byte : Nat)
  | delete (name : Name)
  | rename (source target : Name)
  | deactivate
  | readCharacter
  | readLine
  | writeCharacter (byte : UInt8)
  deriving DecidableEq, Repr

/-- The mode that an operation relies on. -/
def Operation.mode? : Operation → Option Mode
  | .readCharacter => some .read
  | .readLine => some .read
  | .writeCharacter _ => some .write
  | _ => none

variable {Devices : Type}

/-- Does something with the text files. Characters are read and written in their mode only; in any
other mode nothing is done. -/
def Operation.perform (peripherals : Peripherals Devices) : Operation → Action Devices Unit
  | .openFile name recordLength => TextFile.openFile peripherals name recordLength
  | .appendFile name recordLength => TextFile.appendFile peripherals name recordLength
  | .close name => TextFile.close peripherals name
  | .closeAll => TextFile.closeAll peripherals
  | .position name records => TextFile.position peripherals name records
  | .read name record byte => TextFile.read peripherals name record byte
  | .write name record byte => TextFile.write peripherals name record byte
  | .delete name => TextFile.delete peripherals name
  | .rename source target => TextFile.rename peripherals source target
  | .deactivate => Machine.update Session.deactivate
  | .readCharacter => do
    if (← get).session.mode = .read then
      let _ ← TextFile.readActiveCharacter peripherals
  | .readLine => do
    if (← get).session.mode = .read then
      let _ ← TextFile.readActiveLine peripherals
  | .writeCharacter byte => do
    if (← get).session.mode = .write then TextFile.writeActiveCharacter peripherals byte

/-- Where output to a file begins: behind the beginning of a record where records have a length,
and behind the pointer otherwise. -/
def writeOffset (buffer : Buffer) (record byte : Nat) : Nat :=
  if buffer.recordLength > 1 then byte + record * buffer.recordLength
  else buffer.filePointer + byte

/-- Everything that an operation can do in a session. -/
inductive Effect (session : Session) :
    Operation → List Call → Except Fault Unit → Session → Prop where
  | openUnread {name : Name} {recordLength : Nat} {calls : List Call} {fault : Fault}
    (finds : Finds session name calls (.error fault)) :
    Effect session (.openFile name recordLength) calls (.error fault) session
  | openRefused {name : Name} {recordLength : Nat} {content : Option Bytes}
    {calls more : List Call} {fault : Fault} {after : Session}
    (finds : Finds session name calls (.ok content))
    (installs : Installs session name recordLength content more (.error fault) after) :
    Effect session (.openFile name recordLength) (calls ++ more) (.error fault) after
  | opened {name : Name} {recordLength : Nat} {content : Option Bytes}
    {calls more : List Call} {buffer : Buffer} {after : Session}
    (finds : Finds session name calls (.ok content))
    (installs : Installs session name recordLength content more (.ok buffer) after) :
    Effect session (.openFile name recordLength) (calls ++ more) (.ok ()) after
  | appendUnread {name : Name} {recordLength : Nat} {calls : List Call} {fault : Fault}
    (finds : Finds session name calls (.error fault)) :
    Effect session (.appendFile name recordLength) calls (.error fault) session
  | appendAbsent {name : Name} {recordLength : Nat} {calls : List Call}
    (finds : Finds session name calls (.ok none)) :
    Effect session (.appendFile name recordLength) calls (.error .fileNotFound) session
  | appendRefused {name : Name} {recordLength : Nat} {content : Bytes}
    {calls more : List Call} {fault : Fault} {after : Session}
    (finds : Finds session name calls (.ok (some content)))
    (installs : Installs session name recordLength (some content) more (.error fault) after) :
    Effect session (.appendFile name recordLength) (calls ++ more) (.error fault) after
  | appended {name : Name} {recordLength : Nat} {content : Bytes}
    {calls more : List Call} {buffer : Buffer} {after : Session}
    (finds : Finds session name calls (.ok (some content)))
    (installs : Installs session name recordLength (some content) more (.ok buffer) after) :
    Effect session (.appendFile name recordLength) (calls ++ more) (.ok ())
      (after.keep { buffer with
        filePointer := content.length
        recordNumber := content.length / buffer.recordLength })
  | closeAbsent {name : Name} (closed : session.buffers.find? name = none) :
    Effect session (.close name) [] (.ok ()) session
  | closeRefused {name : Name} {buffer : Buffer} {calls : List Call} {fault : Fault}
    (found : session.buffers.find? name = some buffer)
    (failed : Flushes buffer calls (.error fault)) :
    Effect session (.close name) calls (.error fault) session
  | closed {name : Name} {buffer : Buffer} {calls : List Call}
    (found : session.buffers.find? name = some buffer) (flushed : Flushes buffer calls (.ok ())) :
    Effect session (.close name) calls (.ok ()) (session.discard name)
  | closeAllRefused {visited : List Buffer} {calls : List Call} {fault : Fault}
    (perm : visited.Perm (session.buffers.entries.map Prod.snd))
    (failed : FlushesAll visited calls (.error fault)) :
    Effect session .closeAll calls (.error fault) session
  | closedAll {visited : List Buffer} {calls : List Call}
    (perm : visited.Perm (session.buffers.entries.map Prod.snd))
    (flushed : FlushesAll visited calls (.ok ())) :
    Effect session .closeAll calls (.ok ()) { session.deactivate with buffers := .empty }
  | positionUnread {name : Name} {records : Nat} {calls : List Call} {fault : Fault}
    {after : Session} (obtains : Obtains session name calls (.error fault) after) :
    Effect session (.position name records) calls (.error fault) after
  | positionBeyond {name : Name} {records : Nat} {calls : List Call} {buffer : Buffer}
    {after : Session} (obtains : Obtains session name calls (.ok buffer) after)
    (beyond : ¬(buffer.filePointer + records * buffer.recordLength < offsetLimit ∧
      buffer.recordNumber + records < offsetLimit)) :
    Effect session (.position name records) calls (.error .invalidOption) after
  | positioned {name : Name} {records : Nat} {calls : List Call} {buffer : Buffer}
    {after : Session} (obtains : Obtains session name calls (.ok buffer) after)
    (pointer : buffer.filePointer + records * buffer.recordLength < offsetLimit)
    (number : buffer.recordNumber + records < offsetLimit) :
    Effect session (.position name records) calls (.ok ()) (after.keep { buffer with
      filePointer := buffer.filePointer + records * buffer.recordLength
      recordNumber := buffer.recordNumber + records })
  | readUnready {name : Name} {record byte : Nat} {calls : List Call} {fault : Fault}
    {after : Session} (readies : Readies session name calls (.error fault) after) :
    Effect session (.read name record byte) calls (.error fault) after
  | readBeyond {name : Name} {record byte : Nat} {calls : List Call} {buffer : Buffer}
    {after : Session} (readies : Readies session name calls (.ok buffer) after)
    (beyond : ¬byte + record * buffer.recordLength < offsetLimit) :
    Effect session (.read name record byte) calls (.error .invalidOption) after
  | reading {name : Name} {record byte : Nat} {calls : List Call} {buffer : Buffer}
    {after : Session} (readies : Readies session name calls (.ok buffer) after)
    (pointer : byte + record * buffer.recordLength < offsetLimit) :
    Effect session (.read name record byte) calls (.ok ())
      ((after.keep { buffer with
        filePointer := byte + record * buffer.recordLength
        recordNumber := record }).activate .read name)
  | writeAbsent {name : Name} {record byte : Nat} (closed : session.buffers.find? name = none) :
    Effect session (.write name record byte) [] (.error .fileNotFound) session
  | writeBeyond {name : Name} {record byte : Nat} {buffer : Buffer}
    (found : session.buffers.find? name = some buffer)
    (beyond : ¬writeOffset buffer record byte < offsetLimit) :
    Effect session (.write name record byte) [] (.error .invalidOption) session
  | writeRefused {name : Name} {record byte : Nat} {buffer : Buffer} {calls : List Call}
    {fault : Fault} (found : session.buffers.find? name = some buffer)
    (pointer : writeOffset buffer record byte < offsetLimit)
    (failed : Creates buffer calls (.error fault)) :
    Effect session (.write name record byte) calls (.error fault) session
  | writing {name : Name} {record byte : Nat} {buffer : Buffer} {calls : List Call}
    {content : PackedBytes} (found : session.buffers.find? name = some buffer)
    (pointer : writeOffset buffer record byte < offsetLimit)
    (creates : Creates buffer calls (.ok content)) :
    Effect session (.write name record byte) calls (.ok ())
      ((session.keep { buffer with
        content := some content
        filePointer := writeOffset buffer record byte
        recordNumber := record }).activate .write name)
  | deleteUnread {name : Name} (failure : Storage.Failure) :
    Effect session (.delete name) [.get name (.error failure)] (.error .ioError) session
  | deleteAbsent {name : Name} :
    Effect session (.delete name) [.get name (.ok none)] (.error .fileNotFound) session
  | deleteRefused {name : Name} (content : Bytes) (failure : Storage.Failure) :
    Effect session (.delete name) [.get name (.ok (some content)), .remove name (.error failure)]
      (.error .ioError) session
  | deleted {name : Name} (content : Bytes) :
    Effect session (.delete name) [.get name (.ok (some content)), .remove name (.ok ())]
      (.ok ()) session
  | renameUnread {source target : Name} (failure : Storage.Failure) :
    Effect session (.rename source target) [.get source (.error failure)] (.error .ioError) session
  | renameAbsent {source target : Name} :
    Effect session (.rename source target) [.get source (.ok none)] (.error .fileNotFound) session
  | renameSame {source target : Name} (content : Bytes) (same : source = target) :
    Effect session (.rename source target) [.get source (.ok (some content))] (.ok ()) session
  | renameRefused {source target : Name} (content : Bytes) (differ : source ≠ target)
    (failure : Storage.Failure) :
    Effect session (.rename source target)
      [.get source (.ok (some content)), .set target content (.error failure)]
      (.error .ioError) session
  | renameHalf {source target : Name} (content : Bytes) (differ : source ≠ target)
    (failure : Storage.Failure) :
    Effect session (.rename source target)
      [.get source (.ok (some content)), .set target content (.ok ()),
        .remove source (.error failure)]
      (.error .ioError) session
  | renamed {source target : Name} (content : Bytes) (differ : source ≠ target) :
    Effect session (.rename source target)
      [.get source (.ok (some content)), .set target content (.ok ()), .remove source (.ok ())]
      (.ok ()) session
  | deactivated : Effect session .deactivate [] (.ok ()) session.deactivate
  | idle {operation : Operation} {mode : Mode} (relies : operation.mode? = some mode)
    (other : session.mode ≠ mode) : Effect session operation [] (.ok ()) session
  | unmet {operation : Operation} {mode : Mode} {fault : Fault}
    (relies : operation.mode? = some mode) (same : session.mode = mode)
    (absent : session.relied? mode = none) : Effect session operation [] (.error fault) session
  | characterEnd {name : Name} (redirected : session.redirection = .reading name)
    (ended : (session.buffers.find? name).bind Buffer.readByte = none) :
    Effect session .readCharacter [] (.error .endOfData) session
  | characterRead {name : Name} {byte : UInt8} {buffer : Buffer}
    (redirected : session.redirection = .reading name)
    (read : (session.buffers.find? name).bind Buffer.readByte = some (byte, buffer)) :
    Effect session .readCharacter [] (.ok ()) (session.keep buffer)
  | lineEnd {name : Name} (redirected : session.redirection = .reading name)
    (ended : (session.buffers.find? name).bind Buffer.readLine = none) :
    Effect session .readLine [] (.error .endOfData) session
  | lineRead {name : Name} {line : Bytes} {buffer : Buffer}
    (redirected : session.redirection = .reading name)
    (read : (session.buffers.find? name).bind Buffer.readLine = some (line, buffer)) :
    Effect session .readLine [] (.ok ()) (session.keep buffer)
  | characterRefused {name : Name} {limit : Nat} {byte : UInt8}
    (redirected : session.redirection = .writing name)
    (refused : (session.buffers.find? name).bind (·.writeByte limit byte) = none) :
    Effect session (.writeCharacter byte) [] (.error .ioError) session
  | characterWritten {name : Name} {limit : Nat} {byte : UInt8} {written : Buffer}
    (redirected : session.redirection = .writing name) (modest : limit ≤ offsetLimit / 2)
    (wrote : (session.buffers.find? name).bind (·.writeByte limit byte) = some written) :
    Effect session (.writeCharacter byte) [] (.ok ()) (session.keep written)

variable {peripherals : Peripherals Devices} {start machine : Machine Devices}
variable {before : List Call} {session : Session}

/-- An offset is within the limit, or the attempt ends here. -/
theorem ensures_offset_bind {Value : Type} {base count stride : Nat}
    {next : Nat → Action Devices Value} {condition : Except Fault Value → Machine Devices → Prop}
    (within : base + count * stride < offsetLimit →
      (next (base + count * stride)).Ensures machine condition)
    (beyond : ¬base + count * stride < offsetLimit → condition (.error .invalidOption) machine) :
    (offset base count stride >>= next).Ensures machine condition := by
  rw [offset_eq]
  by_cases fits : base + count * stride < offsetLimit
  · rw [if_pos fits]
    exact within fits
  · rw [if_neg fits]
    exact beyond fits

/-- So is the offset of a WRITE, whichever rule gives it. -/
theorem ensures_writeOffset_bind {Value : Type} {buffer : Buffer} {record byte : Nat}
    {next : Nat → Action Devices Value} {condition : Except Fault Value → Machine Devices → Prop}
    (within : writeOffset buffer record byte < offsetLimit →
      (next (writeOffset buffer record byte)).Ensures machine condition)
    (beyond : ¬writeOffset buffer record byte < offsetLimit →
      condition (.error .invalidOption) machine) :
    (if buffer.recordLength > 1 then offset byte record buffer.recordLength >>= next
      else offset buffer.filePointer byte 1 >>= next).Ensures machine condition := by
  unfold writeOffset at within beyond
  split at within
  · next records =>
    rw [if_pos records] at beyond ⊢
    exact ensures_offset_bind within beyond
  · next unstructured =>
    rw [if_neg unstructured] at beyond ⊢
    rw [← Nat.mul_one byte] at within beyond
    exact ensures_offset_bind within beyond

theorem openFile_effect (moved : start.Moves peripherals before session machine) (name : Name)
    (recordLength : Nat) :
    (openFile peripherals name recordLength).Ensures machine fun outcome later =>
      ∃ calls after, Effect session (.openFile name recordLength) calls outcome after ∧
        start.Moves peripherals (before ++ calls) after later := by
  unfold openFile
  refine (contentOf_finds moved name).bind ?_ ?_
  · intro content found ensured
    obtain ⟨calls, finds, kept⟩ := ensured
    refine (install_installs kept name recordLength content).bind ?_ ?_
    · intro buffer later ensured
      obtain ⟨more, after, installs, opened⟩ := ensured
      rw [List.append_assoc] at opened
      exact ⟨_, after, .opened finds installs, opened⟩
    · intro fault later ensured
      obtain ⟨more, after, installs, refused⟩ := ensured
      rw [List.append_assoc] at refused
      exact ⟨_, after, .openRefused finds installs, refused⟩
  · intro fault later ensured
    obtain ⟨calls, finds, kept⟩ := ensured
    exact ⟨calls, session, .openUnread finds, kept⟩

theorem appendFile_effect (moved : start.Moves peripherals before session machine) (name : Name)
    (recordLength : Nat) :
    (appendFile peripherals name recordLength).Ensures machine fun outcome later =>
      ∃ calls after, Effect session (.appendFile name recordLength) calls outcome after ∧
        start.Moves peripherals (before ++ calls) after later := by
  unfold appendFile
  refine (contentOf_finds moved name).bind ?_ ?_
  · intro content found ensured
    obtain ⟨calls, finds, kept⟩ := ensured
    cases content with
    | none => exact ⟨calls, session, .appendAbsent finds, kept⟩
    | some content =>
      refine (install_installs kept name recordLength (some content)).bind ?_ ?_
      · intro buffer later ensured
        obtain ⟨more, after, installs, opened⟩ := ensured
        rw [List.append_assoc] at opened
        exact ⟨_, _, .appended finds installs, opened.change (·.keep _)⟩
      · intro fault later ensured
        obtain ⟨more, after, installs, refused⟩ := ensured
        rw [List.append_assoc] at refused
        exact ⟨_, after, .appendRefused finds installs, refused⟩
  · intro fault later ensured
    obtain ⟨calls, finds, kept⟩ := ensured
    exact ⟨calls, session, .appendUnread finds, kept⟩

theorem close_effect (moved : start.Moves peripherals before session machine) (name : Name) :
    (close peripherals name).Ensures machine fun outcome later =>
      ∃ calls after, Effect session (.close name) calls outcome after ∧
        start.Moves peripherals (before ++ calls) after later := by
  unfold close
  rw [ensures_find?_bind, moved.session]
  cases found : session.buffers.find? name with
  | none => exact ⟨[], session, .closeAbsent found, moved.still⟩
  | some buffer =>
    refine (flush_flushes moved buffer).bind ?_ ?_
    · intro done later ensured
      obtain ⟨calls, flushed, kept⟩ := ensured
      exact ⟨calls, _, .closed found flushed, (kept.change (·.discard name)).noted _⟩
    · intro fault later ensured
      obtain ⟨calls, failed, kept⟩ := ensured
      exact ⟨calls, session, .closeRefused found failed, kept⟩

theorem closeAll_effect (moved : start.Moves peripherals before session machine) :
    (closeAll peripherals).Ensures machine fun outcome later =>
      ∃ calls after, Effect session .closeAll calls outcome after ∧
        start.Moves peripherals (before ++ calls) after later := by
  unfold closeAll
  rw [Attempt.ensures_get_bind]
  simp only [moved.session]
  have perm := peripherals.platform.visited_perm machine.devices session.buffers
  refine (flushAll_flushesAll moved _).bind ?_ ?_
  · intro done later ensured
    obtain ⟨calls, flushed, kept⟩ := ensured
    exact ⟨calls, _, .closedAll perm flushed,
      (kept.change fun session => session.clear.deactivate).noted _⟩
  · intro fault later ensured
    obtain ⟨calls, failed, kept⟩ := ensured
    exact ⟨calls, session, .closeAllRefused perm failed, kept⟩

theorem position_effect (moved : start.Moves peripherals before session machine) (name : Name)
    (records : Nat) :
    (position peripherals name records).Ensures machine fun outcome later =>
      ∃ calls after, Effect session (.position name records) calls outcome after ∧
        start.Moves peripherals (before ++ calls) after later := by
  unfold position
  refine (openedOrLoaded_obtains moved name).bind ?_ ?_
  · intro buffer later ensured
    obtain ⟨calls, after, obtains, kept⟩ := ensured
    refine ensures_offset_bind ?_ ?_
    · intro pointer
      refine ensures_offset_bind ?_ ?_
      · intro number
        rw [Nat.mul_one] at number
        simp only [Nat.mul_one]
        exact ⟨calls, _, .positioned obtains pointer number, kept.change (·.keep _)⟩
      · intro beyond
        rw [Nat.mul_one] at beyond
        exact ⟨calls, after, .positionBeyond obtains fun fits => beyond fits.2, kept⟩
    · intro beyond
      exact ⟨calls, after, .positionBeyond obtains fun fits => beyond fits.1, kept⟩
  · intro fault later ensured
    obtain ⟨calls, after, obtains, kept⟩ := ensured
    exact ⟨calls, after, .positionUnread obtains, kept⟩

theorem read_effect (moved : start.Moves peripherals before session machine) (name : Name)
    (record byte : Nat) :
    (read peripherals name record byte).Ensures machine fun outcome later =>
      ∃ calls after, Effect session (.read name record byte) calls outcome after ∧
        start.Moves peripherals (before ++ calls) after later := by
  unfold read
  refine (openedForReading_readies moved name).bind ?_ ?_
  · intro buffer later ensured
    obtain ⟨calls, after, readies, kept⟩ := ensured
    refine ensures_offset_bind ?_ ?_
    · intro pointer
      exact ⟨calls, _, .reading readies pointer,
        kept.change fun session => (session.keep _).activate .read name⟩
    · intro beyond
      exact ⟨calls, after, .readBeyond readies beyond, kept⟩
  · intro fault later ensured
    obtain ⟨calls, after, readies, kept⟩ := ensured
    exact ⟨calls, after, .readUnready readies, kept⟩

theorem write_effect (moved : start.Moves peripherals before session machine) (name : Name)
    (record byte : Nat) :
    (write peripherals name record byte).Ensures machine fun outcome later =>
      ∃ calls after, Effect session (.write name record byte) calls outcome after ∧
        start.Moves peripherals (before ++ calls) after later := by
  unfold write
  rw [ensures_find?_bind, moved.session]
  cases found : session.buffers.find? name with
  | none => exact ⟨[], session, .writeAbsent found, moved.still⟩
  | some buffer =>
    refine ensures_writeOffset_bind ?_ ?_
    · intro fits
      refine (create_creates moved buffer).bind ?_ ?_
      · intro content later ensured
        obtain ⟨calls, creates, kept⟩ := ensured
        exact ⟨calls, _, .writing found fits creates,
          kept.change fun session => (session.keep _).activate .write name⟩
      · intro fault later ensured
        obtain ⟨calls, failed, kept⟩ := ensured
        exact ⟨calls, session, .writeRefused found fits failed, kept⟩
    · intro beyond
      exact ⟨[], session, .writeBeyond found beyond, moved.still⟩

theorem delete_effect (moved : start.Moves peripherals before session machine) (name : Name) :
    (delete peripherals name).Ensures machine fun outcome later =>
      ∃ calls after, Effect session (.delete name) calls outcome after ∧
        start.Moves peripherals (before ++ calls) after later := by
  unfold delete
  refine moved.demand_bind (.get name) ⟨rfl, rfl⟩ ?_ ?_
  · intro content asked got
    cases content with
    | none => exact ⟨_, session, .deleteAbsent, got⟩
    | some content =>
      refine got.demand_bind (.remove name) ⟨rfl, rfl⟩ ?_ ?_
      · intro done later removed
        rw [List.append_assoc] at removed
        exact ⟨_, session, .deleted content, removed.noted _⟩
      · intro failure later refused
        rw [List.append_assoc] at refused
        exact ⟨_, session, .deleteRefused content failure, refused⟩
  · intro failure later refused
    exact ⟨_, session, .deleteUnread failure, refused⟩

theorem rename_effect (moved : start.Moves peripherals before session machine)
    (source target : Name) :
    (rename peripherals source target).Ensures machine fun outcome later =>
      ∃ calls after, Effect session (.rename source target) calls outcome after ∧
        start.Moves peripherals (before ++ calls) after later := by
  unfold rename
  refine moved.demand_bind (.get source) ⟨rfl, rfl⟩ ?_ ?_
  · intro content asked got
    cases content with
    | none => exact ⟨_, session, .renameAbsent, got⟩
    | some content =>
      by_cases same : source = target
      · simp only [same, if_true]
        subst same
        exact ⟨_, session, .renameSame content rfl, got⟩
      · simp only [same, if_false]
        refine got.demand_bind (.set target content) ⟨rfl, rfl⟩ ?_ ?_
        · intro done copied set
          rw [List.append_assoc] at set
          refine set.demand_bind (.remove source) ⟨rfl, rfl⟩ ?_ ?_
          · intro done later removed
            rw [List.append_assoc] at removed
            exact ⟨_, session, .renamed content same, removed.noted _⟩
          · intro failure later refused
            rw [List.append_assoc] at refused
            exact ⟨_, session, .renameHalf content same failure, refused⟩
        · intro failure later refused
          rw [List.append_assoc] at refused
          exact ⟨_, session, .renameRefused content same failure, refused⟩
  · intro failure later refused
    exact ⟨_, session, .renameUnread failure, refused⟩

theorem readCharacter_effect (moved : start.Moves peripherals before session machine)
    {name : Name} (redirected : session.redirection = .reading name) :
    (readCharacter name).Ensures machine fun outcome later =>
      ∃ after, Effect session .readCharacter [] (outcome.map fun _ => ()) after ∧
        start.Moves peripherals before after later := by
  unfold readCharacter
  rw [ensures_find?_bind, moved.session]
  cases read : (session.buffers.find? name).bind Buffer.readByte with
  | none => exact ⟨session, .characterEnd redirected read, moved⟩
  | some passed =>
    obtain ⟨byte, buffer⟩ := passed
    exact ⟨_, .characterRead redirected read, moved.change (·.keep buffer)⟩

theorem readLine_effect (moved : start.Moves peripherals before session machine)
    {name : Name} (redirected : session.redirection = .reading name) :
    (readLine name).Ensures machine fun outcome later =>
      ∃ after, Effect session .readLine [] (outcome.map fun _ => ()) after ∧
        start.Moves peripherals before after later := by
  unfold readLine
  rw [ensures_find?_bind, moved.session]
  cases read : (session.buffers.find? name).bind Buffer.readLine with
  | none => exact ⟨session, .lineEnd redirected read, moved⟩
  | some passed =>
    obtain ⟨line, buffer⟩ := passed
    exact ⟨_, .lineRead redirected read, moved.change (·.keep buffer)⟩

theorem writeCharacter_effect (moved : start.Moves peripherals before session machine)
    {name : Name} (redirected : session.redirection = .writing name) {limit : Nat}
    (modest : limit ≤ offsetLimit / 2) (byte : UInt8) :
    (writeCharacter name limit byte).Ensures machine fun outcome later =>
      ∃ after, Effect session (.writeCharacter byte) [] outcome after ∧
        start.Moves peripherals before after later := by
  unfold writeCharacter
  rw [ensures_find?_bind, moved.session]
  cases found : session.buffers.find? name with
  | none =>
    have refused : (session.buffers.find? name).bind (·.writeByte limit byte) = none := by
      rw [found]
      rfl
    exact ⟨session, .characterRefused redirected refused, moved⟩
  | some buffer =>
    cases wrote : buffer.writeByte limit byte with
    | none =>
      simp only [wrote]
      have refused : (session.buffers.find? name).bind (·.writeByte limit byte) = none := by
        rw [found]
        exact wrote
      exact ⟨session, .characterRefused redirected refused, moved.noted _⟩
    | some written =>
      simp only [wrote]
      have put : (session.buffers.find? name).bind (·.writeByte limit byte) = some written := by
        rw [found]
        exact wrote
      exact ⟨_, .characterWritten redirected modest put, moved.change (·.keep written)⟩

/-- What relies on the active file is done with it, or ends here. -/
theorem ensures_active_bind {Value : Type} {mode : Mode} {next : Name → Action Devices Value}
    {condition : Except Fault Value → Machine Devices → Prop}
    (found : ∀ name, machine.session.relied? mode = some name →
      (next name).Ensures machine condition)
    (absent : machine.session.relied? mode = none →
      condition (.error peripherals.platform.unmet) machine) :
    (active peripherals mode >>= next).Ensures machine condition := by
  unfold active Attempt.Ensures
  simp only [Attempt.bind_apply, Attempt.get_apply]
  cases relied : machine.session.relied? mode with
  | none => exact absent relied
  | some name => exact found name relied

theorem readActiveCharacter_effect (moved : start.Moves peripherals before session machine)
    (mode : session.mode = .read) :
    (readActiveCharacter peripherals).Ensures machine fun outcome later =>
      ∃ after, Effect session .readCharacter [] (outcome.map fun _ => ()) after ∧
        start.Moves peripherals before after later := by
  unfold readActiveCharacter
  refine ensures_active_bind ?_ ?_
  · intro name relied
    rw [moved.session, Session.relied?_eq_some_iff] at relied
    exact readCharacter_effect moved
      (Session.redirection_eq_reading_iff.mpr ⟨mode, relied.2.1⟩)
  · intro absent
    rw [moved.session] at absent
    exact ⟨session, .unmet rfl mode absent, moved⟩

theorem readActiveLine_effect (moved : start.Moves peripherals before session machine)
    (mode : session.mode = .read) :
    (readActiveLine peripherals).Ensures machine fun outcome later =>
      ∃ after, Effect session .readLine [] (outcome.map fun _ => ()) after ∧
        start.Moves peripherals before after later := by
  unfold readActiveLine
  refine ensures_active_bind ?_ ?_
  · intro name relied
    rw [moved.session, Session.relied?_eq_some_iff] at relied
    exact readLine_effect moved (Session.redirection_eq_reading_iff.mpr ⟨mode, relied.2.1⟩)
  · intro absent
    rw [moved.session] at absent
    exact ⟨session, .unmet rfl mode absent, moved⟩

theorem writeActiveCharacter_effect (moved : start.Moves peripherals before session machine)
    (mode : session.mode = .write) (byte : UInt8) :
    (writeActiveCharacter peripherals byte).Ensures machine fun outcome later =>
      ∃ after, Effect session (.writeCharacter byte) [] outcome after ∧
        start.Moves peripherals before after later := by
  unfold writeActiveCharacter
  refine ensures_active_bind ?_ ?_
  · intro name relied
    rw [moved.session, Session.relied?_eq_some_iff] at relied
    exact writeCharacter_effect moved
      (Session.redirection_eq_writing_iff.mpr ⟨mode, relied.2.1⟩)
      peripherals.platform.fillLimit_le byte
  · intro absent
    rw [moved.session] at absent
    exact ⟨session, .unmet rfl mode absent, moved⟩

/-- Whatever an operation does, it is one of its effects. -/
theorem perform_effect (moved : start.Moves peripherals before session machine)
    (operation : Operation) :
    (operation.perform peripherals).Ensures machine fun outcome later =>
      ∃ calls after, Effect session operation calls outcome after ∧
        start.Moves peripherals (before ++ calls) after later := by
  cases operation with
  | openFile name recordLength => exact openFile_effect moved name recordLength
  | appendFile name recordLength => exact appendFile_effect moved name recordLength
  | close name => exact close_effect moved name
  | closeAll => exact closeAll_effect moved
  | position name records => exact position_effect moved name records
  | read name record byte => exact read_effect moved name record byte
  | write name record byte => exact write_effect moved name record byte
  | delete name => exact delete_effect moved name
  | rename source target => exact rename_effect moved source target
  | deactivate => exact ⟨[], _, .deactivated, moved.still.change Session.deactivate⟩
  | readCharacter =>
    unfold Operation.perform
    rw [Attempt.ensures_get_bind, moved.session]
    by_cases mode : session.mode = .read
    · rw [if_pos mode]
      refine (readActiveCharacter_effect moved.still mode).bind ?_ ?_
      · intro read later ensured
        obtain ⟨after, effect, kept⟩ := ensured
        exact ⟨[], after, effect, kept⟩
      · intro fault later ensured
        obtain ⟨after, effect, kept⟩ := ensured
        exact ⟨[], after, effect, kept⟩
    · rw [if_neg mode]
      exact ⟨[], session, .idle rfl mode, moved.still⟩
  | readLine =>
    unfold Operation.perform
    rw [Attempt.ensures_get_bind, moved.session]
    by_cases mode : session.mode = .read
    · rw [if_pos mode]
      refine (readActiveLine_effect moved.still mode).bind ?_ ?_
      · intro read later ensured
        obtain ⟨after, effect, kept⟩ := ensured
        exact ⟨[], after, effect, kept⟩
      · intro fault later ensured
        obtain ⟨after, effect, kept⟩ := ensured
        exact ⟨[], after, effect, kept⟩
    · rw [if_neg mode]
      exact ⟨[], session, .idle rfl mode, moved.still⟩
  | writeCharacter byte =>
    unfold Operation.perform
    rw [Attempt.ensures_get_bind, moved.session]
    by_cases mode : session.mode = .write
    · rw [if_pos mode]
      refine (writeActiveCharacter_effect moved.still mode byte).mono ?_
      intro outcome later ensured
      obtain ⟨after, effect, kept⟩ := ensured
      exact ⟨[], after, effect, kept⟩
    · rw [if_neg mode]
      exact ⟨[], session, .idle rfl mode, moved.still⟩

end TextFile

end DosText
