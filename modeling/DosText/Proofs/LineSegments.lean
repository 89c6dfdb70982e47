import DosText.Proofs.WrittenText

/-! Reading a file line by line. From wherever the pointer stands, the lines that are read and the
bytes that end them make up the rest of the file, and each line is what reading character by
character up to its end gives. -/

namespace DosText

/-- A line of a text and the line end behind it; at the end of the text there may be none. -/
structure Segment where
  line : Bytes
  stop? : Option UInt8
  deriving DecidableEq, Repr

/-- The part of a text that a segment takes up. -/
def Segment.text (segment : Segment) : Bytes := segment.line ++ segment.stop?.toList

/-- A text and the segments that it is cut into: a line goes on up to the next line end, and only if
something is left behind the last line end is there a line without one. -/
inductive Cut : Bytes → List Segment → Prop where
  | nil : Cut [] []
  | rest {line : Bytes} (free : ∀ byte ∈ line, isLineEnd byte = false) (some : line ≠ []) :
    Cut line [⟨line, none⟩]
  | cons {line rest : Bytes} {stop : UInt8} {segments : List Segment}
    (free : ∀ byte ∈ line, isLineEnd byte = false) (ends : isLineEnd stop = true)
    (others : Cut rest segments) : Cut (line ++ stop :: rest) (⟨line, some stop⟩ :: segments)

/-- Every text can be cut. -/
theorem exists_cut (text : Bytes) : ∃ segments, Cut text segments := by
  induction text with
  | nil => exact ⟨[], .nil⟩
  | cons byte text ih =>
    obtain ⟨segments, cut⟩ := ih
    cases ends : isLineEnd byte with
    | true => exact ⟨⟨[], some byte⟩ :: segments, @Cut.cons [] text byte segments nofun ends cut⟩
    | false =>
      have longer {line : Bytes} (free : ∀ byte ∈ line, isLineEnd byte = false) :
          ∀ part ∈ byte :: line, isLineEnd part = false := List.forall_mem_cons.mpr ⟨ends, free⟩
      cases cut with
      | nil => exact ⟨[⟨[byte], none⟩], .rest (longer nofun) (List.cons_ne_nil _ _)⟩
      | rest free some => exact ⟨_, .rest (longer free) (List.cons_ne_nil _ _)⟩
      | cons free stops others => exact ⟨_, .cons (longer free) stops others⟩

namespace Cut

variable {text : Bytes} {segments : List Segment}

/-- Nothing is lost and nothing is added. -/
theorem flatMap_text (cut : Cut text segments) : segments.flatMap Segment.text = text := by
  induction cut with
  | nil => rfl
  | rest free some => simp [Segment.text]
  | cons free ends others ih => simp [Segment.text, ih]

theorem free (cut : Cut text segments) :
    ∀ segment ∈ segments, ∀ byte ∈ segment.line, isLineEnd byte = false := by
  induction cut with
  | nil => nofun
  | rest free some => exact List.forall_mem_singleton.mpr free
  | cons free ends others ih => exact List.forall_mem_cons.mpr ⟨free, ih⟩

theorem ends (cut : Cut text segments) :
    ∀ segment ∈ segments, ∀ stop, segment.stop? = some stop → isLineEnd stop = true := by
  induction cut with
  | nil => nofun
  | rest free some => exact List.forall_mem_singleton.mpr nofun
  | cons free ends others ih =>
    refine List.forall_mem_cons.mpr ⟨?_, ih⟩
    intro stop same
    cases same
    exact ends

theorem eq_nil_iff (cut : Cut text segments) : segments = [] ↔ text = [] := by
  cases cut with
  | nil => exact iff_of_true rfl rfl
  | rest free some => exact iff_of_false (List.cons_ne_nil _ _) some
  | cons free ends others => exact iff_of_false (List.cons_ne_nil _ _) (by simp)

/-- What is left behind the first segment is cut into the others. -/
theorem tail {segment : Segment} (cut : Cut text (segment :: segments)) :
    Cut (text.drop segment.text.length) segments := by
  cases cut with
  | rest free some =>
    simp only [Segment.text, Option.toList_none, List.append_nil, List.drop_length]
    exact .nil
  | @cons line rest stop _ free ends others =>
    have split : line ++ stop :: rest = (line ++ [stop]) ++ rest := by simp
    rw [split, Segment.text, Option.toList_some, List.drop_left]
    exact others

/-- Only the last line can be without a line end. -/
theorem inner (cut : Cut text segments) : ∀ segment ∈ segments.dropLast, segment.stop? ≠ none := by
  induction cut with
  | nil => nofun
  | rest free some => nofun
  | @cons line rest stop segments free ends others ih =>
    cases segments with
    | nil => nofun
    | cons next behind =>
      rw [List.dropLast_cons_cons]
      exact List.forall_mem_cons.mpr ⟨Option.some_ne_none stop, ih⟩

/-- The last line has a line end exactly if the text ends in one; if it has none, it is not
empty. -/
theorem last (cut : Cut text segments) {last : Segment} (found : segments.getLast? = some last) :
    last.stop?.isSome = text.getLast?.any isLineEnd ∧ (last.stop? = none → last.line ≠ []) := by
  induction cut with
  | nil => cases found
  | @rest line free some =>
    cases found
    obtain ⟨byte, final⟩ := Option.ne_none_iff_exists'.mp (mt List.getLast?_eq_none_iff.mp some)
    rw [final, Option.any_some, free byte (List.mem_of_getLast? final)]
    exact ⟨rfl, fun _ => some⟩
  | @cons line rest stop segments free ends others ih =>
    cases segments with
    | nil =>
      cases found
      cases others
      rw [List.getLast?_concat, Option.any_some, ends]
      exact ⟨rfl, nofun⟩
    | cons next behind =>
      have some : rest ≠ [] := fun none => List.cons_ne_nil _ _ (others.eq_nil_iff.mpr none)
      rw [List.getLast?_cons_cons] at found
      rw [List.getLast?_append_cons,
        List.getLast?_cons_of_ne_nil some]
      exact ih found

end Cut

/-- The first of the segments that are left is what is read as a line. -/
theorem Buffer.readLine_of_cut {buffer : Buffer} {segment : Segment} {others : List Segment}
    (cut : Cut (buffer.bytes.drop buffer.filePointer) (segment :: others)) :
    buffer.readLine = some (segment.line,
      { buffer with filePointer := buffer.filePointer + segment.text.length }) := by
  generalize left : buffer.bytes.drop buffer.filePointer = remaining at cut
  cases cut with
  | rest free some =>
    have whole : remaining.takeWhile (!isLineEnd ·) = remaining := by simpa using free
    simp only [Buffer.readLine_eq, left, whole]
    rw [if_neg some, Nat.min_eq_right (Nat.le_succ _)]
    simp [Segment.text]
  | cons free ends others =>
    rw [Buffer.readLine_of_drop free ends left]
    simp [Segment.text]

namespace TextFile

variable {Devices : Type}

/-- A machine in which the pointer of a file stands at an offset. -/
def pointing (machine : Machine Devices) (buffer : Buffer) (filePointer : Nat) : Machine Devices :=
  { machine with session := machine.session.keep { buffer with filePointer } }

/-- In read mode, lines are read until the data ends. -/
inductive ReadsLines : Machine Devices → List Bytes → Machine Devices → Prop where
  | ended {machine last : Machine Devices} {name : Name}
    (redirected : machine.session.redirection = .reading name)
    (ends : readLine name machine = (.error .endOfData, last)) : ReadsLines machine [] last
  | line {machine next last : Machine Devices} {name : Name} {line : Bytes} {lines : List Bytes}
    (redirected : machine.session.redirection = .reading name)
    (read : readLine name machine = (.ok line, next)) (others : ReadsLines next lines last) :
    ReadsLines machine (line :: lines) last

/-- In read mode, characters are read until one ends a line or there is none. -/
inductive ReadsCharacters : Machine Devices → Bytes → Machine Devices → Prop where
  | ended {machine last : Machine Devices} {name : Name} {outcome : Except Fault UInt8}
    (redirected : machine.session.redirection = .reading name)
    (read : readCharacter name machine = (outcome, last))
    (ends : ∀ stop, outcome = .ok stop → isLineEnd stop = true) : ReadsCharacters machine [] last
  | passed {machine next last : Machine Devices} {name : Name} {byte : UInt8} {bytes : Bytes}
    (redirected : machine.session.redirection = .reading name)
    (read : readCharacter name machine = (.ok byte, next)) (inside : isLineEnd byte = false)
    (others : ReadsCharacters next bytes last) : ReadsCharacters machine (byte :: bytes) last

theorem ReadsLines.unique {machine last final : Machine Devices} {lines others : List Bytes}
    (first : ReadsLines machine lines last) (second : ReadsLines machine others final) :
    others = lines ∧ final = last := by
  induction first generalizing others final with
  | ended redirected ends =>
    cases second with
    | ended again stops =>
      cases redirected.symm.trans again
      cases ends.symm.trans stops
      exact ⟨rfl, rfl⟩
    | line again read _ =>
      cases redirected.symm.trans again
      cases ends.symm.trans read
  | line redirected read _ ih =>
    cases second with
    | ended again stops =>
      cases redirected.symm.trans again
      cases read.symm.trans stops
    | line again reread behind =>
      cases redirected.symm.trans again
      cases read.symm.trans reread
      obtain ⟨rfl, rfl⟩ := ih behind
      exact ⟨rfl, rfl⟩

theorem ReadsCharacters.unique {machine last final : Machine Devices} {bytes others : Bytes}
    (first : ReadsCharacters machine bytes last) (second : ReadsCharacters machine others final) :
    others = bytes ∧ final = last := by
  induction first generalizing others final with
  | ended redirected read ends =>
    cases second with
    | ended again reread _ =>
      cases redirected.symm.trans again
      cases read.symm.trans reread
      exact ⟨rfl, rfl⟩
    | passed again reread inside _ =>
      cases redirected.symm.trans again
      cases read.symm.trans reread
      cases (ends _ rfl).symm.trans inside
  | passed redirected read inside _ ih =>
    cases second with
    | ended again reread ends =>
      cases redirected.symm.trans again
      cases read.symm.trans reread
      cases (ends _ rfl).symm.trans inside
    | passed again reread _ behind =>
      cases redirected.symm.trans again
      cases read.symm.trans reread
      obtain ⟨rfl, rfl⟩ := ih behind
      exact ⟨rfl, rfl⟩

section Pointing

variable {machine : Machine Devices} {buffer : Buffer} {pointer : Nat}

theorem pointing_of_found (found : machine.session.buffers.find? buffer.name = some buffer) :
    pointing machine buffer buffer.filePointer = machine := by
  rw [pointing, Session.keep_of_find? found]

theorem find?_pointing (machine : Machine Devices) (buffer : Buffer) (filePointer : Nat) :
    (pointing machine buffer filePointer).session.buffers.find? buffer.name =
      some { buffer with filePointer } :=
  machine.session.find?_keep_self { buffer with filePointer }

/-- Only where the pointer is put last counts. -/
theorem keep_pointing (machine : Machine Devices) (buffer : Buffer) (first second : Nat) :
    { pointing machine buffer first with
      session := (pointing machine buffer first).session.keep
        { buffer with filePointer := second } } = pointing machine buffer second := by
  have kept : (machine.session.keep { buffer with filePointer := first }).keep
      { buffer with filePointer := second } =
        machine.session.keep { buffer with filePointer := second } :=
    machine.session.keep_keep rfl
  exact congrArg (fun session : Session => { machine with session }) kept

theorem readCharacter_of_cons {byte : UInt8} {rest : Bytes}
    (remaining : buffer.bytes.drop pointer = byte :: rest) :
    readCharacter buffer.name (pointing machine buffer pointer) =
      (.ok byte, pointing machine buffer (pointer + 1)) := by
  have here : buffer.bytes[pointer]? = some byte := by rw [← List.head?_drop, remaining]; rfl
  have read : Buffer.readByte { buffer with filePointer := pointer } =
      some (byte, { buffer with filePointer := pointer + 1 }) := by
    rw [Buffer.readByte_eq]
    exact congrArg (Option.map _) here
  rw [readCharacter_apply, find?_pointing, Option.bind_some, read]
  exact congrArg (Prod.mk _) (keep_pointing machine buffer pointer _)

theorem readCharacter_of_nil (ended : buffer.bytes.drop pointer = []) :
    readCharacter buffer.name (pointing machine buffer pointer) =
      (.error .endOfData, pointing machine buffer pointer) := by
  have none : Buffer.readByte { buffer with filePointer := pointer } = none :=
    (Buffer.readByte_eq_none_iff _).mpr (List.drop_eq_nil_iff.mp ended)
  rw [readCharacter_apply, find?_pointing, Option.bind_some, none]

theorem readLine_of_nil (ended : buffer.bytes.drop pointer = []) :
    readLine buffer.name (pointing machine buffer pointer) =
      (.error .endOfData, pointing machine buffer pointer) := by
  have none : Buffer.readLine { buffer with filePointer := pointer } = none :=
    (Buffer.readLine_eq_none_iff _).mpr (List.drop_eq_nil_iff.mp ended)
  rw [readLine_apply, find?_pointing, Option.bind_some, none]

theorem readLine_of_cut {segment : Segment} {others : List Segment}
    (cut : Cut (buffer.bytes.drop pointer) (segment :: others)) :
    readLine buffer.name (pointing machine buffer pointer) =
      (.ok segment.line, pointing machine buffer (pointer + segment.text.length)) := by
  let file : Buffer := { buffer with filePointer := pointer }
  have read : file.readLine =
      some (segment.line, { file with filePointer := pointer + segment.text.length }) :=
    Buffer.readLine_of_cut cut
  rw [readLine_apply, find?_pointing, Option.bind_some, read]
  exact congrArg (Prod.mk _) (keep_pointing machine buffer pointer _)

variable (redirected : machine.session.redirection = .reading buffer.name)
include redirected

/-- Characters that end no line are passed over. -/
theorem readsCharacters_of_free {line rest bytes : Bytes} {last : Machine Devices}
    (free : ∀ byte ∈ line, isLineEnd byte = false)
    (remaining : buffer.bytes.drop pointer = line ++ rest)
    (others : ReadsCharacters (pointing machine buffer (pointer + line.length)) bytes last) :
    ReadsCharacters (pointing machine buffer pointer) (line ++ bytes) last := by
  induction line generalizing pointer with
  | nil => exact others
  | cons byte line ih =>
    obtain ⟨here, behind⟩ := List.forall_mem_cons.mp free
    refine .passed redirected (readCharacter_of_cons remaining) here (ih behind ?_ ?_)
    · rw [← List.drop_drop, remaining]
      rfl
    · rwa [Nat.add_assoc, Nat.add_comm 1]

/-- It is also what is read character by character. -/
theorem readsCharacters_of_cut {segment : Segment} {others : List Segment}
    (cut : Cut (buffer.bytes.drop pointer) (segment :: others)) :
    ReadsCharacters (pointing machine buffer pointer) segment.line
      (pointing machine buffer (pointer + segment.text.length)) := by
  generalize left : buffer.bytes.drop pointer = remaining at cut
  rw [← List.append_nil segment.line]
  cases cut with
  | rest free some =>
    have ended : buffer.bytes.drop (pointer + remaining.length) = [] := by
      rw [← List.drop_drop, left, List.drop_length]
    refine readsCharacters_of_free redirected free (left.trans (List.append_nil _).symm) ?_
    simp only [Segment.text, Option.toList_none, List.append_nil]
    exact .ended redirected (readCharacter_of_nil ended) nofun
  | @cons line rest stop _ free ends others =>
    have next : buffer.bytes.drop (pointer + line.length) = stop :: rest := by
      rw [← List.drop_drop, left, List.drop_left]
    refine readsCharacters_of_free redirected free left ?_
    simp only [Segment.text, Option.toList_some, List.length_append, List.length_singleton]
    refine .ended redirected (readCharacter_of_cons next) ?_
    rintro _ ⟨⟩
    exact ends

/-- The lines of the segments that are left are read, and then the data ends. -/
theorem readsLines_of_cut {segments : List Segment}
    (cut : Cut (buffer.bytes.drop pointer) segments) :
    ReadsLines (pointing machine buffer pointer) (segments.map Segment.line)
      (pointing machine buffer (max pointer buffer.bytes.length)) := by
  induction segments generalizing pointer with
  | nil =>
    have ended := cut.eq_nil_iff.mp rfl
    rw [Nat.max_eq_left (List.drop_eq_nil_iff.mp ended)]
    exact .ended redirected (readLine_of_nil ended)
  | cons segment others ih =>
    have behind := cut.tail
    rw [List.drop_drop] at behind
    have within : pointer + segment.text.length ≤ buffer.bytes.length := by
      have length := congrArg List.length cut.flatMap_text
      have some : buffer.bytes.drop pointer ≠ [] := mt cut.eq_nil_iff.mpr (List.cons_ne_nil _ _)
      rw [Ne, List.drop_eq_nil_iff] at some
      rw [List.flatMap_cons, List.length_append, List.length_drop] at length
      omega
    have last : max (pointer + segment.text.length) buffer.bytes.length =
        max pointer buffer.bytes.length := by omega
    exact .line redirected (readLine_of_cut cut) (last ▸ ih behind)

end Pointing

variable {machine : Machine Devices} {buffer : Buffer}

/-- Either there is no line and no character, or there are both, and the line is what is read
character by character. -/
theorem readLine_or_ended (redirected : machine.session.redirection = .reading buffer.name)
    (found : machine.session.buffers.find? buffer.name = some buffer) :
    readLine buffer.name machine = (.error .endOfData, machine) ∧
        readCharacter buffer.name machine = (.error .endOfData, machine) ∨
      ∃ line later byte next, readLine buffer.name machine = (.ok line, later) ∧
        readCharacter buffer.name machine = (.ok byte, next) ∧
        ReadsCharacters machine line later := by
  obtain ⟨segments, cut⟩ := exists_cut (buffer.bytes.drop buffer.filePointer)
  let start := pointing machine buffer buffer.filePointer
  have here : start = machine := pointing_of_found found
  cases segments with
  | nil =>
    have ended := cut.eq_nil_iff.mp rfl
    have noLine : readLine buffer.name start = (.error .endOfData, start) := readLine_of_nil ended
    have none : readCharacter buffer.name start = (.error .endOfData, start) :=
      readCharacter_of_nil ended
    rw [here] at noLine none
    exact .inl ⟨noLine, none⟩
  | cons segment others =>
    have some : buffer.bytes.drop buffer.filePointer ≠ [] :=
      mt cut.eq_nil_iff.mpr (List.cons_ne_nil _ _)
    obtain ⟨byte, rest, remaining⟩ := List.exists_cons_of_ne_nil some
    have read : readLine buffer.name start = (.ok segment.line, _) := readLine_of_cut cut
    have one : readCharacter buffer.name start = (.ok byte, _) := readCharacter_of_cons remaining
    have characters : ReadsCharacters start segment.line _ := readsCharacters_of_cut redirected cut
    rw [here] at read one characters
    exact .inr ⟨segment.line, _, byte, _, read, one, characters⟩

/-- Reading lines in read mode until the data ends gives the lines that the rest of the file is cut
into: none of them holds a line end, and together with the single bytes that end them they are all
of the rest. Only the last can be without a line end, if the file does not end in one, and is then
not empty; at the end of the data there is no line. The pointer ends up behind the data, unless it
was there already. A single line is what reading characters up to a line end gives, and leaves
behind what that leaves; there is none exactly where there is no character, and then nothing
changes. -/
theorem readLine_segments (redirected : machine.session.redirection = .reading buffer.name)
    (found : machine.session.buffers.find? buffer.name = some buffer) :
    let content := buffer.bytes
    let ended := pointing machine buffer (max buffer.filePointer content.length)
    (∃ segments : List Segment,
      (∀ lines last, ReadsLines machine lines last ↔
        lines = segments.map Segment.line ∧ last = ended) ∧
      content.drop buffer.filePointer = segments.flatMap Segment.text ∧
      (∀ segment ∈ segments, ∀ byte ∈ segment.line, isLineEnd byte = false) ∧
      (∀ segment ∈ segments, ∀ stop, segment.stop? = some stop → isLineEnd stop = true) ∧
      (∀ segment ∈ segments.dropLast, segment.stop? ≠ none) ∧
      (∀ last, segments.getLast? = some last →
        last.stop?.isSome = content.getLast?.any isLineEnd ∧
          (last.stop? = none → last.line ≠ [])) ∧
      (segments = [] ↔ content.length ≤ buffer.filePointer)) ∧
    (∀ fault later, readLine buffer.name machine = (.error fault, later) ↔
      readCharacter buffer.name machine = (.error fault, later)) ∧
    (∀ fault later, readLine buffer.name machine = (.error fault, later) →
      fault = .endOfData ∧ later = machine) ∧
    ∀ line later, readLine buffer.name machine = (.ok line, later) →
      ∀ bytes last, ReadsCharacters machine bytes last ↔ bytes = line ∧ last = later := by
  intro content ended
  obtain ⟨segments, cut⟩ := exists_cut (content.drop buffer.filePointer)
  have lines := readsLines_of_cut redirected cut
  have here := pointing_of_found found
  rw [here] at lines
  refine ⟨⟨segments, ?_, cut.flatMap_text.symm, cut.free, cut.ends, cut.inner, ?_, ?_⟩, ?_⟩
  · intro others last
    refine ⟨lines.unique, ?_⟩
    rintro ⟨rfl, rfl⟩
    exact lines
  · intro last final
    have some : ¬content.length ≤ buffer.filePointer := by
      intro beyond
      rw [cut.eq_nil_iff.mpr (List.drop_eq_nil_iff.mpr beyond)] at final
      cases final
    have ends := cut.last final
    rwa [List.getLast?_drop, if_neg some] at ends
  · exact cut.eq_nil_iff.trans List.drop_eq_nil_iff
  · rcases readLine_or_ended redirected found with
      ⟨noLine, none⟩ | ⟨line, later, byte, next, read, some, characters⟩
    · rw [noLine, none]
      refine ⟨fun _ _ => ?_, ?_, nofun⟩
      · simp only [Prod.mk.injEq, Except.error.injEq]
      · rintro _ _ ⟨⟩
        exact ⟨rfl, rfl⟩
    · rw [read, some]
      refine ⟨fun _ _ => ⟨nofun, nofun⟩, ?_, ?_⟩
      · intro fault left failed
        cases congrArg Prod.fst failed
      rintro _ _ ⟨⟩ bytes last
      refine ⟨characters.unique, ?_⟩
      rintro ⟨rfl, rfl⟩
      exact characters

/-- A line feed behind a carriage return ends an empty line, as does a NUL, and what is left at the
end of the data is a line. -/
theorem readLine_segments_unended :
    let file : Buffer := .opened (ascii "F") 1 (some (ascii "A\r\n" ++ 0 :: ascii "B"))
    let machine : Machine Unit := readingFrom (.initial .off ()) file 0
    (∃ segments : List Segment,
      segments.map Segment.line = [ascii "A", [], [], ascii "B"] ∧
      file.bytes = segments.flatMap Segment.text ∧
      ∀ segment ∈ segments.dropLast, segment.stop? ≠ none) ∧
    ∃ later, ReadsCharacters machine (ascii "A") later := by
  intro file machine
  have redirected : machine.session.redirection = .reading file.name := rfl
  have found : machine.session.buffers.find? file.name = some file :=
    (Session.initial .off).find?_keep_self file
  have unended : Cut (ascii "B") [⟨ascii "B", none⟩] := .rest (by decide +kernel) nofun
  have afterNul := @Cut.cons [] _ 0 _ nofun rfl unended
  have afterReturn := @Cut.cons [] _ (code '\n') _ nofun rfl afterNul
  have cut : Cut (file.bytes.drop file.filePointer) _ :=
    @Cut.cons (ascii "A") _ (code '\r') _ (by decide +kernel) rfl afterReturn
  have lines := readsLines_of_cut redirected cut
  rw [pointing_of_found found] at lines
  obtain ⟨⟨segments, run, joined, -, -, inner, -⟩, -, -, characters⟩ :=
    readLine_segments redirected found
  obtain ⟨same, -⟩ := (run _ _).mp lines
  have read : readLine file.name (pointing machine file file.filePointer) =
      (.ok (ascii "A"), _) := readLine_of_cut cut
  rw [pointing_of_found found] at read
  exact ⟨⟨segments, same.symm, joined, inner⟩, _, (characters _ _ read _ _).mpr ⟨rfl, rfl⟩⟩

end TextFile

end DosText
