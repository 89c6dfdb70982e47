import DosText.Proofs.InMemory
import DosText.Proofs.LineSegments
import DosText.Proofs.SequentialFile
import DosText.Storage.SeedFolder
import Mathlib.Data.List.Infix

/-! How a text file of the host is read. However its bytes come in, what is made of them depends on
the bytes alone: each pair of a carriage return and a line feed becomes a carriage return, and
everything else stays as it is. Lines that end in such pairs are read back one by one. -/

namespace DosText

namespace SeedFolder

/-- Readings give some content in order, at least one byte each time and no more than a block holds,
and then nothing. -/
def Yields (readings : List Reading) (raw : Bytes) : Prop :=
  ∃ pieces : List Bytes, readings = pieces.map .ok ++ [.ok []] ∧ pieces.flatten = raw ∧
    ∀ piece ∈ pieces, piece ≠ [] ∧ piece.length ≤ blockSize

/-- A file that is not packed is read as it is. -/
theorem yields_blocks (bytes : Bytes) : Yields (blocks bytes) bytes := by
  induction bytes using blocks.induct with
  | case1 =>
    rw [blocks, if_pos rfl]
    exact ⟨[], rfl, rfl, nofun⟩
  | case2 bytes some ih =>
    obtain ⟨pieces, rest, joined, each⟩ := ih
    rw [blocks, if_neg some, rest]
    refine ⟨bytes.take blockSize :: pieces, rfl, ?_, List.forall_mem_cons.mpr ⟨⟨?_, ?_⟩, each⟩⟩
    · rw [List.flatten_cons, joined, List.take_append_drop]
    · intro none
      rcases List.take_eq_nil_iff.mp none with zero | none
      · cases zero
      · exact some none
    · rw [List.length_take]
      exact Nat.min_le_left _ _

/-- What is put together is the content, wherever it was cut. -/
theorem gather_of_yields {readings : List Reading} {raw : Bytes} (yields : Yields readings raw) :
    gather readings = .ok raw := by
  obtain ⟨pieces, rfl, rfl, each⟩ := yields
  induction pieces with
  | nil => rfl
  | cons piece rest ih =>
    obtain ⟨here, others⟩ := List.forall_mem_cons.mp each
    rw [List.map_cons, List.cons_append, gather, if_neg here.1, ih others, List.flatten_cons]
    rfl

end SeedFolder

/-- What ends a line of a text file of the host. -/
def lineEnding : Bytes := [carriageReturn, lineFeed]

/-- A text is parted at its line endings: the parts hold none themselves. -/
inductive Parted : Bytes → List Bytes → Prop where
  | last {part : Bytes} (free : ¬lineEnding <:+: part) : Parted part [part]
  | cons {part rest : Bytes} {parts : List Bytes} (free : ¬lineEnding <:+: part)
    (others : Parted rest parts) : Parted (part ++ lineEnding ++ rest) (part :: parts)

/-- How many line endings there are in a text. -/
def endings (text : Bytes) : Nat := text.tails.countP (lineEnding.isPrefixOf ·)

section Bytes

variable {first : UInt8} {part rest : Bytes}

theorem lineEnding_prefix_cons_cons {second : UInt8} :
    lineEnding <+: first :: second :: rest ↔ first = carriageReturn ∧ second = lineFeed := by
  simp [lineEnding, List.cons_prefix_cons, eq_comm]

theorem not_lineEnding_prefix_singleton : ¬lineEnding <+: [first] :=
  fun found => absurd found.length_le (by simp [lineEnding])

/-- A text that holds no line ending does not hold the first half of one that stands behind it. -/
theorem not_prefix_append (free : ¬lineEnding <:+: first :: part) :
    ¬lineEnding <+: first :: (part ++ (lineEnding ++ rest)) := by
  cases part with
  | nil => exact fun found => absurd (lineEnding_prefix_cons_cons.mp found).2 (by decide)
  | cons second others =>
    intro found
    have pair := lineEnding_prefix_cons_cons.mp found
    exact free (lineEnding_prefix_cons_cons.mpr pair).isInfix

theorem not_infix_cons (apart : ¬lineEnding <+: first :: (part ++ rest))
    (free : ¬lineEnding <:+: part) : ¬lineEnding <:+: first :: part := by
  intro found
  rcases List.infix_cons_iff.mp found with begins | within
  · exact apart (begins.trans (List.prefix_append (first :: part) rest))
  · exact free within

theorem not_infix_of_cons (free : ¬lineEnding <:+: first :: part) : ¬lineEnding <:+: part :=
  fun found => free (List.infix_cons found)

theorem SeedFolder.normalize_cons (unpaired : ¬lineEnding <+: first :: rest) :
    normalize (first :: rest) = first :: normalize rest := by
  cases rest with
  | nil => rfl
  | cons second others => rw [normalize, if_neg (mt lineEnding_prefix_cons_cons.mpr unpaired)]

@[simp] theorem SeedFolder.normalize_lineEnding :
    normalize (lineEnding ++ rest) = carriageReturn :: normalize rest := by
  simp [lineEnding, normalize]

theorem endings_cons (unpaired : ¬lineEnding <+: first :: rest) :
    endings (first :: rest) = endings rest := by
  rw [endings, List.tails_cons, List.countP_cons_of_neg (by simpa using unpaired), endings]

@[simp] theorem endings_lineEnding : endings (lineEnding ++ rest) = endings rest + 1 := by
  have feed : ¬lineEnding <+: lineFeed :: rest := by
    cases rest with
    | nil => exact not_lineEnding_prefix_singleton
    | cons second others => exact fun found => absurd (lineEnding_prefix_cons_cons.mp found).1 (by
        decide)
  rw [← endings_cons feed]
  show endings (carriageReturn :: lineFeed :: rest) = _
  rw [endings, List.tails_cons, List.countP_cons_of_pos, endings]
  exact List.isPrefixOf_iff_prefix.mpr (lineEnding_prefix_cons_cons.mpr ⟨rfl, rfl⟩)

end Bytes

/-- Line endings and the bytes between them make up any text. -/
@[elab_as_elim]
theorem lineEnding_induction {motive : Bytes → Prop} (text : Bytes) (nil : motive [])
    (ending : ∀ rest, motive rest → motive (lineEnding ++ rest))
    (byte : ∀ first rest, ¬lineEnding <+: first :: rest → motive rest → motive (first :: rest)) :
    motive text := by
  induction text using SeedFolder.normalize.induct with
  | case1 => exact nil
  | case2 first => exact byte first [] not_lineEnding_prefix_singleton nil
  | case3 first second rest pair ih =>
    obtain ⟨rfl, rfl⟩ := pair
    exact ending rest ih
  | case4 first second rest apart ih =>
    exact byte first _ (fun found => apart (lineEnding_prefix_cons_cons.mp found)) ih

section Free

variable {part : Bytes} (free : ¬lineEnding <:+: part)

include free

theorem SeedFolder.normalize_of_free : normalize part = part := by
  induction part with
  | nil => rfl
  | cons first part ih =>
    rw [normalize_cons (fun found => free found.isInfix), ih (not_infix_of_cons free)]

theorem SeedFolder.normalize_append (rest : Bytes) :
    normalize (part ++ (lineEnding ++ rest)) = part ++ carriageReturn :: normalize rest := by
  induction part with
  | nil => exact normalize_lineEnding
  | cons first part ih =>
    rw [List.cons_append, normalize_cons (not_prefix_append free), ih (not_infix_of_cons free),
      List.cons_append]

theorem endings_of_free : endings part = 0 := by
  induction part with
  | nil => rfl
  | cons first part ih =>
    rw [endings_cons (fun found => free found.isInfix), ih (not_infix_of_cons free)]

theorem endings_append (rest : Bytes) :
    endings (part ++ (lineEnding ++ rest)) = endings rest + 1 := by
  induction part with
  | nil => exact endings_lineEnding
  | cons first part ih =>
    rw [List.cons_append, endings_cons (not_prefix_append free), ih (not_infix_of_cons free)]

/-- The first line ending of a text is where it is. -/
theorem append_lineEnding_inj {other rest behind : Bytes} (apart : ¬lineEnding <:+: other)
    (same : part ++ (lineEnding ++ rest) = other ++ (lineEnding ++ behind)) :
    other = part ∧ behind = rest := by
  induction part generalizing other with
  | nil =>
    cases other with
    | nil => exact ⟨rfl, (List.append_cancel_left (List.append_cancel_left same)).symm⟩
    | cons first other => exact absurd ⟨rest, same⟩ (not_prefix_append apart)
  | cons first part ih =>
    cases other with
    | nil => exact absurd ⟨behind, same.symm⟩ (not_prefix_append free)
    | cons second other =>
      obtain ⟨rfl, behind⟩ := List.cons_eq_cons.mp same
      obtain ⟨rfl, rfl⟩ := ih (not_infix_of_cons free) (not_infix_of_cons apart) behind
      exact ⟨rfl, rfl⟩

end Free

/-- Every text can be parted. -/
theorem exists_parted (text : Bytes) : ∃ parts, Parted text parts := by
  induction text using lineEnding_induction with
  | nil => exact ⟨_, .last (by decide)⟩
  | ending rest ih =>
    obtain ⟨parts, parted⟩ := ih
    exact ⟨_, @Parted.cons [] rest parts (by decide) parted⟩
  | byte first rest unpaired ih =>
    obtain ⟨parts, parted⟩ := ih
    cases parted with
    | last free =>
      rw [← List.append_nil rest] at unpaired
      exact ⟨_, .last (not_infix_cons unpaired free)⟩
    | cons free others =>
      rw [List.append_assoc] at unpaired
      exact ⟨_, .cons (not_infix_cons unpaired free) others⟩

/-- A text loses one byte for each line ending. -/
theorem SeedFolder.length_normalize (text : Bytes) :
    (normalize text).length + endings text = text.length := by
  induction text using lineEnding_induction with
  | nil => rfl
  | ending rest ih =>
    rw [normalize_lineEnding, endings_lineEnding, List.length_cons, List.length_append, ← ih]
    show _ = 2 + _
    omega
  | byte first rest unpaired ih =>
    rw [normalize_cons unpaired, endings_cons unpaired, List.length_cons, List.length_cons, ← ih]
    omega

namespace Parted

variable {text : Bytes} {parts : List Bytes}

theorem ne_nil (parted : Parted text parts) : parts ≠ [] := by
  cases parted <;> exact List.cons_ne_nil _ _

theorem free (parted : Parted text parts) : ∀ part ∈ parts, ¬lineEnding <:+: part := by
  induction parted with
  | last free => exact List.forall_mem_singleton.mpr free
  | cons free others ih => exact List.forall_mem_cons.mpr ⟨free, ih⟩

/-- Joined by line endings, the parts are the text. -/
theorem intercalate_eq (parted : Parted text parts) : lineEnding.intercalate parts = text := by
  induction parted with
  | last free => exact List.intercalate_singleton
  | cons free others ih => rw [List.intercalate_cons_of_ne_nil others.ne_nil, ih]

/-- Parts without line endings are what the text that they make up is parted into. -/
theorem of_intercalate (some : parts ≠ []) (free : ∀ part ∈ parts, ¬lineEnding <:+: part) :
    Parted (lineEnding.intercalate parts) parts := by
  induction parts with
  | nil => exact absurd rfl some
  | cons part rest ih =>
    obtain ⟨here, others⟩ := List.forall_mem_cons.mp free
    by_cases none : rest = []
    · subst none
      rw [List.intercalate_singleton]
      exact .last here
    · rw [List.intercalate_cons_of_ne_nil none]
      exact .cons here (ih none others)

/-- A text is parted in one way. -/
theorem unique {others : List Bytes} (parted : Parted text parts) (again : Parted text others) :
    others = parts := by
  induction parted generalizing others with
  | last free =>
    cases again with
    | last _ => rfl
    | cons _ _ => exact absurd ⟨_, _, rfl⟩ free
  | @cons part rest parts free _ ih =>
    generalize whole : part ++ lineEnding ++ rest = text at again
    cases again with
    | last apart => exact absurd ⟨part, rest, whole⟩ apart
    | cons apart behind =>
      rw [List.append_assoc, List.append_assoc] at whole
      obtain ⟨rfl, rfl⟩ := append_lineEnding_inj free apart whole
      rw [ih behind]

/-- Every line ending becomes a carriage return, and the parts stay as they are. -/
theorem normalize_eq (parted : Parted text parts) :
    SeedFolder.normalize text = [carriageReturn].intercalate parts := by
  induction parted with
  | last free =>
    rw [List.intercalate_singleton, SeedFolder.normalize_of_free free]
  | cons free others ih =>
    rw [List.intercalate_cons_of_ne_nil others.ne_nil, List.append_assoc,
      SeedFolder.normalize_append free, ih, List.append_assoc]
    rfl

theorem length_eq (parted : Parted text parts) : parts.length = endings text + 1 := by
  induction parted with
  | last free => rw [List.length_singleton, endings_of_free free]
  | cons free others ih => rw [List.length_cons, ih, List.append_assoc, endings_append free]

end Parted

/-- Lines of a text file of the host: each of them, and the line ending behind it. -/
def endedLines (lines : List Bytes) : Bytes := lines.flatMap (· ++ lineEnding)

section Lines

variable {lines : List Bytes} (free : ∀ line ∈ lines, ∀ byte ∈ line, isLineEnd byte = false)

include free

theorem SeedFolder.normalize_endedLines : normalize (endedLines lines) = linesText lines := by
  induction lines with
  | nil => rfl
  | cons line rest ih =>
    obtain ⟨here, others⟩ := List.forall_mem_cons.mp free
    have unended : ¬lineEnding <:+: line := by
      intro found
      cases here carriageReturn (found.subset List.mem_cons_self)
    have split : endedLines (line :: rest) = line ++ (lineEnding ++ endedLines rest) :=
      List.append_assoc ..
    rw [split, normalize_append unended, ih others, linesText, linesText, List.flatMap_cons,
      List.append_assoc]
    rfl

theorem cut_linesText : Cut (linesText lines) (lines.map (⟨·, some carriageReturn⟩)) := by
  induction lines with
  | nil => exact .nil
  | cons line rest ih =>
    obtain ⟨here, others⟩ := List.forall_mem_cons.mp free
    have split : linesText (line :: rest) = line ++ carriageReturn :: linesText rest :=
      List.append_assoc ..
    rw [split]
    exact .cons here rfl (ih others)

end Lines

namespace TextFile

variable {Devices : Type} {peripherals : Peripherals Devices} {session after : Session}
variable {devices last : Devices} {calls : List Peripherals.Call} {name : Name} {content : Bytes}

/-- The store has nothing for a name but takes what it is given, and the source has some content. -/
structure Seeded (peripherals : Peripherals Devices) (devices : Devices) (name : Name)
    (content : Bytes) : Prop where
  unstored : (peripherals.store.get name devices).outcome = .ok none
  seeded : (peripherals.source.fetch name
    (peripherals.store.get name devices).devices).outcome = .ok (some content)
  stores : ∀ devices, (peripherals.store.set name content devices).outcome = .ok ()

theorem Loads.of_seeded {found : Except Fault (Option Bytes)} (loads : Loads name calls found)
    (served : peripherals.Serves calls devices last)
    (known : Seeded peripherals devices name content) : found = .ok (some content) := by
  cases loads with
  | stored other => cases served.1.symm.trans known.unstored
  | absent => cases served.2.1.symm.trans known.seeded
  | seeded other =>
    cases served.2.1.symm.trans known.seeded
    rfl
  | unread failure => cases served.1.symm.trans known.unstored
  | unfetched failure => cases served.2.1.symm.trans known.seeded
  | unstored other failure =>
    cases served.2.1.symm.trans known.seeded
    cases served.2.2.1.symm.trans (known.stores _)

theorem Readies.of_seeded {ready : Except Fault Buffer}
    (readies : Readies session name calls ready after)
    (served : peripherals.Serves calls devices last)
    (known : Seeded peripherals devices name content)
    (closed : session.buffers.find? name = none) :
    ready = .ok (.opened name 0 (some content)) := by
  cases readies with
  | opened found some => cases closed.symm.trans found
  | empty found none => cases closed.symm.trans found
  | loaded _ loads =>
    cases loads.of_seeded served known
    rfl
  | absent _ loads => cases loads.of_seeded served known
  | unread _ loads => cases loads.of_seeded served known

/-- A READ of a file that is neither open nor stored opens it with what the source has. -/
theorem Effect.read_of_seeded {outcome : Except Fault Unit}
    (effect : Effect session (.read name 0 0) calls outcome after)
    (served : peripherals.Serves calls devices last)
    (known : Seeded peripherals devices name content)
    (closed : session.buffers.find? name = none) :
    outcome = .ok () ∧ after.redirection = .reading name ∧
      after.buffers.find? name = some (.opened name 0 (some content)) := by
  cases effect with
  | readUnready readies => cases readies.of_seeded served known closed
  | readBeyond readies beyond =>
    cases readies.of_seeded served known closed
    rw [Nat.zero_mul] at beyond
    exact absurd (by decide) beyond
  | @reading _ _ _ _ _ later readies fits =>
    cases readies.of_seeded served known closed
    exact ⟨rfl, rfl, later.find?_keep_self _⟩
  | idle relies other => cases relies
  | unmet relies same absent => cases relies

/-- The lines of a file that the source has are read in order, and then the data ends. -/
theorem readsLines_of_seeded {machine : Machine Devices} {lines : List Bytes}
    (known : Seeded peripherals machine.devices name (linesText lines))
    (closed : machine.session.buffers.find? name = none)
    (free : ∀ line ∈ lines, ∀ byte ∈ line, isLineEnd byte = false) :
    ∃ reading last, read peripherals name 0 0 machine = (.ok (), reading) ∧
      ReadsLines reading lines last := by
  obtain ⟨calls, session, effect, moved⟩ :=
    read_effect (Machine.Moves.refl peripherals machine) name 0 0
  obtain ⟨succeeds, redirected, found⟩ := effect.read_of_seeded moved.served known closed
  generalize ran : read peripherals name 0 0 machine = result at succeeds moved
  obtain ⟨outcome, reading⟩ := result
  obtain rfl : outcome = .ok () := succeeds
  rw [← moved.session] at redirected found
  let buffer : Buffer := .opened name 0 (some (linesText lines))
  have bytes : buffer.bytes.drop buffer.filePointer = linesText lines :=
    Buffer.bytes_opened name 0 (some (linesText lines))
  have read : ReadsLines (pointing reading buffer buffer.filePointer) _ _ :=
    readsLines_of_cut redirected (bytes ▸ cut_linesText free)
  have all : (lines.map fun line => Segment.mk line (some carriageReturn)).map Segment.line =
      lines := by
    simp [Function.comp_def]
  rw [all, pointing_of_found found] at read
  exact ⟨reading, _, rfl, read⟩

end TextFile

/-- A host on which every path leads to a file with the same bytes, which is not held open and
cannot be changed. -/
def Host.offering {Devices : Type} (bytes : Bytes) : Host Empty Devices where
  isPresent _ devices := (true, devices)
  openFile _ _ devices := (none, devices)
  fileSize file := nomatch file
  readFile _ file := nomatch file
  writeFile _ file := nomatch file
  flushFile file := nomatch file
  closeFile file := nomatch file
  read _ devices := (.content bytes, devices)
  remove _ devices := (.refused, devices)
  makeDirectory _ devices := (false, devices)

namespace SeedFolder

section Readings

variable {File Devices : Type} {host : Host File Devices} {folder : SeedFolder} {name : Name}
variable {devices later last : Devices} {readings : Bytes → List Reading} {packed raw : Bytes}

/-- What is fetched is the normal form of the content, however it is read. -/
theorem fetchBy_of_yields (present : host.isPresent (folder.path name) devices = (true, later))
    (read : host.read (folder.path name) later = (.content packed, last))
    (yields : Yields (readings packed) raw) :
    folder.fetchBy readings host name devices = ⟨.ok (some (normalize raw)), last,
      [Log.info .store [.text (ascii "Seeded "), .text name, .text (ascii " from "),
        .text (folder.path name)]]⟩ := by
  simp only [fetchBy, present, read, gather_of_yields yields]

end Readings

/-- A text file of the host is fetched whole, and it makes no difference how its bytes come in. The
content is what stands between the line endings, in order and as it is, joined by carriage returns;
so it is shorter by one byte for each line ending. A file of lines that end in such endings is read
line by line, and then the data ends. The file may be packed: `raw` is what its readings give. -/
theorem fetchBy_normalizes :
    (∀ (File Devices : Type) (host : Host File Devices) (folder : SeedFolder) (name : Name)
        (devices later last : Devices) (readings : Bytes → List Reading) (packed raw : Bytes),
      host.isPresent (folder.path name) devices = (true, later) →
      host.read (folder.path name) later = (.content packed, last) →
      Yields (readings packed) raw →
      ∃ parts content,
        (folder.fetchBy readings host name devices).outcome = .ok (some content) ∧
        content = [carriageReturn].intercalate parts ∧
        (∀ others, others = parts ↔ others ≠ [] ∧ lineEnding.intercalate others = raw ∧
          ∀ part ∈ others, ¬lineEnding <:+: part) ∧
        parts.length = endings raw + 1 ∧
        content.length + endings raw = raw.length ∧
        (∀ others : Bytes → List Reading, Yields (others packed) raw →
          folder.fetchBy readings host name devices = folder.fetchBy others host name devices) ∧
        (packed = raw →
          folder.fetchBy readings host name devices = folder.fetch host name devices)) ∧
    ∀ (File Devices : Type) (peripherals : Peripherals Devices) (host : Host File Devices)
        (folder : SeedFolder) (name : Name) (machine : Machine Devices) (later last : Devices)
        (readings : Bytes → List Reading) (packed : Bytes) (lines : List Bytes),
      let missed := peripherals.store.get name machine.devices
      peripherals.source = ⟨folder.fetchBy readings host⟩ →
      machine.session.buffers.find? name = none →
      missed.outcome = .ok none →
      (∀ content devices, (peripherals.store.set name content devices).outcome = .ok ()) →
      host.isPresent (folder.path name) missed.devices = (true, later) →
      host.read (folder.path name) later = (.content packed, last) →
      Yields (readings packed) (endedLines lines) →
      (∀ line ∈ lines, ∀ byte ∈ line, isLineEnd byte = false) →
      ∃ reading ended, TextFile.read peripherals name 0 0 machine = (.ok (), reading) ∧
        ∀ others final, TextFile.ReadsLines reading others final ↔
          others = lines ∧ final = ended := by
  refine ⟨?_, ?_⟩
  · intro File Devices host folder name devices later last readings packed raw present read yields
    obtain ⟨parts, parted⟩ := exists_parted raw
    have fetched := fetchBy_of_yields present read yields
    refine ⟨parts, normalize raw, congrArg Reply.outcome fetched, parted.normalize_eq, ?_,
      parted.length_eq, length_normalize raw, fun others again => ?_, ?_⟩
    · intro others
      constructor
      · rintro rfl
        exact ⟨parted.ne_nil, parted.intercalate_eq, parted.free⟩
      · rintro ⟨some, rfl, free⟩
        exact parted.unique (.of_intercalate some free)
    · rw [fetched, fetchBy_of_yields present read again]
    · rintro rfl
      rw [fetched, fetch, fetchBy_of_yields present read (yields_blocks packed)]
  · intro File Devices peripherals host folder name machine later last readings packed lines missed
      source closed unstored stores present read yields free
    have fetched := congrArg Reply.outcome (fetchBy_of_yields present read yields)
    rw [normalize_endedLines free] at fetched
    have known : TextFile.Seeded peripherals machine.devices name (linesText lines) :=
      ⟨unstored, by rw [source]; exact fetched, stores (linesText lines)⟩
    obtain ⟨reading, ended, opened, run⟩ := TextFile.readsLines_of_seeded known closed free
    refine ⟨reading, ended, opened, ?_⟩
    intro others final
    refine ⟨run.unique, ?_⟩
    rintro ⟨rfl, rfl⟩
    exact run

/-- Of a carriage return, a line ending, a line feed and a carriage return, one byte is left out. An
empty line among others is read as one. -/
theorem fetchBy_normalizes_blocks :
    let folder : SeedFolder := .ofBase (ascii "seeds")
    let lines := [ascii "FIRST", [], ascii "THIRD"]
    let host : Host Empty (Catalog Name Bytes) := .offering (endedLines lines)
    let peripherals : Peripherals (Catalog Name Bytes) :=
      ⟨.memory, ⟨folder.fetchBy blocks host⟩, .silent, .standard⟩
    Yields (blocks (endedLines lines)) (endedLines lines) ∧
      (folder.fetchBy blocks (.offering (ascii "\r\r\n\n\r")) (ascii "F") ()).outcome =
        .ok (some (ascii "\r\r\n\r")) ∧
      ∃ reading ended, TextFile.read peripherals (ascii "F") 0 0 (.initial .off .empty) =
          (.ok (), reading) ∧ TextFile.ReadsLines reading lines ended := by
  intro folder lines host peripherals
  obtain ⟨whole, byLine⟩ := fetchBy_normalizes
  obtain ⟨parts, content, fetched, joined, alone, _⟩ :=
    whole Empty Unit (.offering (ascii "\r\r\n\n\r")) folder (ascii "F") () () () blocks _ _ rfl rfl
      (yields_blocks _)
  have parted : [ascii "\r", ascii "\n\r"] = parts := (alone _).mpr (by decide +kernel)
  subst parted
  obtain ⟨reading, ended, opened, run⟩ := byLine _ _ peripherals host folder (ascii "F")
    (.initial .off .empty) .empty .empty blocks _ lines rfl rfl rfl (fun _ _ => rfl) rfl rfl
    (yields_blocks _) (by decide +kernel)
  refine ⟨yields_blocks _, ?_, reading, ended, opened, (run _ _).mpr ⟨rfl, rfl⟩⟩
  rw [fetched, joined]
  rfl

end SeedFolder

end DosText
