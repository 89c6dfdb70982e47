import DosText.Log
import Mathlib.Data.List.Basic

/-! How lines of commentary are folded. The lines that are kept fall into runs of equal lines. All
runs but the last have been written, each as one line with its count, and the last one is held. -/

namespace DosText

/-- Whether a text is what stands before the first NUL of another, or all of that if it has none. -/
inductive IsShownOf (shown : Bytes) : Bytes → Prop where
  | whole (free : 0 ∉ shown) : IsShownOf shown shown
  | cut {rest : Bytes} (free : 0 ∉ shown) : IsShownOf shown (shown ++ 0 :: rest)

theorem beforeNul_append_zero {shown : Bytes} (free : 0 ∉ shown) (rest : Bytes) :
    beforeNul (shown ++ 0 :: rest) = shown := by
  unfold beforeNul
  rw [List.takeWhile_append_of_pos]
  · simp
  · intro byte member
    simp only [bne_iff_ne, ne_eq]
    rintro rfl
    exact free member

theorem zero_notMem_beforeNul (text : Bytes) : 0 ∉ beforeNul text := by
  intro member
  simpa using List.all_eq_true.mp List.all_takeWhile 0 member

theorem isShownOf_iff {shown text : Bytes} : IsShownOf shown text ↔ shown = beforeNul text := by
  constructor
  · intro shows
    cases shows with
    | whole free => exact (beforeNul_of_free free).symm
    | cut free => exact (beforeNul_append_zero free _).symm
  · rintro rfl
    have free := zero_notMem_beforeNul text
    have split : beforeNul text ++ text.dropWhile (· != 0) = text := List.takeWhile_append_dropWhile
    cases behind : text.dropWhile (· != 0) with
    | nil =>
      rw [behind, List.append_nil] at split
      rw [split] at free ⊢
      exact .whole free
    | cons byte rest =>
      have stop : byte = 0 := by
        have head := List.head?_dropWhile_not (· != 0) text
        rw [behind] at head
        simpa using head
      rw [behind, stop] at split
      conv => arg 2; rw [← split]
      exact .cut free

namespace Log

/-- What a piece of a line shows. -/
inductive Part.Shows : Part → Bytes → Prop where
  | text {whole shown : Bytes} (cut : IsShownOf shown whole) : Part.Shows (.text whole) shown
  | number (value : Int) : Part.Shows (.number value) (ascii (toString value))
  | admitted {whole shown : Bytes} (cut : IsShownOf shown whole) :
    Part.Shows (.textIf true whole) shown
  | left (whole : Bytes) : Part.Shows (.textIf false whole) []

/-- The text of pieces in a row is what they show, one behind the other. -/
inductive Reads : List Part → Bytes → Prop where
  | nil : Reads [] []
  | cons {part : Part} {parts : List Part} {shown text : Bytes} (shows : part.Shows shown)
      (behind : Reads parts text) : Reads (part :: parts) (shown ++ text)

/-- A line as it is put together. -/
structure Line where
  source : Source
  level : Level
  parts : List Part

/-- What the log takes note of. -/
def Line.entry (line : Line) : Entry := .ofParts line.source line.level line.parts

/-- How lines fall into runs. The lines of a run have its source and its text, whatever their level;
the next run has another source or another text. -/
inductive FoldsInto : List Line → List Run → Prop where
  | nil : FoldsInto [] []
  | run (group : List Line) (run : Run) {lines : List Line} {runs : List Run}
      (nonempty : group ≠ [])
      (source : ∀ line ∈ group, line.source = run.source)
      (text : ∀ line ∈ group, Reads line.parts run.text) (count : group.length = run.count)
      (ends : ∀ next ∈ runs.head?, next.source ≠ run.source ∨ next.text ≠ run.text)
      (behind : FoldsInto lines runs) : FoldsInto (group ++ lines) (run :: runs)

/-- How the lines of a source begin. -/
def Source.beginning : Source → Bytes
  | buffers => ascii "[DOS buffers] "
  | channel => ascii "[DOS channel] "
  | commands => ascii "[DOS] "
  | store => ascii "[Store] "
  | terminal => ascii "[Terminal] "
  | unlisted => []

/-- A run as one line of output. -/
def Run.line (run : Run) : Bytes :=
  run.source.beginning ++ run.text ++
    (if run.count > 1 then ascii " [* " ++ ascii (toString run.count) ++ ascii "]" else []) ++
    [lineFeed]

theorem Source.heading_eq_beginning (source : Source) : source.heading = source.beginning := by
  cases source <;> decide

theorem ascii_toString_int (value : Int) : ascii (toString value) = signedDecimal value := by
  cases value with
  | ofNat number =>
    rw [signedDecimal, if_neg (by simp)]
    rfl
  | negSucc number =>
    rw [signedDecimal, if_pos (Int.negSucc_lt_zero number)]
    show (String.toList ("-" ++ toString (number + 1))).map _ = _
    rw [String.toList_append, List.map_append]
    rfl

theorem Part.shows_iff {part : Part} {shown : Bytes} : part.Shows shown ↔ shown = part.shown := by
  constructor
  · intro shows
    cases shows with
    | text cut => exact isShownOf_iff.mp cut
    | number value => exact ascii_toString_int value
    | admitted cut => exact isShownOf_iff.mp cut
    | left => rfl
  · rintro rfl
    cases part with
    | text => exact .text (isShownOf_iff.mpr rfl)
    | number value =>
      rw [shown, ← ascii_toString_int]
      exact .number value
    | textIf condition =>
      cases condition
      · exact .left _
      · exact .admitted (isShownOf_iff.mpr rfl)

theorem reads_iff {parts : List Part} {text : Bytes} :
    Reads parts text ↔ text = parts.flatMap Part.shown := by
  constructor
  · intro reads
    induction reads with
    | nil => rfl
    | cons shows behind ih => rw [List.flatMap_cons, Part.shows_iff.mp shows, ih]
  · rintro rfl
    induction parts with
    | nil => exact .nil
    | cons part parts ih => exact .cons (Part.shows_iff.mpr rfl) ih

instance (parts : List Part) (text : Bytes) : Decidable (Reads parts text) :=
  decidable_of_iff _ reads_iff.symm

theorem Line.text_entry {line : Line} {text : Bytes} (reads : Reads line.parts text) :
    line.entry.text = text := (reads_iff.mp reads).symm

theorem Run.written_eq_line {run : Run} (spoken : run.text ≠ []) : run.written = run.line := by
  rw [written, if_neg spoken, run.source.heading_eq_beginning]
  rfl

theorem Run.covers_iff {run : Run} {entry : Entry} :
    run.covers entry = true ↔ entry.source = run.source ∧ entry.text = run.text := by
  rw [covers, Bool.and_eq_true, beq_iff_eq, beq_iff_eq, eq_comm, @eq_comm _ run.text]

/-- A line that the held run does not cover begins a run, and the held one is written. -/
theorem record_of_other {log : Log} {entry : Entry} (kept : entry.isKept = true)
    (other : ∀ run ∈ log.held, run.covers entry = false) :
    (log.record entry).held = some ⟨entry.source, entry.text, 1⟩ ∧
      (log.record entry).written.toBytes =
        log.written.toBytes ++ log.held.toList.flatMap Run.written := by
  unfold record
  rw [if_pos kept]
  cases held : log.held with
  | none => simp
  | some run =>
    have begun := other run held
    simp [begun]

theorem record_of_covered {log : Log} {entry : Entry} {run : Run} (kept : entry.isKept = true)
    (held : log.held = some run) (covered : run.covers entry = true) :
    log.record entry = { log with held := some { run with count := run.count + 1 } } := by
  unfold record
  simp [kept, held, covered]

/-- Lines that the held run covers are counted. -/
theorem recordAll_of_covered {log : Log} {entries : List Entry} {run : Run}
    (kept : ∀ entry ∈ entries, entry.isKept = true) (held : log.held = some run)
    (covered : ∀ entry ∈ entries, run.covers entry = true) :
    log.recordAll entries =
      { log with held := some { run with count := run.count + entries.length } } := by
  induction entries generalizing log run with
  | nil =>
    rw [recordAll_nil, List.length_nil, Nat.add_zero, ← held]
  | cons entry rest ih =>
    rw [List.forall_mem_cons] at kept covered
    rw [recordAll_cons, record_of_covered kept.1 held covered.1,
      @ih _ { run with count := run.count + 1 } kept.2 rfl covered.2]
    simp only [List.length_cons, Log.mk.injEq, Option.some.injEq, Run.mk.injEq, true_and, and_true]
    omega

/-- The lines of a run that the held one does not cover make up the held run, and the one held
before is written. -/
theorem recordAll_run (log : Log) {entries : List Entry} {run : Run} (nonempty : entries ≠ [])
    (kept : ∀ entry ∈ entries, entry.isKept = true)
    (covered : ∀ entry ∈ entries, run.covers entry = true) (count : entries.length = run.count)
    (other : ∀ held ∈ log.held, run.source ≠ held.source ∨ run.text ≠ held.text) :
    (log.recordAll entries).held = some run ∧
      (log.recordAll entries).written.toBytes =
        log.written.toBytes ++ log.held.toList.flatMap Run.written := by
  obtain ⟨entry, rest, rfl⟩ := List.exists_cons_of_ne_nil nonempty
  rw [List.forall_mem_cons] at kept covered
  obtain ⟨source, text⟩ := Run.covers_iff.mp covered.1
  have begins : ∀ held ∈ log.held, held.covers entry = false := by
    intro held member
    rw [← Bool.not_eq_true, Run.covers_iff, source, text]
    rintro ⟨sameSource, sameText⟩
    rcases other held member with differs | differs
    · exact differs sameSource
    · exact differs sameText
  obtain ⟨begun, written⟩ := record_of_other kept.1 begins
  have counted := recordAll_of_covered kept.2 begun fun other member => by
    rw [Run.covers_iff, source, text]
    exact Run.covers_iff.mp (covered.2 other member)
  rw [recordAll_cons, counted]
  refine ⟨?_, written⟩
  rw [source, text, Nat.add_comm, ← List.length_cons, count]

/-- What has been written and what is held after lines that fall into runs, where the run held
before them is not continued by the first one. -/
theorem FoldsInto.recordAll (log : Log) {lines : List Line} {runs : List Run}
    (folds : FoldsInto lines runs) (kept : ∀ line ∈ lines, line.entry.isKept = true)
    (other : ∀ held ∈ log.held, ∀ next ∈ runs.head?,
      next.source ≠ held.source ∨ next.text ≠ held.text) :
    (log.recordAll (lines.map Line.entry)).written.toBytes =
        log.written.toBytes ++ (log.held.toList ++ runs).dropLast.flatMap Run.written ∧
      (log.recordAll (lines.map Line.entry)).held = (log.held.toList ++ runs).getLast? := by
  induction folds generalizing log with
  | nil => cases held : log.held <;> simp [held]
  | @run group run lines runs nonempty source text count ends behind ih =>
    rw [List.forall_mem_append] at kept
    have covered : ∀ entry ∈ group.map Line.entry, run.covers entry = true := by
      rw [List.forall_mem_map]
      intro line member
      exact Run.covers_iff.mpr ⟨source line member, Line.text_entry (text line member)⟩
    obtain ⟨held, written⟩ := recordAll_run log (by simpa using nonempty)
      (List.forall_mem_map.mpr kept.1) covered (by rwa [List.length_map])
      fun before member => other before member run rfl
    obtain ⟨writtenAfter, heldAfter⟩ := ih (log.recordAll (group.map Line.entry)) kept.2 <| by
      rw [held]
      intro before same
      cases same
      exact ends
    rw [List.map_append, recordAll_append, writtenAfter, heldAfter, held, written]
    cases log.held with
    | none => simp
    | some before => simp

/-- Lines can always be told apart into runs. -/
theorem exists_foldsInto (lines : List Line) : ∃ runs, FoldsInto lines runs := by
  induction lines with
  | nil => exact ⟨[], .nil⟩
  | cons line lines ih =>
    obtain ⟨runs, folds⟩ := ih
    have reads : Reads line.parts line.entry.text := reads_iff.mpr rfl
    by_cases joins : ∃ next ∈ runs.head?, next.source = line.source ∧ next.text = line.entry.text
    · obtain ⟨next, first, sameSource, sameText⟩ := joins
      cases folds with
      | nil => cases first
      | @run group run lines runs nonempty source text count ends behind =>
        cases first
        refine ⟨{ next with count := next.count + 1 } :: runs, ?_⟩
        refine .run (line :: group) _ (by simp) ?_ ?_ (by simp [count]) ends behind
        · exact List.forall_mem_cons.mpr ⟨sameSource.symm, source⟩
        · exact List.forall_mem_cons.mpr ⟨sameText ▸ reads, text⟩
    · refine ⟨⟨line.source, line.entry.text, 1⟩ :: runs, ?_⟩
      refine .run [line] _ (by simp) (by simp) (by simpa using reads) rfl ?_ folds
      intro next first
      rw [← not_and_or]
      intro same
      exact joins ⟨next, first, same⟩

/-- Lines that are not kept make no difference. -/
theorem recordAll_filter (log : Log) (lines : List Line) :
    log.recordAll (lines.map Line.entry) =
      log.recordAll ((lines.filter (·.entry.isKept)).map Line.entry) := by
  induction lines generalizing log with
  | nil => rfl
  | cons line rest ih =>
    by_cases kept : line.entry.isKept = true
    · simp [kept, ih]
    · rw [List.map_cons, recordAll_cons, record_dropped _ _ (by simpa using kept), ih]
      simp [kept]

theorem FoldsInto.text_ne_nil {lines : List Line} {runs : List Run} (folds : FoldsInto lines runs)
    (spoken : ∀ line ∈ lines, ¬Reads line.parts []) : ∀ run ∈ runs, run.text ≠ [] := by
  induction folds with
  | nil => simp
  | @run group run lines runs nonempty source text count ends behind ih =>
    rw [List.forall_mem_append] at spoken
    refine List.forall_mem_cons.mpr ⟨?_, ih spoken.2⟩
    intro silent
    obtain ⟨line, member⟩ := List.exists_mem_of_ne_nil group nonempty
    exact spoken.1 line member (silent ▸ text line member)

/-- Folding loses nothing. Of lines with a text, all but progress of the channel are kept. These
fall into runs; every run but the last is written as one line, in order, and the last run is
held. -/
theorem recordAll_folds (lines : List Line) (spoken : ∀ line ∈ lines, ¬Reads line.parts []) :
    let kept := lines.filter fun line => ¬(line.source = .channel ∧ line.level = .info)
    let log := empty.recordAll (lines.map Line.entry)
    (∃ runs, FoldsInto kept runs) ∧ ∀ runs, FoldsInto kept runs →
      log.written.toBytes = runs.dropLast.flatMap Run.line ∧ log.held = runs.getLast? := by
  intro kept log
  refine ⟨exists_foldsInto kept, fun runs folds => ?_⟩
  have filtered : lines.filter (·.entry.isKept) = kept := by
    refine List.filter_congr fun line _ => ?_
    rw [Bool.eq_iff_iff]
    simp [Entry.isKept, Line.entry, Entry.ofParts, imp_iff_not_or]
  obtain ⟨written, held⟩ := folds.recordAll empty
    (fun line member => by
      rw [← filtered] at member
      exact (List.mem_filter.mp member).2)
    (by simp [empty])
  rw [← filtered, ← recordAll_filter] at written held
  refine ⟨?_, held⟩
  have texts := folds.text_ne_nil fun line member => spoken line (List.mem_of_mem_filter member)
  have shown : runs.dropLast.flatMap Run.written = runs.dropLast.flatMap Run.line := by
    refine List.flatMap_congr fun run member => ?_
    exact Run.written_eq_line (texts run (List.dropLast_subset runs member))
  rw [← shown]
  exact written

/-- Progress of the channel does not interrupt a run, nor does a failure in place of progress, nor
what stands behind a NUL; a failure of the channel with the same text does. -/
theorem recordAll_folds_interrupted :
    let lines : List Line := [⟨.commands, .info, [.text (ascii "a")]⟩,
      ⟨.channel, .info, [.text (ascii "b")]⟩, ⟨.commands, .error, [.text [0x61, 0, 0x62]]⟩,
      ⟨.channel, .error, [.textIf true (ascii "a"), .textIf false (ascii "b")]⟩,
      ⟨.unlisted, .info, [.text (ascii "n"), .number (-5)]⟩]
    (∀ line ∈ lines, ¬Reads line.parts []) ∧
      (empty.recordAll (lines.map Line.entry)).written.toBytes =
        ascii "[DOS] a [* 2]\n[DOS channel] a\n" ∧
      (empty.recordAll (lines.map Line.entry)).held = some ⟨.unlisted, ascii "n-5", 1⟩ := by
  intro lines
  have spoken : ∀ line ∈ lines, ¬Reads line.parts [] := by decide
  have folds : FoldsInto (lines.filter fun line => ¬(line.source = .channel ∧ line.level = .info))
      [⟨.commands, ascii "a", 2⟩, ⟨.channel, ascii "a", 1⟩, ⟨.unlisted, ascii "n-5", 1⟩] :=
    .run [lines[0], lines[2]] _ (by decide) (by decide) (by decide) rfl (by decide)
      (.run [lines[3]] _ (by decide) (by decide) (by decide) rfl (by decide)
        (.run [lines[4]] _ (by decide) (by decide) (by decide) rfl (by decide) .nil))
  obtain ⟨written, held⟩ := (recordAll_folds lines spoken).2 _ folds
  exact ⟨spoken, written, held⟩

end Log

end DosText
