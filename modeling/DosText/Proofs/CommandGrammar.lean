import DosText.Proofs.CommandLines

/-! The grammar of command lines. What stands on a line is found by longest runs: of blanks, of name
bytes and of printable bytes, and whatever is left over is ignored. The lines that are read are
those of the grammar, and what is read is what the grammar says. A well-formed command is what some
line is read as, and its own line is one. -/

namespace DosText

/-- A text begins with a run of bytes of a kind, and with no longer one. -/
structure IsLongestRun (isKind : UInt8 → Bool) (text run rest : Bytes) : Prop where
  split : text = run ++ rest
  all : run.all isKind = true
  longest : ∀ other, other <+: text → other.all isKind = true → other.length ≤ run.length

theorem isLongestRun_iff {isKind : UInt8 → Bool} {text run rest : Bytes} :
    IsLongestRun isKind text run rest ↔
      text.takeWhile isKind = run ∧ text.dropWhile isKind = rest := by
  constructor
  · rintro ⟨rfl, all, longest⟩
    have part : (run ++ rest).takeWhile isKind = run ++ rest.takeWhile isKind :=
      List.takeWhile_append_of_pos (List.all_eq_true.mp all)
    have length := longest _ (List.takeWhile_prefix isKind) List.all_takeWhile
    have stop : rest.takeWhile isKind = [] := by
      rw [part, List.length_append] at length
      exact List.eq_nil_of_length_eq_zero (by omega)
    rw [stop, List.append_nil] at part
    refine ⟨part, ?_⟩
    have whole : (run ++ rest).takeWhile isKind ++ (run ++ rest).dropWhile isKind = run ++ rest :=
      List.takeWhile_append_dropWhile
    rw [part] at whole
    exact List.append_cancel_left whole
  · rintro ⟨rfl, rfl⟩
    refine ⟨List.takeWhile_append_dropWhile.symm, List.all_takeWhile, ?_⟩
    rintro other ⟨behind, rfl⟩ all
    rw [List.takeWhile_append_of_pos (List.all_eq_true.mp all), List.length_append]
    exact Nat.le_add_right _ _

namespace Command

/-- The name in a text: the longest run of name bytes behind the longest run of blanks. -/
structure FindsName (text blanks : Bytes) (name : Name) (rest : Bytes) : Prop where
  skipped : IsLongestRun isBlank text blanks (name ++ rest)
  taken : IsLongestRun isNameByte (name ++ rest) name rest

/-- The name in a text where there must be one. If no name byte stands behind the blanks, the last
of them is the name, as long as it is a space. -/
inductive RequiresName (text : Bytes) : Name → Bytes → Prop where
  | plain {blanks rest : Bytes} {name : Name} (found : FindsName text blanks name rest)
    (some : name ≠ []) : RequiresName text name rest
  | space {blanks rest : Bytes} (found : FindsName text (blanks ++ [code ' ']) [] rest) :
    RequiresName text [code ' '] rest

/-- The arguments that a text begins with: none, or a comma and the longest printable run. -/
inductive HasTail : Bytes → Bytes → Prop where
  | none {text : Bytes} (other : text.head? ≠ some (code ',')) : HasTail text []
  | comma {behind run ignored : Bytes} (printable : IsLongestRun isPrintable behind run ignored) :
    HasTail (code ',' :: behind) (code ',' :: run)

/-- What may follow a keyword, and the command that it makes. -/
inductive Follows : Keyword → Bytes → Command → Prop where
  | monitor {rest tail ignored : Bytes} (printable : IsLongestRun isPrintable rest tail ignored) :
    Follows .monitor rest (.monitor tail)
  | noMonitor {rest tail ignored : Bytes} (printable : IsLongestRun isPrintable rest tail ignored) :
    Follows .noMonitor rest (.noMonitor tail)
  | named {verb : Verb} {rest behind tail : Bytes} {name : Name}
    (required : RequiresName rest name behind) (ends : HasTail behind tail) :
    Follows (.named verb) rest (.named verb name tail)
  | close {rest blanks behind tail : Bytes} {name : Name}
    (found : FindsName rest blanks name behind) (ends : HasTail behind tail) :
    Follows .close rest (.close name tail)
  | rename {rest afterComma behind tail : Bytes} {source target : Name}
    (required : RequiresName rest source (code ',' :: afterComma))
    (requiredTarget : RequiresName afterComma target behind) (ends : HasTail behind tail) :
    Follows .rename rest (.rename source target tail)

/-- The lines of the grammar, each with its command. -/
inductive Denotes : Bytes → Command → Prop where
  | empty : Denotes [] .empty
  | keyword {keyword : Keyword} {rest : Bytes} {command : Command}
    (follows : Follows keyword rest command) : Denotes (keyword.text ++ rest) command

section Scanning

variable {text rest : Bytes} {name : Name}

theorem findsName_iff {blanks : Bytes} :
    FindsName text blanks name rest ↔
      text.takeWhile isBlank = blanks ∧ scanName text = (name, rest) := by
  constructor
  · rintro ⟨skipped, taken⟩
    obtain ⟨lead, start⟩ := isLongestRun_iff.mp skipped
    obtain ⟨run, behind⟩ := isLongestRun_iff.mp taken
    refine ⟨lead, ?_⟩
    rw [scanName, start, run, behind]
  · rintro ⟨lead, scanned⟩
    obtain ⟨run, behind⟩ := Prod.mk.inj scanned
    have start : text.dropWhile isBlank = name ++ rest := by
      rw [← run, ← behind, List.takeWhile_append_dropWhile]
    rw [start] at run behind
    exact ⟨isLongestRun_iff.mpr ⟨lead, start⟩, isLongestRun_iff.mpr ⟨run, behind⟩⟩

theorem scanRequiredName_eq_ok_iff :
    scanRequiredName text = .ok (name, rest) ↔ RequiresName text name rest := by
  constructor
  · intro scanned
    unfold scanRequiredName at scanned
    split at scanned
    · next behind nameless =>
      split at scanned
      · next last =>
        cases scanned
        obtain ⟨blanks, lead⟩ := List.getLast?_eq_some_iff.mp last
        exact .space (findsName_iff.mpr ⟨lead, nameless⟩)
      · cases scanned
    · next found behind present same =>
      cases scanned
      exact .plain (findsName_iff.mpr ⟨rfl, same⟩) present
  · intro required
    cases required with
    | plain found some =>
      rw [scanRequiredName, (findsName_iff.mp found).2]
      cases name with
      | nil => exact absurd rfl some
      | cons first others => rfl
    | space found =>
      obtain ⟨lead, scanned⟩ := findsName_iff.mp found
      rw [scanRequiredName, scanned]
      refine if_pos ?_
      rw [lead, List.getLast?_append_of_ne_nil _ (List.cons_ne_nil _ _)]
      rfl

theorem scanTail_eq_iff {tail : Bytes} : scanTail text = tail ↔ HasTail text tail := by
  constructor
  · rintro rfl
    cases text with
    | nil => exact .none nofun
    | cons first behind =>
      by_cases comma : first = code ','
      · rw [scanTail, if_pos comma, comma]
        exact .comma (isLongestRun_iff.mpr ⟨rfl, rfl⟩)
      · rw [scanTail, if_neg comma]
        exact .none fun same => comma (Option.some.inj same)
  · intro ends
    cases ends with
    | none other =>
      cases text with
      | nil => rfl
      | cons first behind => exact if_neg fun same => other (congrArg some same)
    | comma printable =>
      rw [scanTail, if_pos rfl, (isLongestRun_iff.mp printable).1]

theorem scanComma_eq_ok_iff : scanComma text = .ok rest ↔ text = code ',' :: rest := by
  cases text with
  | nil => exact ⟨nofun, nofun⟩
  | cons first behind =>
    by_cases comma : first = code ','
    · rw [scanComma, if_pos comma, comma]
      simp
    · rw [scanComma, if_neg comma]
      simp [comma]

end Scanning

section Reading

variable {keyword : Keyword} {line rest : Bytes} {command : Command} {fault : Fault}

theorem follows_of_readOperands (parsed : readOperands keyword rest = .ok command) :
    Follows keyword rest command := by
  have ends (text : Bytes) : HasTail text (scanTail text) := scanTail_eq_iff.mp rfl
  cases keyword with
  | monitor =>
    cases parsed
    exact .monitor (isLongestRun_iff.mpr ⟨rfl, rfl⟩)
  | noMonitor =>
    cases parsed
    exact .noMonitor (isLongestRun_iff.mpr ⟨rfl, rfl⟩)
  | named verb =>
    obtain ⟨⟨name, behind⟩, scanned, same⟩ := exists_of_bind_eq_ok parsed
    cases same
    exact .named (scanRequiredName_eq_ok_iff.mp scanned) (ends behind)
  | close =>
    cases parsed
    exact .close (findsName_iff.mpr ⟨rfl, rfl⟩) (ends _)
  | rename =>
    obtain ⟨⟨source, behindSource⟩, scanned, parsed⟩ := exists_of_bind_eq_ok parsed
    obtain ⟨afterComma, comma, parsed⟩ := exists_of_bind_eq_ok parsed
    obtain ⟨⟨target, behindTarget⟩, scannedTarget, same⟩ := exists_of_bind_eq_ok parsed
    cases same
    cases scanComma_eq_ok_iff.mp comma
    exact .rename (scanRequiredName_eq_ok_iff.mp scanned)
      (scanRequiredName_eq_ok_iff.mp scannedTarget) (ends behindTarget)

theorem readOperands_of_follows (follows : Follows keyword rest command) :
    readOperands keyword rest = .ok command := by
  cases follows with
  | monitor printable => rw [readOperands, (isLongestRun_iff.mp printable).1]
  | noMonitor printable => rw [readOperands, (isLongestRun_iff.mp printable).1]
  | named required ends =>
    rw [readOperands, scanRequiredName_eq_ok_iff.mpr required]
    exact congrArg (fun tail => Except.ok (named _ _ tail)) (scanTail_eq_iff.mpr ends)
  | close found ends =>
    rw [readOperands, (findsName_iff.mp found).2]
    exact congrArg (fun tail => Except.ok (close _ tail)) (scanTail_eq_iff.mpr ends)
  | @rename _ afterComma behind tail source target required requiredTarget ends =>
    rw [readOperands, scanRequiredName_eq_ok_iff.mpr required]
    show scanRequiredName afterComma >>= _ = _
    rw [scanRequiredName_eq_ok_iff.mpr requiredTarget]
    exact congrArg (fun tail => Except.ok (rename source target tail)) (scanTail_eq_iff.mpr ends)

/-- Nothing but the keyword itself is found where a line begins with one. -/
theorem eq_append_of_scanKeyword (found : scanKeyword line = some keyword) :
    line = keyword.text ++ line.drop keyword.text.length := by
  have begins : keyword.text.isPrefixOf line = true := by
    simpa using List.find?_some found
  exact List.prefix_iff_eq_append.mp (List.isPrefixOf_iff_prefix.mp begins) |>.symm

theorem read_eq_ok_iff : read line = .ok command ↔ Denotes line command := by
  constructor
  · intro parsed
    unfold read at parsed
    split at parsed
    · next empty =>
      cases parsed
      rw [empty]
      exact .empty
    · split at parsed
      · cases parsed
      · next keyword found =>
        rw [eq_append_of_scanKeyword found]
        exact .keyword (follows_of_readOperands parsed)
  · intro denotes
    cases denotes with
    | empty => rfl
    | keyword follows => rw [read_text_append, readOperands_of_follows follows]

theorem invalidOption_of_scanRequiredName {text : Bytes}
    (refused : scanRequiredName text = .error fault) : fault = .invalidOption := by
  unfold scanRequiredName at refused
  split at refused
  · split at refused <;> cases refused
    rfl
  · cases refused

theorem invalidOption_of_scanComma {text : Bytes} (refused : scanComma text = .error fault) :
    fault = .invalidOption := by
  unfold scanComma at refused
  split at refused
  · cases refused
    rfl
  · split at refused <;> cases refused
    rfl

/-- What fails in two parts with one fault at most in each fails with that fault. -/
theorem fault_of_bind_eq_error {Value Other : Type} {first : Except Fault Value}
    {next : Value → Except Fault Other} {only : Fault}
    (begun : ∀ fault, first = .error fault → fault = only)
    (continued : ∀ value fault, next value = .error fault → fault = only)
    (failed : (first >>= next) = .error fault) : fault = only := by
  cases first with
  | error other =>
    cases failed
    exact begun fault rfl
  | ok value => exact continued value fault failed

theorem invalidOption_of_readOperands (refused : readOperands keyword rest = .error fault) :
    fault = .invalidOption := by
  cases keyword with
  | named verb =>
    refine fault_of_bind_eq_error (fun _ => invalidOption_of_scanRequiredName) ?_ refused
    rintro found fault ⟨⟩
  | rename =>
    refine fault_of_bind_eq_error (fun _ => invalidOption_of_scanRequiredName) ?_ refused
    intro source fault refused
    refine fault_of_bind_eq_error (fun _ => invalidOption_of_scanComma) ?_ refused
    intro afterComma fault refused
    refine fault_of_bind_eq_error (fun _ => invalidOption_of_scanRequiredName) ?_ refused
    rintro target fault ⟨⟩
  | _ => cases refused

theorem invalidOption_of_read (refused : read line = .error fault) : fault = .invalidOption := by
  unfold read at refused
  split at refused
  · cases refused
  · split at refused
    · cases refused
      rfl
    · exact invalidOption_of_readOperands refused

/-- A line begins with one keyword at most. -/
theorem eq_of_text_append {first second : Keyword} {others : Bytes}
    (same : first.text ++ rest = second.text ++ others) : first = second ∧ rest = others := by
  have found := scanKeyword_text_append second others
  rw [← same, scanKeyword_text_append] at found
  cases found
  exact ⟨rfl, List.append_cancel_left same⟩

end Reading

/-- The lines that are read are exactly those of the grammar, each as its command, and any other
line is an invalid option. The keyword that a line begins with is the only one, so there is one way
to take the line apart. -/
theorem read_follows_grammar (line : Bytes) :
    (∀ command, read line = .ok command ↔ Denotes line command) ∧
    (read line = .error .invalidOption ↔ ¬ ∃ command, Denotes line command) ∧
    ∀ (first second : Keyword) (rest others : Bytes), line = first.text ++ rest →
      line = second.text ++ others → first = second ∧ rest = others := by
  refine ⟨fun command => read_eq_ok_iff, ⟨?_, ?_⟩, ?_⟩
  · rintro refused ⟨command, denotes⟩
    rw [read_eq_ok_iff.mpr denotes] at refused
    cases refused
  · intro outside
    cases parsed : read line with
    | error fault => exact congrArg Except.error (invalidOption_of_read parsed)
    | ok command => exact absurd ⟨command, read_eq_ok_iff.mp parsed⟩ outside
  · rintro first second rest others rfl same
    exact eq_of_text_append same

/-- The last of the blanks is the name here, since it is a space, and the tail ends at the first
unprintable byte. With a tab in its place the name is missing. -/
theorem read_follows_grammar_blanks :
    read (ascii "DELETE\t ,\x80,") = .ok (.named .delete [code ' '] [code ',']) ∧
      read (ascii "DELETE \t,") = .error .invalidOption := by
  have found : FindsName (ascii "\t ,\x80,") (ascii "\t" ++ [code ' ']) [] (ascii ",\x80,") :=
    findsName_iff.mpr (by decide)
  have cut : IsLongestRun isPrintable (ascii "\x80,") [] (ascii "\x80,") :=
    isLongestRun_iff.mpr (by decide)
  have tail : HasTail (ascii ",\x80,") [code ','] := .comma cut
  have denotes : Denotes ((Keyword.named .delete).text ++ ascii "\t ,\x80,") _ :=
    .keyword (.named (.space found) tail)
  obtain ⟨reads, -, -⟩ := read_follows_grammar (ascii "DELETE\t ,\x80,")
  obtain ⟨-, refuses, only⟩ := read_follows_grammar (ascii "DELETE \t,")
  refine ⟨(reads _).mpr denotes, refuses.mpr ?_⟩
  rintro ⟨command, denotes⟩
  generalize begins : ascii "DELETE \t," = line at denotes
  cases denotes with
  | empty => cases begins
  | @keyword keyword rest command follows =>
    obtain ⟨rfl, rfl⟩ := only (.named .delete) keyword (ascii " \t,") rest rfl begins
    cases follows with
    | named required ends =>
      have refused := scanRequiredName_eq_ok_iff.mpr required
      cases refused

section Rendering

variable {text rest : Bytes} {name : Name}

/-- A name that is found does not begin with a space, since that would be one of the blanks. -/
theorem FindsName.isPlainName {blanks : Bytes} (found : FindsName text blanks name rest) :
    IsPlainName name := by
  refine ⟨found.taken.all, ?_⟩
  intro begins
  obtain ⟨others, rfl⟩ := List.head?_eq_some_iff.mp begins
  have further : blanks ++ [code ' '] <+: text := by
    rw [found.skipped.split, List.prefix_append_right_inj]
    exact ⟨others ++ rest, rfl⟩
  have blank : (blanks ++ [code ' ']).all isBlank = true := by
    rw [List.all_append, found.skipped.all]
    rfl
  have length := found.skipped.longest _ further blank
  rw [List.length_append, List.length_singleton] at length
  omega

theorem RequiresName.isRequiredName (required : RequiresName text name rest) :
    IsRequiredName name := by
  cases required with
  | plain found some => exact .inr ⟨some, found.isPlainName⟩
  | space found => exact .inl rfl

theorem HasTail.isTail {tail : Bytes} (ends : HasTail text tail) : IsTail tail := by
  cases ends with
  | none other => exact isTail_nil
  | comma printable =>
    refine ⟨?_, .inr rfl⟩
    rw [List.all_cons, printable.all]
    rfl

theorem Follows.wellFormed {keyword : Keyword} {command : Command}
    (follows : Follows keyword rest command) : command.WellFormed := by
  cases follows with
  | monitor printable => exact printable.all
  | noMonitor printable => exact printable.all
  | named required ends => exact ⟨required.isRequiredName, ends.isTail⟩
  | close found ends => exact ⟨found.isPlainName, ends.isTail⟩
  | rename required requiredTarget ends =>
    exact ⟨required.isRequiredName, requiredTarget.isRequiredName, ends.isTail⟩

/-- Whatever is read of a line is well-formed. -/
theorem wellFormed_of_read {line : Bytes} {command : Command}
    (parsed : read line = .ok command) : command.WellFormed := by
  cases read_eq_ok_iff.mp parsed with
  | empty => trivial
  | keyword follows => exact follows.wellFormed

end Rendering

/-- The line of a command reads back as that command exactly if the command is well-formed, and what
is read of any line is well-formed. So the line of what was read is read as the same. -/
theorem read_render_iff_wellFormed (command : Command) :
    (read command.render = .ok command ↔ command.WellFormed) ∧
      ∀ line, read line = .ok command →
        command.WellFormed ∧ read command.render = .ok command := by
  refine ⟨⟨wellFormed_of_read, read_render⟩, ?_⟩
  intro line parsed
  have well := wellFormed_of_read parsed
  exact ⟨well, read_render well⟩

/-- Both names are single spaces here. The tab before the first and the tail's unprintable end are
not kept in the line of the command. -/
theorem read_render_iff_wellFormed_spaces :
    let line := ascii "RENAME\t , ,V1\x7f"
    let command := rename [code ' '] [code ' '] (ascii ",V1")
    read line = .ok command ∧ command.render = ascii "RENAME  , ,V1" ∧
      read command.render = .ok command := by
  intro line command
  have parsed : read line = .ok command := by decide
  obtain ⟨-, kept⟩ := read_render_iff_wellFormed command
  exact ⟨parsed, by decide, (kept line parsed).2⟩

end Command

end DosText
