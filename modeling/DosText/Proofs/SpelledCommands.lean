import DosText.Proofs.CommandLines
import DosText.Proofs.InMemory
import DosText.Proofs.Operations

/-! Command lines and direct calls. A command can be written in many ways: with any blanks before a
name, with arguments in any order or left out where they are 0, and with values in decimal or
hexadecimal. In whichever way it is written, its line does to session and devices what the operation
does when it is called directly, and ends in the same outcome. -/

namespace DosText

namespace Arguments

theorem value_foldl_give_of_agreed (arguments : Arguments) {tokens : List Token} {letter : Letter}
    {value : Nat} (begins : arguments.value letter = value)
    (agreed : ∀ token ∈ tokens, token.letter = letter → token.value = value) :
    (tokens.foldl give arguments).value letter = value := by
  induction tokens generalizing arguments with
  | nil => exact begins
  | cons token tokens ih =>
    refine ih (arguments.give token) ?_ fun later member =>
      agreed later (List.mem_cons_of_mem token member)
    rw [give, value_set]
    split
    · next same => exact agreed token List.mem_cons_self same.symm
    · exact begins

/-- Whether a tail gives letters their values. A letter may be left out if its value is 0. -/
def Gives (values : List (Letter × Nat)) (tail : Bytes) : Prop :=
  ∃ tokens, Spells (values.map Prod.fst) tokens tail ∧
    ∀ letter value, (letter, value) ∈ values →
      (∀ token ∈ tokens, token.letter = letter → token.value = value) ∧
      ((∀ token ∈ tokens, token.letter ≠ letter) → value = 0)

theorem Gives.exists_read {values : List (Letter × Nat)} {tail : Bytes}
    (gives : Gives values tail) : ∃ given, Arguments.read tail (values.map Prod.fst) = .ok given ∧
      ∀ letter value, (letter, value) ∈ values → given.value letter = value := by
  obtain ⟨tokens, spells, meant⟩ := gives
  refine ⟨_, read_of_spells spells, ?_⟩
  intro letter value member
  obtain ⟨agreed, omitted⟩ := meant letter value member
  by_cases named : ∃ token ∈ tokens, token.letter = letter
  · obtain ⟨token, present, rfl⟩ := named
    obtain ⟨before, behind, rfl⟩ := List.append_of_mem present
    rw [List.foldl_append, List.foldl_cons]
    refine value_foldl_give_of_agreed _ ?_ fun later inside =>
      agreed later (List.mem_append_right before (List.mem_cons_of_mem token inside))
    rw [give, value_set, if_pos rfl]
    exact agreed token present rfl
  · have absent : ∀ token ∈ tokens, token.letter ≠ letter :=
      fun token inside same => named ⟨token, inside, same⟩
    rw [value_foldl_give_of_absent none absent, value_none, omitted absent]

end Arguments

/-- The command for an operation on one file: its verb, the file and the arguments. -/
def TextFile.Operation.form? :
    TextFile.Operation → Option (Verb × Name × List (Letter × Nat))
  | .openFile name recordLength => some (.openFile, name, [(.length, recordLength)])
  | .appendFile name recordLength => some (.appendFile, name, [(.length, recordLength)])
  | .position name records => some (.position, name, [(.record, records)])
  | .read name record byte => some (.read, name, [(.record, record), (.byte, byte)])
  | .write name record byte => some (.write, name, [(.record, record), (.byte, byte)])
  | .delete name => some (.delete, name, [])
  | _ => none

namespace Command

/-- A file name that a line can hold behind blanks. -/
def IsFileName (name : Name) : Prop := name ≠ [] ∧ IsPlainName name

/-- The ways to write an operation as a command line. -/
inductive Spells : TextFile.Operation → Bytes → Prop where
  | named {operation : TextFile.Operation} {verb : Verb} {name : Name}
    {values : List (Letter × Nat)} (form : operation.form? = some (verb, name, values))
    (lead : Arguments.Blanks) (valid : IsFileName name) {tail : Bytes} (behind : IsTail tail)
    (gives : Arguments.Gives values tail) :
    Spells operation ((Keyword.named verb).text ++ (lead.text ++ (name ++ tail)))
  | close (lead : Arguments.Blanks) {name : Name} (valid : IsFileName name) :
    Spells (.close name) (Keyword.close.text ++ (lead.text ++ name))
  | rename (lead gap : Arguments.Blanks) {source target : Name} (valid : IsFileName source)
    (validTarget : IsFileName target) :
    Spells (.rename source target)
      (Keyword.rename.text ++ (lead.text ++ (source ++ code ',' :: (gap.text ++ target))))

/-- Whatever gives the arguments their values, the command orders the operation. -/
theorem orderOfNamed_of_form {operation : TextFile.Operation} {verb : Verb} {name : Name}
    {values : List (Letter × Nat)} (form : operation.form? = some (verb, name, values))
    {tail : Bytes} (gives : Arguments.Gives values tail) :
    orderOfNamed verb name tail = .ok (.file operation) := by
  obtain ⟨given, read, meant⟩ := gives.exists_read
  have ordered (next : Arguments → Except Fault Order) :
      Arguments.read tail (values.map Prod.fst) >>= next = next given := by
    rw [read]
    rfl
  cases operation with
  | openFile file recordLength =>
    cases form
    refine (ordered _).trans ?_
    rw [meant .length recordLength List.mem_cons_self]
    rfl
  | appendFile file recordLength =>
    cases form
    refine (ordered _).trans ?_
    rw [meant .length recordLength List.mem_cons_self]
    rfl
  | position file records =>
    cases form
    refine (ordered _).trans ?_
    rw [meant .record records List.mem_cons_self]
    rfl
  | read file record byte =>
    cases form
    refine (ordered _).trans ?_
    rw [meant .record record List.mem_cons_self,
      meant .byte byte (List.mem_cons_of_mem _ List.mem_cons_self)]
    rfl
  | write file record byte =>
    cases form
    refine (ordered _).trans ?_
    rw [meant .record record List.mem_cons_self,
      meant .byte byte (List.mem_cons_of_mem _ List.mem_cons_self)]
    rfl
  | delete file =>
    cases form
    exact ordered _
  | _ => cases form

theorem order?_rename (lead gap : Arguments.Blanks) {source target : Name}
    (valid : IsFileName source) (validTarget : IsFileName target) :
    order? (Keyword.rename.text ++ (lead.text ++ (source ++ code ',' :: (gap.text ++ target)))) =
      .ok (.file (.rename source target)) := by
  have parsed := read_rename lead gap (.inr valid) (.inr validTarget) isTail_nil
  rw [List.append_nil] at parsed
  rw [order?_of_read parsed, orderOf, Arguments.read_nil]
  rfl

/-- However an operation is written, its line orders it. -/
theorem Spells.order? {operation : TextFile.Operation} {line : Bytes}
    (spells : Spells operation line) : order? line = .ok (.file operation) := by
  cases spells with
  | named form lead valid behind gives =>
    rw [order?_of_read (read_named _ lead (.inr valid) behind)]
    exact orderOfNamed_of_form form gives
  | @close lead name valid =>
    have parsed := read_close lead valid.2 isTail_nil
    rw [List.append_nil] at parsed
    rw [order?_of_read parsed, orderOf, Arguments.read_nil]
    show Except.ok (Order.file (if name = [] then .closeAll else .close name)) = _
    rw [if_neg valid.1]
  | rename lead gap valid validTarget => exact order?_rename lead gap valid validTarget

end Command

variable {Devices : Type} {peripherals : Peripherals Devices}

namespace Command

/-- A command line does to session and devices what its operation does, and ends in the same
outcome, however the operation is written. -/
theorem execute_of_spells (peripherals : Peripherals Devices) (machine : Machine Devices)
    {operation : TextFile.Operation} {line : Bytes} (spells : Spells operation line) :
    let executed := execute peripherals line machine
    let called := operation.perform peripherals machine
    executed.1 = called.1 ∧ executed.2.session = called.2.session ∧
      executed.2.devices = called.2.devices := by
  have comes : operation? line = some operation := by
    rw [operation?, spells.order?]
  obtain ⟨outcome, session, devices⟩ := execute_of_operation? comes machine
  exact ⟨outcome, session, devices⟩

/-- A name may hold a blank. The byte comes first here and is `0a` in hexadecimal, a number that
ends with a letter of arguments. -/
theorem execute_of_spells_byte_first :
    let line := ascii "READ  A B,B$0a , R 007"
    let machine := Machine.initial .off (Catalog.empty.insert (ascii "A B") (ascii "X\r"))
    let executed := execute (.inMemory .empty .none) line machine
    let called := TextFile.read (.inMemory .empty .none) (ascii "A B") 7 10 machine
    Spells (.read (ascii "A B") 7 10) line ∧ executed.1 = called.1 ∧
      executed.2.session = called.2.session ∧ executed.2.devices = called.2.devices := by
  have tokens : Arguments.Spells [.record, .byte]
      [⟨true, .empty, .byte, .empty,
          some ⟨.hexadecimal, ascii "0a", by decide, by decide⟩, .space⟩,
        ⟨true, .space, .record, .space,
          some ⟨.decimal, ascii "007", by decide, by decide⟩, .empty⟩] (ascii ",B$0a , R 007") := by
    refine .cons (by decide) (by decide) ?_ (.cons (by decide) (by decide) ?_ .nil)
    · rintro numeral ⟨⟩ byte ⟨⟩
      decide
    · rintro numeral ⟨⟩ byte ⟨⟩
  have gives : Arguments.Gives [(.record, 7), (.byte, 10)] (ascii ",B$0a , R 007") := by
    refine ⟨_, tokens, ?_⟩
    intro letter value member
    rcases List.mem_pair.mp member with same | same
    · cases same
      decide
    · cases same
      decide
  have valid : IsFileName (ascii "A B") := ⟨by decide, by decide⟩
  have form : (TextFile.Operation.read (ascii "A B") 7 10).form? =
      some (.read, ascii "A B", [(.record, 7), (.byte, 10)]) := rfl
  have spells : Spells (.read (ascii "A B") 7 10) (ascii "READ  A B,B$0a , R 007") :=
    .named form ⟨ascii "  ", by decide⟩ valid (by decide) gives
  exact ⟨spells, execute_of_spells _ _ spells⟩

end Command

end DosText
