import DosText.Command.Printer
import DosText.Proofs.ArgumentGrammar
import DosText.Proofs.Orders
import Mathlib.Data.List.TakeWhile

/-! Command lines that a program puts together: a keyword, a plain name and perhaps an argument in
decimal. They are read as what they were put together from, whatever the name and the number. -/

namespace DosText

/-- The decimal digit of a value below ten. -/
def digit (value : Nat) : UInt8 := code (Nat.digitChar value)

/-- What the digits have in common. -/
theorem digit_spec : ∀ value < 10, digitValue? 10 (digit value) = some value ∧
    isPrintable (digit value) = true ∧ isBlank (digit value) = false := by
  decide

theorem isDigit_digit {value : Nat} (small : value < 10) : isDigit 10 (digit value) = true := by
  rw [isDigit, (digit_spec value small).1]
  rfl

/-- The last digit of a number stands behind the digits of its tenth. -/
theorem decimal_eq (number : Nat) :
    decimal number =
      (if number < 10 then [] else decimal (number / 10)) ++ [digit (number % 10)] := by
  have text (value : Nat) : decimal value = (Nat.toDigits 10 value).map code := by
    show (Nat.repr value).toList.map code = _
    rw [Nat.toList_repr]
  rw [text, text]
  split
  · next small =>
    rw [Nat.toDigits_of_lt_base small, Nat.mod_eq_of_lt small]
    rfl
  · next large =>
    rw [Nat.toDigits_of_base_le (by omega) (by omega), List.map_append]
    rfl

theorem digitsValue_decimal (number : Nat) : digitsValue 10 (decimal number) = number := by
  induction number using Nat.strongRecOn with
  | ind number ih =>
    have last := (digit_spec (number % 10) (Nat.mod_lt _ (by omega))).1
    rw [decimal_eq, digitsValue_append, last]
    split
    · next small => simp [digitsValue, Nat.mod_eq_of_lt small]
    · next large =>
      rw [ih (number / 10) (by omega), Option.getD_some]
      omega

theorem exists_digit_of_mem_decimal {number : Nat} {byte : UInt8} (member : byte ∈ decimal number) :
    ∃ value < 10, byte = digit value := by
  induction number using Nat.strongRecOn with
  | ind number ih =>
    rw [decimal_eq, List.mem_append, List.mem_singleton] at member
    rcases member with front | last
    · split at front
      · cases front
      · exact ih (number / 10) (by omega) front
    · exact ⟨number % 10, Nat.mod_lt _ (by omega), last⟩

theorem decimal_ne_nil (number : Nat) : decimal number ≠ [] := by
  rw [decimal_eq]
  simp

theorem Command.isTail_nil : IsTail [] := ⟨rfl, .inl rfl⟩

namespace Arguments

/-- The text of an argument: a comma, its letter and its value. -/
def text (letter : Letter) (value : Nat) : Bytes :=
  code ',' :: letter.toByte :: decimal value

theorem isPrintable_toByte (letter : Letter) : isPrintable letter.toByte = true := by
  cases letter <;> rfl

/-- A number in decimal, without zeros in front. -/
def Numeral.ofNat (value : Nat) : Numeral where
  radix := .decimal
  digits := decimal value
  nonempty := decimal_ne_nil value
  valid := by
    rw [List.all_eq_true]
    intro byte member
    obtain ⟨lead, small, rfl⟩ := exists_digit_of_mem_decimal member
    exact isDigit_digit small

theorem Numeral.value_ofNat (value : Nat) : (Numeral.ofNat value).value = value :=
  (digitsValue_eq 10 (decimal value)).symm.trans (digitsValue_decimal value)

/-- The token of an argument that is written without blanks. -/
def Token.compact (letter : Letter) (value : Nat) : Token :=
  ⟨true, .empty, letter, .empty, some (.ofNat value), .empty⟩

theorem Token.text_compact (letter : Letter) (value : Nat) :
    (Token.compact letter value).text = Arguments.text letter value := by
  simp [compact, Token.text, body, Blanks.empty, Numeral.text, Numeral.ofNat, Radix.mark,
    Arguments.text]

theorem Token.value_compact (letter : Letter) (value : Nat) :
    (Token.compact letter value).value = value := by
  simp only [compact, Token.value, Option.elim_some, Numeral.value_ofNat]

theorem spells_text {letter : Letter} {value : Nat} {allowed : List Letter}
    (takes : letter ∈ allowed) (small : value ≤ largestValue) :
    Spells allowed [.compact letter value] (text letter value) := by
  have fits : (Token.compact letter value).value ≤ largestValue := by rwa [Token.value_compact]
  have spells : Spells allowed [.compact letter value] ((Token.compact letter value).text ++ []) :=
    .cons takes fits (fun _ _ _ first => nomatch first) .nil
  rwa [List.append_nil, Token.text_compact] at spells

/-- The text of an argument that may be left out. -/
def textOf (letter : Letter) : Option Nat → Bytes
  | Option.none => []
  | some value => text letter value

/-- Whether an argument that is not left out has a value that arguments can have. -/
def IsSmall (value? : Option Nat) : Prop := ∀ value, value? = some value → value ≤ largestValue

theorem isSmall_none : IsSmall Option.none := nofun

theorem isSmall_some {value : Nat} (small : value ≤ largestValue) : IsSmall (some value) := by
  intro other same
  cases same
  exact small

/-- An argument is read with its value, or as 0 if it is left out, and no other is given. -/
theorem read_textOf {letter : Letter} {value? : Option Nat} {allowed : List Letter}
    (takes : letter ∈ allowed) (small : IsSmall value?) :
    ∃ given, Arguments.read (textOf letter value?) allowed = .ok given ∧
      ∀ other, given.value other = if other = letter then value?.getD 0 else 0 := by
  cases value? with
  | none =>
    refine ⟨none, read_nil allowed, ?_⟩
    intro other
    rw [value_none, Option.getD_none, ite_self]
  | some value =>
    refine ⟨_, read_of_spells (spells_text takes (small value rfl)), ?_⟩
    intro other
    rw [List.foldl_cons, List.foldl_nil, give, value_set, Token.value_compact, value_none]
    rfl

theorem isTail_textOf (letter : Letter) (value? : Option Nat) :
    Command.IsTail (textOf letter value?) := by
  cases value? with
  | none => exact Command.isTail_nil
  | some value =>
    refine ⟨?_, .inr rfl⟩
    rw [List.all_eq_true]
    intro byte member
    rcases List.mem_cons.mp member with rfl | member
    · exact isPrintable_comma
    rcases List.mem_cons.mp member with rfl | member
    · exact isPrintable_toByte letter
    · obtain ⟨lead, small, rfl⟩ := exists_digit_of_mem_decimal member
      exact (digit_spec lead small).2.1

end Arguments

namespace Command

/-- The only blank that can be part of a name is the space. -/
theorem isBlank_of_isNameByte {byte : UInt8} (part : isNameByte byte = true)
    (lead : byte ≠ code ' ') : isBlank byte = false := by
  rw [Bool.eq_false_iff]
  intro blank
  rcases (isBlank_iff byte).mp blank with rfl | rfl
  · exact lead rfl
  · cases part

/-- A name begins behind the blanks, and ends at the comma or with the line. -/
theorem scanName_plain (lead : Arguments.Blanks) {name rest : Bytes} (plain : IsPlainName name)
    (ends : ∀ byte, rest.head? = some byte → byte = code ',') :
    scanName (lead.text ++ (name ++ rest)) = (name, rest) := by
  obtain ⟨bytes, first⟩ := plain
  rw [List.all_eq_true] at bytes
  have start : (lead.text ++ (name ++ rest)).dropWhile isBlank = name ++ rest := by
    refine (Arguments.skipBlanks_append lead (name ++ rest)).trans ?_
    refine Arguments.skipBlanks_of_head ?_
    intro byte begins
    cases name with
    | nil =>
      rw [ends byte begins]
      rfl
    | cons begin others =>
      cases begins
      refine isBlank_of_isNameByte (bytes _ List.mem_cons_self) ?_
      exact fun same => first (congrArg some same)
  have stop : rest.takeWhile isNameByte = [] ∧ rest.dropWhile isNameByte = rest := by
    cases rest with
    | nil => exact ⟨rfl, rfl⟩
    | cons comma later =>
      rw [ends comma rfl]
      exact ⟨rfl, rfl⟩
  rw [scanName, start, List.takeWhile_append_of_pos bytes, List.dropWhile_append_of_pos bytes,
    stop.1, stop.2, List.append_nil]

/-- A name that must be there is found behind any blanks; a single space is the last of them. -/
theorem scanRequiredName_required (lead : Arguments.Blanks) {name rest : Bytes}
    (required : IsRequiredName name)
    (ends : ∀ byte, rest.head? = some byte → byte = code ',') :
    scanRequiredName (lead.text ++ (name ++ rest)) = .ok (name, rest) := by
  rcases required with rfl | ⟨some, plain⟩
  · let blanks : Arguments.Blanks := ⟨lead.text ++ [code ' '], by
      rw [List.all_append, lead.blank]
      rfl⟩
    have same : lead.text ++ ([code ' '] ++ rest) = blanks.text ++ ([] ++ rest) :=
      (List.append_assoc _ _ _).symm
    have stop : rest.takeWhile isBlank = [] := by
      cases rest with
      | nil => rfl
      | cons comma later =>
        rw [ends comma rfl]
        rfl
    have skipped : (blanks.text ++ ([] ++ rest)).takeWhile isBlank = blanks.text := by
      rw [List.nil_append, List.takeWhile_append_of_pos (List.all_eq_true.mp blanks.blank), stop,
        List.append_nil]
    have found : scanName (blanks.text ++ ([] ++ rest)) = ([], rest) :=
      scanName_plain blanks ⟨rfl, nofun⟩ ends
    rw [scanRequiredName, same, found]
    show (if (List.takeWhile isBlank _).getLast? = _ then _ else _) = _
    rw [skipped, List.getLast?_append_of_ne_nil _ (List.cons_ne_nil _ _)]
    rfl
  · rw [scanRequiredName, scanName_plain lead plain ends]
    cases name with
    | nil => exact absurd rfl some
    | cons first others => rfl

theorem IsTail.head {tail : Bytes} (behind : IsTail tail) (byte : UInt8)
    (first : tail.head? = some byte) : byte = code ',' := by
  rcases behind.2 with rfl | comma
  · cases first
  · exact Option.some.inj (first.symm.trans comma)

theorem scanTail_of_isTail {tail : Bytes} (behind : IsTail tail) : scanTail tail = tail := by
  obtain ⟨printable, empty | comma⟩ := behind
  · rw [empty]
    rfl
  · cases tail with
    | nil => rfl
    | cons first later =>
      cases comma
      rw [List.all_cons, Bool.and_eq_true, List.all_eq_true] at printable
      have all : later.takeWhile isPrintable = later := List.takeWhile_eq_self_iff.mpr printable.2
      rw [scanTail, if_pos rfl, all]

/-- The line of a command with one name is read as that command, however many blanks stand before
the name. -/
theorem read_named (verb : Verb) (lead : Arguments.Blanks) {name tail : Bytes}
    (required : IsRequiredName name) (behind : IsTail tail) :
    read ((Keyword.named verb).text ++ (lead.text ++ (name ++ tail))) =
      .ok (.named verb name tail) := by
  rw [read_text_append, readOperands, scanRequiredName_required lead required behind.head]
  exact congrArg (fun tail => Except.ok (named verb name tail)) (scanTail_of_isTail behind)

theorem read_close (lead : Arguments.Blanks) {name tail : Bytes} (plain : IsPlainName name)
    (behind : IsTail tail) :
    read (Keyword.close.text ++ (lead.text ++ (name ++ tail))) = .ok (.close name tail) := by
  rw [read_text_append, readOperands, scanName_plain lead plain behind.head]
  exact congrArg (fun tail => Except.ok (close name tail)) (scanTail_of_isTail behind)

theorem read_rename (lead gap : Arguments.Blanks) {source target tail : Bytes}
    (required : IsRequiredName source) (requiredTarget : IsRequiredName target)
    (behind : IsTail tail) :
    read (Keyword.rename.text ++
        (lead.text ++ (source ++ code ',' :: (gap.text ++ (target ++ tail))))) =
      .ok (.rename source target tail) := by
  have first : scanRequiredName
      (lead.text ++ (source ++ code ',' :: (gap.text ++ (target ++ tail)))) =
        .ok (source, code ',' :: (gap.text ++ (target ++ tail))) :=
    scanRequiredName_required lead required fun byte same => (Option.some.inj same).symm
  rw [read_text_append, readOperands, first]
  show scanRequiredName (gap.text ++ (target ++ tail)) >>= _ = _
  rw [scanRequiredName_required gap requiredTarget behind.head]
  exact congrArg (fun tail => Except.ok (rename source target tail)) (scanTail_of_isTail behind)

/-- The line of a well-formed command is read as that command. -/
theorem read_render {command : Command} (well : command.WellFormed) :
    read command.render = .ok command := by
  have whole {tail : Bytes} (printable : tail.all isPrintable = true) :
      tail.takeWhile isPrintable = tail :=
    List.takeWhile_eq_self_iff.mpr (List.all_eq_true.mp printable)
  cases command with
  | empty => rfl
  | monitor tail =>
    rw [render, read_text_append]
    exact congrArg (fun tail => Except.ok (monitor tail)) (whole well)
  | noMonitor tail =>
    rw [render, read_text_append]
    exact congrArg (fun tail => Except.ok (noMonitor tail)) (whole well)
  | named verb name tail =>
    rw [render, List.append_assoc]
    exact read_named verb .space well.1 well.2
  | close name tail =>
    rw [render, List.append_assoc]
    exact read_close .space well.1 well.2
  | rename source target tail =>
    rw [render, List.append_assoc, List.append_assoc]
    exact read_rename .space .empty well.1 well.2.1 well.2.2

theorem all_isPrintable_keyword (keyword : Keyword) : keyword.text.all isPrintable = true := by
  have table : ∀ keyword ∈ Keyword.all, keyword.text.all isPrintable = true := by decide
  exact table keyword keyword.mem_all

theorem IsPlainName.all_isPrintable {name : Name} (plain : IsPlainName name) :
    name.all isPrintable = true := by
  rw [List.all_eq_true]
  intro byte member
  have part := List.all_eq_true.mp plain.1 byte member
  rw [isNameByte, Bool.and_eq_true] at part
  exact part.1

theorem IsRequiredName.all_isPrintable {name : Name} (required : IsRequiredName name) :
    name.all isPrintable = true := by
  rcases required with rfl | ⟨-, plain⟩
  · rfl
  · exact plain.all_isPrintable

/-- The line of a command holds nothing that would end it early. -/
theorem WellFormed.all_isPrintable {command : Command} (well : command.WellFormed) :
    command.render.all isPrintable = true := by
  cases command with
  | empty => rfl
  | monitor tail =>
    have printable : tail.all isPrintable = true := well
    rw [render, List.all_append, all_isPrintable_keyword, printable]
    rfl
  | noMonitor tail =>
    have printable : tail.all isPrintable = true := well
    rw [render, List.all_append, all_isPrintable_keyword, printable]
    rfl
  | named verb name tail =>
    simp only [render, List.all_append, List.all_cons, all_isPrintable_keyword,
      well.1.all_isPrintable, well.2.1]
    rfl
  | close name tail =>
    simp only [render, List.all_append, List.all_cons, all_isPrintable_keyword,
      well.1.all_isPrintable, well.2.1]
    rfl
  | rename source target tail =>
    simp only [render, List.all_append, List.all_cons, all_isPrintable_keyword,
      well.1.all_isPrintable, well.2.1.all_isPrintable, well.2.2.1]
    rfl

theorem WellFormed.carriageReturn_notMem {command : Command} (well : command.WellFormed) :
    carriageReturn ∉ command.render := by
  intro member
  have printable := List.all_eq_true.mp well.all_isPrintable carriageReturn member
  cases printable

section Orders

variable {name : Name} {value? : Option Nat}

theorem wellFormed_textOf (verb : Verb) (letter : Letter) (value? : Option Nat)
    (plain : IsPlainName name) (some : name ≠ []) :
    (named verb name (Arguments.textOf letter value?)).WellFormed :=
  ⟨.inr ⟨some, plain⟩, Arguments.isTail_textOf letter value?⟩

/-- What a command with one name and perhaps one argument orders. -/
theorem order?_render_named {verb : Verb} {letter : Letter} {allowed : List Letter}
    {next : Arguments → Except Fault Order} {order : Order} (plain : IsPlainName name)
    (some : name ≠ []) (takes : letter ∈ allowed) (small : Arguments.IsSmall value?)
    (reads : ∀ tail, orderOfNamed verb name tail = Arguments.read tail allowed >>= next)
    (orders : ∀ given, (∀ other, given.value other = if other = letter then value?.getD 0 else 0) →
      next given = .ok order) :
    order? (named verb name (Arguments.textOf letter value?)).render = .ok order := by
  obtain ⟨given, read, values⟩ := Arguments.read_textOf takes small
  rw [order?_of_read (read_render (wellFormed_textOf verb letter value? plain some))]
  show orderOfNamed verb name _ = _
  rw [reads, read]
  exact orders given values

theorem order?_openFile (plain : IsPlainName name) (some : name ≠ [])
    (small : Arguments.IsSmall value?) :
    order? (named .openFile name (Arguments.textOf .length value?)).render =
      .ok (.file (.openFile name (value?.getD 0))) := by
  refine order?_render_named plain some List.mem_cons_self small (fun _ => rfl) ?_
  intro given values
  show Except.ok (Order.file (.openFile name (given.value .length))) = _
  rw [values, if_pos rfl]

theorem order?_appendFile (plain : IsPlainName name) (some : name ≠ [])
    (small : Arguments.IsSmall value?) :
    order? (named .appendFile name (Arguments.textOf .length value?)).render =
      .ok (.file (.appendFile name (value?.getD 0))) := by
  refine order?_render_named plain some List.mem_cons_self small (fun _ => rfl) ?_
  intro given values
  show Except.ok (Order.file (.appendFile name (given.value .length))) = _
  rw [values, if_pos rfl]

theorem order?_read (plain : IsPlainName name) (some : name ≠ [])
    (small : Arguments.IsSmall value?) :
    order? (named .read name (Arguments.textOf .record value?)).render =
      .ok (.file (.read name (value?.getD 0) 0)) := by
  refine order?_render_named plain some List.mem_cons_self small (fun _ => rfl) ?_
  intro given values
  show Except.ok (Order.file (.read name (given.value .record) (given.value .byte))) = _
  rw [values, values, if_pos rfl, if_neg nofun]

theorem order?_write (plain : IsPlainName name) (some : name ≠ [])
    (small : Arguments.IsSmall value?) :
    order? (named .write name (Arguments.textOf .record value?)).render =
      .ok (.file (.write name (value?.getD 0) 0)) := by
  refine order?_render_named plain some List.mem_cons_self small (fun _ => rfl) ?_
  intro given values
  show Except.ok (Order.file (.write name (given.value .record) (given.value .byte))) = _
  rw [values, values, if_pos rfl, if_neg nofun]

theorem order?_close (plain : IsPlainName name) (some : name ≠ []) :
    order? (close name []).render = .ok (.file (.close name)) := by
  have well : (close name []).WellFormed := ⟨plain, isTail_nil⟩
  rw [order?_of_read (read_render well), orderOf, Arguments.read_nil]
  show Except.ok (Order.file (if name = [] then .closeAll else .close name)) = _
  rw [if_neg some]

end Orders

end Command

end DosText
