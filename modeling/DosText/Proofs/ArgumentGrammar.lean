import DosText.Argument
import Mathlib.Data.List.Basic
import Mathlib.Data.List.DropRight
import Mathlib.Data.List.Induction
import Mathlib.Data.List.TakeWhile
import Mathlib.Data.Nat.Digits.Defs

/-! The grammar of argument tails. A tail is a run of tokens, and each token is a letter with what
may stand around it. Commas and blanks may be left out, and hexadecimal digits may be letters of
arguments as well, so a value has as many digits as there are. The tails that are read are those of
the grammar, and each letter has the value of the last token with that letter. -/

namespace DosText

theorem digitValue?_lt {base digit : Nat} {byte : UInt8}
    (found : digitValue? base byte = some digit) : digit < base := by
  unfold digitValue? at found
  exact of_decide_eq_true (Option.filter_eq_some_iff.mp found).2

namespace Arguments

/-- The number that digits denote behind digits of the given value. -/
def extended (base value : Nat) (digits : Bytes) : Nat :=
  digits.foldl (fun value digit => value * base + (digitValue? base digit).getD 0) value

theorem le_extended {base : Nat} (some : 0 < base) (value : Nat) (digits : Bytes) :
    value ≤ extended base value digits := by
  induction digits generalizing value with
  | nil => exact Nat.le_refl value
  | cons first rest ih =>
    have further : value ≤ value * base + (digitValue? base first).getD 0 :=
      Nat.le_add_right_of_le (Nat.le_mul_of_pos_right value some)
    exact Nat.le_trans further (ih _)

/-- Digits that are added one after the other denote what they do as powers of the base. -/
theorem digitsValue_eq (base : Nat) (digits : Bytes) :
    digitsValue base digits =
      Nat.ofDigits base (digits.reverse.map fun digit => (digitValue? base digit).getD 0) := by
  induction digits using List.reverseRecOn with
  | nil => rfl
  | append_singleton front last ih =>
    rw [digitsValue_append, ih, List.reverse_append, List.reverse_singleton, List.singleton_append,
      List.map_cons, Nat.ofDigits_cons, Nat.mul_comm, Nat.add_comm]

/-- The check of each digit is one check of the whole number. No word is too narrow for what is
computed, since each number that goes on was checked. -/
theorem scanDigits_append {base : Nat} (some : 0 < base) (modest : base ≤ 16) {value : Nat}
    (small : value ≤ largestValue) {digits rest : Bytes}
    (all : ∀ byte ∈ digits, isDigit base byte = true)
    (ends : ∀ byte, rest.head? = Option.some byte → isDigit base byte = false) :
    scanDigits base value (digits ++ rest) =
      if extended base value digits ≤ largestValue then .ok (extended base value digits, rest)
      else .error .invalidOption := by
  induction digits generalizing value with
  | nil =>
    have stops : scanDigits base value rest = .ok (value, rest) := by
      cases rest with
      | nil => rfl
      | cons byte later =>
        have noDigit : digitValue? base byte = Option.none :=
          Option.isNone_iff_eq_none.mp (Option.isSome_eq_false_iff.mp (ends byte rfl))
        rw [scanDigits, noDigit]
    exact stops.trans (if_pos small).symm
  | cons first later ih =>
    obtain ⟨digit, isOne⟩ := Option.isSome_iff_exists.mp (all first List.mem_cons_self)
    have below : digit < base := digitValue?_lt isOne
    have fits : value * base + digit < wordLimit := by
      have product : value * base ≤ largestValue * 16 := Nat.mul_le_mul small modest
      unfold largestValue at product
      unfold wordLimit
      omega
    have onward : extended base value (first :: later) =
        extended base (value * base + digit) later := by
      show extended base (value * base + (digitValue? base first).getD 0) later = _
      rw [isOne, Option.getD_some]
    rw [List.cons_append, scanDigits, isOne, onward]
    simp only [Nat.mod_eq_of_lt fits]
    by_cases next : value * base + digit ≤ largestValue
    · rw [if_pos next]
      exact ih next fun byte member => all byte (List.mem_cons_of_mem first member)
    · have larger := le_extended some (value * base + digit) later
      rw [if_neg next, if_neg (by omega)]

/-- Any number of spaces and tabs, or none. -/
structure Blanks where
  text : Bytes
  blank : text.all isBlank = true

namespace Blanks

def empty : Blanks := ⟨[], rfl⟩

def space : Blanks := ⟨[code ' '], rfl⟩

end Blanks

/-- The notations for values. -/
inductive Radix where
  | decimal
  | hexadecimal
  deriving DecidableEq, Repr

namespace Radix

def base : Radix → Nat
  | decimal => 10
  | hexadecimal => 16

/-- What stands before the digits. -/
def mark : Radix → Bytes
  | decimal => []
  | hexadecimal => [code '$']

end Radix

/-- A value as it is written. Any number of zeros may come first. -/
structure Numeral where
  radix : Radix
  digits : Bytes
  nonempty : digits ≠ []
  valid : digits.all (isDigit radix.base) = true

namespace Numeral

def text (numeral : Numeral) : Bytes := numeral.radix.mark ++ numeral.digits

/-- The number that the digits denote, however large. -/
def value (numeral : Numeral) : Nat :=
  Nat.ofDigits numeral.radix.base
    (numeral.digits.reverse.map fun digit => (digitValue? numeral.radix.base digit).getD 0)

end Numeral

/-- An argument as it is written, with what may stand around it. -/
structure Token where
  comma : Bool
  lead : Blanks
  letter : Letter
  gap : Blanks
  numeral : Option Numeral
  trail : Blanks

namespace Token

/-- The value of a token; a letter without a value has the value 0. -/
def value (token : Token) : Nat := token.numeral.elim 0 Numeral.value

/-- What stands behind the letter. -/
def body (token : Token) : Bytes :=
  token.gap.text ++ (token.numeral.elim [] Numeral.text ++ token.trail.text)

def text (token : Token) : Bytes :=
  (if token.comma then [code ','] else []) ++
    (token.lead.text ++ token.letter.toByte :: token.body)

/-- Whether the value has all of the digits that stand there before the rest of a text. -/
def IsLongestBefore (token : Token) (rest : Bytes) : Prop :=
  ∀ numeral, token.numeral = some numeral →
    ∀ byte, (token.trail.text ++ rest).head? = some byte → isDigit numeral.radix.base byte = false

end Token

/-- The texts of the grammar, with their tokens. Each letter is an allowed one, and each value is
one that arguments can have. -/
inductive Spells (allowed : List Letter) : List Token → Bytes → Prop where
  | nil : Spells allowed [] []
  | cons {token : Token} {tokens : List Token} {rest : Bytes} (takes : token.letter ∈ allowed)
    (small : token.value ≤ largestValue) (longest : token.IsLongestBefore rest)
    (behind : Spells allowed tokens rest) : Spells allowed (token :: tokens) (token.text ++ rest)

theorem skipBlanks_append (blanks : Blanks) (rest : Bytes) :
    skipBlanks (blanks.text ++ rest) = skipBlanks rest :=
  List.dropWhile_append_of_pos (List.all_eq_true.mp blanks.blank)

theorem skipBlanks_of_head {text : Bytes}
    (begins : ∀ byte, text.head? = some byte → isBlank byte = false) : skipBlanks text = text := by
  cases text with
  | nil => rfl
  | cons first rest => simp [skipBlanks, begins first rfl]

theorem skipBlanks_skipBlanks (text : Bytes) : skipBlanks (skipBlanks text) = skipBlanks text :=
  List.dropWhile_idempotent isBlank text

theorem exists_blanks (text : Bytes) : ∃ blanks : Blanks, text = blanks.text ++ skipBlanks text :=
  ⟨⟨text.takeWhile isBlank, List.all_takeWhile⟩, List.takeWhile_append_dropWhile.symm⟩

/-- A letter is neither blank nor a comma, and it begins no value. -/
theorem toByte_spec (letter : Letter) : isBlank letter.toByte = false ∧
    letter.toByte ≠ code ',' ∧ isDigit 10 letter.toByte = false ∧ letter.toByte ≠ code '$' := by
  cases letter <;> decide

theorem Numeral.scanDigits_eq (numeral : Numeral) {rest : Bytes}
    (ends : ∀ byte, rest.head? = some byte → isDigit numeral.radix.base byte = false) :
    scanDigits numeral.radix.base 0 (numeral.digits ++ rest) =
      if numeral.value ≤ largestValue then .ok (numeral.value, rest)
      else .error .invalidOption := by
  have bounds : 0 < numeral.radix.base ∧ numeral.radix.base ≤ 16 := by
    cases numeral.radix <;> decide
  have denoted : extended numeral.radix.base 0 numeral.digits = numeral.value :=
    digitsValue_eq numeral.radix.base numeral.digits
  rw [scanDigits_append bounds.1 bounds.2 (Nat.zero_le _) (List.all_eq_true.mp numeral.valid) ends,
    denoted]

theorem Numeral.begins (numeral : Numeral) (rest : Bytes) :
    (numeral.digits ++ rest).head?.any (isDigit numeral.radix.base) = true := by
  obtain ⟨first, later, shape⟩ := List.exists_cons_of_ne_nil numeral.nonempty
  have digit := List.all_eq_true.mp numeral.valid first (shape ▸ List.mem_cons_self)
  rw [shape]
  exact digit

/-- A numeral is read to its end, and refused if its number is too large. -/
theorem scanValue_numeral (numeral : Numeral) {rest : Bytes}
    (ends : ∀ byte, rest.head? = some byte → isDigit numeral.radix.base byte = false) :
    scanValue (numeral.text ++ rest) =
      if numeral.value ≤ largestValue then .ok (numeral.value, rest)
      else .error .invalidOption := by
  have scanned := numeral.scanDigits_eq ends
  have begins := numeral.begins rest
  rw [← scanned]
  rcases radix : numeral.radix with _ | _
  · rw [radix] at begins
    rw [Numeral.text, radix]
    exact if_pos begins
  · rw [radix] at begins
    rw [Numeral.text, radix]
    show scanValue (code '$' :: (numeral.digits ++ rest)) = _
    have noDigit : ¬ isDigit 10 (code '$') = true := by decide
    exact (if_neg noDigit).trans (if_pos ⟨rfl, begins⟩)

theorem isBlank_of_isDigit {base : Nat} {byte : UInt8} (digit : isDigit base byte = true) :
    isBlank byte = false := by
  rw [Bool.eq_false_iff]
  intro blank
  rcases (isBlank_iff byte).mp blank with rfl | rfl
  · cases digit
  · cases digit

theorem skipBlanks_numeral (numeral : Numeral) (rest : Bytes) :
    skipBlanks (numeral.text ++ rest) = numeral.text ++ rest := by
  refine skipBlanks_of_head ?_
  intro byte first
  obtain ⟨digit, later, shape⟩ := List.exists_cons_of_ne_nil numeral.nonempty
  have one := List.all_eq_true.mp numeral.valid digit (shape ▸ List.mem_cons_self)
  rcases radix : numeral.radix with _ | _
  · rw [Numeral.text, radix, shape] at first
    cases first
    exact isBlank_of_isDigit one
  · rw [Numeral.text, radix] at first
    cases first
    rfl

theorem scanValue_of_head {text : Bytes} (valueless : ∀ byte, text.head? = some byte →
    isDigit 10 byte = false ∧ byte ≠ code '$') : scanValue text = .ok (0, text) := by
  cases text with
  | nil => rfl
  | cons first rest =>
    obtain ⟨noDigit, noMark⟩ := valueless first rfl
    have unmarked : ¬ ((first :: rest).head? = some (code '$') ∧
        (first :: rest).tail.head?.any (isDigit 16) = true) :=
      fun marked => noMark (Option.some.inj marked.1)
    exact (if_neg (Bool.eq_false_iff.mp noDigit)).trans (if_neg unmarked)

/-- Where there is a digit, there is a numeral with all of the digits. -/
theorem exists_numeral_of_digit (radix : Radix) {digits : Bytes}
    (begins : digits.head?.any (isDigit radix.base) = true) :
    ∃ (numeral : Numeral) (rest : Bytes), radix.mark ++ digits = numeral.text ++ rest ∧
      ∀ byte, rest.head? = some byte → isDigit numeral.radix.base byte = false := by
  have nonempty : digits.takeWhile (isDigit radix.base) ≠ [] := by
    cases digits with
    | nil => cases begins
    | cons first later =>
      have digit : isDigit radix.base first = true := begins
      rw [List.takeWhile_cons_of_pos digit]
      exact List.cons_ne_nil _ _
  refine ⟨⟨radix, digits.takeWhile (isDigit radix.base), nonempty, List.all_takeWhile⟩,
    digits.dropWhile (isDigit radix.base), ?_, ?_⟩
  · rw [Numeral.text, List.append_assoc, List.takeWhile_append_dropWhile]
  · intro byte first
    have stopped := List.head?_dropWhile_not (isDigit radix.base) digits
    rw [first] at stopped
    exact stopped

/-- The value that a text begins with is that of a numeral, or there is none. -/
theorem exists_numeral (text : Bytes) : ∃ (numeral? : Option Numeral) (rest : Bytes),
    text = numeral?.elim [] Numeral.text ++ rest ∧
    (∀ numeral, numeral? = some numeral →
      ∀ byte, rest.head? = some byte → isDigit numeral.radix.base byte = false) ∧
    scanValue text =
      if numeral?.elim 0 Numeral.value ≤ largestValue then
        .ok (numeral?.elim 0 Numeral.value, rest)
      else .error .invalidOption := by
  have given (numeral : Numeral) (rest : Bytes) (same : text = numeral.text ++ rest)
      (ends : ∀ byte, rest.head? = some byte → isDigit numeral.radix.base byte = false) :
      scanValue text =
        if numeral.value ≤ largestValue then .ok (numeral.value, rest)
        else .error .invalidOption := by
    rw [same]
    exact scanValue_numeral numeral ends
  by_cases decimal : text.head?.any (isDigit 10) = true
  · obtain ⟨numeral, rest, same, ends⟩ := exists_numeral_of_digit .decimal decimal
    exact ⟨some numeral, rest, same, fun _ chosen => Option.some.inj chosen ▸ ends,
      given numeral rest same ends⟩
  by_cases marked : text.head? = some (code '$') ∧ text.tail.head?.any (isDigit 16) = true
  · obtain ⟨numeral, rest, same, ends⟩ := exists_numeral_of_digit .hexadecimal marked.2
    have whole : text = numeral.text ++ rest :=
      (List.eq_cons_of_mem_head? marked.1).trans same
    exact ⟨some numeral, rest, whole, fun _ chosen => Option.some.inj chosen ▸ ends,
      given numeral rest whole ends⟩
  · refine ⟨Option.none, text, rfl, ?_, ?_⟩
    · intro numeral chosen
      cases chosen
    · rw [scanValue, if_neg decimal, if_neg marked]
      rfl

theorem skipComma_of_head {text : Bytes}
    (begins : ∀ byte, text.head? = some byte → byte ≠ code ',') : skipComma text = text := by
  cases text with
  | nil => rfl
  | cons first rest => simp [skipComma, begins first rfl]

theorem exists_comma (text : Bytes) : ∃ comma : Bool,
    text = (if comma then [code ','] else []) ++ skipComma text := by
  cases text with
  | nil => exact ⟨false, rfl⟩
  | cons first rest =>
    by_cases comma : first = code ','
    · subst comma
      exact ⟨true, rfl⟩
    · have kept : skipComma (first :: rest) = first :: rest :=
        skipComma_of_head fun byte same => Option.some.inj same ▸ comma
      exact ⟨false, kept.symm⟩

theorem skipBlanks_letter (letter : Letter) (rest : Bytes) :
    skipBlanks (letter.toByte :: rest) = letter.toByte :: rest :=
  skipBlanks_of_head fun _ first => Option.some.inj first ▸ (toByte_spec letter).1

theorem skipComma_letter (letter : Letter) (rest : Bytes) :
    skipComma (letter.toByte :: rest) = letter.toByte :: rest :=
  skipComma_of_head fun _ first => Option.some.inj first ▸ (toByte_spec letter).2.1

/-- Reading goes on behind a letter with its value. -/
theorem readFrom_letter {allowed : List Letter} (arguments : Arguments) {letter : Letter}
    {tail after : Bytes} (begins : skipBlanks (skipComma tail) = letter.toByte :: after) :
    readFrom allowed arguments tail =
      if letter ∈ allowed then
        match scanValue (skipBlanks after) with
        | .error fault => .error fault
        | .ok scanned => readFrom allowed (arguments.set letter scanned.1) (skipBlanks scanned.2)
      else .error .invalidOption := by
  cases tail with
  | nil => cases begins
  | cons first rest =>
    rw [readFrom]
    split
    · next nothing =>
      rw [nothing] at begins
      cases begins
    · next byte later shape =>
      rw [shape] at begins
      cases begins
      rw [Letter.ofByte?_toByte]
      refine if_congr Iff.rfl ?_ rfl
      split
      · next refused => rw [refused]
      · next found => rw [found]

namespace Token

variable (token : Token) (rest : Bytes)

theorem skipBlanks_led : skipBlanks (token.lead.text ++ token.letter.toByte :: token.body ++ rest) =
    token.letter.toByte :: (token.body ++ rest) := by
  rw [List.append_assoc, skipBlanks_append]
  exact skipBlanks_letter token.letter (token.body ++ rest)

theorem skipComma_led : skipComma (token.lead.text ++ token.letter.toByte :: token.body ++ rest) =
    token.lead.text ++ token.letter.toByte :: token.body ++ rest := by
  refine skipComma_of_head ?_
  intro byte first same
  subst same
  rcases lead : token.lead with ⟨_ | ⟨blank, others⟩, blanks⟩
  · rw [lead] at first
    exact (toByte_spec token.letter).2.1 (Option.some.inj first)
  · rw [lead] at first
    cases first
    exact absurd (List.all_eq_true.mp blanks _ List.mem_cons_self) (by decide)

/-- A token begins with its letter, apart from a comma and blanks. -/
theorem begins : skipBlanks (skipComma (token.text ++ rest)) =
    token.letter.toByte :: (token.body ++ rest) := by
  rcases comma : token.comma with _ | _
  · rw [text, comma]
    exact (congrArg skipBlanks (token.skipComma_led rest)).trans (token.skipBlanks_led rest)
  · rw [text, comma]
    exact token.skipBlanks_led rest

theorem skipBlanks_text : skipBlanks (token.text ++ rest) =
    if token.comma then token.text ++ rest else token.letter.toByte :: (token.body ++ rest) := by
  rcases comma : token.comma with _ | _
  · rw [text, comma]
    exact token.skipBlanks_led rest
  · rw [text, comma]
    rfl

/-- The blanks before a token belong to it, or to the token before. -/
theorem begins_skipBlanks : skipBlanks (skipComma (skipBlanks (token.text ++ rest))) =
    token.letter.toByte :: (token.body ++ rest) := by
  rw [skipBlanks_text]
  split
  · exact token.begins rest
  · rw [skipComma_letter, skipBlanks_letter]

/-- The value of a token is read to its end, if the text behind does not begin a value. -/
theorem exists_scanValue_body (longest : token.IsLongestBefore rest)
    (valueless : ∀ byte, (skipBlanks rest).head? = some byte →
      isDigit 10 byte = false ∧ byte ≠ code '$') (small : token.value ≤ largestValue) :
    ∃ behind, scanValue (skipBlanks (token.body ++ rest)) = .ok (token.value, behind) ∧
      skipBlanks behind = skipBlanks rest := by
  have gapless : skipBlanks (token.body ++ rest) =
      skipBlanks (token.numeral.elim [] Numeral.text ++ (token.trail.text ++ rest)) := by
    rw [body, List.append_assoc, skipBlanks_append, List.append_assoc]
  rw [gapless, value] at *
  rcases chosen : token.numeral with _ | numeral
  · have nothing : skipBlanks ([] ++ (token.trail.text ++ rest)) = skipBlanks rest :=
      skipBlanks_append token.trail rest
    exact ⟨skipBlanks rest, (congrArg scanValue nothing).trans (scanValue_of_head valueless),
      skipBlanks_skipBlanks rest⟩
  · rw [chosen] at small
    have scanned := (scanValue_numeral numeral (longest numeral chosen)).trans (if_pos small)
    exact ⟨token.trail.text ++ rest,
      (congrArg scanValue (skipBlanks_numeral numeral _)).trans scanned,
      skipBlanks_append token.trail rest⟩

end Token

/-- What the texts of the grammar begin with begins no value. -/
theorem Spells.valueless {allowed : List Letter} {tokens : List Token} {tail : Bytes}
    (spells : Spells allowed tokens tail) (byte : UInt8)
    (first : (skipBlanks tail).head? = some byte) : isDigit 10 byte = false ∧ byte ≠ code '$' := by
  cases spells with
  | nil => cases first
  | @cons token tokens rest takes small longest behind =>
    rw [Token.skipBlanks_text] at first
    split at first
    · next comma =>
      rw [Token.text, if_pos comma] at first
      cases first
      decide
    · cases first
      exact (toByte_spec token.letter).2.2

/-- What a token adds to the arguments that were given before it. -/
def give (arguments : Arguments) (token : Token) : Arguments :=
  arguments.set token.letter token.value

/-- Every text of the grammar is read, token by token. -/
theorem Spells.readFrom_eq {allowed : List Letter} {tokens : List Token} {tail : Bytes}
    (spells : Spells allowed tokens tail) (arguments : Arguments) :
    readFrom allowed arguments tail = .ok (tokens.foldl give arguments) ∧
      readFrom allowed arguments (skipBlanks tail) = .ok (tokens.foldl give arguments) := by
  -- The blanks behind a token are skipped with it, and those before the next one with them. So
  -- what is left to read is the text of the other tokens, with or without its first blanks.
  induction spells generalizing arguments with
  | nil =>
    have ends : readFrom allowed arguments [] = .ok arguments := by rw [readFrom]
    exact ⟨ends, ends⟩
  | @cons token tokens rest takes small longest behind ih =>
    obtain ⟨left, scanned, same⟩ :=
      token.exists_scanValue_body rest longest behind.valueless small
    have step {text : Bytes}
        (begins : skipBlanks (skipComma text) = token.letter.toByte :: (token.body ++ rest)) :
        readFrom allowed arguments text = .ok ((token :: tokens).foldl give arguments) := by
      rw [readFrom_letter arguments begins, if_pos takes, scanned]
      show readFrom allowed (arguments.give token) (skipBlanks left) = _
      rw [same]
      exact (ih (arguments.give token)).2
    exact ⟨step (token.begins rest), step (token.begins_skipBlanks rest)⟩

/-- What was read with one letter is a token, with the blanks behind it. -/
theorem exists_token {letter : Letter} {tail after : Bytes} {scanned : Nat × Bytes}
    (begins : skipBlanks (skipComma tail) = letter.toByte :: after)
    (found : scanValue (skipBlanks after) = .ok scanned) :
    ∃ token : Token, token.letter = letter ∧ token.value = scanned.1 ∧
      token.value ≤ largestValue ∧ token.IsLongestBefore (skipBlanks scanned.2) ∧
      tail = token.text ++ skipBlanks scanned.2 := by
  obtain ⟨comma, tailShape⟩ := exists_comma tail
  obtain ⟨lead, leadShape⟩ := exists_blanks (skipComma tail)
  obtain ⟨gap, gapShape⟩ := exists_blanks after
  obtain ⟨numeral?, behind, valueShape, longest, value⟩ := exists_numeral (skipBlanks after)
  rw [value] at found
  by_cases small : numeral?.elim 0 Numeral.value ≤ largestValue
  · rw [if_pos small] at found
    cases found
    obtain ⟨trail, trailShape⟩ := exists_blanks behind
    refine ⟨⟨comma, lead, letter, gap, numeral?, trail⟩, rfl, rfl, small, ?_, ?_⟩
    · intro numeral chosen
      show ∀ byte, (trail.text ++ skipBlanks behind).head? = some byte → _
      rw [← trailShape]
      exact longest numeral chosen
    · have afterShape : after = gap.text ++ (numeral?.elim [] Numeral.text ++
          (trail.text ++ skipBlanks behind)) := by
        rw [← trailShape, ← valueShape, ← gapShape]
      calc
        tail = (if comma then [code ','] else []) ++ (lead.text ++ letter.toByte :: after) := by
          rw [← begins, ← leadShape, ← tailShape]
        _ = (if comma then [code ','] else []) ++ (lead.text ++ letter.toByte ::
              (gap.text ++ (numeral?.elim [] Numeral.text ++ trail.text))) ++
              skipBlanks behind := by
          rw [afterShape]
          simp only [List.append_assoc, List.cons_append]
  · rw [if_neg small] at found
    cases found

/-- What is read is a text of the grammar. -/
theorem exists_spells_of_readFrom {allowed : List Letter} {arguments given : Arguments}
    {tail : Bytes} (read : readFrom allowed arguments tail = .ok given) :
    ∃ tokens, Spells allowed tokens tail := by
  fun_induction readFrom allowed arguments tail with
  | case1 => exact ⟨[], .nil⟩
  | case2 => cases read
  | case3 => cases read
  | case4 => cases read
  | case5 arguments first rest byte after shape letter named takes scanned found ih =>
    obtain ⟨tokens, behind⟩ := ih read
    rw [← Letter.toByte_of_ofByte? named] at shape
    obtain ⟨token, rfl, -, small, longest, whole⟩ := exists_token shape found
    rw [whole]
    exact ⟨token :: tokens, .cons takes small longest behind⟩
  | case6 => cases read

/-- The only fault of reading is that of an invalid option. -/
theorem invalidOption_of_readFrom {allowed : List Letter} {arguments : Arguments} {tail : Bytes}
    {fault : Fault} (refused : readFrom allowed arguments tail = .error fault) :
    fault = .invalidOption := by
  fun_induction readFrom allowed arguments tail with
  | case1 => cases refused
  | case2 =>
    cases refused
    rfl
  | case3 =>
    cases refused
    rfl
  | case4 arguments first rest byte after shape letter named takes reason found =>
    cases refused
    obtain ⟨numeral?, behind, -, -, value⟩ := exists_numeral (skipBlanks after)
    rw [found] at value
    split at value
    · cases value
    · cases value
      rfl
  | case5 arguments first rest byte after shape letter named takes scanned found ih =>
    exact ih refused
  | case6 =>
    cases refused
    rfl

theorem isPresent_foldl_give (arguments : Arguments) (tokens : List Token) (letter : Letter) :
    (tokens.foldl give arguments).isPresent letter = true ↔
      arguments.isPresent letter = true ∨ ∃ token ∈ tokens, token.letter = letter := by
  induction tokens generalizing arguments with
  | nil => simp
  | cons token tokens ih =>
    rw [List.foldl_cons, ih, give, isPresent_set]
    simp only [Bool.or_eq_true, beq_iff_eq, List.mem_cons, exists_eq_or_imp]
    rw [or_assoc, or_left_comm, @eq_comm _ letter]

theorem value_foldl_give_of_absent (arguments : Arguments) {tokens : List Token} {letter : Letter}
    (absent : ∀ token ∈ tokens, token.letter ≠ letter) :
    (tokens.foldl give arguments).value letter = arguments.value letter := by
  induction tokens generalizing arguments with
  | nil => rfl
  | cons token tokens ih =>
    have other : letter ≠ token.letter := (absent token List.mem_cons_self).symm
    rw [List.foldl_cons, ih _ fun token member => absent token (List.mem_cons_of_mem _ member),
      give, value_set, if_neg other]

/-- Later tokens with the same letter count, and earlier ones do not. -/
theorem value_foldl_give_of_last (arguments : Arguments) (before : List Token) {token : Token}
    {behind : List Token} (last : ∀ later ∈ behind, later.letter ≠ token.letter) :
    ((before ++ token :: behind).foldl give arguments).value token.letter = token.value := by
  rw [List.foldl_append, List.foldl_cons, value_foldl_give_of_absent _ last, give, value_set,
    if_pos rfl]

theorem read_of_spells {allowed : List Letter} {tokens : List Token} {tail : Bytes}
    (spells : Spells allowed tokens tail) :
    Arguments.read tail allowed = .ok (tokens.foldl give none) :=
  (spells.readFrom_eq none).1

/-- The tails that are read are exactly those of the grammar, and any other tail is an invalid
option. However the tail is taken apart, the letters of the tokens are the ones that are given,
each with the number of its last token. -/
theorem read_eq_ok_iff_spells (allowed : List Letter) (tail : Bytes) :
    ((∃ given, Arguments.read tail allowed = .ok given) ↔ ∃ tokens, Spells allowed tokens tail) ∧
    (Arguments.read tail allowed = .error .invalidOption ↔
      ¬ ∃ tokens, Spells allowed tokens tail) ∧
    ∀ given tokens, Arguments.read tail allowed = .ok given → Spells allowed tokens tail →
      (∀ letter, given.isPresent letter = true ↔ ∃ token ∈ tokens, token.letter = letter) ∧
      (∀ letter, (∀ token ∈ tokens, token.letter ≠ letter) → given.value letter = 0) ∧
      ∀ before token behind, tokens = before ++ token :: behind →
        (∀ later ∈ behind, later.letter ≠ token.letter) →
          given.value token.letter = token.value := by
  refine ⟨⟨?_, ?_⟩, ⟨?_, ?_⟩, ?_⟩
  · rintro ⟨given, read⟩
    exact exists_spells_of_readFrom read
  · rintro ⟨tokens, spells⟩
    exact ⟨tokens.foldl give none, read_of_spells spells⟩
  · rintro refused ⟨tokens, spells⟩
    rw [read_of_spells spells] at refused
    cases refused
  · intro outside
    cases read : Arguments.read tail allowed with
    | error fault => exact congrArg Except.error (invalidOption_of_readFrom read)
    | ok given => exact absurd (exists_spells_of_readFrom read) outside
  · intro given tokens read spells
    rw [read_of_spells spells] at read
    cases read
    refine ⟨?_, ?_, ?_⟩
    · intro letter
      rw [isPresent_foldl_give]
      exact or_iff_right nofun
    · intro letter absent
      exact value_foldl_give_of_absent none absent
    · rintro before token behind rfl last
      exact value_foldl_give_of_last none before last

/-- In `,R$0Bb, B 007R` all of `0Bb` is one number, though `B` is a letter as well. `R` is given
once more, without a value. -/
theorem read_of_repeated_letter :
    ∃ given, Arguments.read (ascii ",R$0Bb, B 007R") [.record, .byte] = .ok given ∧
      given.value .byte = 7 ∧ given.value .record = 0 := by
  obtain ⟨reads, -, values⟩ := read_eq_ok_iff_spells [.record, .byte] (ascii ",R$0Bb, B 007R")
  have spells : Spells [.record, .byte]
      [⟨true, .empty, .record, .empty,
          some ⟨.hexadecimal, ascii "0Bb", by decide, by decide⟩, .empty⟩,
        ⟨true, .space, .byte, .space, some ⟨.decimal, ascii "007", by decide, by decide⟩, .empty⟩,
        ⟨false, .empty, .record, .empty, Option.none, .empty⟩] (ascii ",R$0Bb, B 007R") := by
    refine .cons (by decide) (by decide) ?_ (.cons (by decide) (by decide) ?_
      (.cons (by decide) (by decide) ?_ .nil))
    · rintro numeral ⟨⟩ byte ⟨⟩
      decide
    · rintro numeral ⟨⟩ byte ⟨⟩
      decide
    · rintro numeral ⟨⟩
  obtain ⟨given, read⟩ := reads.mpr ⟨_, spells⟩
  obtain ⟨-, -, last⟩ := values given _ read spells
  have byte := last [_] _ [_] rfl (by decide)
  have record := last [_, _] _ [] rfl (by decide)
  exact ⟨given, read, byte, record⟩

end Arguments

end DosText
