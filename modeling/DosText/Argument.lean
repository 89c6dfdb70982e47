import DosText.Fault

/-! The arguments that may follow a command, such as the record and byte in `,R3,B$10`. Each
is a letter with an optional decimal or hexadecimal value. -/

namespace DosText

/-- The letters that can introduce an argument. -/
inductive Letter where
  | volume
  | drive
  | slot
  | length
  | record
  | byte
  | address
  | commands
  | input
  | output
  deriving DecidableEq, Repr

namespace Letter

/-- Every letter, in the customary order `VDSLRBACIO`. -/
def all : List Letter :=
  [volume, drive, slot, length, record, byte, address, commands, input, output]

/-- The byte that stands for a letter on a command line. -/
def toByte : Letter → UInt8
  | volume => code 'V'
  | drive => code 'D'
  | slot => code 'S'
  | length => code 'L'
  | record => code 'R'
  | byte => code 'B'
  | address => code 'A'
  | commands => code 'C'
  | input => code 'I'
  | output => code 'O'

/-- The letter that a byte stands for, if it is one. -/
def ofByte? (text : UInt8) : Option Letter := all.find? (·.toByte == text)

theorem ofByte?_toByte (letter : Letter) : ofByte? letter.toByte = some letter := by
  cases letter <;> rfl

theorem mem_all (letter : Letter) : letter ∈ all := by cases letter <;> decide

theorem toByte_of_ofByte? {text : UInt8} {letter : Letter} (found : ofByte? text = some letter) :
    letter.toByte = text := by
  simpa using List.find?_some found

end Letter

/-- The arguments given to a command: the latest value of each letter that was given. -/
structure Arguments where
  given : Letter → Option Nat

namespace Arguments

/-- No argument given. -/
def none : Arguments := ⟨fun _ => Option.none⟩

instance : Inhabited Arguments := ⟨none⟩

/-- Whether a letter was given, with a value or without. -/
def isPresent (arguments : Arguments) (letter : Letter) : Bool := (arguments.given letter).isSome

/-- The value of a letter; one that was not given has the value 0. -/
def value (arguments : Arguments) (letter : Letter) : Nat := (arguments.given letter).getD 0

/-- Gives a letter a value, in place of an earlier one. -/
def set (arguments : Arguments) (letter : Letter) (value : Nat) : Arguments :=
  ⟨fun other => if other = letter then some value else arguments.given other⟩

/-- The letters that were given, with their values, in the customary order. -/
def present (arguments : Arguments) : List (Letter × Nat) :=
  Letter.all.filterMap fun letter => (arguments.given letter).map fun value => (letter, value)

@[simp] theorem given_none (letter : Letter) : none.given letter = Option.none := rfl

theorem given_set (arguments : Arguments) (letter other : Letter) (value : Nat) :
    (arguments.set letter value).given other =
      if other = letter then some value else arguments.given other := rfl

@[simp] theorem value_none (letter : Letter) : none.value letter = 0 := rfl

theorem value_set (arguments : Arguments) (letter other : Letter) (value : Nat) :
    (arguments.set letter value).value other =
      if other = letter then value else arguments.value other := by
  unfold Arguments.value
  rw [given_set]
  split <;> rfl

theorem isPresent_set (arguments : Arguments) (letter other : Letter) (value : Nat) :
    (arguments.set letter value).isPresent other =
      (other == letter || arguments.isPresent other) := by
  unfold isPresent
  rw [given_set]
  by_cases same : other = letter <;> simp [same]

/-- The largest value that an argument can have, which is the largest of 32 bits. -/
def largestValue : Nat := 0xffffffff

/-- Values are computed in words of 64 bits, so what a step computes is taken modulo this. -/
def wordLimit : Nat := 0x10000000000000000

/-- Reads the digits that a text begins with, behind digits of the given value. Every digit is
checked as it is added, so a number is refused as soon as it is too large. -/
def scanDigits (base value : Nat) : Bytes → Except Fault (Nat × Bytes)
  | [] => .ok (value, [])
  | byte :: rest =>
    match digitValue? base byte with
    | Option.none => .ok (value, byte :: rest)
    | some digit =>
      let next := (value * base + digit) % wordLimit
      if next ≤ largestValue then scanDigits base next rest else .error .invalidOption

/-- The decimal value, or the hexadecimal value after a dollar sign, that a text begins with,
and what follows it. A dollar sign without a digit begins no value, and a letter without a
value has the value 0. -/
def scanValue (text : Bytes) : Except Fault (Nat × Bytes) :=
  if text.head?.any (isDigit 10) then scanDigits 10 0 text
  else if text.head? = some (code '$') ∧ text.tail.head?.any (isDigit 16) then
    scanDigits 16 0 text.tail
  else .ok (0, text)

/-- Skips spaces and tabs. -/
def skipBlanks (text : Bytes) : Bytes := text.dropWhile isBlank

/-- Skips the comma that may stand before an argument. -/
def skipComma : Bytes → Bytes
  | [] => []
  | first :: rest => if first == code ',' then rest else first :: rest

theorem length_scanDigits {base value : Nat} {text : Bytes} {scanned : Nat × Bytes}
    (found : scanDigits base value text = .ok scanned) : scanned.2.length ≤ text.length := by
  fun_induction scanDigits base value text with
  | case1 value =>
    cases found
    exact Nat.le_refl _
  | case2 value byte rest =>
    cases found
    exact Nat.le_refl _
  | case3 value byte rest digit isDigit next small ih => exact Nat.le_succ_of_le (ih found)
  | case4 => cases found

theorem length_scanValue {text : Bytes} {scanned : Nat × Bytes}
    (found : scanValue text = .ok scanned) : scanned.2.length ≤ text.length := by
  unfold scanValue at found
  split at found
  · exact length_scanDigits found
  · split at found
    · exact Nat.le_trans (length_scanDigits found) (List.tail_sublist _).length_le
    · cases found
      exact Nat.le_refl _

theorem length_skipBlanks (text : Bytes) : (skipBlanks text).length ≤ text.length :=
  (List.dropWhile_sublist _).length_le

theorem length_skipComma (text : Bytes) : (skipComma text).length ≤ text.length := by
  unfold skipComma
  split
  · simp
  · split <;> simp

/-- Reads arguments one after the other, adding them to those already read. The text must end
with an argument, every letter must be allowed and every value must be one of 32 bits. -/
def readFrom (allowed : List Letter) (arguments : Arguments) (tail : Bytes) :
    Except Fault Arguments :=
  match tail with
  | [] => .ok arguments
  | first :: rest =>
    match _ : skipBlanks (skipComma (first :: rest)) with
    | [] => .error .invalidOption
    | byte :: after =>
      match Letter.ofByte? byte with
      | Option.none => .error .invalidOption
      | some letter =>
        if letter ∈ allowed then
          match _ : scanValue (skipBlanks after) with
          | .error fault => .error fault
          | .ok scanned =>
            readFrom allowed (arguments.set letter scanned.1) (skipBlanks scanned.2)
        else .error .invalidOption
  termination_by tail.length
  decreasing_by
    have skipped := length_skipBlanks (skipComma (first :: rest))
    have shape : skipBlanks (skipComma (first :: rest)) = byte :: after := by assumption
    rw [shape] at skipped
    have comma := length_skipComma (first :: rest)
    have value := length_scanValue (show scanValue (skipBlanks after) = .ok scanned by assumption)
    have before := length_skipBlanks after
    have behind := length_skipBlanks scanned.2
    simp only [List.length_cons] at *
    omega

/-- Reads the argument tail of a command that takes only the allowed letters. -/
def read (tail : Bytes) (allowed : List Letter) : Except Fault Arguments :=
  readFrom allowed none tail

/-- No tail, no arguments. -/
@[simp] theorem read_nil (allowed : List Letter) : read [] allowed = .ok none := by
  unfold read readFrom
  rfl

end Arguments

end DosText
