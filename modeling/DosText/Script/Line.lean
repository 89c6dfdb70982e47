import DosText.Bytes

/-! The lines of a script. -/

namespace DosText.Script

/-- What a line of a script does. -/
inductive Line where
  /-- Prints a text and ends it. -/
  | print (text : Bytes)
  /-- Asks for a number of characters. -/
  | characters (count : Nat)
  /-- Asks for a line. -/
  | input
  deriving DecidableEq, Repr

/-- The blanks that may stand before a number. -/
def isNumberBlank (byte : UInt8) : Bool := byte == 0x20 || (0x09 ≤ byte && byte ≤ 0x0d)

/-- The whole number that a text begins with, or 0. Blanks and then a sign may stand before it; what
follows it is ignored. -/
def leadingNumber (text : Bytes) : Int :=
  let magnitude (digits : Bytes) : Int := digitsValue 10 (digits.takeWhile (isDigit 10))
  match text.dropWhile isNumberBlank with
  | [] => 0
  | first :: rest =>
    if first = code '-' then -magnitude rest
    else if first = code '+' then magnitude rest
    else magnitude (first :: rest)

/-- The number that a text begins with, as a program gets it that keeps it in a word of 32 bits. It
is read into a word of 64 bits, where a number out of bounds becomes the nearest one within; of that
word the lower half is kept. -/
def leadingWord (text : Bytes) : Int :=
  (max (-0x8000000000000000) (min (leadingNumber text) 0x7fffffffffffffff)).bmod 0x100000000

namespace Line

/-- A line that begins with `<` asks for characters if a positive number follows, else for a
line. Any other line is printed; `^D` at its beginning stands for Ctrl-D. -/
def read (text : Bytes) : Line :=
  match text with
  | [] => .print []
  | first :: rest =>
    if first = code '<' then
      if 0 < leadingWord rest then .characters (leadingWord rest).toNat else .input
    else if first = code '^' ∧ rest.head? = some (code 'D') then .print (controlD :: rest.tail)
    else .print (first :: rest)

/-- No line asks for more characters than a word counts. -/
theorem count_of_read {text : Bytes} {count : Nat} (asks : read text = .characters count) :
    0 < count ∧ count < 0x80000000 := by
  unfold read at asks
  split at asks
  · cases asks
  · next first rest =>
    have below : leadingWord rest < ((0x100000000 : Nat) + 1) / 2 := Int.bmod_lt (by decide)
    split at asks
    · split at asks
      · cases asks
        omega
      · cases asks
    · split at asks <;> cases asks

example : read (ascii "<4294967297") = .characters 1 := by decide

example : read (ascii "<99999999999999999999") = .input := by decide

end Line

end DosText.Script
