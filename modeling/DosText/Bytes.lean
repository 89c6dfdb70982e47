/-! Everything the machine reads, writes, names or stores is a run of bytes. This module
holds the byte classes of the command language and the decimal text of numbers. -/

namespace DosText

/-- A run of bytes: the content of a file, a line of text or a part of one. -/
abbrev Bytes := List UInt8

/-- A file name. Any run of bytes is a name. -/
abbrev Name := Bytes

/-- The bytes of a literal text, whose characters all lie below 256. -/
def ascii (text : String) : Bytes := text.toList.map fun character => character.toNat.toUInt8

/-- The byte of a literal character below 256. -/
def code (character : Char) : UInt8 := character.toNat.toUInt8

/-- Ends a line of text and a command. -/
def carriageReturn : UInt8 := 0x0d

def lineFeed : UInt8 := 0x0a

/-- Separates the steps of a host path. -/
def slash : UInt8 := code '/'

/-- Announces a command when it is printed outside one. -/
def controlD : UInt8 := 0x04

/-- Space and tab separate the parts of a command. -/
def isBlank (byte : UInt8) : Bool := byte == 0x20 || byte == 0x09

/-- The printable bytes of a command line; the first other byte ends what is read of it. -/
def isPrintable (byte : UInt8) : Bool := 0x20 ≤ byte && byte ≤ 0x7e

/-- A line of a text file ends at any of these. -/
def isLineEnd (byte : UInt8) : Bool := byte == carriageReturn || byte == lineFeed || byte == 0

/-- The value of a digit in bases up to sixteen; letters of either case count from ten. -/
def digitValue? (base : Nat) (byte : UInt8) : Option Nat :=
  let value? :=
    if code '0' ≤ byte && byte ≤ code '9' then some (byte.toNat - 0x30)
    else if code 'A' ≤ byte && byte ≤ code 'F' then some (byte.toNat - 0x37)
    else if code 'a' ≤ byte && byte ≤ code 'f' then some (byte.toNat - 0x57)
    else none
  value?.filter (· < base)

/-- Whether a byte is a digit in a base. -/
def isDigit (base : Nat) (byte : UInt8) : Bool := (digitValue? base byte).isSome

/-- The number that a run of digits denotes; bytes that are no digits count as zero. -/
def digitsValue (base : Nat) (digits : Bytes) : Nat :=
  digits.foldl (fun value digit => value * base + (digitValue? base digit).getD 0) 0

/-- The upper case of an ASCII letter; other bytes are their own upper case. -/
def upperCase (byte : UInt8) : UInt8 :=
  if code 'a' ≤ byte && byte ≤ code 'z' then byte - 0x20 else byte

/-- The decimal text of a number. -/
def decimal (number : Nat) : Bytes := ascii (toString number)

/-- The decimal text of an integer, with a minus sign if it is negative. -/
def signedDecimal (number : Int) : Bytes :=
  if number < 0 then code '-' :: decimal number.natAbs else decimal number.natAbs

/-- The part of a text before its first NUL, which is all that a message shows of it. -/
def beforeNul (text : Bytes) : Bytes := text.takeWhile (· != 0)

theorem isPrintable_comma : isPrintable (code ',') = true := by decide

theorem isBlank_iff (byte : UInt8) : isBlank byte = true ↔ byte = 0x20 ∨ byte = 0x09 := by
  simp [isBlank]

theorem beforeNul_of_free {text : Bytes} (free : 0 ∉ text) : beforeNul text = text := by
  induction text with
  | nil => rfl
  | cons byte rest ih =>
    rw [List.mem_cons, not_or] at free
    simpa [beforeNul, List.takeWhile_cons, Ne.symm free.1] using ih free.2

theorem digitsValue_append (base : Nat) (digits : Bytes) (digit : UInt8) :
    digitsValue base (digits ++ [digit]) =
      digitsValue base digits * base + (digitValue? base digit).getD 0 := by
  simp [digitsValue, List.foldl_append]

end DosText
