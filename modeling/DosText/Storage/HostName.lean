import DosText.Bytes

/-! Host file names for arbitrary names. Letters, digits and `-._~` stand for themselves, every
other byte is written as a percent sign and two hexadecimal digits. -/

namespace DosText.HostName

/-- The bytes that a host name shows as they are. -/
def isUnreserved (byte : UInt8) : Bool :=
  (code 'A' ≤ byte && byte ≤ code 'Z') || (code 'a' ≤ byte && byte ≤ code 'z') ||
    (code '0' ≤ byte && byte ≤ code '9') || byte == code '-' || byte == code '.' ||
    byte == code '_' || byte == code '~'

/-- The upper-case hexadecimal digit of a number below sixteen. -/
def hexDigit (value : UInt8) : UInt8 := if value < 10 then 0x30 + value else 0x37 + value

/-- A percent sign and the two hexadecimal digits of a byte. -/
def escape (byte : UInt8) : Bytes := [code '%', hexDigit (byte >>> 4), hexDigit (byte &&& 0x0f)]

/-- A byte as a host name shows it. -/
def encodeByte (byte : UInt8) : Bytes := if isUnreserved byte then [byte] else escape byte

/-- The host name of a name. The first period of `.` and `..` is escaped as well, since on the
host these two denote directories. -/
def encode (name : Name) : Bytes :=
  if name = [code '.'] ∨ name = [code '.', code '.'] then
    escape (code '.') ++ name.drop 1
  else name.flatMap encodeByte

/-- Replaces each percent sign and its two digits by the byte that they denote. -/
def decode : Bytes → Name
  | [] => []
  | first :: high :: low :: rest =>
    if first = code '%' then
      (digitsValue 16 [high, low]).toUInt8 :: decode rest
    else first :: decode (high :: low :: rest)
  | first :: rest => first :: decode rest

theorem decode_escape_append (byte : UInt8) (rest : Bytes) :
    decode (escape byte ++ rest) = byte :: decode rest := by
  have digits : ∀ value : Fin 256,
      let byte := UInt8.ofNat value
      (digitsValue 16 [hexDigit (byte >>> 4), hexDigit (byte &&& 0x0f)]).toUInt8 = byte := by
    decide +kernel
  have here := digits ⟨byte.toNat, byte.toNat_lt⟩
  simp only [UInt8.ofNat_toNat] at here
  simp [escape, decode, here]

theorem decode_cons_append (byte : UInt8) (rest : Bytes) (unescaped : byte ≠ code '%') :
    decode (byte :: rest) = byte :: decode rest := by
  match rest with
  | [] => rfl
  | [_] => rfl
  | _ :: _ :: _ => rw [decode, if_neg unescaped]

/-- What a byte is shown as reads back as that byte. -/
theorem decode_encodeByte_append (byte : UInt8) (rest : Bytes) :
    decode (encodeByte byte ++ rest) = byte :: decode rest := by
  unfold encodeByte
  split
  · next unreserved =>
    refine decode_cons_append byte rest fun percent => ?_
    subst percent
    exact absurd unreserved (by decide)
  · exact decode_escape_append byte rest

end DosText.HostName
