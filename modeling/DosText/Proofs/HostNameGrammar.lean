import DosText.Proofs.HostNames

/-! The texts that host names are. Each is made of plain bytes and of escapes of three bytes, and
such a text spells exactly one name, which reading it gives back. -/

namespace DosText

namespace HostName

/-- The bytes that may stand for themselves: letters, digits and four marks. -/
def plainBytes : Bytes :=
  ascii "ABCDEFGHIJKLMNOPQRSTUVWXYZabcdefghijklmnopqrstuvwxyz0123456789-._~"

/-- The digits of escapes, in the order of their values. -/
def escapeDigits : Bytes := ascii "0123456789ABCDEF"

/-- How a text spells a name. A plain byte stands for itself; a percent sign and two digits stand
for the byte whose value the digits denote. -/
inductive Spells : Bytes → Name → Prop where
  | nil : Spells [] []
  | plain {byte : UInt8} {text : Bytes} {name : Name} (listed : byte ∈ plainBytes)
      (behind : Spells text name) : Spells (byte :: text) (byte :: name)
  | escaped {byte first second : UInt8} {high low : Nat} {text : Bytes} {name : Name}
      (firstDigit : escapeDigits[high]? = some first)
      (secondDigit : escapeDigits[low]? = some second)
      (value : byte.toNat = 16 * high + low) (behind : Spells text name) :
      Spells (code '%' :: first :: second :: text) (byte :: name)

theorem listed_of_isUnreserved {byte : UInt8} (unreserved : isUnreserved byte = true) :
    byte ∈ plainBytes := by
  have bytes : ∀ value : Fin 256,
      isUnreserved (UInt8.ofNat value) = true → UInt8.ofNat value ∈ plainBytes := by
    decide +kernel
  have here := bytes ⟨byte.toNat, byte.toNat_lt⟩
  simp only [UInt8.ofNat_toNat] at here
  exact here unreserved

theorem length_escapeDigits : escapeDigits.length = 16 := rfl

/-- The digit at a place of the list is the one that is written for that value, and reads as it. -/
theorem escapeDigits_spec {value : Nat} (small : value < 16) :
    escapeDigits[value]? = some (hexDigit value.toUInt8) ∧
      digitValue? 16 (hexDigit value.toUInt8) = some value := by
  have digits : ∀ value < 16, escapeDigits[value]? = some (hexDigit value.toUInt8) ∧
      digitValue? 16 (hexDigit value.toUInt8) = some value := by
    decide
  exact digits value small

theorem digitValue?_of_listed {value : Nat} {digit : UInt8}
    (listed : escapeDigits[value]? = some digit) : digitValue? 16 digit = some value := by
  obtain ⟨small, -⟩ := List.getElem?_eq_some_iff.mp listed
  rw [length_escapeDigits] at small
  obtain ⟨written, read⟩ := escapeDigits_spec small
  rw [written, Option.some.injEq] at listed
  rwa [← listed]

/-- A text that spells a name reads as that name. -/
theorem Spells.decode_eq {text : Bytes} {name : Name} (spells : Spells text name) :
    decode text = name := by
  induction spells with
  | nil => rfl
  | plain listed behind ih =>
    rw [decode_cons_append _ _ ?_, ih]
    rintro rfl
    exact absurd listed (by decide)
  | @escaped byte first second high low text name firstDigit secondDigit value behind ih =>
    have bound := byte.toNat_lt
    have read : digitsValue 16 [first, second] = byte.toNat := by
      simp [digitsValue, digitValue?_of_listed firstDigit, digitValue?_of_listed secondDigit]
      omega
    rw [decode, if_pos rfl, ih, read, Nat.toUInt8_eq, UInt8.ofNat_toNat]

theorem Spells.append {first second : Bytes} {before behind : Name}
    (spells : Spells first before) (others : Spells second behind) :
    Spells (first ++ second) (before ++ behind) := by
  induction spells with
  | nil => exact others
  | plain listed _ ih => exact .plain listed ih
  | escaped firstDigit secondDigit value _ ih => exact .escaped firstDigit secondDigit value ih

theorem spells_escape (byte : UInt8) : Spells (escape byte) [byte] := by
  have high : (byte >>> 4).toNat = byte.toNat / 16 := by
    simp [UInt8.toNat_shiftRight, Nat.shiftRight_eq_div_pow]
  have low : (byte &&& 0x0f).toNat = byte.toNat % 16 := by
    simp [UInt8.toNat_and, Nat.and_two_pow_sub_one_eq_mod _ 4]
  have bound := byte.toNat_lt
  obtain ⟨first, -⟩ := escapeDigits_spec (show byte.toNat / 16 < 16 by omega)
  obtain ⟨second, -⟩ := escapeDigits_spec (show byte.toNat % 16 < 16 by omega)
  rw [← high, Nat.toUInt8_eq, UInt8.ofNat_toNat] at first
  rw [← low, Nat.toUInt8_eq, UInt8.ofNat_toNat] at second
  exact .escaped first second (by omega) .nil

theorem spells_encodeByte (byte : UInt8) : Spells (encodeByte byte) [byte] := by
  unfold encodeByte
  split
  · next unreserved => exact .plain (listed_of_isUnreserved unreserved) .nil
  · exact spells_escape byte

theorem spells_flatMap (name : Name) : Spells (name.flatMap encodeByte) name := by
  induction name with
  | nil => exact .nil
  | cons byte rest ih => exact (spells_encodeByte byte).append ih

/-- A host name spells its name, also where the first period is escaped. -/
theorem spells_encode (name : Name) : Spells (encode name) name := by
  have period : Spells [code '.'] [code '.'] := .plain (listed_of_isUnreserved rfl) .nil
  unfold encode
  split
  · next dots =>
    rcases dots with rfl | rfl
    · exact (spells_escape _).append .nil
    · exact (spells_escape _).append period
  · exact spells_flatMap name

example : encode (ascii "..") = ascii "%2E." := by decide

/-- Host names can be read in one way only. Reading replaces each escape by the byte that it
denotes; it gives every name back from its host name, so that no two names share one. Host names
consist of plain bytes and complete escapes, and none of them is a period or two. -/
theorem encode_uniquely_read :
    (∀ text name, Spells text name → decode text = name) ∧
      (∀ name, decode (encode name) = name) ∧ Function.Injective encode ∧
      ∀ name, Spells (encode name) name ∧ encode name ≠ [code '.'] ∧
        encode name ≠ [code '.', code '.'] := by
  refine ⟨fun text name spells => spells.decode_eq, decode_encode, encode_injective, ?_⟩
  intro name
  obtain ⟨here, above⟩ := encode_ne_dots name
  exact ⟨spells_encode name, here, above⟩

end HostName

end DosText
