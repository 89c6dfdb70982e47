import DosText.Host.Path
import DosText.Storage.HostName
import Mathlib.Logic.Function.Defs

/-! Host names as steps of host paths. A name is recovered from its host name, so that no two names
share one; and the host name of a name that is not empty is one step, which leads neither to the
directory it starts in nor above. -/

namespace DosText

/-- Whether a text is one step of a host path, and leads to something in the directory that it
starts in. -/
structure Path.IsStep (step : Bytes) : Prop where
  nonempty : step ≠ []
  slashless : slash ∉ step
  nulless : 0 ∉ step
  below : step ≠ Path.here ∧ step ≠ Path.above

namespace HostName

theorem decode_flatMap_append (name : Name) (rest : Bytes) :
    decode (name.flatMap encodeByte ++ rest) = name ++ decode rest := by
  induction name with
  | nil => rfl
  | cons byte others ih =>
    rw [List.flatMap_cons, List.append_assoc, decode_encodeByte_append, ih, List.cons_append]

/-- What a name is shown as reads back as that name, also where its first period is escaped. -/
theorem decode_encode (name : Name) : decode (encode name) = name := by
  unfold encode
  split
  · next dots =>
    rcases dots with rfl | rfl
    · rw [decode_escape_append]
      rfl
    · rw [decode_escape_append]
      rfl
  · have read := decode_flatMap_append name []
    rwa [List.append_nil, show decode [] = [] from rfl, List.append_nil] at read

theorem encode_injective : Function.Injective encode :=
  Function.LeftInverse.injective decode_encode

/-- The digits that a byte is escaped with are shown as they are. -/
theorem isUnreserved_hexDigit (byte : UInt8) :
    isUnreserved (hexDigit (byte >>> 4)) = true ∧
      isUnreserved (hexDigit (byte &&& 0x0f)) = true := by
  have digits : ∀ value : Fin 256,
      isUnreserved (hexDigit (UInt8.ofNat value >>> 4)) = true ∧
        isUnreserved (hexDigit (UInt8.ofNat value &&& 0x0f)) = true := by
    decide +kernel
  have here := digits ⟨byte.toNat, byte.toNat_lt⟩
  simpa only [UInt8.ofNat_toNat] using here

/-- Whether a byte can stand in a host name. -/
def IsShown (byte : UInt8) : Prop := isUnreserved byte = true ∨ byte = code '%'

instance (byte : UInt8) : Decidable (IsShown byte) := inferInstanceAs (Decidable (_ ∨ _))

theorem isShown_of_mem_escape {byte shown : UInt8} (member : shown ∈ escape byte) :
    IsShown shown := by
  obtain ⟨high, low⟩ := isUnreserved_hexDigit byte
  unfold escape at member
  simp only [List.mem_cons, List.not_mem_nil, or_false] at member
  rcases member with rfl | rfl | rfl
  · exact .inr rfl
  · exact .inl high
  · exact .inl low

theorem isShown_of_mem_encodeByte {byte shown : UInt8} (member : shown ∈ encodeByte byte) :
    IsShown shown := by
  unfold encodeByte at member
  split at member
  · next unreserved =>
    rw [List.mem_singleton.mp member]
    exact .inl unreserved
  · exact isShown_of_mem_escape member

/-- Host names consist of unreserved bytes and percent signs. -/
theorem isShown_of_mem_encode {name : Name} {shown : UInt8} (member : shown ∈ encode name) :
    IsShown shown := by
  unfold encode at member
  split at member
  · next dots =>
    rcases List.mem_append.mp member with escaped | behind
    · exact isShown_of_mem_escape escaped
    · have period : shown = code '.' := by
        rcases dots with rfl | rfl
        · cases behind
        · exact List.mem_singleton.mp behind
      rw [period]
      exact .inl (by decide)
  · obtain ⟨byte, _, shows⟩ := List.mem_flatMap.mp member
    exact isShown_of_mem_encodeByte shows

theorem encode_ne_nil {name : Name} (nonempty : name ≠ []) : encode name ≠ [] := by
  intro empty
  have read := decode_encode name
  rw [empty] at read
  exact nonempty read.symm

/-- A host name is never one that the host takes for a directory: it would read back as itself,
and is escaped then. -/
theorem encode_ne_dots (name : Name) : encode name ≠ Path.here ∧ encode name ≠ Path.above := by
  refine ⟨?_, ?_⟩
  · intro same
    have read := decode_encode name
    rw [same] at read
    rw [← read] at same
    exact absurd same (by decide)
  · intro same
    have read := decode_encode name
    rw [same] at read
    rw [← read] at same
    exact absurd same (by decide)

theorem slash_not_mem_encode (name : Name) : slash ∉ encode name := by
  intro member
  exact absurd (isShown_of_mem_encode member) (by decide)

theorem zero_not_mem_encode (name : Name) : 0 ∉ encode name := by
  intro member
  exact absurd (isShown_of_mem_encode member) (by decide)

theorem isStep_encode {name : Name} (nonempty : name ≠ []) : Path.IsStep (encode name) where
  nonempty := encode_ne_nil nonempty
  slashless := slash_not_mem_encode name
  nulless := zero_not_mem_encode name
  below := encode_ne_dots name

/-- With an extension, so is the host name of every name, the empty one included. -/
theorem isStep_encode_txt (name : Name) : Path.IsStep (encode name ++ ascii ".txt") where
  nonempty := by simp [ascii]
  slashless := by
    intro member
    rcases List.mem_append.mp member with inside | behind
    · exact slash_not_mem_encode name inside
    · exact absurd behind (by decide)
  nulless := by
    intro member
    rcases List.mem_append.mp member with inside | behind
    · exact zero_not_mem_encode name inside
    · exact absurd behind (by decide)
  below := by
    have longer : 4 ≤ (encode name ++ ascii ".txt").length := by
      rw [List.length_append]
      exact Nat.le_add_left 4 _
    refine ⟨?_, ?_⟩
    · intro same
      rw [same] at longer
      exact absurd longer (by decide)
    · intro same
      rw [same] at longer
      exact absurd longer (by decide)

end HostName

end DosText
