import DosText.Buffer

/-! Text that is written into a file in one go. It takes the place of as many bytes at the pointer,
whatever they were, and everything before and behind it stays. Where the pointer lies behind the
end of the data, NULs fill the gap. -/

namespace DosText

/-- The bytes of a file once a text stands at an offset. -/
def splice (bytes : Bytes) (offset : Nat) (text : Bytes) : Bytes :=
  bytes.take offset ++ List.replicate (offset - bytes.length) 0 ++ text ++
    bytes.drop (offset + text.length)

section Splice

variable (bytes : Bytes) (offset : Nat) (text : Bytes)

theorem length_splice :
    (splice bytes offset text).length = max bytes.length (offset + text.length) := by
  simp only [splice, List.length_append, List.length_take, List.length_replicate,
    List.length_drop]
  omega

private theorem length_before :
    (bytes.take offset ++ List.replicate (offset - bytes.length) 0).length = offset := by
  simp only [List.length_append, List.length_take, List.length_replicate]
  omega

variable {bytes offset text}

/-- Before the offset nothing changes, apart from NULs behind the end of the data. -/
theorem getElem?_splice_before {index : Nat} (before : index < offset) :
    (splice bytes offset text)[index]? = some (bytes[index]?.getD 0) := by
  have length := length_before bytes offset
  rw [splice, List.append_assoc, List.getElem?_append_left (by omega)]
  rcases Nat.lt_or_ge index bytes.length with within | beyond
  · rw [List.getElem?_append_left (by rw [List.length_take]; omega),
      List.getElem?_take_of_lt before, List.getElem?_eq_getElem within]
    rfl
  · have gap : index - (bytes.take offset).length < offset - bytes.length := by
      rw [List.length_take]
      omega
    rw [List.getElem?_append_right (by rw [List.length_take]; omega),
      List.getElem?_replicate_of_lt gap, List.getElem?_eq_none beyond]
    rfl

/-- At the offset stands the text. -/
theorem getElem?_splice_text {index : Nat} (begun : offset ≤ index)
    (within : index < offset + text.length) :
    (splice bytes offset text)[index]? = text[index - offset]? := by
  have length := length_before bytes offset
  rw [splice, List.append_assoc, List.getElem?_append_right (by omega), length,
    List.getElem?_append_left (by omega)]

/-- Behind the text nothing changes. -/
theorem getElem?_splice_behind {index : Nat} (behind : offset + text.length ≤ index) :
    (splice bytes offset text)[index]? = bytes[index]? := by
  have length := length_before bytes offset
  rw [splice, List.append_assoc, List.getElem?_append_right (by omega), length,
    List.getElem?_append_right (by omega), List.getElem?_drop]
  congr 1
  omega

/-- Bytes that are there stay as they are outside the text. -/
theorem getElem?_splice_of_some {index : Nat} {byte : UInt8}
    (outside : index < offset ∨ offset + text.length ≤ index) (there : bytes[index]? = some byte) :
    (splice bytes offset text)[index]? = some byte := by
  rcases outside with before | behind
  · rw [getElem?_splice_before before, there]
    rfl
  · rw [getElem?_splice_behind behind, there]

variable (bytes offset text)

/-- From the offset on there is the text, and then what was behind it. -/
theorem drop_splice :
    (splice bytes offset text).drop offset = text ++ bytes.drop (offset + text.length) := by
  rw [splice, List.append_assoc, List.drop_left' (length_before bytes offset)]

theorem splice_nil (within : offset ≤ bytes.length) : splice bytes offset [] = bytes := by
  have room : offset - bytes.length = 0 := by omega
  rw [splice, room]
  simp

/-- At the beginning of the data a text takes the place of as much of it. -/
theorem splice_zero : splice bytes 0 text = text ++ bytes.drop text.length := by
  simp [splice]

/-- At the end of the data a text is put behind it. -/
theorem splice_length : splice bytes bytes.length text = bytes ++ text := by
  simp [splice]

/-- A text behind a text that has just been put down continues it. -/
theorem splice_splice (more : Bytes) :
    splice (splice bytes offset text) (offset + text.length) more =
      splice bytes offset (text ++ more) := by
  apply List.ext_getElem?
  intro index
  rcases Nat.lt_or_ge index offset with before | begun
  · rw [getElem?_splice_before (by omega), getElem?_splice_before before,
      getElem?_splice_before before]
    rfl
  rcases Nat.lt_or_ge index (offset + text.length) with within | behind
  · have there : index - offset < text.length := by omega
    rw [getElem?_splice_before within, getElem?_splice_text begun within,
      getElem?_splice_text begun (by rw [List.length_append]; omega),
      List.getElem?_append_left there, List.getElem?_eq_getElem there]
    rfl
  rcases Nat.lt_or_ge index (offset + text.length + more.length) with within | behind'
  · rw [getElem?_splice_text behind within,
      getElem?_splice_text begun (by rw [List.length_append]; omega),
      List.getElem?_append_right (by omega)]
    congr 1
    omega
  · rw [getElem?_splice_behind behind', getElem?_splice_behind (by omega),
      getElem?_splice_behind (by rw [List.length_append]; omega)]

/-- A byte that is put at an offset, with room made for it, is a text of one byte. -/
theorem set_eq_splice (byte : UInt8) :
    (bytes ++ List.replicate (offset + 1 - bytes.length) 0).set offset byte =
      splice bytes offset [byte] := by
  have room : offset < (bytes ++ List.replicate (offset + 1 - bytes.length) 0).length := by
    rw [List.length_append, List.length_replicate]
    omega
  have gap : min (offset - bytes.length) (offset + 1 - bytes.length) = offset - bytes.length := by
    omega
  rw [List.set_eq_take_append_cons_drop, if_pos room, List.take_append, List.take_replicate, gap,
    List.drop_append, List.drop_replicate, Nat.sub_self, List.replicate_zero, List.append_nil,
    splice, List.append_assoc _ [byte]]
  rfl

end Splice

namespace Buffer

/-- Writes a text byte by byte; a byte that cannot be written ends it. -/
def writeBytes (buffer : Buffer) (limit : Nat) : Bytes → Option Buffer
  | [] => some buffer
  | byte :: rest => (buffer.writeByte limit byte).bind (·.writeBytes limit rest)

/-- A file in which a text stands at the pointer, and the pointer behind the text. -/
structure IsSpliced (before : Buffer) (text : Bytes) (after : Buffer) : Prop where
  name : after.name = before.name
  recordLength : after.recordLength = before.recordLength
  recordNumber : after.recordNumber = before.recordNumber
  filePointer : after.filePointer = before.filePointer + text.length
  bytes : after.bytes = splice before.bytes before.filePointer text
  content : before.content.isSome = true → after.content.isSome = true

variable {buffer : Buffer} {limit : Nat}

/-- A file with a text at the pointer, and the pointer behind the text. -/
def spliced (buffer : Buffer) (text : Bytes) : Buffer :=
  { buffer with
    content := some (.ofBytes (splice buffer.bytes buffer.filePointer text))
    filePointer := buffer.filePointer + text.length }

@[simp] theorem bytes_spliced (text : Bytes) :
    (buffer.spliced text).bytes = splice buffer.bytes buffer.filePointer text :=
  PackedBytes.toBytes_ofBytes _

/-- That is all there is to say about a file that has content. -/
theorem IsSpliced.eq_spliced {text : Bytes} {after : Buffer} (spliced : buffer.IsSpliced text after)
    (present : buffer.content.isSome = true) : after = buffer.spliced text := by
  obtain ⟨content, some⟩ := Option.isSome_iff_exists.mp (spliced.content present)
  have bytes : after.bytes = content.toBytes := by
    rw [Buffer.bytes, some, Option.getD_some]
  have same : content = .ofBytes (splice buffer.bytes buffer.filePointer text) := by
    apply PackedBytes.ext
    rw [PackedBytes.toBytes_ofBytes, ← bytes, spliced.bytes]
  obtain ⟨name, recordLength, recordNumber, filePointer, -, -⟩ := spliced
  cases after
  simp only at name recordLength recordNumber filePointer some
  rw [name, recordLength, recordNumber, filePointer, some, same]
  rfl

/-- Only where a gap cannot be filled is a byte refused. -/
theorem writeByte_eq_none_iff (byte : UInt8) : buffer.writeByte limit byte = none ↔
    buffer.bytes.length < buffer.filePointer ∧ limit ≤ buffer.filePointer := by
  have size : buffer.bytes.length = (buffer.content.getD .empty).size :=
    PackedBytes.length_toBytes _
  rw [size]
  simp only [writeByte, ite_eq_right_iff, reduceCtorEq, imp_false, not_or, Nat.not_le, Nat.not_lt]

theorem name_of_writeByte {byte : UInt8} {written : Buffer}
    (wrote : buffer.writeByte limit byte = some written) : written.name = buffer.name := by
  simp only [writeByte] at wrote
  split at wrote
  · cases wrote
    rfl
  · cases wrote

theorem name_of_writeBytes {text : Bytes} {written : Buffer}
    (wrote : buffer.writeBytes limit text = some written) : written.name = buffer.name := by
  induction text generalizing buffer with
  | nil =>
    cases wrote
    rfl
  | cons byte rest ih =>
    obtain ⟨between, put, continued⟩ := Option.bind_eq_some_iff.mp wrote
    exact (ih continued).trans (name_of_writeByte put)

/-- A single byte can be written unless the gap before it cannot be filled. -/
theorem exists_writeByte (reachable : buffer.filePointer ≤ buffer.bytes.length ∨
    buffer.filePointer < limit) (byte : UInt8) :
    ∃ written, buffer.writeByte limit byte = some written ∧ buffer.IsSpliced [byte] written := by
  have size : buffer.bytes.length = (buffer.content.getD .empty).size :=
    PackedBytes.length_toBytes _
  have wrote : buffer.writeByte limit byte = some { buffer with
      content := some ((buffer.content.getD .empty).put buffer.filePointer byte)
      filePointer := buffer.filePointer + 1 } := by
    rw [size] at reachable
    simp [writeByte, reachable]
  refine ⟨_, wrote, rfl, rfl, rfl, rfl, ?_, fun _ => rfl⟩
  rw [bytes_of_writeByte _ _ _ _ wrote, set_eq_splice]

/-- Where a byte is written into a file that has content, it is spliced into the file. -/
theorem eq_spliced_of_writeByte (content : buffer.content.isSome = true) {byte : UInt8}
    {written : Buffer} (wrote : buffer.writeByte limit byte = some written) :
    written = buffer.spliced [byte] ∧
      (buffer.filePointer ≤ buffer.bytes.length ∨ buffer.filePointer < limit) := by
  by_cases reachable : buffer.filePointer ≤ buffer.bytes.length ∨ buffer.filePointer < limit
  · obtain ⟨same, put, spliced⟩ := exists_writeByte reachable byte
    cases put.symm.trans wrote
    exact ⟨spliced.eq_spliced content, reachable⟩
  · obtain ⟨behind, beyond⟩ := not_or.mp reachable
    have refused : buffer.writeByte limit byte = none :=
      (writeByte_eq_none_iff byte).mpr ⟨Nat.not_le.mp behind, Nat.not_lt.mp beyond⟩
    cases refused.symm.trans wrote

/-- A text is written as a whole: once the gap before its first byte is filled, there is room for
every other byte. -/
theorem exists_writeBytes {text : Bytes} (reachable : buffer.filePointer ≤ buffer.bytes.length ∨
    buffer.filePointer < limit ∧ text ≠ []) :
    ∃ written, buffer.writeBytes limit text = some written ∧ buffer.IsSpliced text written := by
  induction text generalizing buffer with
  | nil =>
    have within : buffer.filePointer ≤ buffer.bytes.length := by
      rcases reachable with within | ⟨_, some⟩
      · exact within
      · exact absurd rfl some
    exact ⟨buffer, rfl, rfl, rfl, rfl, rfl, (splice_nil _ _ within).symm, id⟩
  | cons byte rest ih =>
    have first : buffer.filePointer ≤ buffer.bytes.length ∨ buffer.filePointer < limit :=
      reachable.imp_right And.left
    obtain ⟨between, wrote, begun⟩ := exists_writeByte first byte
    have near : between.filePointer ≤ between.bytes.length := by
      rw [begun.filePointer, begun.bytes, length_splice]
      exact Nat.le_max_right _ _
    obtain ⟨written, continued, ended⟩ := ih (.inl near)
    refine ⟨written, ?_, ?_⟩
    · rw [writeBytes, wrote]
      exact continued
    · refine ⟨ended.name.trans begun.name, ended.recordLength.trans begun.recordLength,
        ended.recordNumber.trans begun.recordNumber, ?_, ?_, ended.content ∘ begun.content⟩
      · rw [ended.filePointer, begun.filePointer, List.length_singleton, List.length_cons]
        omega
      · rw [ended.bytes, begun.bytes, begun.filePointer, splice_splice]
        rfl

end Buffer

end DosText
