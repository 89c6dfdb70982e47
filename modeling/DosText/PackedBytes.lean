import DosText.Bytes

/-! Bytes in one block of memory, for long runs that are read and written one byte at a time.
`toBytes` is the view through which every other operation is described. -/

namespace DosText

/-- A run of bytes of which each is at hand at once. -/
structure PackedBytes where
  block : ByteArray

namespace PackedBytes

def empty : PackedBytes := ⟨.empty⟩

/-- Packs a run of bytes. -/
def ofBytes (bytes : Bytes) : PackedBytes := ⟨bytes.toByteArray⟩

/-- The bytes in order. -/
def toBytes (packed : PackedBytes) : Bytes := packed.block.data.toList

instance : Repr PackedBytes := ⟨fun packed precedence => reprPrec packed.toBytes precedence⟩

def size (packed : PackedBytes) : Nat := packed.block.size

/-- The byte at an offset, if the run reaches that far. -/
def get? (packed : PackedBytes) (offset : Nat) : Option UInt8 :=
  if within : offset < packed.block.size then some packed.block[offset] else none

/-- Puts bytes behind a run. -/
def append (packed : PackedBytes) (bytes : Bytes) : PackedBytes :=
  ⟨packed.block ++ bytes.toByteArray⟩

/-- Puts a byte at an offset, in place of the byte there. A gap between the end of the run and
the offset is filled with NULs. -/
def put (packed : PackedBytes) (offset : Nat) (byte : UInt8) : PackedBytes :=
  if within : offset < packed.block.size then ⟨packed.block.set offset byte within⟩
  else
    let gap : ByteArray := ⟨Array.replicate (offset - packed.block.size) 0⟩
    ⟨(packed.block ++ gap).push byte⟩

/-- The offset of the first byte of a kind at or behind an offset. If there is none, it is
where the run ends. -/
def seek (packed : PackedBytes) (isKind : UInt8 → Bool) (offset : Nat) : Nat :=
  if within : offset < packed.block.size then
    if isKind packed.block[offset] then offset else packed.seek isKind (offset + 1)
  else offset
  termination_by packed.block.size - offset

/-- The bytes from one offset up to another. -/
def slice (packed : PackedBytes) (start stop : Nat) : Bytes :=
  if start < packed.block.size then
    (packed.block.extract start (min stop packed.block.size)).data.toList
  else []

/-- Runs of the same bytes are equal. -/
@[ext] theorem ext {left right : PackedBytes} (same : left.toBytes = right.toBytes) :
    left = right := by
  cases left; cases right
  exact congrArg mk (ByteArray.ext (Array.toList_inj.mp same))

instance : DecidableEq PackedBytes := fun left right =>
  decidable_of_iff (left.toBytes = right.toBytes) ⟨ext, congrArg toBytes⟩

@[simp] theorem toBytes_empty : empty.toBytes = [] := rfl

@[simp] theorem toBytes_ofBytes (bytes : Bytes) : (ofBytes bytes).toBytes = bytes := by
  simp [ofBytes, toBytes]

@[simp] theorem ofBytes_toBytes (packed : PackedBytes) : ofBytes packed.toBytes = packed :=
  ext (toBytes_ofBytes packed.toBytes)

@[simp] theorem length_toBytes (packed : PackedBytes) : packed.toBytes.length = packed.size := by
  simp [toBytes, size]

@[simp] theorem toBytes_append (packed : PackedBytes) (bytes : Bytes) :
    (packed.append bytes).toBytes = packed.toBytes ++ bytes := by
  simp [append, toBytes]

@[simp] theorem append_nil (packed : PackedBytes) : packed.append [] = packed := by
  apply ext
  simp

/-- What is put behind a run in two parts might be put there at once. -/
theorem append_append (packed : PackedBytes) (first second : Bytes) :
    (packed.append first).append second = packed.append (first ++ second) := by
  apply ext
  simp

theorem get?_eq (packed : PackedBytes) (offset : Nat) :
    packed.get? offset = packed.toBytes[offset]? := by
  unfold get? toBytes
  split
  · next within =>
    rw [Array.getElem?_toList, Array.getElem?_eq_getElem (by simpa using within)]
    rfl
  · next beyond =>
    rw [Array.getElem?_toList, Array.getElem?_eq_none (by simpa using beyond)]

private theorem set_last (bytes : Bytes) (last byte : UInt8) (offset : Nat)
    (length : bytes.length = offset) : (bytes ++ [last]).set offset byte = bytes ++ [byte] := by
  simp [List.set_append_right, length]

/-- Beyond the end, NULs make room for a byte that is put there. -/
theorem toBytes_put (packed : PackedBytes) (offset : Nat) (byte : UInt8) :
    (packed.put offset byte).toBytes =
      (packed.toBytes ++ List.replicate (offset + 1 - packed.size) 0).set offset byte := by
  unfold put
  split
  · next within =>
    have room : offset + 1 - packed.size = 0 := by unfold size; omega
    simp [room, toBytes]
  · next beyond =>
    have room : offset + 1 - packed.size = offset - packed.size + 1 := by unfold size; omega
    have lead : (packed.toBytes ++ List.replicate (offset - packed.size) 0).length = offset := by
      simp only [List.length_append, length_toBytes, List.length_replicate]
      unfold size
      omega
    rw [room, List.replicate_succ', ← List.append_assoc, set_last _ _ _ _ lead]
    simp [toBytes, size]

theorem slice_eq (packed : PackedBytes) (start stop : Nat) :
    packed.slice start stop = (packed.toBytes.drop start).take (stop - start) := by
  have length : packed.toBytes.length = packed.block.size := packed.length_toBytes
  unfold slice
  split
  · rw [ByteArray.data_extract, Array.toList_extract, List.extract_eq_take_drop]
    show (packed.toBytes.drop start).take (min stop packed.block.size - start) = _
    rw [List.take_eq_take_iff, List.length_drop, length]
    omega
  · next beyond => rw [List.drop_of_length_le (by omega), List.take_nil]

private theorem drop_toBytes (packed : PackedBytes) (offset : Nat)
    (within : offset < packed.block.size) :
    packed.toBytes.drop offset = packed.block[offset] :: packed.toBytes.drop (offset + 1) := by
  have length : packed.toBytes.length = packed.block.size := packed.length_toBytes
  exact List.drop_eq_getElem_cons (by omega)

/-- Seeking passes over the bytes of other kinds. -/
theorem seek_eq (packed : PackedBytes) (isKind : UInt8 → Bool) (offset : Nat) :
    packed.seek isKind offset =
      offset + ((packed.toBytes.drop offset).takeWhile (!isKind ·)).length := by
  fun_induction packed.seek isKind offset with
  | case1 offset within found => simp [drop_toBytes packed offset within, found]
  | case2 offset within passed ih =>
    rw [ih, drop_toBytes packed offset within]
    simp [passed]
    omega
  | case3 offset beyond =>
    have length : packed.toBytes.length = packed.block.size := packed.length_toBytes
    rw [List.drop_of_length_le (by omega)]
    rfl

/-- Up to the next byte of a kind, there are only bytes of other kinds. -/
theorem slice_seek (packed : PackedBytes) (isKind : UInt8 → Bool) (offset : Nat) :
    packed.slice offset (packed.seek isKind offset) =
      (packed.toBytes.drop offset).takeWhile (!isKind ·) := by
  rw [slice_eq, seek_eq, Nat.add_sub_cancel_left]
  exact List.prefix_iff_eq_take.mp (List.takeWhile_prefix _) |>.symm

end PackedBytes

end DosText
