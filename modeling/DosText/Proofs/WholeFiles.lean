import DosText.Host.Stream

/-! Files of a disk that are held open. Written bytes reach the disk in blocks, but once nothing
waits any more it is as if they had been added at once; so a file that is rewritten comes out as if
it had been replaced, and one that is read as a whole gives what stands on the disk. -/

namespace DosText

namespace Disk

variable {disk later : Disk} {location : Location} {bytes : Bytes}

theorem put_put (disk : Disk) (location : Location) (first second : Node) :
    (disk.put location first).put location second = disk.put location second := by
  rw [put, put, put, Catalog.insert_insert]

theorem put_of_node? {content : Bytes} (here : disk.node? location = some (.file content)) :
    disk.put location (.file content) = disk := by
  rw [node?] at here
  split at here
  · cases here
  · rw [put, Catalog.insert_of_find? here]

/-- Adding nothing changes nothing. -/
theorem append_nil (disk : Disk) (location : Location) :
    disk.append location [] = (true, disk) := by
  unfold append
  split
  · next content here =>
    rw [List.append_nil, put_of_node? here]
  · rfl

/-- Bytes that are added in two parts are added at once. -/
theorem append_of_taken {first : Bytes} (taken : disk.append location first = (true, later))
    (second : Bytes) : later.append location second = disk.append location (first ++ second) := by
  unfold append at taken
  split at taken
  · next content here =>
    have proper : location ≠ [] := by
      rintro rfl
      cases here
    cases taken
    have there := node?_put disk location location (.file (content ++ first)) proper
    rw [if_pos rfl] at there
    simp only [append, there, here, put_put, List.append_assoc]
  · simp only [Prod.mk.injEq, decide_eq_true_eq] at taken
    rw [taken.1, taken.2, List.nil_append]

/-- What is refused stays refused, whatever comes behind it. -/
theorem append_of_refused {first : Bytes} (refused : disk.append location first = (false, later))
    (second : Bytes) : later = disk ∧ disk.append location (first ++ second) = (false, disk) := by
  unfold append at refused ⊢
  split at refused
  · cases refused
  · next other =>
    simp only [Prod.mk.injEq, decide_eq_false_iff_not] at refused
    refine ⟨refused.2.symm, ?_⟩
    simp [refused.1]

end Disk

namespace OpenFile

/-- A flush adds what waits to the file, and nothing waits then. -/
theorem flush_output (location : Location) (block : Block) (pending : Bytes) (disk : Disk) :
    ∃ left, (output location block pending).flush disk =
      (((disk.append location pending).1, output location left []),
        (disk.append location pending).2) := by
  cases pending with
  | nil =>
    rw [Disk.append_nil]
    exact ⟨block, rfl⟩
  | cons first rest => exact ⟨.filling, rfl⟩

theorem close_output (location : Location) (block : Block) (pending : Bytes) (disk : Disk) :
    (output location block pending).close disk = (disk.append location pending).2 := by
  obtain ⟨left, flushed⟩ := flush_output location block pending disk
  rw [close, flushed]

variable {location : Location} {disk : Disk}

/-- What has come of writing bytes to a file for which others waited: all of them were taken, and
will be on the disk with the others once those that wait are there; or the disk refuses them. -/
def Took (location : Location) (bytes waited : Bytes) (disk : Disk) :
    (Nat × OpenFile) × Disk → Prop
  | ((taken, file), later) => ∃ block pending, file = output location block pending ∧
    (taken = bytes.length ∧
        later.append location pending = disk.append location (waited ++ bytes) ∨
      taken < bytes.length ∧ pending = [] ∧
        disk.append location (waited ++ bytes) = (false, later))

/-- Whole blocks are written to the disk before the rest, so nothing is written behind a block
that was refused. -/
theorem took_writeBlocks (location : Location) (block : Block) (bytes : Bytes) (disk : Disk) :
    Took location bytes [] disk (writeBlocks location block bytes disk) := by
  unfold writeBlocks
  simp only
  split
  · exact ⟨block, bytes, rfl, .inl ⟨rfl, rfl⟩⟩
  · next some =>
    have parts := List.take_append_drop (bytes.length - bytes.length % Block.size) bytes
    split
    · next written taken =>
      refine ⟨.filling, _, rfl, .inl ⟨rfl, ?_⟩⟩
      rw [Disk.append_of_taken taken, parts, List.nil_append]
    · next unchanged refused =>
      obtain ⟨rfl, whole⟩ := Disk.append_of_refused refused
        (bytes.drop (bytes.length - bytes.length % Block.size))
      rw [parts] at whole
      exact ⟨.filling, [], rfl, .inr ⟨by omega, rfl, whole⟩⟩

/-- Bytes for which there is no room are taken after those that wait, or with none of them on the
disk. -/
theorem took_write (location : Location) (block : Block) (waited bytes : Bytes) (disk : Disk) :
    Took location bytes waited disk ((output location block waited).write bytes disk) := by
  unfold write
  simp only
  generalize block.room waited = room
  split
  · exact ⟨block, _, rfl, .inl ⟨rfl, rfl⟩⟩
  · next crowded =>
    have parts : waited ++ bytes.take room ++ bytes.drop room = waited ++ bytes := by
      rw [List.append_assoc, List.take_append_drop]
    have length : (bytes.drop room).length = bytes.length - room := List.length_drop
    obtain ⟨left, flushed⟩ :=
      flush_output location block.begun (waited ++ bytes.take room) disk
    rw [flushed]
    rcases added : disk.append location (waited ++ bytes.take room) with ⟨_ | _, written⟩
    · obtain ⟨rfl, whole⟩ := Disk.append_of_refused added (bytes.drop room)
      rw [parts] at whole
      exact ⟨left, [], rfl, .inr ⟨by omega, rfl, whole⟩⟩
    · have whole := Disk.append_of_taken added (bytes.drop room)
      rw [parts] at whole
      simp only
      have took := took_writeBlocks location left (bytes.drop room) written
      generalize writeBlocks location left (bytes.drop room) written = result at took ⊢
      obtain ⟨⟨taken, file⟩, later⟩ := result
      obtain ⟨last, pending, same, took⟩ := took
      rw [List.nil_append, whole, length] at took
      have total : (room + taken = bytes.length ↔ taken = bytes.length - room) ∧
          (room + taken < bytes.length ↔ taken < bytes.length - room) := by omega
      exact ⟨last, pending, same,
        took.imp (And.imp_left total.1.mpr) (And.imp_left total.2.mpr)⟩

end OpenFile

namespace HostFile

/-- A file of a disk is read up to the size that it had when it was opened. A directory and a device
can be opened but have no bytes. -/
theorem contents_host (path : Bytes) (disk : Disk) :
    contents Disk.host path disk =
      (match disk.read path with
        | .refused => .error .cannotOpen
        | .directory => .ok []
        | .content bytes => .ok bytes, disk) := by
  unfold contents openAt Disk.host Disk.openFile Disk.read
  simp only
  cases disk.locate path with
  | error obstacle => rfl
  | ok located =>
    obtain ⟨location, node⟩ := located
    cases node with
    | directory => rfl
    | file content => simp [read, OpenFile.size, OpenFile.read, close, OpenFile.close,
        OpenFile.flush]
    | sealed => rfl
    | full => rfl

/-- A file of a disk that is rewritten is replaced. -/
theorem rewrite_host (path bytes : Bytes) (disk : Disk) : ∃ outcome,
    rewrite Disk.host path bytes disk = (outcome, (disk.replace path bytes).2) ∧
      (outcome = .ok () ↔ (disk.replace path bytes).1 = true) := by
  unfold Disk.replace
  cases created : disk.create path with
  | error obstacle =>
    have refused : Disk.host.openFile path .write disk = (none, disk) := by
      simp only [Disk.host, Disk.openFile, created]
    exact ⟨_, rewrite_of_unopened refused, by simp⟩
  | ok place =>
    obtain ⟨location, emptied⟩ := place
    have opened : Disk.host.openFile path .write disk =
        (some (.output location .unbegun []), emptied) := by
      simp only [Disk.host, Disk.openFile, created]
    have wrote := OpenFile.took_write location .unbegun [] bytes emptied
    rcases written : (OpenFile.output location .unbegun []).write bytes emptied
      with ⟨⟨taken, file⟩, later⟩
    rw [written] at wrote
    obtain ⟨block, pending, rfl, ⟨rfl, there⟩ | ⟨fewer, rfl, refused⟩⟩ := wrote
    · obtain ⟨left, flushed⟩ := OpenFile.flush_output location block pending later
      rw [List.nil_append] at there
      rw [there] at flushed
      exact ⟨_, rewrite_of_flushed opened rfl written flushed, by simp⟩
    · rw [List.nil_append] at refused
      simp only [refused]
      exact ⟨_, rewrite_of_refused opened rfl written fewer, by simp⟩

end HostFile

end DosText
