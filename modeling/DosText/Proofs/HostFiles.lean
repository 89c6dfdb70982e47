import DosText.Proofs.Calls
import DosText.Proofs.HostNames
import DosText.Storage.Folder

/-! What a store in a folder asks of its host. Where the files in the folder's directory behave as
a map from names to contents, and nothing fails for names that the host takes, each call of the
store comes down to looking up or changing the entry of one host name. A file is opened, read or
written piece by piece, and closed; what a call of the store makes of that is proved here. -/

namespace DosText

open Peripherals (Contents)

/-- Whether the host takes a text as the name of a file. -/
structure Path.IsFileName (step : Bytes) : Prop extends Path.IsStep step where
  short : step.length ≤ Path.nameLimit

/-- Whether the names of a store have host names that the host takes. -/
def HostName.IsTaken (name : Name) : Prop :=
  name ≠ [] ∧ (encode name).length ≤ Path.nameLimit

instance (name : Name) : Decidable (HostName.IsTaken name) := inferInstanceAs (Decidable (_ ∧ _))

theorem HostName.IsTaken.isFileName {name : Name} (taken : IsTaken name) :
    Path.IsFileName (encode name) where
  toIsStep := isStep_encode taken.1
  short := taken.2

variable {File Devices : Type}

/-- What a call on the host leaves behind. -/
def Host.Leaves (ready : Devices → Prop) (files : Devices → Contents) (later : Devices)
    (kept : Contents) : Prop :=
  ready later ∧ files later = kept

/-- What a file is held open for. -/
inductive Host.Use where
  /-- It is read: some content, of which so many bytes have been given. -/
  | reading (content : Bytes) (given : Nat)
  /-- It is written under a name, with the bytes that were taken since it was opened. -/
  | writing (step written : Bytes)

/-- The files once the file in use is closed. -/
def Host.Use.settled (files : Contents) : Host.Use → Contents
  | reading _ _ => files
  | writing step written => Function.update files step (some written)

/-- Whether the files in the directory of a folder behave as a map from names to contents. As long
as the directory is ready, nothing fails. What is looked up is what the map has. A file is open, in
some use, beside the `files` that there were when it was opened: its size is that of its content, it
is read from its beginning on, and it takes all bytes that are written to it; when it is closed, it
is found as it was, or holds what was written. A file that is removed is gone, no other file is
touched, and the directories can be made as often as one likes. -/
structure Host.KeepsFiles (host : Host File Devices) (folder : Folder) (ready : Devices → Prop)
    (files : Devices → Contents) (isOpen : File → Use → Contents → Devices → Prop) : Prop where
  isPresent : ∀ devices step, ready devices → Path.IsFileName step → ∃ later,
    host.isPresent (folder.directory ++ step) devices = ((files devices step).isSome, later) ∧
      Leaves ready files later (files devices)
  openRead : ∀ devices step content, ready devices → Path.IsFileName step →
    files devices step = some content → ∃ file later,
      host.openFile (folder.directory ++ step) .read devices = (some file, later) ∧
        isOpen file (.reading content 0) (files devices) later
  openWrite : ∀ devices step, ready devices → Path.IsFileName step → ∃ file later,
    host.openFile (folder.directory ++ step) .write devices = (some file, later) ∧
      isOpen file (.writing step []) (files devices) later
  fileSize : ∀ file use kept devices, isOpen file use kept devices → ∃ size later,
    host.fileSize file devices = (size, later) ∧ isOpen file use kept later ∧
      ∀ content given, use = .reading content given → size = content.length
  readFile : ∀ count file content given kept devices,
    isOpen file (.reading content given) kept devices → ∃ left later,
      host.readFile count file devices = (((content.drop given).take count, left), later) ∧
        isOpen left (.reading content (given + count)) kept later
  writeFile : ∀ bytes file step written kept devices,
    isOpen file (.writing step written) kept devices → ∃ left later,
      host.writeFile bytes file devices = ((bytes.length, left), later) ∧
        isOpen left (.writing step (written ++ bytes)) kept later
  flushFile : ∀ file step written kept devices,
    isOpen file (.writing step written) kept devices → ∃ left later,
      host.flushFile file devices = ((true, left), later) ∧
        isOpen left (.writing step written) kept later
  closeFile : ∀ file use kept devices, isOpen file use kept devices →
    Leaves ready files (host.closeFile file devices) (use.settled kept)
  remove : ∀ devices step, ready devices → Path.IsFileName step → ∃ removal later,
    removal ≠ .refused ∧ host.remove (folder.directory ++ step) devices = (removal, later) ∧
      Leaves ready files later (Function.update (files devices) step none)
  makeDirectory : ∀ devices path, ready devices → path = folder.base ∨ path = folder.directory →
    ∃ later, host.makeDirectory path devices = (true, later) ∧
      Leaves ready files later (files devices)

section Held

open Host (Leaves)

variable {host : Host File Devices} {folder : Folder} {ready : Devices → Prop}
variable {files : Devices → Contents} {isOpen : File → Host.Use → Contents → Devices → Prop}
variable {devices : Devices} {step content : Bytes}

/-- The file of an entry is read as a whole, and is found as it was afterwards. -/
theorem HostFile.contents_of_keepsFiles (keeps : host.KeepsFiles folder ready files isOpen)
    (begun : ready devices) (name : Path.IsFileName step)
    (found : files devices step = some content) : ∃ later,
      HostFile.contents host (folder.directory ++ step) devices = (.ok content, later) ∧
        Leaves ready files later (files devices) := by
  obtain ⟨file, opened, openedAt, held⟩ := keeps.openRead devices step content begun name found
  obtain ⟨size, sized, sizedAt, still, whole⟩ := keeps.fileSize file _ _ opened held
  obtain ⟨left, read, readAt, given⟩ := keeps.readFile size file content 0 _ sized still
  rw [whole content 0 rfl, List.drop_zero, List.take_length] at readAt
  refine ⟨host.closeFile left read, ?_, keeps.closeFile left _ _ read given⟩
  rw [whole content 0 rfl] at sizedAt
  exact contents_of_read openedAt sizedAt readAt

/-- The file of a name is made to hold some bytes, whether or not there was one. -/
theorem HostFile.rewrite_of_keepsFiles (keeps : host.KeepsFiles folder ready files isOpen)
    (begun : ready devices) (name : Path.IsFileName step) (content : Bytes) : ∃ later,
      HostFile.rewrite host (folder.directory ++ step) content devices = (.ok (), later) ∧
        Leaves ready files later (Function.update (files devices) step (some content)) := by
  obtain ⟨file, opened, openedAt, held⟩ := keeps.openWrite devices step begun name
  obtain ⟨size, sized, sizedAt, still, -⟩ := keeps.fileSize file _ _ opened held
  obtain ⟨left, written, writtenAt, taken⟩ := keeps.writeFile content file step [] _ sized still
  obtain ⟨last, flushed, flushedAt, kept⟩ := keeps.flushFile left step _ _ written taken
  refine ⟨host.closeFile last flushed, ?_, keeps.closeFile last _ _ flushed kept⟩
  exact rewrite_of_flushed openedAt sizedAt writtenAt flushedAt

end Held

namespace Folder

open Host (Leaves)

variable {host : Host File Devices} {folder : Folder} {ready : Devices → Prop}
variable {files : Devices → Contents} {isOpen : File → Host.Use → Contents → Devices → Prop}
variable {devices : Devices} {name : Name}

theorem get_of_keepsFiles (keeps : host.KeepsFiles folder ready files isOpen)
    (begun : ready devices) (taken : HostName.IsTaken name) :
    (folder.get host name devices).outcome = .ok (files devices (HostName.encode name)) ∧
      Leaves ready files (folder.get host name devices).devices (files devices) := by
  obtain ⟨later, found, kept, same⟩ := keeps.isPresent devices _ begun taken.isFileName
  cases content? : files devices (HostName.encode name) with
  | none =>
    rw [content?] at found
    simp only [get, path, found, Option.isSome_none]
    exact ⟨trivial, kept, same⟩
  | some content =>
    rw [content?] at found
    rw [← same] at content?
    obtain ⟨last, read, still, unchanged⟩ :=
      HostFile.contents_of_keepsFiles keeps kept taken.isFileName content?
    simp only [get, path, found, read, Option.isSome_some]
    exact ⟨trivial, still, unchanged.trans same⟩

theorem set_of_keepsFiles (keeps : host.KeepsFiles folder ready files isOpen)
    (begun : ready devices) (taken : HostName.IsTaken name) (content : Bytes) :
    (folder.set host name content devices).outcome = .ok () ∧
      Leaves ready files (folder.set host name content devices).devices
        (Function.update (files devices) (HostName.encode name) (some content)) := by
  obtain ⟨later, rewritten, left⟩ :=
    HostFile.rewrite_of_keepsFiles keeps begun taken.isFileName content
  simp only [set, path, rewritten]
  exact ⟨trivial, left⟩

theorem remove_of_keepsFiles (keeps : host.KeepsFiles folder ready files isOpen)
    (begun : ready devices) (taken : HostName.IsTaken name) :
    (folder.remove host name devices).outcome = .ok () ∧
      Leaves ready files (folder.remove host name devices).devices
        (Function.update (files devices) (HostName.encode name) none) := by
  obtain ⟨removal, later, worked, removed, left⟩ :=
    keeps.remove devices _ begun taken.isFileName
  simp only [remove, path, removed]
  cases removal with
  | done => exact ⟨trivial, left⟩
  | absent => exact ⟨trivial, left⟩
  | refused => exact absurd rfl worked

/-- Making the directories of a folder again changes nothing. -/
theorem establish_of_keepsFiles (keeps : host.KeepsFiles folder ready files isOpen)
    (begun : ready devices) :
    (folder.establish host devices).outcome = .ok () ∧
      Leaves ready files (folder.establish host devices).devices (files devices) := by
  obtain ⟨later, base, kept, same⟩ := keeps.makeDirectory devices _ begun (.inl rfl)
  obtain ⟨last, below, still, unchanged⟩ := keeps.makeDirectory later _ kept (.inr rfl)
  simp only [establish, ensure, base, below]
  exact ⟨trivial, still, unchanged.trans same⟩

end Folder

end DosText
