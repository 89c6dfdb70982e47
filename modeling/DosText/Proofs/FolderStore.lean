import DosText.Proofs.DiskFiles

/-! A store in a folder against a store in memory. The one goes on when the store is made anew on
the same base directory, the other just goes on; whatever they are asked, their answers agree. -/

namespace DosText

namespace Folder

/-- A call on a store, or the making of the store anew on a base directory. -/
inductive Use where
  | get (name : Name)
  | set (name : Name) (content : Bytes)
  | remove (name : Name)
  | renew (base : Bytes)

/-- What comes back from a use of a store. -/
inductive Answer where
  | got (outcome : Except Storage.Failure (Option Bytes))
  | done (outcome : Except Storage.Failure Unit)

/-- A base directory without the slash that may be at its end. -/
def stem (base : Bytes) : Bytes := if base.getLast? = some slash then base.dropLast else base

/-- Whether a text names a base directory, with a slash at its end or without. The empty path only
names itself: with a slash it would be the root. -/
def Respells (base text : Bytes) : Prop :=
  text = base ∨ base ≠ [] ∧ text ≠ [] ∧ stem text = stem base

instance (base text : Bytes) : Decidable (Respells base text) :=
  inferInstanceAs (Decidable (_ ∨ _))

theorem ofBase_eq_stem {base : Bytes} (nonempty : base ≠ []) :
    ofBase base = ⟨stem base ++ [slash]⟩ := by
  unfold ofBase stem
  rw [if_neg nonempty]
  split
  · next slashed =>
    obtain ⟨before, split⟩ := List.getLast?_eq_some_iff.mp slashed
    rw [split, List.dropLast_concat]
  · rfl

/-- A slash at the end of a base directory makes no difference. -/
theorem ofBase_of_respells {base text : Bytes} (respells : Respells base text) :
    ofBase text = ofBase base := by
  rcases respells with same | ⟨nonempty, begun, stems⟩
  · rw [same]
  · rw [ofBase_eq_stem nonempty, ofBase_eq_stem begun, stems]

namespace Use

variable {File Devices State : Type}

/-- A use of a store that goes on as it is when it is made anew. -/
def atStore (store : Store Devices) : Use → Devices → Answer × Devices
  | get name, devices =>
    let reply := store.get name devices
    (.got reply.outcome, reply.devices)
  | set name content, devices =>
    let reply := store.set name content devices
    (.done reply.outcome, reply.devices)
  | remove name, devices =>
    let reply := store.remove name devices
    (.done reply.outcome, reply.devices)
  | renew _, devices => (.done (.ok ()), devices)

/-- A use of a store in a folder of the host. -/
def onHost (host : Host File Devices) (use : Use) (state : Folder × Devices) :
    Answer × Folder × Devices :=
  match use with
  | renew base =>
    let reply := (ofBase base).establish host state.2
    (.done reply.outcome, ofBase base, reply.devices)
  | other =>
    let (answer, later) := other.atStore (state.1.store host) state.2
    (answer, state.1, later)

/-- What comes back from one use after the other. -/
def answers (perform : Use → State → Answer × State) : List Use → State → List Answer
  | [], _ => []
  | use :: rest, state => (perform use state).1 :: answers perform rest (perform use state).2

/-- Whether a use has a name that the host takes, or the same base directory as before. -/
def Fits (base : Bytes) : Use → Prop
  | get name | set name _ | remove name => HostName.IsTaken name
  | renew text => Respells base text

instance (base : Bytes) : DecidablePred (Fits base)
  | get name | set name _ | remove name => inferInstanceAs (Decidable (HostName.IsTaken name))
  | renew text => inferInstanceAs (Decidable (Respells base text))

end Use

section Refinement

variable {File Devices : Type} {host : Host File Devices} {base : Bytes}
variable {ready : Devices → Prop} {files : Devices → Peripherals.Contents}
variable {isOpen : File → Host.Use → Peripherals.Contents → Devices → Prop}

/-- Whether the making of a store leaves a ready directory with no files in it. -/
structure Begins (host : Host File Devices) (folder : Folder) (ready : Devices → Prop)
    (files : Devices → Peripherals.Contents) (devices : Devices) : Prop where
  made : (folder.establish host devices).outcome = .ok ()
  isReady : ready (folder.establish host devices).devices
  isEmpty : ∀ step, files (folder.establish host devices).devices step = none

/-- Whether the files of a folder are the entries of a store in memory, under their host names. -/
structure Mirrors (ready : Devices → Prop) (files : Devices → Peripherals.Contents)
    (devices : Devices) (entries : Catalog Name Bytes) : Prop where
  isReady : ready devices
  same : ∀ name, HostName.IsTaken name → files devices (HostName.encode name) = entries.find? name

namespace Mirrors

variable {devices later : Devices} {entries changed : Catalog Name Bytes} {name : Name}

theorem of_begins (begins : Begins host (ofBase base) ready files devices) :
    Mirrors ready files ((ofBase base).establish host devices).devices .empty where
  isReady := begins.isReady
  same _ _ := begins.isEmpty _

theorem of_leaves (mirrors : Mirrors ready files devices entries)
    (left : Host.Leaves ready files later (files devices)) :
    Mirrors ready files later entries where
  isReady := left.1
  same name taken := by rw [left.2, mirrors.same name taken]

/-- What happens to one file happens to one entry, since no two names share a host name. -/
theorem of_update (mirrors : Mirrors ready files devices entries) {content : Option Bytes}
    (left : Host.Leaves ready files later
      (Function.update (files devices) (HostName.encode name) content))
    (entry : ∀ other, changed.find? other = if other = name then content else entries.find? other) :
    Mirrors ready files later changed where
  isReady := left.1
  same other taken := by
    rw [left.2, Function.update_apply, entry, mirrors.same other taken]
    simp only [HostName.encode_injective.eq_iff]

/-- A use of the store in the folder answers as the store in memory does, and the folder goes on
to hold the entries of that store. -/
theorem perform {use : Use} (mirrors : Mirrors ready files devices entries)
    (keeps : host.KeepsFiles (ofBase base) ready files isOpen) (fits : use.Fits base) :
    (use.onHost host (ofBase base, devices)).1 = (use.atStore Store.memory entries).1 ∧
      (use.onHost host (ofBase base, devices)).2.1 = ofBase base ∧
      Mirrors ready files (use.onHost host (ofBase base, devices)).2.2
        (use.atStore Store.memory entries).2 := by
  cases use with
  | get name =>
    obtain ⟨outcome, left⟩ := get_of_keepsFiles keeps mirrors.isReady fits
    rw [mirrors.same name fits] at outcome
    exact ⟨congrArg Answer.got outcome, rfl, mirrors.of_leaves left⟩
  | set name content =>
    obtain ⟨outcome, left⟩ := set_of_keepsFiles keeps mirrors.isReady fits content
    refine ⟨congrArg Answer.done outcome, rfl, mirrors.of_update left fun other => ?_⟩
    exact Catalog.find?_insert entries name other content
  | remove name =>
    obtain ⟨outcome, left⟩ := remove_of_keepsFiles keeps mirrors.isReady fits
    refine ⟨congrArg Answer.done outcome, rfl, mirrors.of_update left fun other => ?_⟩
    exact Catalog.find?_erase entries name other
  | renew text =>
    obtain ⟨outcome, left⟩ := establish_of_keepsFiles keeps mirrors.isReady
    have same := ofBase_of_respells fits
    simp only [Use.onHost, same]
    exact ⟨congrArg Answer.done outcome, trivial, mirrors.of_leaves left⟩

theorem answers_eq {uses : List Use} (mirrors : Mirrors ready files devices entries)
    (keeps : host.KeepsFiles (ofBase base) ready files isOpen)
    (fits : ∀ use ∈ uses, use.Fits base) :
    Use.answers (Use.onHost host) uses (ofBase base, devices) =
      Use.answers (Use.atStore Store.memory) uses entries := by
  induction uses generalizing devices entries with
  | nil => rfl
  | cons use rest ih =>
    obtain ⟨answer, folder, goesOn⟩ := mirrors.perform keeps (fits use List.mem_cons_self)
    have later := ih goesOn fun other member => fits other (List.mem_cons_of_mem _ member)
    have state : (use.onHost host (ofBase base, devices)).2 =
        (ofBase base, (use.onHost host (ofBase base, devices)).2.2) := Prod.ext folder rfl
    rw [Use.answers, Use.answers, answer, state, later]

end Mirrors

/-- A store in a folder that begins empty answers every sequence of uses as a store in memory
does. -/
theorem answers_eq_memory {devices : Devices} {uses : List Use}
    (keeps : host.KeepsFiles (ofBase base) ready files isOpen)
    (begins : Begins host (ofBase base) ready files devices)
    (fits : ∀ use ∈ uses, use.Fits base) :
    Use.answers (Use.onHost host) uses
        (ofBase base, ((ofBase base).establish host devices).devices) =
      Use.answers (Use.atStore Store.memory) uses .empty :=
  (Mirrors.of_begins begins).answers_eq keeps fits

/-- On a new disk the directory of a store is made below the working directory. -/
theorem begins_fresh : Begins Disk.host (ofBase (ascii "games"))
    (·.Holds (ofBase (ascii "games")) [ascii "work", ascii "games", ascii "vfs"])
    (Disk.filesAt [ascii "work", ascii "games", ascii "vfs"]) Disk.fresh := by
  have holds := Disk.Holds.of_unoccupied (ofBase (ascii "games"))
    (show ((ofBase (ascii "games")).establish Disk.host Disk.fresh).devices.walk _ _ =
      .ok [ascii "work", ascii "games", ascii "vfs"] by decide) (by decide) (by decide)
  exact ⟨rfl, holds.1, holds.2⟩

/-- The names of a dot and of its host name are kept apart on a disk, and so are empty files from
none, while the store is made anew under both spellings of its base directory. -/
theorem answers_eq_memory_dots :
    Use.answers (Use.onHost Disk.host)
      [.set (ascii ".") (ascii "a"), .set (ascii "%2E") [], .set (ascii "..") [0],
        .renew (ascii "games/"), .get (ascii "."), .get (ascii "%2E"), .get (ascii "%2e"),
        .remove (ascii "."), .renew (ascii "games"), .get (ascii "."), .get (ascii "..")]
      (ofBase (ascii "games"),
        ((ofBase (ascii "games")).establish Disk.host Disk.fresh).devices) =
      [.done (.ok ()), .done (.ok ()), .done (.ok ()), .done (.ok ()),
        .got (.ok (some (ascii "a"))), .got (.ok (some [])), .got (.ok none),
        .done (.ok ()), .done (.ok ()), .got (.ok none), .got (.ok (some [0]))] := by
  have keeps : Disk.host.KeepsFiles (ofBase (ascii "games")) _ _ _ :=
    Disk.keepsFiles ⟨by decide, by decide, by decide⟩ [ascii "work", ascii "games", ascii "vfs"]
  rw [answers_eq_memory keeps begins_fresh (by decide)]
  rfl

end Refinement

end Folder

end DosText
