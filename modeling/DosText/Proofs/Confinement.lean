import DosText.Host.OpenFile
import DosText.Proofs.HostNames
import DosText.Proofs.InMemory
import DosText.Proofs.NamesConcerned
import DosText.Storage.Folder
import DosText.Storage.SeedFolder

/-! What a program can reach on the host. Whatever it prints, the store and the source only go to
paths that lead one step down from their directories, and the store goes to different paths for
different names. -/

namespace DosText

variable {File Devices Receiver : Type}

/-- Who goes to a path of the host. -/
inductive Host.Visitor where
  | store
  | source
  deriving DecidableEq, Repr

/-- Where the host was gone to, and by whom. -/
abbrev Host.Visits := List (Host.Visitor × Bytes)

/-- A call on a host for a path, which is noted. -/
def Host.note {Value : Type} (visitor : Host.Visitor) (path : Bytes)
    (call : Devices → Value × Devices) (devices : Devices × Host.Visits) :
    Value × Devices × Host.Visits :=
  let (value, later) := call devices.1
  (value, later, devices.2 ++ [(visitor, path)])

/-- A call on a host for a file that is open already. -/
def Host.besides {Value Kept : Type} (call : Devices → Value × Devices)
    (devices : Devices × Kept) : Value × Devices × Kept :=
  let (value, later) := call devices.1
  (value, later, devices.2)

/-- A host that notes each path at which something is looked up, opened, removed or made. -/
def Host.noting (visitor : Host.Visitor) (host : Host File Devices) :
    Host File (Devices × Host.Visits) where
  isPresent path := note visitor path (host.isPresent path)
  openFile path access := note visitor path (host.openFile path access)
  fileSize file := besides (host.fileSize file)
  readFile count file := besides (host.readFile count file)
  writeFile bytes file := besides (host.writeFile bytes file)
  flushFile file := besides (host.flushFile file)
  closeFile file devices := (host.closeFile file devices.1, devices.2)
  read path := note visitor path (host.read path)
  remove path := note visitor path (host.remove path)
  makeDirectory path := note visitor path (host.makeDirectory path)

/-- A console beside which something else is kept. -/
def Console.beside {Kept : Type} (console : Console Devices) : Console (Devices × Kept) where
  character devices :=
    let typed := console.character devices.1
    (typed.1, typed.2, devices.2)
  line prompt devices :=
    let typed := console.line prompt devices.1
    (typed.1, typed.2, devices.2)
  firmware active devices :=
    let switched := console.firmware active devices.1
    ((switched.1, devices.2), switched.2)
  deferred := console.deferred

namespace Peripherals

/-- A store in a folder of a host and, if there is one, a source in a directory of it. -/
def onHost (host : Host File Devices) (folder : Folder) (seeds? : Option SeedFolder)
    (console : Console Devices) : Peripherals (Devices × Host.Visits) where
  store := folder.store (host.noting .store)
  source :=
    match seeds? with
    | some seeds => seeds.source (host.noting .source)
    | none => .none
  console := console.beside

/-- Whether a visit is one to the path of a name that is not empty. -/
def IsDue (folder : Folder) (seeds? : Option SeedFolder) : Host.Visitor × Bytes → Prop
  | (.store, path) => ∃ name, name ≠ [] ∧ path = folder.path name
  | (.source, path) => ∃ seeds, seeds? = some seeds ∧ ∃ name, path = seeds.path name

end Peripherals

section Visits

variable {host : Host File Devices} {folder : Folder} {seeds : SeedFolder} {visitor : Host.Visitor}
variable {name : Name} {devices : Devices × Host.Visits} {visit : Host.Visitor × Bytes}

/-- A file is gone to when it is opened, and not while it is open. -/
theorem HostFile.visits_openAt (host : Host File Devices) (visitor : Host.Visitor) (path : Bytes)
    (access : Access) (devices : Devices × Host.Visits) :
    (openAt (host.noting visitor) path access devices).2.2 = devices.2 ++ [(visitor, path)] := by
  unfold openAt
  rcases opened : host.openFile path access devices.1 with ⟨_ | file, later⟩
  · simp [Host.noting, Host.note, opened]
  · simp [Host.noting, Host.note, Host.besides, opened]

theorem HostFile.visits_contents (host : Host File Devices) (visitor : Host.Visitor) (path : Bytes)
    (devices : Devices × Host.Visits) :
    (contents (host.noting visitor) path devices).2.2 = devices.2 ++ [(visitor, path)] := by
  have noted := visits_openAt host visitor path .read devices
  unfold contents
  rcases opened : openAt (host.noting visitor) path .read devices with ⟨_ | held, later⟩
  · rwa [opened] at noted
  · rwa [opened] at noted

theorem HostFile.visits_rewrite (host : Host File Devices) (visitor : Host.Visitor)
    (path bytes : Bytes) (devices : Devices × Host.Visits) :
    (rewrite (host.noting visitor) path bytes devices).2.2 = devices.2 ++ [(visitor, path)] := by
  have noted := visits_openAt host visitor path .write devices
  unfold rewrite
  rcases opened : openAt (host.noting visitor) path .write devices with ⟨_ | held, later⟩
  · rwa [opened] at noted
  · rw [opened] at noted
    have kept : (held.write bytes later).2.2.2 = later.2 := rfl
    rcases wrote : held.write bytes later with ⟨_ | _, left, written⟩ <;> rw [wrote] at kept
    · simp only [wrote]
      exact kept.trans noted
    · simp only [wrote]
      exact kept.trans noted

theorem Folder.visits_get
    (member : visit ∈ (folder.get (host.noting visitor) name devices).devices.2) :
    visit ∈ devices.2 ∨ visit = (visitor, folder.path name) := by
  unfold get at member
  rcases found : (host.noting visitor).isPresent (folder.path name) devices with ⟨present, later⟩
  have noted : later.2 = devices.2 ++ [(visitor, folder.path name)] := by
    cases found
    rfl
  have opened := HostFile.visits_contents host visitor (folder.path name) later
  rcases read : HostFile.contents (host.noting visitor) (folder.path name) later
    with ⟨outcome, last⟩
  cases present with
  | false =>
    simp only [found] at member
    rw [noted] at member
    simpa using member
  | true =>
    rw [read, noted] at opened
    have twice : last.2 = devices.2 ++ [(visitor, folder.path name)] ++
        [(visitor, folder.path name)] := opened
    cases outcome <;> simpa [found, read, twice] using member

theorem SeedFolder.visits_fetch
    (member : visit ∈ (seeds.fetch (host.noting visitor) name devices).devices.2) :
    visit ∈ devices.2 ∨ visit = (visitor, seeds.path name) := by
  unfold fetch fetchBy at member
  rcases found : (host.noting visitor).isPresent (seeds.path name) devices with ⟨present, later⟩
  rcases read : (host.noting visitor).read (seeds.path name) later with ⟨reading, last⟩
  have noted : later.2 = devices.2 ++ [(visitor, seeds.path name)] := by
    cases found
    rfl
  have further : last.2 = later.2 ++ [(visitor, seeds.path name)] := by
    cases read
    rfl
  rw [noted] at further
  cases present with
  | false =>
    simp only [found] at member
    rw [noted] at member
    simpa using member
  | true =>
    cases reading with
    | content bytes =>
      cases gathered : gather (blocks bytes) <;>
        simpa [found, read, gathered, further] using member
    | directory => simpa [found, read, further] using member
    | refused => simpa [found, read, further] using member

theorem Folder.visits_set {content : Bytes}
    (member : visit ∈ (folder.set (host.noting visitor) name content devices).devices.2) :
    visit ∈ devices.2 ∨ visit = (visitor, folder.path name) := by
  unfold set at member
  have noted := HostFile.visits_rewrite host visitor (folder.path name) content devices
  rcases rewritten : HostFile.rewrite (host.noting visitor) (folder.path name) content devices
    with ⟨outcome, later⟩
  have once : later.2 = devices.2 ++ [(visitor, folder.path name)] := by
    rwa [rewritten] at noted
  cases outcome <;> simpa [rewritten, once] using member

theorem Folder.visits_remove
    (member : visit ∈ (folder.remove (host.noting visitor) name devices).devices.2) :
    visit ∈ devices.2 ∨ visit = (visitor, folder.path name) := by
  unfold remove at member
  rcases removed : (host.noting visitor).remove (folder.path name) devices with ⟨removal, later⟩
  have noted : later.2 = devices.2 ++ [(visitor, folder.path name)] := by
    cases removed
    rfl
  cases removal <;> simpa [removed, noted] using member

end Visits

variable {host : Host File Devices} {folder : Folder} {seeds? : Option SeedFolder}
variable {console : Console Devices}

namespace Peripherals

/-- A call for a name only goes to the path of that name. -/
theorem isDue_after {call : Call} {devices : Devices × Host.Visits}
    (nonempty : ∀ name, call.name? = some name → name ≠ [])
    (due : ∀ visit ∈ devices.2, IsDue folder seeds? visit) :
    ∀ visit ∈ ((onHost host folder seeds? console).after devices call).2,
      IsDue folder seeds? visit := by
  intro visit member
  cases call with
  | get name outcome =>
    rcases Folder.visits_get member with before | rfl
    · exact due visit before
    · exact ⟨name, nonempty name rfl, rfl⟩
  | set name content outcome =>
    rcases Folder.visits_set member with before | rfl
    · exact due visit before
    · exact ⟨name, nonempty name rfl, rfl⟩
  | remove name outcome =>
    rcases Folder.visits_remove member with before | rfl
    · exact due visit before
    · exact ⟨name, nonempty name rfl, rfl⟩
  | fetch name outcome =>
    cases seeds? with
    | none => exact due visit member
    | some seeds =>
      rcases SeedFolder.visits_fetch member with before | rfl
      · exact due visit before
      · exact ⟨seeds, rfl, name, rfl⟩
  | character typed => exact due visit member
  | line prompt typed => exact due visit member
  | firmware active => exact due visit member

theorem Serves.isDue {calls : List Call} {devices last : Devices × Host.Visits}
    (served : (onHost host folder seeds? console).Serves calls devices last)
    (nonempty : Concern (· ≠ []) calls) (due : ∀ visit ∈ devices.2, IsDue folder seeds? visit) :
    ∀ visit ∈ last.2, IsDue folder seeds? visit := by
  induction calls generalizing devices with
  | nil =>
    cases served
    exact due
  | cons call rest ih =>
    have here := nonempty call List.mem_cons_self
    exact ih served.2 (fun other member => nonempty other (List.mem_cons_of_mem _ member))
      (isDue_after here due)

end Peripherals

/-- What a program prints cannot lead out of the directories of the store and the source. Whatever
it prints and reads, for a store in a folder of a host and perhaps a source in a directory of it,
every path that is looked up, opened or removed for the store is that of some name, and leads from
the subdirectory of the folder by a single step to something below it; for the source it leads so
from its directory. Different names have different paths in the store. -/
theorem Dos.Reaches.visits_confined {monitor : Monitor} {devices : Devices}
    {dos : Dos (Devices × Host.Visits) Receiver}
    (reached : (Dos.initial monitor (devices, [])).Reaches
      (.onHost host folder seeds? console) (fun _ event => ∀ operation, event ≠ .file operation)
      dos) :
    let visits := dos.machine.devices.2
    (∀ path, (.store, path) ∈ visits → ∃ name step, path = folder.path name ∧
      path = folder.base ++ ascii "vfs/" ++ step ∧ Path.IsStep step) ∧
    (∀ path, (.source, path) ∈ visits → ∃ seeds step, seeds? = some seeds ∧
      path = seeds.base ++ step ∧ Path.IsStep step) ∧
    Function.Injective folder.path := by
  intro visits
  have typed := reached.mono fun session event typed => Event.names_ne_nil typed session
  obtain ⟨calls, served, nonempty, -⟩ := typed.concern (Session.consistent_initial monitor)
    (by intro name buffer found; cases found)
  have due := served.isDue nonempty (by simp [Dos.initial, Machine.initial])
  refine ⟨?_, ?_, ?_⟩
  · intro path member
    obtain ⟨name, present, rfl⟩ := due _ member
    exact ⟨name, HostName.encode name, rfl, rfl, HostName.isStep_encode present⟩
  · intro path member
    obtain ⟨seeds, given, name, rfl⟩ := due _ member
    exact ⟨seeds, _, given, List.append_assoc _ _ _, HostName.isStep_encode_txt _⟩
  · intro name other same
    exact HostName.encode_injective (List.append_cancel_left same)

/-- A program that opens `..` gets no further than a file in the store's directory. -/
theorem Dos.visits_confined_above :
    let folder := Folder.ofBase (ascii "games")
    let seeds := SeedFolder.ofBase (ascii "seeds")
    let peripherals := Peripherals.onHost Disk.host folder (some seeds) .silent
    let start : Dos (Disk × Host.Visits) Unit := .initial .off (.fresh, [])
    let opened := ((Event.execute (ascii "OPEN ..")).run peripherals start).2
    let visits := opened.machine.devices.2
    visits = [(.store, ascii "games/vfs/%2E."), (.source, ascii "seeds/__.txt")] ∧
      (∃ step, ascii "games/vfs/%2E." = folder.base ++ ascii "vfs/" ++ step ∧
        Path.IsStep step) ∧
      ∃ step, ascii "seeds/__.txt" = seeds.base ++ step ∧ Path.IsStep step := by
  intro folder seeds peripherals start opened visits
  have reached : start.Reaches peripherals
      (fun _ event => ∀ operation, event ≠ .file operation) opened :=
    .step .refl _ fun _ same => nomatch same
  have noted : visits = [(.store, ascii "games/vfs/%2E."), (.source, ascii "seeds/__.txt")] := by
    decide +kernel
  obtain ⟨confined, seeded, -⟩ := reached.visits_confined
  have first : (Host.Visitor.store, ascii "games/vfs/%2E.") ∈ visits := by simp [noted]
  have second : (Host.Visitor.source, ascii "seeds/__.txt") ∈ visits := by simp [noted]
  obtain ⟨_, step, _, stored, below⟩ := confined _ first
  obtain ⟨_, other, ⟨⟩, fetched, beside⟩ := seeded _ second
  exact ⟨noted, ⟨step, stored, below⟩, other, fetched, beside⟩

end DosText
