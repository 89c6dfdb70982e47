import DosText.Proofs.DiskFiles

/-! The directory of a folder on a disk, while it is there and after it has been removed. The host
name of the empty name is empty, so that its path is the directory itself: there it can be looked
up, and removed as long as nothing is in it. All other names leave the directory alone. -/

namespace DosText

open Peripherals (Contents)

namespace Folder

variable {folder : Folder} {name : Name}

/-- Whether the host takes the path of a name as that of a file. -/
def Takes (folder : Folder) (name : Name) : Prop :=
  HostName.IsTaken name ∧ (folder.path name).length ≤ Path.pathLimit

instance (folder : Folder) (name : Name) : Decidable (folder.Takes name) :=
  inferInstanceAs (Decidable (_ ∧ _))

theorem Takes.isEntry (takes : folder.Takes name) : folder.IsEntry (HostName.encode name) where
  toIsFileName := takes.1.isFileName
  fits := takes.2

theorem not_takes_nil (folder : Folder) : ¬folder.Takes [] := fun takes => takes.1.1 rfl

theorem path_nil (folder : Folder) : folder.path [] = folder.directory := List.append_nil _

theorem isPath_ofBase {base : Bytes} (nulless : 0 ∉ base) : (ofBase base).IsPath := by
  unfold ofBase
  split
  · exact ⟨by decide, by decide⟩
  · split
    · next slashed => exact ⟨slashed, nulless⟩
    · refine ⟨by simp, ?_⟩
      simp only [List.mem_append, List.mem_singleton, not_or]
      exact ⟨nulless, by decide⟩

end Folder

/-- The path of a name that is not empty is taken as a whole, or is too long. -/
theorem Folder.IsPath.read_name {folder : Folder} {name : Name} (isPath : folder.IsPath)
    (nonempty : name ≠ []) :
    Path.read (folder.path name) =
      if (folder.path name).length ≤ Path.pathLimit then
        .ok ⟨folder.base.head? = some slash,
          Path.stepsOf folder.directory ++ [HostName.encode name], false⟩
      else .error .nameTooLong := by
  split
  · next fits => exact isPath.read_path (HostName.isStep_encode nonempty) fits
  · next long =>
    refine Path.read_of_long ?_ (Nat.not_le.mp long)
    intro member
    rcases List.mem_append.mp member with inside | behind
    · exact isPath.zero_not_mem_directory inside
    · exact HostName.zero_not_mem_encode name behind

namespace Disk

variable {origin disk : Disk} {folder : Folder} {place location : Location} {step : Bytes}
variable {files : Contents} {name : Name}

/-- The base directory of a folder is at a place, and there is nothing in it. -/
structure Bare (disk : Disk) (folder : Folder) (place : Location) : Prop
    extends folder.IsPath where
  fits : folder.directory.length ≤ Path.pathLimit
  reached : disk.walk (disk.start folder) (Path.stepsOf folder.base) = .ok place
  directory : disk.node? place = some .directory
  empty : ∀ behind, behind ≠ [] → disk.node? (place ++ behind) = none

/-- A disk differs from an earlier one only at a location and below it. -/
structure AlikeBeside (location : Location) (origin disk : Disk) : Prop where
  home : disk.home = origin.home
  nodes : ∀ other, ¬location <+: other → disk.node? other = origin.node? other

theorem AlikeBeside.refl (location : Location) (disk : Disk) : AlikeBeside location disk disk :=
  ⟨rfl, fun _ _ => rfl⟩

theorem AlikeBeside.of_change (alike : AlikeBeside location origin disk) {later : Disk}
    (home : later.home = disk.home) {changed : Location} (within : location <+: changed)
    (elsewhere : ∀ other, other ≠ changed → later.node? other = disk.node? other) :
    AlikeBeside location origin later where
  home := home.trans alike.home
  nodes other beside := by
    rw [elsewhere other, alike.nodes other beside]
    rintro rfl
    exact beside within

theorem AlikeBeside.put (alike : AlikeBeside location origin disk) {changed : Location}
    (within : location <+: changed) (proper : changed ≠ []) (node : Node) :
    AlikeBeside location origin (disk.put changed node) :=
  alike.of_change rfl within fun _ differ => (node?_put _ _ _ _ proper).trans (if_neg differ)

theorem AlikeBeside.erase (alike : AlikeBeside location origin disk) {changed : Location}
    (within : location <+: changed) (proper : changed ≠ []) :
    AlikeBeside location origin { disk with nodes := disk.nodes.erase changed } :=
  alike.of_change rfl within fun _ differ => (node?_erase _ proper _).trans (if_neg differ)

theorem isFileName_vfs : Path.IsFileName (ascii "vfs") where
  nonempty := by decide
  slashless := by decide
  nulless := by decide
  below := by decide
  short := by decide

/-- Where the directory of a folder is. -/
def shelf (place : Location) : Location := place ++ [ascii "vfs"]

theorem shelf_ne_nil (place : Location) : shelf place ≠ [] := by simp [shelf]

/-- The directory of a folder is there, with files and nothing else in it. -/
structure Stands (origin disk : Disk) (folder : Folder) (place : Location) (files : Contents) :
    Prop where
  alike : AlikeBeside (shelf place) origin disk
  holds : disk.Holds folder (shelf place)
  contents : filesAt (shelf place) disk = files

/-- The directory of a folder is not there any more. -/
structure Gone (origin disk : Disk) (place : Location) : Prop where
  alike : AlikeBeside (shelf place) origin disk
  absent : disk.node? (shelf place) = none

/-- The way to the base directory does not lead through the directory of the folder, which was not
there at first. -/
theorem Bare.reached_of_alike (bare : origin.Bare folder place)
    (alike : AlikeBeside (shelf place) origin disk) :
    disk.walk (disk.start folder) (Path.stepsOf folder.base) = .ok place ∧
      disk.node? place = some .directory := by
  have kept : ∀ other, origin.node? other = some .directory →
      disk.node? other = some .directory := by
    intro other directory
    rw [alike.nodes other, directory]
    rintro ⟨behind, rfl⟩
    rw [shelf, List.append_assoc, bare.empty _ (by simp)] at directory
    cases directory
  have started : disk.start folder = origin.start folder := by rw [start, start, alike.home]
  rw [started]
  exact ⟨walk_of_directories kept bare.reached bare.directory, kept place bare.directory⟩

theorem Bare.target_directory (bare : origin.Bare folder place)
    (alike : AlikeBeside (shelf place) origin disk) :
    disk.target folder.directory = .ok ⟨place, ascii "vfs", true⟩ := by
  obtain ⟨reached, directory⟩ := bare.reached_of_alike alike
  unfold Disk.target
  rw [bare.read_directory bare.fits]
  simp only [bind, Except.bind, pure, Except.pure, origin_eq, bare.stepsOf_directory,
    List.dropLast_concat, reached, directory, List.getLast?_concat]
  rfl

theorem Gone.walk_error (gone : Gone origin disk place) (bare : origin.Bare folder place)
    (steps : List Name) :
    disk.walk (disk.start folder) (Path.stepsOf folder.directory ++ steps) = .error .missing := by
  obtain ⟨reached, directory⟩ := bare.reached_of_alike gone.alike
  have absent := gone.absent
  rw [shelf] at absent
  rw [bare.stepsOf_directory, List.append_assoc, walk_append, reached]
  show disk.walk place (ascii "vfs" :: steps) = _
  rw [walk, directory]
  simp only [absent]
  rfl

/-- On a host on which the directory is gone no name leads anywhere. -/
theorem Gone.locate_error (gone : Gone origin disk place) (bare : origin.Bare folder place)
    (name : Name) : ∃ obstacle, disk.locate (folder.path name) = .error obstacle := by
  have walked := gone.walk_error bare
  unfold Disk.locate
  by_cases empty : name = []
  · have here := walked []
    rw [List.append_nil] at here
    rw [empty, Folder.path_nil, bare.read_directory bare.fits]
    exact ⟨.missing, by simp [bind, Except.bind, origin_eq, here]⟩
  · rw [bare.read_name empty]
    split
    · exact ⟨.missing, by simp [bind, Except.bind, origin_eq, walked]⟩
    · exact ⟨.nameTooLong, rfl⟩

theorem Gone.target_error (gone : Gone origin disk place) (bare : origin.Bare folder place)
    (nonempty : name ≠ []) : ∃ obstacle, disk.target (folder.path name) = .error obstacle := by
  have walked := gone.walk_error bare []
  rw [List.append_nil] at walked
  unfold Disk.target
  rw [bare.read_name nonempty]
  split
  · exact ⟨.missing, by simp [bind, Except.bind, origin_eq, walked]⟩
  · exact ⟨.nameTooLong, rfl⟩

theorem Holds.locate_directory (holds : disk.Holds folder location) (isPath : folder.IsPath)
    (fits : folder.directory.length ≤ Path.pathLimit) :
    disk.locate folder.directory = .ok (location, .directory) := by
  unfold Disk.locate
  rw [isPath.read_directory fits]
  simp [bind, Except.bind, pure, Except.pure, origin_eq, holds.reached, holds.directory]

/-- A name that the host does not take leads to nothing and has no place where it could be. -/
theorem Holds.refuses (holds : disk.Holds folder location) (isPath : folder.IsPath)
    (nonempty : name ≠ []) (refused : ¬folder.Takes name) :
    disk.locate (folder.path name) = .error .nameTooLong ∧
      disk.target (folder.path name) = .error .nameTooLong := by
  have isStep := HostName.isStep_encode nonempty
  unfold Disk.locate Disk.target
  rw [isPath.read_name nonempty]
  split
  · next fits =>
    have long : Path.nameLimit < (HostName.encode name).length := by
      by_contra short
      exact refused ⟨⟨nonempty, Nat.not_lt.mp short⟩, fits⟩
    simp only [bind, Except.bind, origin_eq, walk_append, List.dropLast_concat, holds.reached,
      holds.directory, List.getLast?_concat]
    rw [walk, holds.directory]
    simp only [if_neg isStep.below.1, if_neg isStep.below.2, if_pos long]
    exact ⟨trivial, if_neg (not_or.mpr isStep.below)⟩
  · exact ⟨rfl, rfl⟩

/-- Removing the directory removes nothing else. -/
theorem Stands.remove_directory (stands : Stands origin disk folder place files)
    (bare : origin.Bare folder place) :
    (∃ step, files step ≠ none) ∧ disk.remove folder.directory = (.refused, disk) ∨
      (∀ step, files step = none) ∧ ∃ later, disk.remove folder.directory = (.done, later) ∧
        Gone origin later place := by
  have targeted := bare.target_directory stands.alike
  have occupied : disk.isOccupied (shelf place) = true ↔ ∃ step, files step ≠ none := by
    rw [isOccupied_iff, ← stands.contents]
    refine exists_congr fun name => ?_
    rcases stands.holds.files name with absent | ⟨content, file⟩
    · simp [filesAt, absent, fileOf]
    · simp [filesAt, file, fileOf]
  have removed : disk.remove folder.directory =
      if disk.isOccupied (shelf place) = true then (.refused, disk)
      else (.done, { disk with nodes := disk.nodes.erase (shelf place) }) := by
    have there : disk.node? (place ++ [ascii "vfs"]) = some .directory := stands.holds.directory
    simp only [Disk.remove, targeted, Target.location, there, shelf]
    rfl
  rw [removed]
  by_cases holding : disk.isOccupied (shelf place) = true
  · exact .inl ⟨occupied.mp holding, if_pos holding⟩
  · refine .inr ⟨?_, _, if_neg holding, ?_, ?_⟩
    · rw [occupied] at holding
      simpa using holding
    · exact stands.alike.erase (List.prefix_refl _) (shelf_ne_nil place)
    · rw [node?_erase disk (shelf_ne_nil place), if_pos rfl]

theorem Stands.put (stands : Stands origin disk folder place files) (step content : Bytes) :
    Stands origin (disk.put (shelf place ++ [step]) (.file content)) folder place
      (Function.update files step (some content)) := by
  obtain ⟨holds, contents⟩ := stands.holds.put_file step content
  rw [stands.contents] at contents
  exact ⟨stands.alike.put (List.prefix_append _ _) (by simp) _, holds, contents⟩

theorem Stands.replace (stands : Stands origin disk folder place files)
    (bare : origin.Bare folder place) (entry : folder.IsEntry step) (content : Bytes) :
    ∃ later, disk.replace (folder.directory ++ step) content = (true, later) ∧
      Stands origin later folder place (Function.update files step (some content)) := by
  exact ⟨_, stands.holds.replace bare.toIsPath entry content, stands.put step content⟩

theorem Stands.remove_entry (stands : Stands origin disk folder place files)
    (bare : origin.Bare folder place) (entry : folder.IsEntry step) :
    ∃ removal later, disk.remove (folder.directory ++ step) = (removal, later) ∧
      Stands origin later folder place (Function.update files step none) := by
  rcases stands.holds.remove bare.toIsPath entry with ⟨removed, absent⟩ | removed
  · refine ⟨.absent, disk, removed, ?_⟩
    rw [stands.contents] at absent
    rwa [Function.update_eq_self_iff.mpr absent.symm]
  · obtain ⟨holds, contents⟩ := stands.holds.erase_file step
    rw [stands.contents] at contents
    have alike := stands.alike.erase (List.prefix_append _ [step]) (by simp)
    exact ⟨.done, _, removed, alike, holds, contents⟩

end Disk

namespace Folder

variable {disk : Disk} {folder : Folder} {name : Name} {obstacle : Obstacle} {location : Location}

/-- Where a path leads nowhere, there is nothing for its name. -/
theorem get_of_error (missing : disk.locate (folder.path name) = .error obstacle) :
    (folder.get Disk.host name disk).outcome = .ok none ∧
      (folder.get Disk.host name disk).devices = disk := by
  simp [get, Disk.host, Disk.isPresent, missing]

/-- Where a path leads to something that can be opened, a name has what is read there. -/
theorem get_of_located {node : Node} {content : Bytes}
    (located : disk.locate (folder.path name) = .ok (location, node))
    (reads : disk.read (folder.path name) = .directory ∧ content = [] ∨
      disk.read (folder.path name) = .content content) :
    (folder.get Disk.host name disk).outcome = .ok (some content) ∧
      (folder.get Disk.host name disk).devices = disk := by
  have present : Disk.host.isPresent (folder.path name) disk = (true, disk) := by
    simp [Disk.host, Disk.isPresent, located]
  have read : HostFile.contents Disk.host (folder.path name) disk = (.ok content, disk) := by
    rw [HostFile.contents_host]
    rcases reads with ⟨directory, rfl⟩ | file
    · rw [directory]
    · rw [file]
  simp only [get, present, read]
  exact ⟨trivial, trivial⟩

theorem get_of_directory (located : disk.locate (folder.path name) = .ok (location, .directory)) :
    (folder.get Disk.host name disk).outcome = .ok (some []) ∧
      (folder.get Disk.host name disk).devices = disk :=
  get_of_located located (.inl ⟨by simp only [Disk.read, located], rfl⟩)

theorem get_of_file {content : Bytes}
    (located : disk.locate (folder.path name) = .ok (location, .file content)) :
    (folder.get Disk.host name disk).outcome = .ok (some content) ∧
      (folder.get Disk.host name disk).devices = disk :=
  get_of_located located (.inr (by simp only [Disk.read, located]))

/-- What is set is put in the place of what was there, or nothing is. -/
theorem set_eq (folder : Folder) (name : Name) (content : Bytes) (disk : Disk) :
    ((folder.set Disk.host name content disk).outcome =
      if (disk.replace (folder.path name) content).1 then .ok () else .error .cannotWrite) ∧
      (folder.set Disk.host name content disk).devices =
        (disk.replace (folder.path name) content).2 := by
  obtain ⟨outcome, rewritten, done⟩ := HostFile.rewrite_host (folder.path name) content disk
  simp only [set, rewritten]
  cases outcome with
  | ok _ => exact ⟨(if_pos (done.mp rfl)).symm, rfl⟩
  | error failure =>
    refine ⟨(if_neg fun worked => ?_).symm, rfl⟩
    cases done.mpr worked

/-- What cannot be made on the host cannot be set. -/
theorem set_of_error (content : Bytes)
    (refused : disk.create (folder.path name) = .error obstacle) :
    (folder.set Disk.host name content disk).outcome = .error .cannotWrite ∧
      (folder.set Disk.host name content disk).devices = disk := by
  have replaced : disk.replace (folder.path name) content = (false, disk) := by
    rw [Disk.replace, refused]
  have done := set_eq folder name content disk
  rwa [replaced] at done

theorem remove_of_error (refused : disk.target (folder.path name) = .error obstacle) :
    (folder.remove Disk.host name disk).devices = disk := by
  cases obstacle <;> simp [remove, Disk.host, Disk.remove, refused]

theorem remove_of_removed {removal : Host.Removal} {later : Disk}
    (removed : disk.remove (folder.path name) = (removal, later)) :
    (folder.remove Disk.host name disk).devices = later := by
  cases removal <;> simp [remove, Disk.host, removed]

end Folder

namespace Disk

variable {origin disk : Disk} {folder : Folder} {place : Location} {files : Contents}
variable {name : Name}

theorem create_of_error {text : Bytes} {obstacle : Obstacle}
    (refused : disk.target text = .error obstacle) : disk.create text = .error obstacle := by
  simp [create, refused, bind, Except.bind]

theorem Bare.create_directory (bare : origin.Bare folder place)
    (alike : AlikeBeside (shelf place) origin disk) :
    disk.create folder.directory = .error .isDirectory := by
  simp [create, bare.target_directory alike, bind, Except.bind]

/-- A name that there is no place for cannot be set, nor can the empty name, since its path is that
of a directory. -/
theorem Bare.set_refused (bare : origin.Bare folder place)
    (alike : AlikeBeside (shelf place) origin disk)
    (refused : name ≠ [] → ∃ obstacle, disk.target (folder.path name) = .error obstacle)
    (content : Bytes) : (folder.set Disk.host name content disk).outcome = .error .cannotWrite ∧
      (folder.set Disk.host name content disk).devices = disk := by
  by_cases empty : name = []
  · have created := bare.create_directory alike
    rw [← Folder.path_nil, ← empty] at created
    exact Folder.set_of_error content created
  · obtain ⟨obstacle, targeted⟩ := refused empty
    exact Folder.set_of_error content (create_of_error targeted)

/-- What is got while the directory is there. The empty name is answered with the directory. -/
theorem Stands.get (stands : Stands origin disk folder place files)
    (bare : origin.Bare folder place) (name : Name) :
    (folder.get Disk.host name disk).outcome = .ok (if name = [] then some []
      else if folder.Takes name then files (HostName.encode name) else none) ∧
      (folder.get Disk.host name disk).devices = disk := by
  by_cases empty : name = []
  · have located := stands.holds.locate_directory bare.toIsPath bare.fits
    rw [← Folder.path_nil, ← empty] at located
    rw [if_pos empty]
    exact Folder.get_of_directory located
  · rw [if_neg empty]
    by_cases takes : folder.Takes name
    · rw [if_pos takes, ← stands.contents, filesAt]
      have located := stands.holds.locate bare.toIsPath takes.isEntry
      rcases stands.holds.files (HostName.encode name) with absent | ⟨content, file⟩
      · rw [absent] at located ⊢
        exact Folder.get_of_error located
      · rw [file] at located ⊢
        exact Folder.get_of_file located
    · rw [if_neg takes]
      exact Folder.get_of_error (stands.holds.refuses bare.toIsPath empty takes).1

theorem Stands.set (stands : Stands origin disk folder place files)
    (bare : origin.Bare folder place) (takes : folder.Takes name) (content : Bytes) :
    (folder.set Disk.host name content disk).outcome = .ok () ∧
      Stands origin (folder.set Disk.host name content disk).devices folder place
        (Function.update files (HostName.encode name) (some content)) := by
  obtain ⟨later, replaced, still⟩ := stands.replace bare takes.isEntry content
  have done := Folder.set_eq folder name content disk
  rw [show folder.path name = folder.directory ++ HostName.encode name from rfl, replaced] at done
  exact ⟨done.1, done.2 ▸ still⟩

theorem Stands.set_refused (stands : Stands origin disk folder place files)
    (bare : origin.Bare folder place) (refused : ¬folder.Takes name) (content : Bytes) :
    (folder.set Disk.host name content disk).outcome = .error .cannotWrite ∧
      (folder.set Disk.host name content disk).devices = disk := by
  refine bare.set_refused stands.alike (fun nonempty => ?_) content
  exact ⟨_, (stands.holds.refuses bare.toIsPath nonempty refused).2⟩

theorem Stands.remove (stands : Stands origin disk folder place files)
    (bare : origin.Bare folder place) (takes : folder.Takes name) :
    Stands origin (folder.remove Disk.host name disk).devices folder place
      (Function.update files (HostName.encode name) none) := by
  obtain ⟨removal, later, removed, still⟩ := stands.remove_entry bare takes.isEntry
  rwa [Folder.remove_of_removed removed]

theorem Gone.get (gone : Gone origin disk place) (bare : origin.Bare folder place) (name : Name) :
    (folder.get Disk.host name disk).outcome = .ok none ∧
      (folder.get Disk.host name disk).devices = disk := by
  obtain ⟨obstacle, missing⟩ := gone.locate_error bare name
  exact Folder.get_of_error missing

theorem Gone.set (gone : Gone origin disk place) (bare : origin.Bare folder place) (name : Name)
    (content : Bytes) : (folder.set Disk.host name content disk).outcome = .error .cannotWrite ∧
      (folder.set Disk.host name content disk).devices = disk :=
  bare.set_refused gone.alike (gone.target_error bare) content

theorem Gone.remove (gone : Gone origin disk place) (bare : origin.Bare folder place)
    (name : Name) : (folder.remove Disk.host name disk).devices = disk := by
  by_cases empty : name = []
  · have absent : disk.remove (folder.path name) = (.absent, disk) := by
      have there : disk.node? (place ++ [ascii "vfs"]) = none := gone.absent
      rw [empty, Folder.path_nil]
      simp only [Disk.remove, bare.target_directory gone.alike, Target.location, there]
    exact Folder.remove_of_removed absent
  · obtain ⟨obstacle, refused⟩ := gone.target_error bare empty
    exact Folder.remove_of_error refused

/-- The making of a store in an empty directory makes the directory of its folder. -/
theorem Bare.devices_establish (bare : origin.Bare folder place) :
    (folder.establish Disk.host origin).devices = origin.put (shelf place) .directory := by
  have short : folder.base.length ≤ Path.pathLimit := by
    have fits := bare.fits
    have length := Folder.IsPath.length_directory folder
    omega
  have base : origin.makeDirectory folder.base = .error .occupied := by
    refine makeDirectory_of_walk (bare.read_base short) ?_ bare.directory
    rw [origin_eq]
    exact bare.reached
  have made : origin.makeDirectory folder.directory =
      .ok (origin.put (shelf place) .directory) := by
    have absent : origin.node? (place ++ [ascii "vfs"]) = none := bare.empty _ (by simp)
    have targeted := bare.target_directory (.refl _ origin)
    simp only [Disk.makeDirectory, targeted, Target.location, absent, shelf]
  simp only [Folder.establish, Folder.ensure, Disk.host, base, made]

/-- There is no file in it at first. -/
theorem Bare.establish (bare : origin.Bare folder place) :
    Stands origin (folder.establish Disk.host origin).devices folder place fun _ => none := by
  have put := fun other => node?_put origin (shelf place) other .directory (shelf_ne_nil place)
  have alike : AlikeBeside (shelf place) origin (origin.put (shelf place) .directory) :=
    (AlikeBeside.refl _ origin).put (List.prefix_refl _) (shelf_ne_nil place) _
  have there : (origin.put (shelf place) .directory).node? (shelf place) = some .directory := by
    rw [put, if_pos rfl]
  have absent : ∀ name,
      (origin.put (shelf place) .directory).node? (shelf place ++ [name]) = none := by
    intro name
    rw [put, if_neg (by simp), shelf, List.append_assoc]
    exact bare.empty _ (by simp)
  obtain ⟨reached, directory⟩ := bare.reached_of_alike alike
  rw [bare.devices_establish]
  refine ⟨alike, ⟨?_, there, fun name => .inl (absent name)⟩, ?_⟩
  · rw [bare.stepsOf_directory, walk_append, reached]
    refine (walk_step directory isFileName_vfs).trans (if_pos ?_)
    rw [← shelf, there]
    rfl
  · funext name
    rw [filesAt, absent name]
    rfl

/-- The making of a store can only succeed if its directory has a path that the host takes. -/
theorem fits_of_establish (isPath : folder.IsPath)
    (made : (folder.establish Disk.host origin).outcome = .ok ()) :
    folder.directory.length ≤ Path.pathLimit := by
  by_contra long
  have refused : ∀ disk, (Folder.ensure Disk.host folder.directory disk).outcome =
      .error .cannotWrite := by
    intro disk
    have read := Path.read_of_long isPath.zero_not_mem_directory (Nat.not_le.mp long)
    simp [Folder.ensure, Disk.host, Disk.makeDirectory, Disk.target, read, bind, Except.bind]
  unfold Folder.establish at made
  cases first : (Folder.ensure Disk.host folder.base origin).outcome with
  | error failure => simp [first] at made
  | ok => simp [first, refused] at made

/-- Nothing stands below a location of which nothing is listed. -/
theorem node?_of_below_eq_nil (empty : disk.below place = []) {behind : List Name}
    (proper : behind ≠ []) : disk.node? (place ++ behind) = none := by
  by_contra present
  obtain ⟨node, found⟩ := Option.ne_none_iff_exists'.mp present
  rw [node?, if_neg (List.append_ne_nil_of_right_ne_nil _ proper),
    Catalog.find?_eq_some_iff] at found
  have listed := List.filterMap_eq_nil_iff.mp empty _ found
  simp [proper] at listed

theorem Bare.of_locate (isPath : folder.IsPath)
    (made : (folder.establish Disk.host origin).outcome = .ok ())
    (leads : origin.locate folder.base = .ok (place, .directory))
    (empty : origin.below place = []) : origin.Bare folder place := by
  have fits := fits_of_establish isPath made
  have length := Folder.IsPath.length_directory folder
  unfold locate at leads
  rw [isPath.read_base (by omega)] at leads
  simp only [bind, Except.bind, origin_eq] at leads
  cases walked : origin.walk (origin.start folder) (Path.stepsOf folder.base) with
  | error obstacle =>
    rw [walked] at leads
    cases leads
  | ok location =>
    cases there : origin.node? location with
    | none => simp [walked, there] at leads
    | some node =>
      simp only [walked, there] at leads
      split at leads
      · cases leads
      · cases leads
        exact ⟨isPath, fits, walked, there, fun behind proper => node?_of_below_eq_nil empty proper⟩

end Disk

end DosText
