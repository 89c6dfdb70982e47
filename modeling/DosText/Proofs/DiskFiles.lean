import DosText.Proofs.HostFiles
import DosText.Proofs.WholeFiles

/-! The files of a directory on a disk. How a path is taken apart and followed does not depend on
the files in the directory that it leads to, so these behave as a map from names to contents. -/

namespace DosText

open Peripherals (Contents)

namespace Path

theorem pieces_ne_nil (text : Bytes) : pieces text ≠ [] := by
  cases text with
  | nil => simp [pieces]
  | cons byte rest =>
    rw [pieces]
    split
    · simp
    · split <;> simp

/-- What stands before a slash and what stands behind it are taken apart on their own. -/
theorem pieces_append_slash (before behind : Bytes) :
    pieces (before ++ slash :: behind) = pieces before ++ pieces behind := by
  induction before with
  | nil => rfl
  | cons byte rest ih =>
    rw [List.cons_append, pieces, pieces, ih]
    split
    · rfl
    · cases pieced : pieces rest with
      | nil => exact absurd pieced (pieces_ne_nil rest)
      | cons piece others => rfl

theorem pieces_of_slashless {step : Bytes} (slashless : slash ∉ step) : pieces step = [step] := by
  induction step with
  | nil => rfl
  | cons byte rest ih =>
    rw [List.mem_cons, not_or] at slashless
    rw [pieces, if_neg (Ne.symm slashless.1), ih slashless.2]

/-- The steps of a path. -/
def stepsOf (text : Bytes) : List Name := (pieces text).filter (· ≠ [])

theorem stepsOf_append_slash (before behind : Bytes) :
    stepsOf (before ++ slash :: behind) = stepsOf before ++ stepsOf behind := by
  rw [stepsOf, pieces_append_slash, List.filter_append]
  rfl

theorem stepsOf_step {step : Bytes} (isStep : IsStep step) : stepsOf step = [step] := by
  rw [stepsOf, pieces_of_slashless isStep.slashless]
  simp [isStep.nonempty]

theorem read_eq {text : Bytes} (nonempty : text ≠ []) (nulless : 0 ∉ text)
    (short : text.length ≤ pathLimit) :
    read text = .ok ⟨text.head? = some slash, stepsOf text, text.getLast? = some slash⟩ := by
  unfold read
  rw [beforeNul_of_free nulless, if_neg nonempty, if_neg (Nat.not_lt.mpr short)]
  rfl

/-- A path that is too long leads nowhere. -/
theorem read_of_long {text : Bytes} (nulless : 0 ∉ text) (long : pathLimit < text.length) :
    read text = .error .nameTooLong := by
  have nonempty : text ≠ [] := by
    rintro rfl
    exact absurd long (Nat.not_lt_zero _)
  unfold read
  rw [beforeNul_of_free nulless, if_neg nonempty, if_pos long]

end Path

/-- Whether the base directory of a folder is a path of the host. -/
structure Folder.IsPath (folder : Folder) : Prop where
  ended : folder.base.getLast? = some slash
  nulless : 0 ∉ folder.base

/-- Whether the base directory of a folder is a path of the host that leaves room for names. -/
structure Folder.IsHostPath (folder : Folder) : Prop where
  ended : folder.base.getLast? = some slash
  nulless : 0 ∉ folder.base
  short : folder.base.length + 4 + Path.nameLimit ≤ Path.pathLimit

/-- Whether the host takes a text as the name of a file in the directory of a folder. -/
structure Folder.IsEntry (folder : Folder) (step : Bytes) : Prop extends Path.IsFileName step where
  fits : (folder.directory ++ step).length ≤ Path.pathLimit

namespace Folder.IsPath

variable {folder : Folder} {step : Bytes}

theorem nonempty (isPath : folder.IsPath) : folder.base ≠ [] := by
  intro empty
  have ended := isPath.ended
  rw [empty] at ended
  cases ended

/-- The subdirectory is one step below the base directory, and each file one step below that. -/
theorem stepsOf_directory (isPath : folder.IsPath) :
    Path.stepsOf folder.directory = Path.stepsOf folder.base ++ [ascii "vfs"] := by
  obtain ⟨stem, base⟩ := List.getLast?_eq_some_iff.mp isPath.ended
  have below : Path.stepsOf (ascii "vfs/") = [ascii "vfs"] := by decide
  rw [directory, base, List.append_assoc, List.singleton_append, Path.stepsOf_append_slash,
    Path.stepsOf_append_slash, below]
  simp [Path.stepsOf, Path.pieces]

theorem stepsOf_path (folder : Folder) (isStep : Path.IsStep step) :
    Path.stepsOf (folder.directory ++ step) = Path.stepsOf folder.directory ++ [step] := by
  have ended : folder.directory = folder.base ++ ascii "vfs" ++ [slash] := by
    rw [List.append_assoc]
    rfl
  rw [ended, List.append_assoc, List.singleton_append, Path.stepsOf_append_slash,
    Path.stepsOf_append_slash, Path.stepsOf_step isStep]
  simp [Path.stepsOf, Path.pieces]

theorem read_base (isPath : folder.IsPath) (fits : folder.base.length ≤ Path.pathLimit) :
    Path.read folder.base =
      .ok ⟨folder.base.head? = some slash, Path.stepsOf folder.base, true⟩ := by
  rw [Path.read_eq isPath.nonempty isPath.nulless fits, isPath.ended]
  simp

theorem head?_directory_append (isPath : folder.IsPath) (behind : Bytes) :
    (folder.directory ++ behind).head? = folder.base.head? := by
  obtain ⟨first, rest, base⟩ := List.exists_cons_of_ne_nil isPath.nonempty
  rw [directory, base]
  rfl

theorem zero_not_mem_directory (isPath : folder.IsPath) : 0 ∉ folder.directory := by
  intro member
  rcases List.mem_append.mp member with inside | behind
  · exact isPath.nulless inside
  · exact absurd behind (by decide)

theorem length_directory (folder : Folder) : folder.directory.length = folder.base.length + 4 :=
  List.length_append

theorem directory_ne_nil (isPath : folder.IsPath) : folder.directory ≠ [] :=
  List.append_ne_nil_of_left_ne_nil isPath.nonempty _

theorem read_directory (isPath : folder.IsPath)
    (fits : folder.directory.length ≤ Path.pathLimit) :
    Path.read folder.directory =
      .ok ⟨folder.base.head? = some slash, Path.stepsOf folder.directory, true⟩ := by
  have head := isPath.head?_directory_append []
  have last : folder.directory.getLast? = some slash := by
    rw [directory, List.getLast?_append]
    rfl
  rw [List.append_nil] at head
  rw [Path.read_eq isPath.directory_ne_nil isPath.zero_not_mem_directory fits, head, last]
  simp

theorem read_path (isPath : folder.IsPath) (isStep : Path.IsStep step)
    (fits : (folder.directory ++ step).length ≤ Path.pathLimit) :
    Path.read (folder.directory ++ step) =
      .ok ⟨folder.base.head? = some slash, Path.stepsOf folder.directory ++ [step], false⟩ := by
  have nulless : 0 ∉ folder.directory ++ step := by
    intro member
    rcases List.mem_append.mp member with inside | behind
    · exact isPath.zero_not_mem_directory inside
    · exact isStep.nulless behind
  have last : step.getLast? ≠ some slash :=
    fun same => isStep.slashless (List.mem_of_getLast? same)
  rw [Path.read_eq (List.append_ne_nil_of_left_ne_nil isPath.directory_ne_nil _) nulless fits,
    isPath.head?_directory_append, stepsOf_path folder isStep]
  simp [last, isStep.nonempty]

end Folder.IsPath

namespace Folder.IsHostPath

variable {folder : Folder} {step : Bytes}

theorem isPath (host : folder.IsHostPath) : folder.IsPath := ⟨host.ended, host.nulless⟩

theorem fits_directory (host : folder.IsHostPath) :
    folder.directory.length ≤ Path.pathLimit := by
  have short := host.short
  have length := IsPath.length_directory folder
  omega

theorem fits_base (host : folder.IsHostPath) : folder.base.length ≤ Path.pathLimit := by
  have short := host.short
  omega

theorem isEntry (host : folder.IsHostPath) (name : Path.IsFileName step) :
    folder.IsEntry step where
  toIsFileName := name
  fits := by
    have short := host.short
    have length := IsPath.length_directory folder
    have limit := name.short
    rw [List.length_append]
    omega

end Folder.IsHostPath

namespace Disk

variable {disk other : Disk} {location last : Location}

theorem walk_append (disk : Disk) (location : Location) (first second : List Name) :
    disk.walk location (first ++ second) =
      (disk.walk location first >>= fun reached => disk.walk reached second) := by
  induction first generalizing location with
  | nil => rfl
  | cons step rest ih =>
    rw [List.cons_append, walk, walk]
    split
    · rfl
    · split
      · exact ih location
      · split
        · exact ih _
        · split
          · rfl
          · split
            · exact ih _
            · rfl
    · rfl

/-- A way that ends in a directory begins in one. -/
theorem node?_of_walk {steps : List Name} (walked : disk.walk location steps = .ok last)
    (ends : disk.node? last = some .directory) : disk.node? location = some .directory := by
  cases steps with
  | nil =>
    cases walked
    exact ends
  | cons step rest =>
    rw [walk] at walked
    split at walked
    · cases walked
    · next here => exact here
    · cases walked

/-- A way to a directory stays as it is as long as all directories do. -/
theorem walk_of_directories {steps : List Name}
    (kept : ∀ place, disk.node? place = some .directory → other.node? place = some .directory)
    (walked : disk.walk location steps = .ok last) (ends : disk.node? last = some .directory) :
    other.walk location steps = .ok last := by
  induction steps generalizing location with
  | nil => exact walked
  | cons step rest ih =>
    have here := node?_of_walk walked ends
    rw [walk, here] at walked
    rw [walk, kept location here]
    simp only at walked ⊢
    split at walked
    · next stays =>
      rw [if_pos stays]
      exact ih walked
    · next moves =>
      rw [if_neg moves]
      split at walked
      · next up =>
        rw [if_pos up]
        exact ih walked
      · next down =>
        rw [if_neg down]
        split at walked
        · cases walked
        · next short =>
          rw [if_neg short]
          split at walked
          · have there := kept _ (node?_of_walk walked ends)
            rw [there, Option.isSome_some, if_pos rfl]
            exact ih walked
          · cases walked

/-- Where the path of a folder starts. -/
def start (disk : Disk) (folder : Folder) : Location :=
  if folder.base.head? = some slash then [] else disk.home

/-- Whether the directory of a folder is at a location, with nothing but files in it. -/
structure Holds (disk : Disk) (folder : Folder) (location : Location) : Prop where
  reached : disk.walk (disk.start folder) (Path.stepsOf folder.directory) = .ok location
  directory : disk.node? location = some .directory
  files : ∀ name, disk.node? (location ++ [name]) = none ∨
    ∃ content, disk.node? (location ++ [name]) = some (.file content)

/-- The content of the file that may stand somewhere. -/
def fileOf : Option Node → Option Bytes
  | some (.file content) => some content
  | _ => none

/-- The contents of the files at a location. -/
def filesAt (location : Location) (disk : Disk) : Contents :=
  fun name => fileOf (disk.node? (location ++ [name]))

section Holds

variable {folder : Folder} {step : Bytes}

theorem origin_eq (disk : Disk) (folder : Folder) (steps : List Name) (directoryOnly : Bool) :
    disk.origin ⟨folder.base.head? = some slash, steps, directoryOnly⟩ = disk.start folder := by
  simp [origin, start]

/-- One step from a directory to what is in it. -/
theorem walk_step (below : disk.node? location = some .directory) (name : Path.IsFileName step) :
    disk.walk location [step] =
      if (disk.node? (location ++ [step])).isSome then .ok (location ++ [step])
      else .error .missing := by
  rw [walk, below]
  simp only [if_neg name.below.1, if_neg name.below.2, if_neg (Nat.not_lt.mpr name.short), walk]

theorem Holds.target (holds : disk.Holds folder location) (isPath : folder.IsPath)
    (entry : folder.IsEntry step) :
    disk.target (folder.directory ++ step) = .ok ⟨location, step, false⟩ := by
  unfold Disk.target
  rw [isPath.read_path entry.toIsStep entry.fits]
  simp only [bind, Except.bind, pure, Except.pure, origin_eq, List.dropLast_concat, holds.reached,
    holds.directory, List.getLast?_concat]
  rw [if_neg (not_or.mpr entry.below), if_neg (Nat.not_lt.mpr entry.short)]

theorem Holds.locate (holds : disk.Holds folder location) (isPath : folder.IsPath)
    (entry : folder.IsEntry step) :
    disk.locate (folder.directory ++ step) =
      match disk.node? (location ++ [step]) with
      | some node => .ok (location ++ [step], node)
      | none => .error .missing := by
  unfold Disk.locate
  rw [isPath.read_path entry.toIsStep entry.fits]
  simp only [bind, Except.bind, pure, Except.pure, origin_eq]
  rw [walk_append, holds.reached]
  simp only [bind, Except.bind]
  rw [walk_step holds.directory entry.toIsFileName]
  cases there : disk.node? (location ++ [step]) with
  | none => simp
  | some node => simp [there]

/-- A directory stays what it is when a file in it comes, goes or changes, and the other files in
it stay as they are. -/
theorem Holds.of_change (holds : disk.Holds folder location) (other : Disk)
    (home : other.home = disk.home)
    (elsewhere : ∀ place, place ≠ location ++ [step] → other.node? place = disk.node? place)
    (there : other.node? (location ++ [step]) = none ∨
      ∃ content, other.node? (location ++ [step]) = some (.file content)) :
    other.Holds folder location ∧ filesAt location other =
      Function.update (filesAt location disk) step (fileOf (other.node? (location ++ [step]))) := by
  have kept : ∀ place, disk.node? place = some .directory →
      other.node? place = some .directory := by
    intro place directory
    rw [elsewhere place, directory]
    rintro rfl
    rcases holds.files step with absent | ⟨content, file⟩
    · rw [absent] at directory
      cases directory
    · rw [file] at directory
      cases directory
  refine ⟨⟨?_, kept _ holds.directory, fun name => ?_⟩, ?_⟩
  · have started : other.start folder = disk.start folder := by
      rw [start, start, home]
    rw [started]
    exact walk_of_directories kept holds.reached holds.directory
  · by_cases same : name = step
    · rw [same]
      exact there
    · rw [elsewhere _ (by simpa using same)]
      exact holds.files name
  · funext name
    rw [Function.update_apply]
    split
    · next same =>
      rw [same]
      rfl
    · next differ =>
      rw [filesAt, filesAt, elsewhere _ (by simpa using differ)]

theorem Holds.put_file (holds : disk.Holds folder location) (step content : Bytes) :
    (disk.put (location ++ [step]) (.file content)).Holds folder location ∧
      filesAt location (disk.put (location ++ [step]) (.file content)) =
        Function.update (filesAt location disk) step (some content) := by
  have put := fun place => node?_put disk (location ++ [step]) place (.file content) (by simp)
  have there := put (location ++ [step])
  rw [if_pos rfl] at there
  have changed := holds.of_change (disk.put (location ++ [step]) (.file content)) rfl
    (fun place differ => (put place).trans (if_neg differ)) (.inr ⟨content, there⟩)
  rw [there] at changed
  exact changed

/-- A file is emptied, or made. -/
theorem Holds.create (holds : disk.Holds folder location) (isPath : folder.IsPath)
    (entry : folder.IsEntry step) :
    disk.create (folder.directory ++ step) =
      .ok (location ++ [step], disk.put (location ++ [step]) (.file [])) := by
  unfold Disk.create
  rw [holds.target isPath entry]
  simp only [bind, Except.bind, pure, Except.pure, Target.location, Bool.false_eq_true, if_false]
  rcases holds.files step with absent | ⟨old, file⟩
  · rw [absent]
  · rw [file]

theorem node?_put_self (disk : Disk) (location : Location) (step : Bytes) (node : Node) :
    (disk.put (location ++ [step]) node).node? (location ++ [step]) = some node := by
  rw [node?_put disk _ _ _ (by simp), if_pos rfl]

/-- A file is emptied, or made, and then written. -/
theorem Holds.replace (holds : disk.Holds folder location) (isPath : folder.IsPath)
    (entry : folder.IsEntry step) (content : Bytes) :
    disk.replace (folder.directory ++ step) content =
      (true, disk.put (location ++ [step]) (.file content)) := by
  unfold Disk.replace
  rw [holds.create isPath entry]
  simp only [append, node?_put_self, List.nil_append, put_put]

theorem node?_erase (disk : Disk) {location : Location} (proper : location ≠ [])
    (place : Location) :
    ({ disk with nodes := disk.nodes.erase location } : Disk).node? place =
      if place = location then none else disk.node? place := by
  by_cases root : place = []
  · subst root
    simp [node?, Ne.symm proper]
  · simp [node?, root, Catalog.find?_erase]

theorem Holds.erase_file (holds : disk.Holds folder location) (step : Bytes) :
    ({ disk with nodes := disk.nodes.erase (location ++ [step]) } : Disk).Holds folder location ∧
      filesAt location { disk with nodes := disk.nodes.erase (location ++ [step]) } =
        Function.update (filesAt location disk) step none := by
  have proper : location ++ [step] ≠ [] := List.append_ne_nil_of_right_ne_nil _ (by simp)
  have erased := node?_erase disk proper
  have there := erased (location ++ [step])
  rw [if_pos rfl] at there
  have changed := holds.of_change { disk with nodes := disk.nodes.erase (location ++ [step]) } rfl
    (fun place differ => (erased place).trans (if_neg differ)) (.inl there)
  rw [there] at changed
  exact changed

/-- A file is removed unless it is not there. -/
theorem Holds.remove (holds : disk.Holds folder location) (isPath : folder.IsPath)
    (entry : folder.IsEntry step) :
    disk.remove (folder.directory ++ step) = (.absent, disk) ∧ filesAt location disk step = none ∨
      disk.remove (folder.directory ++ step) =
        (.done, { disk with nodes := disk.nodes.erase (location ++ [step]) }) := by
  have targeted := holds.target isPath entry
  rcases holds.files step with absent | ⟨content, file⟩
  · refine .inl ⟨?_, by rw [filesAt, absent]; rfl⟩
    simp only [Disk.remove, targeted, Target.location, absent]
  · refine .inr ?_
    simp only [Disk.remove, targeted, Target.location, file, Bool.false_eq_true, if_false]

/-- The last step of a way is to stay, to go up or to go to something that is there. -/
theorem isSome_of_walk_step {name : Name} (walked : disk.walk location [name] = .ok last)
    (below : disk.node? location = some .directory)
    (proper : ¬(name = Path.here ∨ name = Path.above)) :
    name.length ≤ Path.nameLimit ∧ (disk.node? (location ++ [name])).isSome = true := by
  rw [not_or] at proper
  rw [walk, below] at walked
  simp only [if_neg proper.1, if_neg proper.2] at walked
  split at walked
  · cases walked
  · next short =>
    split at walked
    · next present => exact ⟨Nat.not_lt.mp short, present⟩
    · cases walked

/-- What leads to a directory is no place for anything new. -/
theorem target_of_walk {text : Bytes} {path : Path} (read : Path.read text = .ok path)
    (walked : disk.walk (disk.origin path) path.steps = .ok location)
    (ends : disk.node? location = some .directory) :
    disk.target text = .error .isDirectory ∨
      ∃ target, disk.target text = .ok target ∧ (disk.node? target.location).isSome = true := by
  unfold Disk.target
  rw [read]
  simp only [bind, Except.bind, pure, Except.pure]
  rcases List.eq_nil_or_concat path.steps with empty | ⟨before, name, steps⟩
  · rw [empty] at walked ⊢
    cases walked
    simp only [List.dropLast_nil, walk, ends, List.getLast?_nil]
    exact .inl trivial
  · rw [List.concat_eq_append] at steps
    rw [steps, walk_append] at walked
    rw [steps, List.dropLast_concat, List.getLast?_concat]
    cases first : disk.walk (disk.origin path) before with
    | error obstacle =>
      rw [first] at walked
      cases walked
    | ok parent =>
      rw [first] at walked
      have begun := node?_of_walk walked ends
      simp only [begun]
      split
      · exact .inl rfl
      · next proper =>
        obtain ⟨short, present⟩ := isSome_of_walk_step walked begun proper
        rw [if_neg (Nat.not_lt.mpr short)]
        exact .inr ⟨_, rfl, present⟩

/-- What leads to a directory is never made again. -/
theorem makeDirectory_of_walk {text : Bytes} {path : Path} (read : Path.read text = .ok path)
    (walked : disk.walk (disk.origin path) path.steps = .ok location)
    (ends : disk.node? location = some .directory) :
    disk.makeDirectory text = .error .occupied := by
  unfold Disk.makeDirectory
  rcases target_of_walk read walked ends with isDirectory | ⟨target, found, present⟩
  · rw [isDirectory]
  · obtain ⟨node, there⟩ := Option.isSome_iff_exists.mp present
    rw [found]
    simp only [there]

theorem Holds.makeDirectory_base (holds : disk.Holds folder location) (host : folder.IsHostPath) :
    disk.makeDirectory folder.base = .error .occupied := by
  have reached := holds.reached
  rw [host.isPath.stepsOf_directory, walk_append] at reached
  cases base : disk.walk (disk.start folder) (Path.stepsOf folder.base) with
  | error obstacle =>
    rw [base] at reached
    cases reached
  | ok place =>
    rw [base] at reached
    have directory := node?_of_walk reached holds.directory
    refine makeDirectory_of_walk (host.isPath.read_base host.fits_base) ?_ directory
    rw [origin_eq]
    exact base

theorem Holds.makeDirectory_directory (holds : disk.Holds folder location)
    (host : folder.IsHostPath) : disk.makeDirectory folder.directory = .error .occupied := by
  refine makeDirectory_of_walk (host.isPath.read_directory host.fits_directory) ?_ holds.directory
  rw [origin_eq]
  exact holds.reached

end Holds

/-- A directory is occupied by what stands one step below it. -/
theorem isOccupied_iff (disk : Disk) (location : Location) :
    disk.isOccupied location = true ↔ ∃ name, disk.node? (location ++ [name]) ≠ none := by
  have listed : ∀ name, disk.node? (location ++ [name]) ≠ none ↔
      location ++ [name] ∈ disk.nodes.keys := by
    intro name
    rw [node?, if_neg (by simp), Catalog.mem_keys_iff, Option.ne_none_iff_exists']
  simp only [isOccupied, List.any_eq_true, decide_eq_true_eq, listed]
  constructor
  · rintro ⟨other, member, proper, rfl⟩
    exact ⟨other.getLast proper, by rwa [List.dropLast_concat_getLast]⟩
  · rintro ⟨name, member⟩
    exact ⟨_, member, by simp, by simp⟩

/-- A directory in which nothing stands holds no files. -/
theorem Holds.of_unoccupied (folder : Folder)
    (reached : disk.walk (disk.start folder) (Path.stepsOf folder.directory) = .ok location)
    (directory : disk.node? location = some .directory)
    (unoccupied : disk.isOccupied location = false) :
    disk.Holds folder location ∧ ∀ step, filesAt location disk step = none := by
  have absent : ∀ name, disk.node? (location ++ [name]) = none := by
    intro name
    by_contra present
    have occupied := (isOccupied_iff disk location).mpr ⟨name, present⟩
    rw [unoccupied] at occupied
    cases occupied
  refine ⟨⟨reached, directory, fun name => .inl (absent name)⟩, fun step => ?_⟩
  rw [filesAt, absent]
  rfl

/-- Where bytes are still to be added to a file of a disk to make some content whole, all else is as
it will be. -/
theorem of_append_eq_put {later : Disk} {step pending whole : Bytes}
    (added : later.append (location ++ [step]) pending =
      (true, disk.put (location ++ [step]) (.file whole))) :
    ∃ stored, later.node? (location ++ [step]) = some (.file stored) ∧ stored ++ pending = whole ∧
      later.home = disk.home ∧
      ∀ place, place ≠ location ++ [step] → later.node? place = disk.node? place := by
  have proper : location ++ [step] ≠ [] := by simp
  have there := node?_put_self disk location step (.file whole)
  unfold append at added
  split at added
  · next stored file =>
    obtain ⟨-, same⟩ := Prod.mk.inj added
    refine ⟨stored, file, ?_, (congrArg Disk.home same :), fun place differ => ?_⟩
    · rw [← same, node?_put_self] at there
      cases there
      rfl
    · have beside := congrArg (·.node? place) same
      simpa only [node?_put _ _ _ _ proper, if_neg differ] using beside
  · next other =>
    obtain ⟨-, rfl⟩ := Prod.mk.inj added
    exact absurd there (other whole)

/-- How a file in the directory of a folder is open. What was written to it stands on the disk or
still waits; the other files are as they were when it was opened. -/
inductive IsOpen (folder : Folder) (location : Location) :
    OpenFile → Host.Use → Contents → Disk → Prop where
  | input {content : Bytes} {given : Nat} {disk : Disk} (holds : disk.Holds folder location) :
    IsOpen folder location (.input (content.drop given) content.length) (.reading content given)
      (filesAt location disk) disk
  | output {block : Block} {pending step stored : Bytes} {files : Contents} {disk : Disk}
    (holds : disk.Holds folder location)
    (stands : disk.node? (location ++ [step]) = some (.file stored))
    (beside : ∀ other, other ≠ step → filesAt location disk other = files other) :
    IsOpen folder location (.output (location ++ [step]) block pending)
      (.writing step (stored ++ pending)) files disk

/-- What has been taken stays taken, wherever it is, when some of it goes to the disk. -/
theorem IsOpen.of_append {folder : Folder} {step written pending : Bytes} {files : Contents}
    {disk later : Disk} {block : Block} (holds : disk.Holds folder location)
    (beside : ∀ other, other ≠ step → filesAt location disk other = files other)
    (added : later.append (location ++ [step]) pending =
      (true, disk.put (location ++ [step]) (.file written))) :
    IsOpen folder location (.output (location ++ [step]) block pending) (.writing step written)
      files later := by
  obtain ⟨stored, stands, rfl, home, elsewhere⟩ := of_append_eq_put added
  obtain ⟨still, changed⟩ := holds.of_change later home elsewhere (.inr ⟨stored, stands⟩)
  refine .output still stands fun other differ => ?_
  rw [changed, Function.update_of_ne differ, beside other differ]

/-- A disk keeps the files of a folder, as long as its directory has nothing but files in it. -/
theorem keepsFiles {folder : Folder} (host : folder.IsHostPath) (location : Location) :
    Disk.host.KeepsFiles folder (·.Holds folder location) (filesAt location)
      (IsOpen folder location) where
  isPresent disk step holds name := by
    refine ⟨disk, Prod.ext ?_ rfl, holds, rfl⟩
    show disk.isPresent _ = _
    rw [isPresent, holds.locate host.isPath (host.isEntry name), filesAt]
    rcases holds.files step with absent | ⟨content, file⟩
    · rw [absent]
      rfl
    · rw [file]
      rfl
  openRead disk step content holds name found := by
    refine ⟨.input content content.length, disk, ?_, @IsOpen.input _ _ content 0 disk holds⟩
    show disk.openFile _ .read = _
    rw [openFile, holds.locate host.isPath (host.isEntry name)]
    rw [filesAt] at found
    rcases holds.files step with absent | ⟨stored, file⟩
    · rw [absent] at found
      cases found
    · rw [file] at found ⊢
      cases found
      rfl
  openWrite disk step holds name := by
    refine ⟨.output (location ++ [step]) .unbegun [], _, ?_, .of_append holds (fun _ _ => rfl)
      (append_nil _ _)⟩
    show disk.openFile _ .write = _
    rw [openFile, holds.create host.isPath (host.isEntry name)]
  fileSize file use kept disk held := by
    refine ⟨file.size, disk, rfl, held, ?_⟩
    rintro content given rfl
    cases held
    rfl
  readFile count file content given kept disk held := by
    cases held with
    | input holds =>
      refine ⟨_, disk, rfl, ?_⟩
      rw [List.drop_drop]
      exact .input holds
  writeFile bytes file step written kept disk held := by
    cases held with
    | @output block pending _ stored _ _ holds stands beside =>
      have wrote := OpenFile.took_write (location ++ [step]) block pending bytes disk
      have adds : disk.append (location ++ [step]) (pending ++ bytes) =
          (true, disk.put (location ++ [step]) (.file (stored ++ pending ++ bytes))) := by
        simp only [append, stands, List.append_assoc]
      show ∃ left later, (OpenFile.output _ block pending).write bytes disk = _ ∧ _
      generalize (OpenFile.output (location ++ [step]) block pending).write bytes disk = result
        at wrote ⊢
      obtain ⟨⟨taken, file⟩, later⟩ := result
      obtain ⟨left, waiting, rfl, ⟨rfl, there⟩ | ⟨_, _, refused⟩⟩ := wrote
      · exact ⟨_, later, rfl, .of_append holds beside (there.trans adds)⟩
      · cases adds.symm.trans refused
  flushFile file step written kept disk held := by
    cases held with
    | @output block pending _ stored _ _ holds stands beside =>
      have adds : disk.append (location ++ [step]) pending =
          (true, disk.put (location ++ [step]) (.file (stored ++ pending))) := by
        simp only [append, stands]
      obtain ⟨left, flushed⟩ := OpenFile.flush_output (location ++ [step]) block pending disk
      rw [adds] at flushed
      exact ⟨_, _, flushed, .of_append holds beside (append_nil _ _)⟩
  closeFile file use kept disk held := by
    cases held with
    | input holds => exact ⟨holds, rfl⟩
    | @output block pending step stored _ _ holds stands beside =>
      show Host.Leaves _ _ ((OpenFile.output _ block pending).close disk) _
      rw [OpenFile.close_output]
      simp only [append, stands]
      obtain ⟨still, changed⟩ := holds.put_file step (stored ++ pending)
      refine ⟨still, changed.trans (funext fun other => ?_)⟩
      by_cases same : other = step
      · simp [Host.Use.settled, same]
      · simp [Host.Use.settled, Function.update_of_ne same, beside other same]
  remove disk step holds name := by
    rcases holds.remove host.isPath (host.isEntry name) with ⟨removed, absent⟩ | removed
    · refine ⟨.absent, disk, by decide, removed, holds, ?_⟩
      rw [Function.update_eq_self_iff.mpr absent.symm]
    · exact ⟨.done, _, by decide, removed, holds.erase_file step⟩
  makeDirectory disk path holds which := by
    have occupied : disk.makeDirectory path = .error .occupied := by
      rcases which with base | directory
      · rw [base]
        exact holds.makeDirectory_base host
      · rw [directory]
        exact holds.makeDirectory_directory host
    refine ⟨disk, ?_, holds, rfl⟩
    simp only [Disk.host, occupied]

end Disk

end DosText
