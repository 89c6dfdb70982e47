import DosText.Proofs.FolderDirectory
import Mathlib.Data.List.Induction

/-! What calls with any names make of the directory of a folder. It is lost with the first removal
of the empty name at which no file is in it, and nothing can be stored from then on. Until then the
store keeps its files as a store in memory would, for all names that the host takes. -/

namespace DosText

open Peripherals (Contents)

/-- A call on a store. -/
inductive Store.Call where
  | get (name : Name)
  | set (name : Name) (content : Bytes)
  | remove (name : Name)
  deriving DecidableEq

/-- The name that a call is for. -/
def Store.Call.name : Store.Call → Name
  | .get name | .set name _ | .remove name => name

namespace Store

variable {Devices : Type}

/-- The devices that a call leaves behind. -/
def leave (store : Store Devices) (devices : Devices) : Call → Devices
  | .get name => (store.get name devices).devices
  | .set name content => (store.set name content devices).devices
  | .remove name => (store.remove name devices).devices

/-- The devices that calls leave behind. -/
def leaveAll (store : Store Devices) (calls : List Call) (devices : Devices) : Devices :=
  calls.foldl store.leave devices

theorem leaveAll_concat (store : Store Devices) (calls : List Call) (call : Call)
    (devices : Devices) :
    store.leaveAll (calls ++ [call]) devices = store.leave (store.leaveAll calls devices) call := by
  simp [leaveAll]

/-- What a store in memory holds for a name after calls. -/
def held (calls : List Call) (name : Name) : Option Bytes :=
  (memory.leaveAll calls .empty).find? name

theorem held_concat_get (calls : List Call) (other name : Name) :
    held (calls ++ [.get other]) name = held calls name := by
  rw [held, leaveAll_concat]
  rfl

theorem held_concat_set (calls : List Call) (other name : Name) (content : Bytes) :
    held (calls ++ [.set other content]) name =
      if name = other then some content else held calls name := by
  rw [held, leaveAll_concat]
  exact Catalog.find?_insert _ other name content

theorem held_concat_remove (calls : List Call) (other name : Name) :
    held (calls ++ [.remove other]) name = if name = other then none else held calls name := by
  rw [held, leaveAll_concat]
  exact Catalog.find?_erase _ other name

/-- A call for another name makes no difference. -/
theorem held_concat_of_ne {call : Call} {name : Name} (differ : name ≠ call.name)
    (calls : List Call) : held (calls ++ [call]) name = held calls name := by
  cases call with
  | get other => exact held_concat_get calls other name
  | set other content => rw [held_concat_set, if_neg (by exact differ)]
  | remove other => rw [held_concat_remove, if_neg (by exact differ)]

/-- There is nothing for a name that has never been set. -/
theorem held_of_never_set {calls : List Call} {name : Name}
    (never : ∀ content, .set name content ∉ calls) : held calls name = none := by
  induction calls using List.reverseRecOn with
  | nil => rfl
  | append_singleton calls call ih =>
    have before := ih fun content member => never content (List.mem_append_left _ member)
    cases call with
    | get other => rw [held_concat_get, before]
    | set other content =>
      have differ : name ≠ other := by
        rintro rfl
        exact never content (by simp)
      rw [held_concat_set, if_neg differ, before]
    | remove other => rw [held_concat_remove, before, ite_self]

end Store

namespace Folder

variable {folder : Folder} {calls : List Store.Call} {call : Store.Call} {name : Name}
variable {files : Contents}

/-- Whether calls remove the empty name at a time when there is nothing for any name that the host
takes. -/
def Loses (folder : Folder) (calls : List Store.Call) : Prop :=
  ∃ before after, calls = before ++ .remove [] :: after ∧
    ∀ name, folder.Takes name → Store.held before name = none

theorem not_loses_nil (folder : Folder) : ¬folder.Loses [] := by
  rintro ⟨before, after, split, -⟩
  simp at split

/-- What is lost was lost before the last call, or is by it. -/
theorem loses_concat : folder.Loses (calls ++ [call]) ↔ folder.Loses calls ∨
    call = .remove [] ∧ ∀ name, folder.Takes name → Store.held calls name = none := by
  constructor
  · rintro ⟨before, after, split, vacant⟩
    rcases List.eq_nil_or_concat after with rfl | ⟨earlier, last, rfl⟩
    · obtain ⟨rfl, same⟩ := List.append_inj' split rfl
      cases same
      exact .inr ⟨rfl, vacant⟩
    · rw [List.concat_eq_append, ← List.cons_append, ← List.append_assoc] at split
      obtain ⟨same, -⟩ := List.append_inj' split rfl
      exact .inl ⟨before, earlier, same, vacant⟩
  · rintro (⟨before, after, rfl, vacant⟩ | ⟨rfl, vacant⟩)
    · exact ⟨before, after ++ [call], by simp, vacant⟩
    · exact ⟨calls, [], rfl, vacant⟩

/-- Whether files are what a store in memory holds after calls, under the host names of the names
that the host takes. -/
structure Lists (folder : Folder) (calls : List Store.Call) (files : Contents) : Prop where
  same : ∀ name, folder.Takes name → files (HostName.encode name) = Store.held calls name
  only : ∀ step, files step ≠ none → ∃ name, folder.Takes name ∧ HostName.encode name = step

namespace Lists

theorem of_get (lists : folder.Lists calls files) (name : Name) :
    folder.Lists (calls ++ [.get name]) files where
  same other takes := by rw [lists.same other takes, Store.held_concat_get]
  only := lists.only

/-- A call for a name that the host does not take is for none of the names that it takes. -/
theorem of_refused (lists : folder.Lists calls files) (refused : ¬folder.Takes call.name) :
    folder.Lists (calls ++ [call]) files where
  same name takes := by
    rw [lists.same name takes, Store.held_concat_of_ne]
    rintro rfl
    exact refused takes
  only := lists.only

/-- What happens to one name happens to one file, since no two names share a host name. -/
theorem of_update (lists : folder.Lists calls files) {content : Option Bytes}
    (takes : folder.Takes name)
    (held : ∀ other, Store.held (calls ++ [call]) other =
      if other = name then content else Store.held calls other) :
    folder.Lists (calls ++ [call]) (Function.update files (HostName.encode name) content) where
  same other taken := by
    rw [Function.update_apply, held, lists.same other taken]
    simp only [HostName.encode_injective.eq_iff]
  only step some := by
    rw [Function.update_apply] at some
    split at some
    · next same => exact ⟨name, takes, same.symm⟩
    · exact lists.only step some

theorem eq_none_iff (lists : folder.Lists calls files) :
    (∀ step, files step = none) ↔ ∀ name, folder.Takes name → Store.held calls name = none := by
  constructor
  · intro none name takes
    rw [← lists.same name takes, none]
  · intro vacant step
    by_contra some
    obtain ⟨name, takes, rfl⟩ := lists.only step some
    exact some (by rw [lists.same name takes, vacant name takes])

end Lists

end Folder

namespace Disk

variable {origin disk : Disk} {folder : Folder} {place : Location} {files : Contents}
variable {calls : List Store.Call} {call : Store.Call}

/-- A call for a name that the host takes changes the file of that name. -/
theorem Stands.leave_taken (stands : Stands origin disk folder place files)
    (bare : origin.Bare folder place) (lists : folder.Lists calls files)
    (takes : folder.Takes call.name) :
    ∃ later, Stands origin ((folder.store Disk.host).leave disk call) folder place later ∧
      folder.Lists (calls ++ [call]) later := by
  cases call with
  | get name =>
    refine ⟨files, ?_, lists.of_get name⟩
    rw [Store.leave, Folder.store, (stands.get bare name).2]
    exact stands
  | set name content =>
    have written := (stands.set bare takes content).2
    exact ⟨_, written, lists.of_update takes fun _ => Store.held_concat_set ..⟩
  | remove name =>
    have removed := stands.remove bare takes
    exact ⟨_, removed, lists.of_update takes fun _ => Store.held_concat_remove ..⟩

/-- Any other call changes nothing, the removal of the empty name aside. -/
theorem Stands.leave_refused (stands : Stands origin disk folder place files)
    (bare : origin.Bare folder place) (refused : ¬folder.Takes call.name)
    (other : call ≠ .remove []) : (folder.store Disk.host).leave disk call = disk := by
  cases call with
  | get name => exact (stands.get bare name).2
  | set name content => exact (stands.set_refused bare refused content).2
  | remove name =>
    have nonempty : name ≠ [] := by
      rintro rfl
      exact other rfl
    exact Folder.remove_of_error (stands.holds.refuses bare.toIsPath nonempty refused).2

theorem Stands.leave (stands : Stands origin disk folder place files)
    (bare : origin.Bare folder place) (lists : folder.Lists calls files)
    (other : call ≠ .remove []) :
    ∃ later, Stands origin ((folder.store Disk.host).leave disk call) folder place later ∧
      folder.Lists (calls ++ [call]) later := by
  by_cases takes : folder.Takes call.name
  · exact stands.leave_taken bare lists takes
  · rw [stands.leave_refused bare takes other]
    exact ⟨files, stands, lists.of_refused takes⟩

/-- The removal of the empty name takes the directory away if there is no file in it. -/
theorem Stands.leave_removal (stands : Stands origin disk folder place files)
    (bare : origin.Bare folder place) :
    (∀ step, files step = none) ∧
        Gone origin ((folder.store Disk.host).leave disk (.remove [])) place ∨
      (∃ step, files step ≠ none) ∧ (folder.store Disk.host).leave disk (.remove []) = disk := by
  have removal := stands.remove_directory bare
  rw [← Folder.path_nil] at removal
  rcases removal with ⟨holding, refused⟩ | ⟨vacant, later, removed, gone⟩
  · exact .inr ⟨holding, Folder.remove_of_removed refused⟩
  · refine .inl ⟨vacant, ?_⟩
    rwa [Store.leave, Folder.store, Folder.remove_of_removed removed]

/-- No call brings the directory back. -/
theorem Gone.leave (gone : Gone origin disk place) (bare : origin.Bare folder place)
    (call : Store.Call) : (folder.store Disk.host).leave disk call = disk := by
  cases call with
  | get name => exact (gone.get bare name).2
  | set name content => exact (gone.set bare name content).2
  | remove name => exact gone.remove bare name

/-- After calls the directory is gone if they lose it. Else it holds what a store in memory would
for the names that the host takes. -/
theorem Bare.leaveAll (bare : origin.Bare folder place)
    (stands : Stands origin disk folder place fun _ => none) (calls : List Store.Call) :
    folder.Loses calls ∧ Gone origin ((folder.store Disk.host).leaveAll calls disk) place ∨
      ¬folder.Loses calls ∧ ∃ files,
        Stands origin ((folder.store Disk.host).leaveAll calls disk) folder place files ∧
          folder.Lists calls files := by
  induction calls using List.reverseRecOn with
  | nil =>
    refine .inr ⟨folder.not_loses_nil, _, stands, fun _ _ => rfl, ?_⟩
    intro step some
    exact absurd rfl some
  | append_singleton calls call ih =>
    rw [Store.leaveAll_concat, Folder.loses_concat]
    rcases ih with ⟨lost, gone⟩ | ⟨kept, files, still, lists⟩
    · refine .inl ⟨.inl lost, ?_⟩
      rwa [gone.leave bare]
    · rw [← lists.eq_none_iff, or_iff_right kept]
      by_cases removal : call = .remove []
      · subst removal
        rcases still.leave_removal bare with ⟨vacant, gone⟩ | ⟨⟨step, some⟩, same⟩
        · exact .inl ⟨⟨rfl, vacant⟩, gone⟩
        · refine .inr ⟨fun lost => some (lost.2 step), files, ?_, lists.of_refused ?_⟩
          · rwa [same]
          · exact folder.not_takes_nil
      · exact .inr ⟨fun lost => removal lost.1, still.leave bare lists removal⟩

end Disk

namespace Folder

/-- A store in an empty directory of the host keeps its own directory unless calls remove the empty
name at a time when it holds nothing. As long as it has that directory, there is nothing for a name
that has never been set, the empty one aside; afterwards there is nothing for any. A name with a
host name of at most 255 bytes can be set, and is got back, as long as the directory is there, if
its path is not too long for the host. -/
theorem directory_kept_iff {base : Bytes} {origin : Disk} {place : Location} (nulless : 0 ∉ base)
    (leads : origin.locate (ofBase base).base = .ok (place, .directory))
    (empty : origin.below place = [])
    (made : ((ofBase base).establish Disk.host origin).outcome = .ok ())
    (calls : List Store.Call) :
    let folder := ofBase base
    let store := folder.store Disk.host
    let later := store.leaveAll calls (folder.establish Disk.host origin).devices
    (later.locate folder.directory = .ok (place ++ [ascii "vfs"], .directory) ↔
        ¬folder.Loses calls) ∧
      (∀ name, (∀ content, .set name content ∉ calls) →
        ((store.get name later).outcome = .ok none ↔ name ≠ [] ∨ folder.Loses calls)) ∧
      ∀ name content, HostName.IsTaken name →
        let set := store.set name content later
        (set.outcome = .ok () ∧ (store.get name set.devices).outcome = .ok (some content) ↔
          ¬folder.Loses calls ∧ (folder.path name).length ≤ Path.pathLimit) := by
  intro folder store later
  have bare := Disk.Bare.of_locate (isPath_ofBase nulless) made leads empty
  rcases bare.leaveAll bare.establish calls with ⟨lost, gone⟩ | ⟨kept, files, stands, lists⟩
  · refine ⟨iff_of_false ?_ (not_not_intro lost), fun name never => ?_,
      fun name content taken => ?_⟩
    · obtain ⟨obstacle, missing⟩ := gone.locate_error bare []
      rw [path_nil] at missing
      intro found
      cases missing.symm.trans found
    · exact iff_of_true (gone.get bare name).1 (.inr lost)
    · refine iff_of_false (fun done => ?_) (fun kept => kept.1 lost)
      cases (gone.set bare name content).1.symm.trans done.1
  · refine ⟨iff_of_true ?_ kept, fun name never => ?_, fun name content taken => ?_⟩
    · exact stands.holds.locate_directory bare.toIsPath bare.fits
    · have got := (stands.get bare name).1
      show (folder.get Disk.host name later).outcome = .ok none ↔ _
      rw [got, or_iff_left kept]
      by_cases nameless : name = []
      · simp [nameless]
      · have nothing : folder.Takes name → files (HostName.encode name) = none := by
          intro takes
          rw [lists.same name takes, Store.held_of_never_set never]
        simpa [nameless] using nothing
    · by_cases fits : (folder.path name).length ≤ Path.pathLimit
      · obtain ⟨done, still⟩ := stands.set bare ⟨taken, fits⟩ content
        refine iff_of_true ⟨done, (still.get bare name).1.trans ?_⟩ ⟨kept, fits⟩
        rw [if_neg taken.1, if_pos ⟨taken, fits⟩, Function.update_self]
      · refine iff_of_false (fun done => ?_) (fun both => fits both.2)
        have refused : ¬folder.Takes name := fun takes => fits takes.2
        cases (stands.set_refused bare refused content).1.symm.trans done.1

/-- The empty name is answered although it was never set. Its removal is refused while there is a
file, and takes the directory away as soon as there is none; nothing can be set then. -/
theorem directory_kept_iff_emptied :
    let folder := ofBase (ascii "games")
    let store := folder.store Disk.host
    let place := [ascii "work", ascii "games"]
    let origin := Disk.fresh.put place .directory
    let begun := (folder.establish Disk.host origin).devices
    let calls : List Store.Call := [.set (ascii "A") (ascii "x"), .remove [], .remove (ascii "A")]
    let kept := store.leaveAll calls begun
    let lost := store.leaveAll (calls ++ [.remove []]) begun
    (0 ∉ ascii "games" ∧ origin.locate folder.base = .ok (place, .directory) ∧
        origin.below place = [] ∧ (folder.establish Disk.host origin).outcome = .ok () ∧
        HostName.IsTaken (ascii "A")) ∧
      (kept.locate folder.directory = .ok (place ++ [ascii "vfs"], .directory) ∧
        (store.get [] kept).outcome ≠ .ok none ∧
        (store.set (ascii "A") [] kept).outcome = .ok ()) ∧
      lost.locate folder.directory ≠ .ok (place ++ [ascii "vfs"], .directory) ∧
        (store.get [] lost).outcome = .ok none ∧
        ¬((store.set (ascii "A") [] lost).outcome = .ok () ∧
          (store.get (ascii "A") (store.set (ascii "A") [] lost).devices).outcome =
            .ok (some [])) := by
  intro folder store place origin begun calls kept lost
  have met : 0 ∉ ascii "games" ∧ origin.locate folder.base = .ok (place, .directory) ∧
      origin.below place = [] ∧ (folder.establish Disk.host origin).outcome = .ok () ∧
      HostName.IsTaken (ascii "A") := ⟨by decide, by decide, by decide, by rfl, by decide⟩
  obtain ⟨nulless, leads, empty, made, taken⟩ := met
  obtain ⟨there, unset, settable⟩ := directory_kept_iff nulless leads empty made calls
  obtain ⟨gone, absent, refused⟩ :=
    directory_kept_iff nulless leads empty made (calls ++ [.remove []])
  have loses : folder.Loses (calls ++ [.remove []]) := loses_concat.mpr (.inr ⟨rfl, fun _ _ => rfl⟩)
  have holds : kept.locate folder.directory = .ok (place ++ [ascii "vfs"], .directory) := by
    decide +kernel
  have keeps := there.mp holds
  refine ⟨⟨nulless, leads, empty, made, taken⟩, ⟨holds, ?_, ?_⟩, fun found => gone.mp found loses,
    (absent [] (by simpa [calls] using taken.1)).mpr (.inr loses), fun done => ?_⟩
  · intro nothing
    rcases (unset [] (by simpa [calls] using taken.1)).mp nothing with named | lost
    · exact named rfl
    · exact keeps lost
  · exact ((settable (ascii "A") [] taken).mpr ⟨keeps, by decide⟩).1
  · exact ((refused (ascii "A") [] taken).mp done).1 loses

end Folder

end DosText
