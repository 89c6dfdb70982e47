import DosText.Proofs.PrintedText
import DosText.Proofs.StoredFiles

/-! Closing all files at once and one at a time. Where it is fixed for which names the store takes
no content, both come to the same, in whatever order the files are listed or named: no two files
have the same name, so that no file is stored over another. -/

namespace DosText

open Peripherals (Contents)

/-- Peripherals whose store refuses to take content for some names, and takes it for all others. -/
structure Peripherals.Refuses {Devices : Type} (peripherals : Peripherals Devices)
    (held : Devices → Contents) (refused : Name → Prop) : Prop
    extends peripherals.Sound held where
  refuses : ∀ name content devices, refused name →
    ∃ failure, (peripherals.store.set name content devices).outcome = .error failure
  accepts : ∀ name content devices, ¬refused name →
    (peripherals.store.set name content devices).outcome = .ok ()

/-- Files in memory during an outage that concerns storing some names. -/
theorem Peripherals.refuses_inMemory (first : Catalog Name Bytes) (name : Name)
    (others : List Name) :
    (inMemory first ⟨false, true, false, name :: others⟩).Refuses Catalog.find?
      (· ∈ name :: others) where
  toSound := sound_inMemory first _
  refuses := by
    intro refused content devices listed
    rw [List.mem_cons] at listed
    refine ⟨.cannotWrite, ?_⟩
    simp [inMemory, Store.during, Outage.concerns, listed]
  accepts := by
    intro taken content devices unlisted
    rw [List.mem_cons] at unlisted
    simp only [inMemory, Store.during, Outage.concerns]
    simp [unlisted, Store.memory]

/-- Whether a file has content that cannot be stored. -/
def Buffer.IsRefused (refused : Name → Prop) (buffer : Buffer) : Prop :=
  buffer.content.isSome = true ∧ refused buffer.name

/-- The order of its entries does not show in what a catalog has for a name. -/
theorem Catalog.find?_of_perm {Key Value : Type} [DecidableEq Key]
    {first second : Catalog Key Value} (perm : first.entries.Perm second.entries) (key : Key) :
    first.find? key = second.find? key := by
  refine Option.ext fun value => ?_
  rw [find?_eq_some_iff, find?_eq_some_iff, perm.mem_iff]

namespace Session

/-- Nor does it show in whether a session is consistent. -/
theorem Consistent.of_perm {session : Session} (consistent : session.Consistent)
    {visited : Catalog Name Buffer} (perm : visited.entries.Perm session.buffers.entries) :
    { session with buffers := visited }.Consistent where
  named name buffer found :=
    consistent.named name buffer ((Catalog.find?_of_perm perm name).symm.trans found)
  apart name buffer found :=
    consistent.apart name buffer ((Catalog.find?_of_perm perm name).symm.trans found)
  idle := consistent.idle
  points pointer active := by
    obtain ⟨name, buffer, same, found, content⟩ := consistent.points pointer active
    exact ⟨name, buffer, same, (Catalog.find?_of_perm perm name).trans found, content⟩
  typed := consistent.typed

/-- Discards files in turn. -/
def discardAll (session : Session) (names : List Name) : Session := names.foldl discard session

variable {session : Session} {names : List Name}

theorem find?_discardAll (session : Session) (names : List Name) (name : Name) :
    (session.discardAll names).buffers.find? name =
      if name ∈ names then none else session.buffers.find? name := by
  induction names generalizing session with
  | nil => rfl
  | cons first rest ih =>
    have later : (session.discardAll (first :: rest)).buffers.find? name = _ :=
      ih (session.discard first)
    rw [later, find?_discard]
    by_cases here : name = first
    · rw [if_pos here, ite_self, if_pos (List.mem_cons.mpr (.inl here))]
    · rw [if_neg here]
      simp only [List.mem_cons, here, false_or]

theorem retains_discardAll (session : Session) (names : List Name) :
    (session.discardAll names).Retains session := by
  induction names generalizing session with
  | nil => exact .refl session
  | cons first rest ih => exact (session.retains_discard first).trans (ih (session.discard first))

theorem Consistent.discardAll (consistent : session.Consistent) (names : List Name) :
    (session.discardAll names).Consistent := by
  induction names generalizing session with
  | nil => exact consistent
  | cons first rest ih => exact ih (consistent.discard first)

/-- Once every file is discarded, none is open and nothing is redirected. -/
theorem discardAll_eq (consistent : session.Consistent)
    (every : ∀ name, name ∉ names → session.buffers.find? name = none) :
    session.discardAll names = { session.deactivate with buffers := .empty } := by
  have gone (name : Name) : (session.discardAll names).buffers.find? name = none := by
    rw [find?_discardAll]
    split
    · rfl
    · next other => exact every name other
  have buffers : (session.discardAll names).buffers = .empty := by
    refine Catalog.ext (List.eq_nil_iff_forall_not_mem.mpr ?_)
    rintro ⟨name, buffer⟩ listed
    have found := (Catalog.find?_eq_some_iff _ name buffer).mpr listed
    rw [gone] at found
    cases found
  have after := consistent.discardAll names
  have inactive : (session.discardAll names).active = none := by
    cases active : (session.discardAll names).active with
    | none => rfl
    | some pointer =>
      obtain ⟨name, buffer, -, found, -⟩ := after.points pointer active
      rw [gone] at found
      cases found
  have idle := after.idle.mpr inactive
  obtain ⟨monitor, commandMode, command⟩ := session.retains_discardAll names
  cases final : session.discardAll names
  rw [final] at buffers inactive idle monitor commandMode command
  cases buffers
  cases inactive
  cases idle
  cases monitor
  cases commandMode
  cases command
  rfl

end Session

namespace TextFile

variable {Devices : Type} {peripherals : Peripherals Devices} {held : Devices → Contents}
variable {refused : Name → Prop} {calls : List Peripherals.Call} {devices last : Devices}

theorem Flushes.eq_ioError {buffer : Buffer} {fault : Fault}
    (flushes : Flushes buffer calls (.error fault)) : fault = .ioError := by
  cases flushes
  rfl

theorem FlushesAll.eq_ioError {buffers : List Buffer} {fault : Fault}
    (flushes : FlushesAll buffers calls (.error fault)) : fault = .ioError := by
  obtain ⟨_, _, _, _, _, _, _, _, failed⟩ := flushes.split_of_fault
  exact failed.eq_ioError

/-- A file is stored unless its content is refused. -/
theorem Flushes.eq_ok_iff (refuses : peripherals.Refuses held refused) {buffer : Buffer}
    {outcome : Except Fault Unit} (flushes : Flushes buffer calls outcome)
    (served : peripherals.Serves calls devices last) :
    outcome = .ok () ↔ ¬buffer.IsRefused refused := by
  cases flushes with
  | empty none =>
    refine iff_of_true rfl ?_
    rintro ⟨some, -⟩
    rw [none] at some
    cases some
  | @stored content some =>
    refine iff_of_true rfl ?_
    rintro ⟨-, against⟩
    obtain ⟨failure, failed⟩ := refuses.refuses buffer.name content.toBytes devices against
    cases served.1.symm.trans failed
  | @refused content some failure =>
    refine iff_of_false nofun (not_not.mpr ⟨by rw [some]; rfl, ?_⟩)
    by_contra taken
    cases served.1.symm.trans (refuses.accepts buffer.name content.toBytes devices taken)

/-- Files are all stored unless the content of one is refused. -/
theorem FlushesAll.eq_ok_iff (refuses : peripherals.Refuses held refused) {buffers : List Buffer}
    {outcome : Except Fault Unit} (flushes : FlushesAll buffers calls outcome)
    (served : peripherals.Serves calls devices last) :
    outcome = .ok () ↔ ∀ buffer ∈ buffers, ¬buffer.IsRefused refused := by
  induction flushes generalizing devices with
  | nil => exact iff_of_true rfl nofun
  | cons flushed others ih =>
    obtain ⟨between, first, later⟩ := served.split
    have taken := (flushed.eq_ok_iff refuses first).mp rfl
    rw [ih later, List.forall_mem_cons]
    exact (and_iff_right taken).symm
  | refused failed =>
    have against : ¬¬_ := mt (failed.eq_ok_iff refuses served).mpr nofun
    exact iff_of_false nofun fun taken => against (taken _ List.mem_cons_self)

/-- A file that is not refused is closed: it is stored and discarded. -/
theorem close_of_taken (refuses : peripherals.Refuses held refused) {machine : Machine Devices}
    {buffer : Buffer} (found : machine.session.buffers.find? buffer.name = some buffer)
    (taken : ¬buffer.IsRefused refused) :
    ∃ later, close peripherals buffer.name machine = (.ok (), later) ∧
      later.session = machine.session.discard buffer.name ∧
      held later.devices = buffer.settle (held machine.devices) := by
  cases run : close peripherals buffer.name machine with
  | mk outcome later =>
    obtain ⟨calls, after, effect, moved⟩ :=
      (close_effect (.refl peripherals machine) buffer.name).apply run
    have kept := refuses.toSound.serves moved.served
    cases effect with
    | closeAbsent closed => cases closed.symm.trans found
    | closeRefused again failed =>
      cases again.symm.trans found
      cases (failed.eq_ok_iff refuses moved.served).mpr taken
    | closed again flushed =>
      cases again.symm.trans found
      exact ⟨later, rfl, moved.session, kept.trans flushed.applyAll⟩
    | idle relies other => cases relies
    | unmet relies same absent => cases relies

/-- Open files that are not refused can be closed in turn, and each is then what the store has for
its name. -/
theorem forM_close_of_taken (refuses : peripherals.Refuses held refused)
    {machine : Machine Devices} (consistent : machine.session.Consistent) {names : List Name}
    (distinct : names.Nodup)
    (taken : ∀ name ∈ names, ∃ buffer, machine.session.buffers.find? name = some buffer ∧
      ¬buffer.IsRefused refused) :
    ∃ later, forM names (close peripherals) machine = (.ok (), later) ∧
      later.session = machine.session.discardAll names ∧
      ∀ name, held later.devices name =
        if name ∈ names then
          ((machine.session.buffers.find? name).bind Buffer.bytes?).or (held machine.devices name)
        else held machine.devices name := by
  induction names generalizing machine with
  | nil => exact ⟨machine, rfl, rfl, fun _ => rfl⟩
  | cons first rest ih =>
    obtain ⟨alone, apart⟩ := List.nodup_cons.mp distinct
    obtain ⟨buffer, found, some⟩ := taken first List.mem_cons_self
    obtain rfl := consistent.named first buffer found
    obtain ⟨between, closed, session, stored⟩ := close_of_taken refuses found some
    have spared (name : Name) (differ : name ≠ buffer.name) :
        between.session.buffers.find? name = machine.session.buffers.find? name := by
      rw [session, Session.find?_discard, if_neg differ]
    have others : ∀ name ∈ rest, ∃ buffer, between.session.buffers.find? name = .some buffer ∧
        ¬buffer.IsRefused refused := by
      intro name member
      rw [spared name (ne_of_mem_of_not_mem member alone)]
      exact taken name (List.mem_cons_of_mem _ member)
    obtain ⟨later, run, final, kept⟩ := 
      ih (session ▸ consistent.discard buffer.name) apart others
    refine ⟨later, ?_, ?_, ?_⟩
    · rw [List.forM_cons, Attempt.bind_of_ok _ closed, run]
    · rw [final, session]
      rfl
    · intro name
      rw [kept, stored, Buffer.settle_apply]
      by_cases here : name = buffer.name
      · subst here
        rw [if_neg alone, if_pos rfl, if_pos List.mem_cons_self, found]
        rfl
      · rw [if_neg here, spared name here]
        simp only [List.mem_cons, here, false_or]

/-- What is left once every file is closed: none is open, and each is what the store has for its
name. -/
structure Emptied (held : Devices → Contents) (before after : Machine Devices) : Prop where
  session : after.session = { before.session.deactivate with buffers := .empty }
  stored : ∀ name, held after.devices name =
    ((before.session.buffers.find? name).bind Buffer.bytes?).or (held before.devices name)

/-- It can be done for one file after the other, in any order. -/
theorem forM_close_emptied (refuses : peripherals.Refuses held refused)
    {machine : Machine Devices} (consistent : machine.session.Consistent)
    (taken : ∀ name buffer, machine.session.buffers.find? name = some buffer →
      ¬buffer.IsRefused refused)
    {order : List Name} (perm : order.Perm machine.session.buffers.keys) :
    ∃ later, forM order (close peripherals) machine = (.ok (), later) ∧
      Emptied held machine later := by
  have listed (name : Name) :
      name ∈ order ↔ ∃ buffer, machine.session.buffers.find? name = some buffer :=
    perm.mem_iff.trans (Catalog.mem_keys_iff machine.session.buffers name)
  have every : ∀ name, name ∉ order → machine.session.buffers.find? name = none := by
    intro name other
    by_contra found
    exact other ((listed name).mpr (Option.ne_none_iff_exists'.mp found))
  have each : ∀ name ∈ order, ∃ buffer, machine.session.buffers.find? name = some buffer ∧
      ¬buffer.IsRefused refused := by
    intro name member
    obtain ⟨buffer, found⟩ := (listed name).mp member
    exact ⟨buffer, found, taken name buffer found⟩
  have distinct : order.Nodup := perm.nodup_iff.mpr machine.session.buffers.distinct
  obtain ⟨later, run, discarded, kept⟩ := forM_close_of_taken refuses consistent distinct each
  refine ⟨later, run, discarded.trans (Session.discardAll_eq consistent every), ?_⟩
  intro name
  rw [kept]
  split
  · rfl
  · next other => rw [every name other, Option.bind_none, Option.none_or]

/-- It can be done for all of them at once. -/
theorem closeAll_emptied (refuses : peripherals.Refuses held refused)
    {machine : Machine Devices} (consistent : machine.session.Consistent)
    (taken : ∀ name buffer, machine.session.buffers.find? name = some buffer →
      ¬buffer.IsRefused refused) :
    ∃ later, closeAll peripherals machine = (.ok (), later) ∧ Emptied held machine later := by
  cases run : closeAll peripherals machine with
  | mk outcome later =>
    obtain ⟨calls, after, effect, moved⟩ :=
      (closeAll_effect (.refl peripherals machine)).apply run
    have kept := refuses.toSound.serves moved.served
    cases effect with
    | closeAllRefused perm failed =>
      have each := fun buffer listed => taken buffer.name buffer
        (Session.find?_of_listed consistent.named (perm.mem_iff.mp listed))
      cases (failed.eq_ok_iff refuses moved.served).mpr each
    | closedAll perm flushed =>
      refine ⟨later, rfl, moved.session, fun name => ?_⟩
      rw [kept, List.nil_append, flushed.applyAll, Buffer.settleAll_visited consistent.named perm]
    | idle relies other => cases relies
    | unmet relies same absent => cases relies

/-- If one file is refused, all files stay open. -/
theorem closeAll_of_refused (refuses : peripherals.Refuses held refused)
    {machine : Machine Devices} {name : Name} {buffer : Buffer}
    (found : machine.session.buffers.find? name = some buffer)
    (against : buffer.IsRefused refused) :
    ∃ later, closeAll peripherals machine = (.error .ioError, later) ∧
      later.session = machine.session := by
  cases run : closeAll peripherals machine with
  | mk outcome later =>
    obtain ⟨calls, after, effect, moved⟩ :=
      (closeAll_effect (.refl peripherals machine)).apply run
    have listed : buffer ∈ machine.session.buffers.entries.map Prod.snd :=
      List.mem_map_of_mem ((Catalog.find?_eq_some_iff _ name buffer).mp found)
    cases effect with
    | closeAllRefused perm failed =>
      cases failed.eq_ioError
      exact ⟨later, rfl, moved.session⟩
    | closedAll perm flushed =>
      exact absurd against
        ((flushed.eq_ok_iff refuses moved.served).mp rfl buffer (perm.mem_iff.mpr listed))
    | idle relies other => cases relies
    | unmet relies same absent => cases relies

end TextFile

/-- In every state that is reached, whatever the store was like until then: if the store takes the
content of every open file that has any, closing all files leaves the same session and the same
files in the store as closing them one by one, whatever the order in which the open files are listed
and whatever the order in which they are named. If it refuses the content of one of them, closing
all files fails, whatever the order, and leaves the session as it was. -/
theorem Dos.Reaches.closeAll_eq_forM_close {Devices Receiver : Type}
    {earlier peripherals : Peripherals Devices} {held : Devices → Contents}
    {refused : Name → Prop} (refuses : peripherals.Refuses held refused) {monitor : Monitor}
    {devices : Devices} {dos : Dos Devices Receiver}
    (reached : (Dos.initial monitor devices).Reaches earlier (fun _ _ => True) dos) :
    let session := dos.machine.session
    ∀ visited : Catalog Name Buffer, visited.entries.Perm session.buffers.entries →
      let shuffled := { dos.machine with session := { session with buffers := visited } }
      let together := TextFile.closeAll peripherals shuffled
      ((∀ name buffer, session.buffers.find? name = some buffer → ¬buffer.IsRefused refused) →
        together.1 = .ok () ∧
        ∀ order : List Name, order.Perm session.buffers.keys →
          let apart := forM order (TextFile.close peripherals) dos.machine
          apart.1 = .ok () ∧ apart.2.session = together.2.session ∧
            held apart.2.devices = held together.2.devices) ∧
      ((∃ name buffer, session.buffers.find? name = some buffer ∧ buffer.IsRefused refused) →
        together.1 = .error .ioError ∧ together.2.session = shuffled.session) := by
  intro session visited perm shuffled together
  have consistent : session.Consistent := reached.consistent (Session.consistent_initial monitor)
  have listing : shuffled.session.Consistent := consistent.of_perm perm
  have same (name : Name) :
      shuffled.session.buffers.find? name = session.buffers.find? name :=
    Catalog.find?_of_perm perm name
  refine ⟨?_, ?_⟩
  · intro taken
    have visits : ∀ name buffer, shuffled.session.buffers.find? name = some buffer →
        ¬buffer.IsRefused refused := fun name buffer found =>
      taken name buffer ((same name).symm.trans found)
    obtain ⟨last, whole, once⟩ := TextFile.closeAll_emptied refuses listing visits
    have runTogether : together = (.ok (), last) := whole
    refine ⟨congrArg Prod.fst runTogether, fun order ordered => ?_⟩
    obtain ⟨later, pieces, each⟩ := TextFile.forM_close_emptied refuses consistent taken ordered
    intro apart
    have runApart : apart = (.ok (), later) := pieces
    rw [runApart, runTogether]
    refine ⟨rfl, each.session.trans once.session.symm, funext fun name => ?_⟩
    rw [each.stored, once.stored, same]
  · rintro ⟨name, buffer, found, against⟩
    obtain ⟨later, run, unchanged⟩ : ∃ later, together = (.error .ioError, later) ∧ _ :=
      TextFile.closeAll_of_refused refuses ((same name).trans found) against
    rw [run]
    exact ⟨rfl, unchanged⟩

/-- One of two open files has no content yet. If only that one is refused, both can be closed in
either order; if the other is, they stay open, in whatever order they are listed. -/
theorem Dos.closeAll_eq_forM_close_two : ∃ dos : Dos (Catalog Name Bytes) Unit,
    let listed := dos.machine.session.buffers.entries
    let refusing (name : Name) := Peripherals.inMemory .empty ⟨false, true, false, [name]⟩
    let second := TextFile.closeAll (refusing (ascii "G")) dos.machine
    let apart := forM [ascii "G", ascii "F"] (TextFile.close (refusing (ascii "G"))) dos.machine
    listed.length = 2 ∧
      second.1 = .ok () ∧ apart.1 = .ok () ∧ apart.2.session = second.2.session ∧
      apart.2.devices.find? = second.2.devices.find? ∧
      ∃ visited : Catalog Name Buffer, visited.entries = listed.reverse ∧
        (TextFile.closeAll (refusing (ascii "F")) { dos.machine with
          session := { dos.machine.session with buffers := visited } }).1 = .error .ioError := by
  have begun : (Dos.initial .off .empty : Dos (Catalog Name Bytes) Unit).Reaches
    (.inMemory .empty .none) (fun _ _ => True) _ := .refl
  have opened := begun.step (.file (.openFile (ascii "F") 0)) trivial
  have writing := opened.step (.file (.write (ascii "F") 0 0)) trivial
  have reached := writing.step (.file (.openFile (ascii "G") 0)) trivial
  generalize final : (Event.run _ _ _).2 = dos at reached
  have entries : dos.machine.session.buffers.entries =
      [(ascii "F", ⟨ascii "F", some .empty, 1, 0, 0⟩),
        (ascii "G", ⟨ascii "G", none, 1, 0, 0⟩)] := by
    rw [← final]
    rfl
  have distinct : (dos.machine.session.buffers.entries.reverse.map Prod.fst).Nodup := by
    rw [entries]
    decide
  have taken : ∀ name buffer, dos.machine.session.buffers.find? name = some buffer →
      ¬buffer.IsRefused (· ∈ [ascii "G"]) := by
    intro name buffer found
    rw [Catalog.find?_eq_some_iff, entries] at found
    simp only [List.mem_cons, Prod.mk.injEq, List.not_mem_nil, or_false] at found
    rcases found with ⟨-, rfl⟩ | ⟨-, rfl⟩
    · exact fun against => absurd against.2 (by decide)
    · exact fun against => nomatch against.1
  have against : ∃ name buffer, dos.machine.session.buffers.find? name = some buffer ∧
      buffer.IsRefused (· ∈ [ascii "F"]) := by
    refine ⟨ascii "F", ⟨ascii "F", some .empty, 1, 0, 0⟩, ?_, rfl, List.mem_cons_self⟩
    rw [Catalog.find?_eq_some_iff, entries]
    exact List.mem_cons_self
  obtain ⟨closes, -⟩ := reached.closeAll_eq_forM_close
    (Peripherals.refuses_inMemory .empty (ascii "G") []) dos.machine.session.buffers (.refl _)
  obtain ⟨-, fails⟩ := reached.closeAll_eq_forM_close
    (Peripherals.refuses_inMemory .empty (ascii "F") [])
    ⟨dos.machine.session.buffers.entries.reverse, distinct⟩ (List.reverse_perm _)
  obtain ⟨whole, pieces⟩ := closes taken
  obtain ⟨one, session, stored⟩ := pieces [ascii "G", ascii "F"] (by
    rw [Catalog.keys, entries]
    decide)
  refine ⟨dos, ?_, whole, one, session, stored, _, rfl, (fails against).1⟩
  rw [entries]
  rfl

end DosText
