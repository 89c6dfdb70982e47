import DosText.Agenda.Errand
import DosText.Proofs.AgendaRuns
import DosText.Proofs.ShownAgenda
import Mathlib.Data.List.Nodup
import Mathlib.Data.List.Perm.Basic

/-! Errands with numbers. Each errand is numbered when it is enqueued, and it is noted which errands
have begun; for the rest the work is that of the errands themselves. At every step the errands that
have begun, those that have been taken from the queue and not begun, and those in the queue are all
that have been enqueued, each once. -/

namespace DosText.Errand

variable {Error : Type}

/-- Whether an errand has the queue performed. -/
def performs : Errand → Bool
  | mk _ _ performs _ => performs

def fails : Errand → Bool
  | mk _ _ _ fails => fails

/-- What an errand does once it has begun. -/
def deeds : Errand → List Instruction
  | mk _ followUps performs fails => followUps.map .enqueue ++
    (if performs then [.perform] else []) ++ if fails then [.fail] else []

theorem body_eq (errand : Errand) : errand.body = .note (.ran errand.label) :: errand.deeds := by
  obtain ⟨label, followUps, performs, fails⟩ := errand
  rfl

theorem mem_deeds {errand : Errand} {instruction : Instruction} :
    instruction ∈ errand.deeds ↔ (∃ followUp ∈ errand.followUps, .enqueue followUp = instruction) ∨
      (errand.performs = true ∧ instruction = .perform) ∨
        (errand.fails = true ∧ instruction = .fail) := by
  obtain ⟨label, followUps, performs, fails⟩ := errand
  simp only [deeds, List.mem_append, List.mem_map, Errand.followUps, Errand.performs,
    Errand.fails, or_assoc]
  cases performs <;> cases fails <;> simp

/-- An errand, and how many had been enqueued before it. -/
structure Slip where
  number : Nat
  errand : Errand

/-- The numbers of errands. -/
def numbers (slips : List Slip) : List Nat := slips.map Slip.number

/-- An instruction and the errand that it belongs to, if it is not the owner's. -/
structure Part where
  slip? : Option Slip
  instruction : Instruction

/-- The errand that begins with an instruction. -/
def Part.begins : Part → Option Slip
  | ⟨slip?, .note (.ran _)⟩ => slip?
  | _ => none

/-- The errand that an instruction enqueues. -/
def Part.enqueues : Part → Option Errand
  | ⟨_, .enqueue errand⟩ => some errand
  | _ => none

/-- The instructions that are carried out are those of errands, the answers to errands that have the
queue performed, and those by which the owner enqueues errands. -/
inductive Part.Genuine : Part → Prop where
  | owner {errand : Errand} : Genuine ⟨none, .enqueue errand⟩
  | own {slip : Slip} {instruction : Instruction} (listed : instruction ∈ slip.errand.body) :
    Genuine ⟨some slip, instruction⟩
  | answer {slip : Slip} {any : Bool} (performs : slip.errand.performs = true) :
    Genuine ⟨some slip, .note (.performed any)⟩

/-- The labels of the errands that have begun, by the events that show it. -/
def labels (events : List Event) : List Bytes :=
  events.filterMap fun
    | .ran label => some label
    | .performed _ => none

/-- The instructions of an errand, marked as its own. -/
def Slip.parts (slip : Slip) : List Part := slip.errand.body.map (⟨some slip, ·⟩)

@[simp] theorem instructions_parts (slip : Slip) :
    slip.parts.map Part.instruction = slip.errand.body := by
  simp [Slip.parts, Function.comp_def]

/-- A board on which errands are numbered, and on which those that have begun are listed. -/
structure Ledger where
  queue : List Slip
  /-- All errands that have been enqueued, in this order. -/
  enqueued : List Slip
  /-- The errands that have begun, in this order. -/
  begun : List Slip
  events : List Event

namespace Ledger

/-- The ledger on which nothing has happened. -/
def empty : Ledger := ⟨[], [], [], []⟩

/-- The board without the numbers. -/
def board (ledger : Ledger) : Board := ⟨ledger.queue.map Slip.errand, ledger.events⟩

/-- The errand with the next number. -/
def slip (ledger : Ledger) (errand : Errand) : Slip := ⟨ledger.enqueued.length, errand⟩

def enqueue (errand : Errand) (ledger : Ledger) : Ledger :=
  { ledger with
    queue := ledger.queue ++ [ledger.slip errand]
    enqueued := ledger.enqueued ++ [ledger.slip errand] }

/-- Notes an event, and with it the errand that begins there. -/
def note (part : Part) (event : Event) (ledger : Ledger) : Ledger :=
  { ledger with
    begun := ledger.begun ++ part.begins.toList
    events := ledger.events ++ [event] }

/-- The ledger without what waited in the queue. -/
def taken (ledger : Ledger) : Ledger := { ledger with queue := [] }

end Ledger

/-- How numbered errands are carried out. -/
def numbered (error : Error) : Agenda Error Ledger Slip Part where
  queue := Ledger.queue
  clear := Ledger.taken
  body := Slip.parts
  order part :=
    match part.instruction with
    | .enqueue errand => .act do
      modify (Ledger.enqueue errand)
      return []
    | .note event => .act do
      modify (Ledger.note part event)
      return []
    | .perform => .perform fun any => [⟨part.slip?, .note (.performed any)⟩]
    | .fail => .act (throw error)
  weight part := (agenda error).weight part.instruction

section Agendas

variable (error : Error)

theorem weights_enqueue (followUps : List Errand) :
    (agenda error).weights (followUps.map .enqueue) = weights followUps := by
  induction followUps with
  | nil => rfl
  | cons first rest ih =>
    rw [List.map_cons, Agenda.weights_cons, ih]
    rfl

/-- An errand weighs more than its instructions do. -/
theorem weights_body (errand : Errand) :
    (agenda error).weights errand.body + 3 ≤ errand.weight := by
  obtain ⟨label, followUps, performs, fails⟩ := errand
  have instructions : (agenda error).weights (body (.mk label followUps performs fails)) =
      2 + weights followUps + (if performs then 6 else 0) + if fails then 1 else 0 := by
    unfold body
    rw [Agenda.weights_append, Agenda.weights_append, Agenda.weights_cons, weights_enqueue]
    cases performs <;> cases fails <;> rfl
  have all : weight (.mk label followUps performs fails) = weights followUps + 12 := by
    rw [weight]
  rw [instructions, all]
  cases performs <;> cases fails <;> simp <;> omega

theorem bounded_agenda : (agenda error).Bounded where
  cleared := fun _ => rfl
  act := by
    intro instruction effect ordered board inserted later ran
    cases instruction with
    | enqueue errand =>
      cases ordered
      cases ran
      have more : (agenda error).load { board with queue := board.queue ++ [errand] } = _ :=
        Agenda.load_of_enqueued rfl
      have own := weights_body error errand
      have body : (agenda error).body errand = errand.body := rfl
      have paid : (agenda error).weight (.enqueue errand) = errand.weight + 4 := rfl
      rw [more, body, paid, Agenda.weights_nil]
      omega
    | note event =>
      cases ordered
      cases ran
      have same : (agenda error).load { board with events := board.events ++ [event] } =
          (agenda error).load board := Agenda.load_congr rfl
      have paid : (agenda error).weight (.note event) = 2 := rfl
      rw [same, paid, Agenda.weights_nil]
      omega
    | perform => cases ordered
    | fail =>
      cases ordered
      cases ran
  perform := by
    intro instruction next ordered any
    cases instruction <;> cases ordered
    exact Nat.le_succ_of_le (Nat.le_succ 4)
  flush := by
    intro instruction ordered
    cases instruction <;> cases ordered

/-- Without the numbers, numbered errands are carried out as errands are. -/
theorem shows_numbered : (numbered error).Shows (agenda error) Ledger.board Slip.errand
    Part.instruction where
  queue := fun _ => rfl
  clear := fun _ => rfl
  body := fun slip => (instructions_parts slip).symm
  weight := fun _ => rfl
  act := by
    rintro ⟨slip?, instruction⟩ effect ordered
    cases instruction with
    | enqueue errand =>
      cases ordered
      refine ⟨_, rfl, (Attempt.showsAs_modify ?_).bind fun _ => Attempt.showsAs_pure _⟩
      intro ledger
      simp [Ledger.board, Ledger.enqueue, Ledger.slip]
    | note event =>
      cases ordered
      refine ⟨_, rfl, (Attempt.showsAs_modify ?_).bind fun _ => Attempt.showsAs_pure _⟩
      exact fun _ => rfl
    | perform => cases ordered
    | fail =>
      cases ordered
      exact ⟨_, rfl, Attempt.showsAs_throw error⟩
  perform := by
    rintro ⟨slip?, instruction⟩ next ordered
    cases instruction <;> cases ordered
    rfl
  flush := by
    rintro ⟨slip?, instruction⟩ ordered
    cases instruction <;> cases ordered

theorem bounded_numbered : (numbered error).Bounded :=
  (shows_numbered error).bounded (bounded_agenda error) fun _ => rfl

theorem numbered_perform_eq_work (ledger : Ledger) :
    ((numbered error).perform >>= fun _ => pure ()) ledger =
      (numbered error).work [.batch ledger.queue] ledger.taken := by
  refine (bounded_numbered error).perform_eq_work fun waiting => ?_
  obtain ⟨queue, enqueued, begun, events⟩ := ledger
  exact congrArg (Ledger.mk · enqueued begun events) (Eq.symm waiting)

end Agendas

/-- The frames of numbered errands, the innermost first. -/
abbrev Stack := List (Agenda.Frame Slip Part)

variable {error : Error} {stack next : Stack} {ledger later : Ledger}

/-- What a step that succeeds can do. -/
inductive Step : Stack → Ledger → Stack → Ledger → Prop where
  | idle {ledger : Ledger} : Step [] ledger [] ledger
  | ended {outer : Stack} {ledger : Ledger} : Step (.script [] :: outer) ledger outer ledger
  | enqueued {slip? : Option Slip} {errand : Errand} {rest : List Part} {outer : Stack}
    {ledger : Ledger} :
    Step (.script (⟨slip?, .enqueue errand⟩ :: rest) :: outer) ledger
      (.script [] :: .script rest :: outer) (ledger.enqueue errand)
  | noted {slip? : Option Slip} {event : Event} {rest : List Part} {outer : Stack}
    {ledger : Ledger} :
    Step (.script (⟨slip?, .note event⟩ :: rest) :: outer) ledger
      (.script [] :: .script rest :: outer) (ledger.note ⟨slip?, .note event⟩ event)
  | refused {slip? : Option Slip} {rest : List Part} {outer : Stack} {ledger : Ledger}
    (waiting : ledger.queue = []) :
    Step (.script (⟨slip?, .perform⟩ :: rest) :: outer) ledger
      (.script [⟨slip?, .note (.performed false)⟩] :: .script rest :: outer) ledger
  | performed {slip? : Option Slip} {rest : List Part} {outer : Stack} {ledger : Ledger}
    (waiting : ledger.queue ≠ []) :
    Step (.script (⟨slip?, .perform⟩ :: rest) :: outer) ledger
      (.batch ledger.queue :: .script [⟨slip?, .note (.performed true)⟩] :: .script rest :: outer)
      ledger.taken
  | emptied {outer : Stack} {ledger : Ledger} : Step (.batch [] :: outer) ledger outer ledger
  | begun {slip : Slip} {rest : List Slip} {outer : Stack} {ledger : Ledger} :
    Step (.batch (slip :: rest) :: outer) ledger (.script slip.parts :: .batch rest :: outer) ledger
  | drained {outer : Stack} {ledger : Ledger} (waiting : ledger.queue = []) :
    Step (.flush :: outer) ledger outer ledger
  | flushed {outer : Stack} {ledger : Ledger} (waiting : ledger.queue ≠ []) :
    Step (.flush :: outer) ledger (.batch ledger.queue :: .flush :: outer) ledger.taken

theorem step_of_advance
    (advanced : (numbered error).advance stack ledger = (.ok next, later)) :
    Step stack ledger next later := by
  cases stack with
  | nil =>
    cases advanced
    exact .idle
  | cons frame outer =>
    cases frame with
    | script script =>
      cases script with
      | nil =>
        cases advanced
        exact .ended
      | cons part rest =>
        obtain ⟨slip?, instruction⟩ := part
        cases instruction with
        | enqueue errand =>
          cases advanced
          exact .enqueued
        | note event =>
          cases advanced
          exact .noted
        | perform =>
          by_cases waiting : ledger.queue = []
          · cases (Agenda.advance_perform_none rfl waiting).symm.trans advanced
            exact .refused waiting
          · obtain ⟨first, others, same⟩ := List.exists_cons_of_ne_nil waiting
            cases (Agenda.advance_perform_some rfl same).symm.trans advanced
            rw [← same]
            exact .performed waiting
        | fail => cases advanced
    | batch tasks =>
      cases tasks with
      | nil =>
        cases advanced
        exact .emptied
      | cons slip rest =>
        cases advanced
        exact .begun
    | flush =>
      by_cases waiting : ledger.queue = []
      · cases (Agenda.advance_flushing_none waiting).symm.trans advanced
        exact .drained waiting
      · obtain ⟨first, others, same⟩ := List.exists_cons_of_ne_nil waiting
        cases (Agenda.advance_flushing_some same).symm.trans advanced
        rw [← same]
        exact .flushed waiting

/-- The only step that fails is that of an errand that fails. It changes nothing. -/
theorem fail_of_advance {fault : Error}
    (failed : (numbered error).advance stack ledger = (.error fault, later)) :
    fault = error ∧ later = ledger ∧
      ∃ slip? rest outer, stack = .script (⟨slip?, .fail⟩ :: rest) :: outer := by
  cases stack with
  | nil => cases failed
  | cons frame outer =>
    cases frame with
    | script script =>
      cases script with
      | nil => cases failed
      | cons part rest =>
        obtain ⟨slip?, instruction⟩ := part
        cases instruction with
        | enqueue errand => cases failed
        | note event => cases failed
        | perform =>
          cases waiting : ledger.queue with
          | nil => cases (Agenda.advance_perform_none rfl waiting).symm.trans failed
          | cons first others => cases (Agenda.advance_perform_some rfl waiting).symm.trans failed
        | fail =>
          cases failed
          exact ⟨rfl, rfl, slip?, rest, outer, rfl⟩
    | batch tasks => cases tasks <;> cases failed
    | flush =>
      cases waiting : ledger.queue with
      | nil => cases (Agenda.advance_flushing_none waiting).symm.trans failed
      | cons first others => cases (Agenda.advance_flushing_some waiting).symm.trans failed

/-- The instructions that are left to be carried out. -/
def remaining (stack : Stack) : List Part := stack.flatMap Agenda.Frame.instructions

/-- The instructions that are left behind the one that comes next. -/
def behind : Stack → List Part
  | [] => []
  | frame :: outer => frame.instructions.tail ++ remaining outer

/-- The tasks of the batches that have not been begun. -/
def leftover (stack : Stack) : List Slip := stack.flatMap Agenda.Frame.tasks

/-- The errands that have been taken from the queue and have not begun. -/
def waiting (stack : Stack) : List Slip :=
  stack.flatMap fun frame => frame.instructions.filterMap Part.begins ++ frame.tasks

/-- The errands that have been enqueued, by what has become of them. -/
def tally (stack : Stack) (ledger : Ledger) : List Slip :=
  ledger.begun ++ waiting stack ++ ledger.queue

section Frames

variable (frame : Agenda.Frame Slip Part) (outer : Stack)

@[simp] theorem instructions_script (rest : List Part) :
    (.script rest : Agenda.Frame Slip Part).instructions = rest := rfl

@[simp] theorem instructions_batch (rest : List Slip) :
    (.batch rest : Agenda.Frame Slip Part).instructions = [] := rfl

@[simp] theorem tasks_script (rest : List Part) :
    (.script rest : Agenda.Frame Slip Part).tasks = [] := rfl

@[simp] theorem tasks_batch (rest : List Slip) :
    (.batch rest : Agenda.Frame Slip Part).tasks = rest := rfl

@[simp] theorem remaining_nil : remaining [] = [] := rfl

@[simp] theorem remaining_cons :
    remaining (frame :: outer) = frame.instructions ++ remaining outer := rfl

@[simp] theorem leftover_nil : leftover [] = [] := rfl

@[simp] theorem leftover_cons : leftover (frame :: outer) = frame.tasks ++ leftover outer := rfl

@[simp] theorem waiting_nil : waiting [] = [] := rfl

@[simp] theorem waiting_cons : waiting (frame :: outer) =
    frame.instructions.filterMap Part.begins ++ frame.tasks ++ waiting outer := rfl

@[simp] theorem behind_cons :
    behind (frame :: outer) = frame.instructions.tail ++ remaining outer := rfl

theorem behind_subset (stack : Stack) : behind stack ⊆ remaining stack := by
  cases stack with
  | nil => exact List.Subset.refl _
  | cons frame outer =>
    refine List.append_subset.mpr ⟨?_, List.subset_append_right _ _⟩
    exact fun part member => List.mem_append_left _ (List.mem_of_mem_tail member)

end Frames

/-- An errand begins with its first instruction, and its other ones begin nothing. -/
theorem parts_eq (slip : Slip) : slip.parts =
    ⟨some slip, .note (.ran slip.errand.label)⟩ :: slip.errand.deeds.map (⟨some slip, ·⟩) := by
  rw [Slip.parts, body_eq]
  rfl

theorem begins_of_deed {slip : Slip} {part : Part}
    (member : part ∈ slip.errand.deeds.map (⟨some slip, ·⟩ : Instruction → Part)) :
    part.begins = none := by
  obtain ⟨instruction, deed, rfl⟩ := List.mem_map.mp member
  rcases mem_deeds.mp deed with ⟨followUp, _, rfl⟩ | ⟨_, rfl⟩ | ⟨_, rfl⟩ <;> rfl

@[simp] theorem begins_parts (slip : Slip) : slip.parts.filterMap Part.begins = [slip] := by
  have first : Part.begins ⟨some slip, .note (.ran slip.errand.label)⟩ = some slip := rfl
  rw [parts_eq, List.filterMap_cons_some first,
    List.filterMap_eq_nil_iff.mpr fun _ member => begins_of_deed member]

/-- The frames under way have the queue performed next. -/
inductive Calling : Stack → Prop where
  | errand {slip? : Option Slip} {rest : List Part} {outer : Stack} :
    Calling (.script (⟨slip?, .perform⟩ :: rest) :: outer)
  | flush {outer : Stack} : Calling (.flush :: outer)

/-- A step moves errands on: one that is enqueued waits behind the others in the queue, and what is
taken from the queue comes before what was taken earlier and has not begun. -/
theorem Step.moves (step : Step stack ledger next later) :
    (later.begun ++ waiting next = ledger.begun ++ waiting stack ∧ later.queue = ledger.queue ∧
        later.enqueued = ledger.enqueued) ∨
      (∃ errand, later.begun ++ waiting next = ledger.begun ++ waiting stack ∧
        later.queue = ledger.queue ++ [ledger.slip errand] ∧
          later.enqueued = ledger.enqueued ++ [ledger.slip errand]) ∨
      (Calling stack ∧ later = ledger.taken ∧ ledger.queue ≠ [] ∧
        waiting next = ledger.queue ++ waiting stack) := by
  cases step with
  | idle => exact .inl ⟨rfl, rfl, rfl⟩
  | ended => exact .inl ⟨rfl, rfl, rfl⟩
  | @enqueued slip? errand =>
    refine .inr (.inl ⟨errand, ?_, rfl, rfl⟩)
    simp [Ledger.enqueue, Part.begins, List.filterMap_cons]
  | @noted slip? event rest outer =>
    refine .inl ⟨?_, rfl, rfl⟩
    cases begins : Part.begins ⟨slip?, .note event⟩ <;> simp [Ledger.note, begins]
  | refused =>
    refine .inl ⟨?_, rfl, rfl⟩
    simp [Part.begins, List.filterMap_cons]
  | performed some =>
    refine .inr (.inr ⟨.errand, rfl, some, ?_⟩)
    simp [Part.begins, List.filterMap_cons]
  | emptied => exact .inl ⟨rfl, rfl, rfl⟩
  | begun => exact .inl ⟨by simp, rfl, rfl⟩
  | drained => exact .inl ⟨rfl, rfl, rfl⟩
  | flushed some => exact .inr (.inr ⟨.flush, rfl, some, by simp⟩)

/-- What holds of the frames and the ledger throughout, where some errands were lost earlier. -/
structure Sound (lost : List Slip) (stack : Stack) (ledger : Ledger) : Prop where
  /-- Errands are numbered in the order in which they are enqueued. -/
  successive : numbers ledger.enqueued = List.range ledger.enqueued.length
  /-- Each errand that has been enqueued is in one place. -/
  counted : (tally stack ledger ++ lost).Perm ledger.enqueued
  /-- What waits in the queue was enqueued after all that has been taken from it. -/
  recent : ∀ old ∈ ledger.begun ++ waiting stack, ∀ slip ∈ ledger.queue, old.number < slip.number
  /-- Only the instruction that comes next can be the first one of an errand. -/
  tidy : ∀ part ∈ behind stack, part.begins = none
  /-- The errands whose instructions are left have begun, or begin there. -/
  started : ∀ part ∈ remaining stack, ∀ slip, part.slip? = some slip →
    slip ∈ ledger.begun ∨ slip ∈ (remaining stack).filterMap Part.begins
  genuine : ∀ part ∈ remaining stack, part.Genuine
  /-- What has begun is what is seen to have begun. -/
  shown : labels ledger.events = ledger.begun.map (·.errand.label)

variable {lost : List Slip}

theorem numbers_append (first second : List Slip) :
    numbers (first ++ second) = numbers first ++ numbers second := List.map_append

/-- Where no instruction is left, it is the errands alone that are accounted for. -/
theorem Sound.idle (none : remaining stack = [])
    (successive : numbers ledger.enqueued = List.range ledger.enqueued.length)
    (counted : (tally stack ledger ++ lost).Perm ledger.enqueued)
    (recent : ∀ old ∈ ledger.begun ++ waiting stack, ∀ slip ∈ ledger.queue,
      old.number < slip.number)
    (shown : labels ledger.events = ledger.begun.map (·.errand.label)) :
    Sound lost stack ledger where
  successive := successive
  counted := counted
  recent := recent
  tidy _ member := absurd (behind_subset stack member) (none ▸ List.not_mem_nil)
  started _ member := absurd member (none ▸ List.not_mem_nil)
  genuine _ member := absurd member (none ▸ List.not_mem_nil)
  shown := shown

/-- Errands that were taken from the queue and have not begun may be counted as lost instead. -/
theorem Sound.lose (sound : Sound lost stack ledger)
    (kept : tally next later = ledger.begun ++ ledger.queue)
    (given : later.enqueued = ledger.enqueued) :
    (tally next later ++ (lost ++ waiting stack)).Perm later.enqueued := by
  rw [kept, given]
  refine List.Perm.trans ?_ sound.counted
  calc
    (ledger.begun ++ ledger.queue ++ (lost ++ waiting stack)).Perm
        (ledger.begun ++ (ledger.queue ++ lost ++ waiting stack)) := by
      simp only [List.append_assoc, List.Perm.refl]
    List.Perm _ (ledger.begun ++ (waiting stack ++ (ledger.queue ++ lost))) :=
      List.perm_append_comm.append_left ledger.begun
    _ = tally stack ledger ++ lost := by simp only [tally, List.append_assoc]

theorem Sound.number_lt (sound : Sound lost stack ledger) {slip : Slip}
    (member : slip ∈ ledger.enqueued) : slip.number < ledger.enqueued.length := by
  have counted : slip.number ∈ numbers ledger.enqueued := List.mem_map_of_mem member
  rw [sound.successive] at counted
  exact List.mem_range.mp counted

theorem Sound.mem_enqueued (sound : Sound lost stack ledger) {slip : Slip}
    (taken : slip ∈ ledger.begun ++ waiting stack) : slip ∈ ledger.enqueued :=
  sound.counted.mem_iff.mp (List.mem_append_left lost (List.mem_append_left ledger.queue taken))

theorem Sound.nodup (sound : Sound lost stack ledger) : ledger.enqueued.Nodup := by
  have distinct : (numbers ledger.enqueued).Nodup := by
    rw [sound.successive]
    exact List.nodup_range
  exact List.Nodup.of_map _ distinct

theorem Sound.successive_step (sound : Sound lost stack ledger)
    (step : Step stack ledger next later) :
    numbers later.enqueued = List.range later.enqueued.length := by
  rcases step.moves with ⟨_, _, given⟩ | ⟨errand, _, _, given⟩ | ⟨_, rfl, _, _⟩
  · rw [given]
    exact sound.successive
  · rw [given, numbers_append, sound.successive, List.length_append, List.length_singleton,
      List.range_succ]
    rfl
  · exact sound.successive

theorem Sound.counted_step (sound : Sound lost stack ledger) (step : Step stack ledger next later) :
    (tally next later ++ lost).Perm later.enqueued := by
  have counted := sound.counted
  unfold tally at *
  rcases step.moves with ⟨same, queued, given⟩ | ⟨errand, same, queued, given⟩ | ⟨_, rfl, _, taken⟩
  · rwa [same, queued, given]
  · rw [same, queued, given, ← List.append_assoc, List.append_assoc _ _ lost]
    refine (List.perm_append_comm.append_left _).trans ?_
    rw [← List.append_assoc]
    exact counted.append_right _
  · refine (List.Perm.append_right lost ?_).trans counted
    rw [taken, Ledger.taken, List.append_nil, List.append_assoc]
    exact List.perm_append_comm.append_left _

theorem Sound.recent_step (sound : Sound lost stack ledger) (step : Step stack ledger next later) :
    ∀ old ∈ later.begun ++ waiting next, ∀ slip ∈ later.queue, old.number < slip.number := by
  rcases step.moves with ⟨same, queued, _⟩ | ⟨errand, same, queued, _⟩ | ⟨_, rfl, _, _⟩
  · rw [same, queued]
    exact sound.recent
  · rw [same, queued]
    intro old member slip among
    rcases List.mem_append.mp among with before | last
    · exact sound.recent old member slip before
    · rw [List.mem_singleton.mp last]
      exact sound.number_lt (sound.mem_enqueued member)
  · nofun

theorem Sound.tidy_step (sound : Sound lost stack ledger) (step : Step stack ledger next later) :
    ∀ part ∈ behind next, part.begins = none := by
  have tidy := sound.tidy
  cases step with
  | ended => exact fun part member => tidy part (behind_subset next member)
  | emptied => exact fun part member => tidy part (behind_subset next member)
  | drained => exact fun part member => tidy part (behind_subset next member)
  | @begun slip rest outer =>
    intro part member
    rw [behind_cons, instructions_script, parts_eq] at member
    rcases List.mem_append.mp member with deed | outside
    · exact begins_of_deed deed
    · exact tidy part outside
  | performed => exact List.forall_mem_cons.mpr ⟨rfl, tidy⟩
  | _ => exact tidy

theorem Part.Genuine.performs {slip : Slip} (genuine : Part.Genuine ⟨some slip, .perform⟩) :
    slip.errand.performs = true := by
  cases genuine with
  | own listed =>
    rw [body_eq, List.mem_cons] at listed
    rcases mem_deeds.mp (listed.resolve_left nofun) with ⟨_, _, ⟨⟩⟩ | ⟨performs, _⟩ | ⟨_, ⟨⟩⟩
    exact performs

theorem Part.Genuine.fails {slip? : Option Slip} (genuine : Part.Genuine ⟨slip?, .fail⟩) :
    ∃ slip, slip? = some slip ∧ slip.errand.fails = true := by
  cases genuine with
  | @own slip _ listed =>
    rw [body_eq, List.mem_cons] at listed
    rcases mem_deeds.mp (listed.resolve_left nofun) with ⟨_, _, ⟨⟩⟩ | ⟨_, ⟨⟩⟩ | ⟨fails, _⟩
    exact ⟨slip, rfl, fails⟩

theorem Part.Genuine.ran {slip? : Option Slip} {label : Bytes}
    (genuine : Part.Genuine ⟨slip?, .note (.ran label)⟩) :
    ∃ slip, slip? = some slip ∧ slip.errand.label = label := by
  cases genuine with
  | @own slip _ listed =>
    rw [body_eq, List.mem_cons] at listed
    rcases listed with same | deed
    · cases same
      exact ⟨slip, rfl, rfl⟩
    · rcases mem_deeds.mp deed with ⟨_, _, ⟨⟩⟩ | ⟨_, ⟨⟩⟩ | ⟨_, ⟨⟩⟩

theorem Part.Genuine.answered {slip? : Option Slip} (genuine : Part.Genuine ⟨slip?, .perform⟩)
    (any : Bool) : Part.Genuine ⟨slip?, .note (.performed any)⟩ := by
  cases slip? with
  | none => cases genuine
  | some slip => exact .answer genuine.performs

theorem Sound.genuine_step (sound : Sound lost stack ledger) (step : Step stack ledger next later) :
    ∀ part ∈ remaining next, part.Genuine := by
  have genuine := sound.genuine
  cases step with
  | enqueued => exact (List.forall_mem_cons.mp genuine).2
  | noted => exact (List.forall_mem_cons.mp genuine).2
  | refused =>
    obtain ⟨here, others⟩ := List.forall_mem_cons.mp genuine
    exact List.forall_mem_cons.mpr ⟨here.answered false, others⟩
  | performed =>
    obtain ⟨here, others⟩ := List.forall_mem_cons.mp genuine
    exact List.forall_mem_cons.mpr ⟨here.answered true, others⟩
  | @begun slip rest outer =>
    intro part member
    rcases List.mem_append.mp member with mine | outside
    · obtain ⟨instruction, listed, rfl⟩ := List.mem_map.mp mine
      exact .own listed
    · exact genuine part outside
  | _ => exact genuine

theorem Sound.shown_step (sound : Sound lost stack ledger) (step : Step stack ledger next later) :
    labels later.events = later.begun.map (·.errand.label) := by
  have shown := sound.shown
  cases step with
  | @noted slip? event rest outer =>
    have genuine := (List.forall_mem_cons.mp sound.genuine).1
    unfold labels at shown ⊢
    rw [Ledger.note, List.filterMap_append, shown, List.map_append]
    cases event with
    | ran label =>
      obtain ⟨slip, rfl, rfl⟩ := genuine.ran
      rfl
    | performed any => rfl
  | _ => exact shown

theorem Sound.started_step (sound : Sound lost stack ledger) (step : Step stack ledger next later) :
    ∀ part ∈ remaining next, ∀ slip, part.slip? = some slip →
      slip ∈ later.begun ∨ slip ∈ (remaining next).filterMap Part.begins := by
  have started := sound.started
  cases step with
  | enqueued => exact (List.forall_mem_cons.mp started).2
  | @noted slip? event rest outer =>
    intro part member slip own
    have here := started part (List.mem_cons_of_mem _ member) slip own
    rw [remaining_cons, instructions_script, List.cons_append] at here
    cases begins : Part.begins ⟨slip?, .note event⟩ with
    | none =>
      rw [List.filterMap_cons_none begins] at here
      exact here.imp_left (List.mem_append_left _)
    | some first =>
      rw [List.filterMap_cons_some begins, List.mem_cons] at here
      rcases here with before | rfl | after
      · exact .inl (List.mem_append_left _ before)
      · exact .inl (List.mem_append_right _ (by rw [begins]; exact List.mem_singleton_self _))
      · exact .inr after
  | refused =>
    obtain ⟨here, others⟩ := List.forall_mem_cons.mp started
    exact List.forall_mem_cons.mpr ⟨here, others⟩
  | performed =>
    obtain ⟨here, others⟩ := List.forall_mem_cons.mp started
    exact List.forall_mem_cons.mpr ⟨here, others⟩
  | @begun slip rest outer =>
    intro part member other own
    rw [remaining_cons, instructions_script, List.filterMap_append, begins_parts]
    rcases List.mem_append.mp member with mine | outside
    · obtain ⟨instruction, _, rfl⟩ := List.mem_map.mp mine
      cases own
      exact .inr List.mem_cons_self
    · exact (started part outside other own).imp_right (List.mem_cons_of_mem _)
  | _ => exact started

theorem Sound.step (sound : Sound lost stack ledger) (step : Step stack ledger next later) :
    Sound lost next later where
  successive := sound.successive_step step
  counted := sound.counted_step step
  recent := sound.recent_step step
  tidy := sound.tidy_step step
  started := sound.started_step step
  genuine := sound.genuine_step step
  shown := sound.shown_step step

theorem Sound.leads {start : Stack} {initial : Ledger} (sound : Sound lost start initial)
    (leads : (numbered error).Leads start initial stack ledger) : Sound lost stack ledger :=
  leads.keeps sound fun _ _ _ _ sound advanced => sound.step (step_of_advance advanced)

theorem Step.begun_grows (step : Step stack ledger next later) : ledger.begun <+: later.begun := by
  cases step with
  | noted => exact List.prefix_append _ _
  | _ => exact List.prefix_rfl

/-- What has been taken from the queue does not go back there. -/
theorem Step.taken_subset (step : Step stack ledger next later) :
    ledger.begun ++ waiting stack ⊆ later.begun ++ waiting next := by
  rcases step.moves with ⟨same, _, _⟩ | ⟨errand, same, _, _⟩ | ⟨_, rfl, _, taken⟩
  · exact same ▸ List.Subset.refl _
  · exact same ▸ List.Subset.refl _
  · rw [taken]
    exact List.append_subset.mpr ⟨List.subset_append_left _ _,
      List.Subset.trans (List.subset_append_right _ _) (List.subset_append_right _ _)⟩

/-- Where no errand begins next, none has been taken but those that are left in batches. -/
theorem waiting_eq_leftover (none : ∀ part ∈ remaining stack, part.begins = none) :
    waiting stack = leftover stack := by
  induction stack with
  | nil => rfl
  | cons frame outer ih =>
    obtain ⟨here, outside⟩ := List.forall_mem_append.mp none
    rw [waiting_cons, leftover_cons, ih outside, List.filterMap_eq_nil_iff.mpr here,
      List.nil_append]

end DosText.Errand
