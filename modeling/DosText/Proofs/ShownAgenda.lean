import DosText.Proofs.AgendaRuns

/-! One agenda seen through another. Where more is noted about states, tasks and instructions than
what is done depends on, leaving it out changes nothing: the work takes the same steps, ends the
same way and leaves what is seen of the state. -/

namespace DosText

variable {Error Full Plain FullValue PlainValue FullOther PlainOther : Type}

namespace Attempt

variable {state : Full → Plain} {value : FullValue → PlainValue} {other : FullOther → PlainOther}

/-- Seen through what is left out of its states and values, the first attempt is the second. -/
def ShowsAs (full : Attempt Error Full FullValue) (state : Full → Plain)
    (value : FullValue → PlainValue) (plain : Attempt Error Plain PlainValue) : Prop :=
  ∀ initial, plain (state initial) = ((full initial).1.map value, state (full initial).2)

theorem showsAs_pure (result : FullValue) :
    (pure result : Attempt Error Full FullValue).ShowsAs state value (pure (value result)) :=
  fun _ => rfl

theorem showsAs_throw (error : Error) :
    (throw error : Attempt Error Full FullValue).ShowsAs state value (throw error) :=
  fun _ => rfl

theorem showsAs_modify {change : Full → Full} {shown : Plain → Plain}
    (same : ∀ initial, shown (state initial) = state (change initial)) :
    (modify change : Attempt Error Full PUnit).ShowsAs state id (modify shown) :=
  fun initial => congrArg (Prod.mk _) (same initial)

theorem ShowsAs.bind {full : Attempt Error Full FullValue} {plain : Attempt Error Plain PlainValue}
    {next : FullValue → Attempt Error Full FullOther}
    {shown : PlainValue → Attempt Error Plain PlainOther} (first : full.ShowsAs state value plain)
    (others : ∀ result, (next result).ShowsAs state other (shown (value result))) :
    (full >>= next).ShowsAs state other (plain >>= shown) := by
  intro initial
  rw [bind_apply, bind_apply, first initial]
  rcases full initial with ⟨error | result, later⟩
  · rfl
  · exact others result later

/-- What is looked at is looked at in the state as it is seen. -/
theorem showsAs_get_bind {next : Full → Attempt Error Full FullOther}
    {shown : Plain → Attempt Error Plain PlainOther}
    (others : ∀ initial, (next initial).ShowsAs state other (shown (state initial))) :
    (get >>= next).ShowsAs state other (get >>= shown) :=
  fun initial => others initial initial

end Attempt

namespace Agenda

open Attempt (ShowsAs)

variable {FullTask PlainTask FullInstruction PlainInstruction : Type}

/-- A frame as it is seen. -/
def Frame.seen (task : FullTask → PlainTask) (instruction : FullInstruction → PlainInstruction) :
    Frame FullTask FullInstruction → Frame PlainTask PlainInstruction
  | script rest => script (rest.map instruction)
  | batch rest => batch (rest.map task)
  | flush => flush

/-- Seen through what is left out, the first agenda does what the second one does. -/
structure Shows (full : Agenda Error Full FullTask FullInstruction)
    (plain : Agenda Error Plain PlainTask PlainInstruction) (state : Full → Plain)
    (task : FullTask → PlainTask) (instruction : FullInstruction → PlainInstruction) : Prop where
  queue : ∀ initial, plain.queue (state initial) = (full.queue initial).map task
  clear : ∀ initial, plain.clear (state initial) = state (full.clear initial)
  body : ∀ begun, plain.body (task begun) = (full.body begun).map instruction
  weight : ∀ part, plain.weight (instruction part) = full.weight part
  act : ∀ part effect, full.order part = .act effect → ∃ shown,
    plain.order (instruction part) = .act shown ∧ effect.ShowsAs state (List.map instruction) shown
  perform : ∀ part next, full.order part = .perform next →
    plain.order (instruction part) = .perform fun any => (next any).map instruction
  flush : ∀ part, full.order part = .flush → plain.order (instruction part) = .flush

namespace Shows

variable {full : Agenda Error Full FullTask FullInstruction}
variable {plain : Agenda Error Plain PlainTask PlainInstruction} {state : Full → Plain}
variable {task : FullTask → PlainTask} {instruction : FullInstruction → PlainInstruction}
variable (shows : full.Shows plain state task instruction)

include shows

theorem clears : (modify full.clear : Attempt Error Full PUnit).ShowsAs state id
    (modify plain.clear) :=
  Attempt.showsAs_modify shows.clear

theorem advance (stack : List (Frame FullTask FullInstruction)) :
    (full.advance stack).ShowsAs state (List.map (Frame.seen task instruction))
      (plain.advance (stack.map (Frame.seen task instruction))) := by
  cases stack with
  | nil => exact Attempt.showsAs_pure _
  | cons frame outer =>
    cases frame with
    | script script =>
      cases script with
      | nil => exact Attempt.showsAs_pure outer
      | cons part rest =>
        cases ordered : full.order part with
        | act effect =>
          obtain ⟨shown, agreed, effects⟩ := shows.act part effect ordered
          rw [advance_act ordered, List.map_cons, Frame.seen, List.map_cons, advance_act agreed]
          exact effects.bind fun inserted => Attempt.showsAs_pure _
        | perform next =>
          have agreed := shows.perform part next ordered
          simp only [Agenda.advance, List.map_cons, Frame.seen, ordered, agreed]
          refine Attempt.showsAs_get_bind ?_
          intro initial
          rw [shows.queue initial]
          cases full.queue initial with
          | nil => exact Attempt.showsAs_pure _
          | cons first others => exact shows.clears.bind fun _ => Attempt.showsAs_pure _
        | flush =>
          rw [advance_flush ordered, List.map_cons, Frame.seen, List.map_cons,
            advance_flush (shows.flush part ordered)]
          exact Attempt.showsAs_pure _
    | batch tasks =>
      cases tasks with
      | nil => exact Attempt.showsAs_pure outer
      | cons first others =>
        have begun := shows.body first
        simp only [Agenda.advance, List.map_cons, Frame.seen, begun]
        exact Attempt.showsAs_pure _
    | flush =>
      simp only [Agenda.advance, List.map_cons, Frame.seen]
      refine Attempt.showsAs_get_bind ?_
      intro initial
      rw [shows.queue initial]
      cases full.queue initial with
      | nil => exact Attempt.showsAs_pure outer
      | cons first others => exact shows.clears.bind fun _ => Attempt.showsAs_pure _

theorem run (steps : Nat) (stack : List (Frame FullTask FullInstruction)) :
    (full.run steps stack).ShowsAs state (List.map (Frame.seen task instruction))
      (plain.run steps (stack.map (Frame.seen task instruction))) := by
  induction steps generalizing stack with
  | zero => cases stack <;> exact Attempt.showsAs_pure _
  | succ steps ih =>
    cases stack with
    | nil => exact Attempt.showsAs_pure _
    | cons frame outer =>
      rw [List.map_cons, run_succ_cons, run_succ_cons, ← List.map_cons]
      exact (shows.advance (frame :: outer)).bind ih

theorem weights (script : List FullInstruction) :
    plain.weights (script.map instruction) = full.weights script := by
  induction script with
  | nil => rfl
  | cons part rest ih => simp [shows.weight, ih]

theorem taskWeights (tasks : List FullTask) :
    plain.taskWeights (tasks.map task) = full.taskWeights tasks := by
  induction tasks with
  | nil => rfl
  | cons first rest ih => simp [shows.body, shows.weights, ih]

theorem load (initial : Full) : plain.load (state initial) = full.load initial := by
  unfold Agenda.load
  rw [shows.queue, shows.taskWeights, List.length_map]

theorem frameWeights (stack : List (Frame FullTask FullInstruction)) :
    plain.frameWeights (stack.map (Frame.seen task instruction)) = full.frameWeights stack := by
  induction stack with
  | nil => rfl
  | cons frame outer ih =>
    cases frame <;>
      simp [Frame.seen, Agenda.frameWeights, shows.weights, shows.taskWeights, ih]

theorem bound (stack : List (Frame FullTask FullInstruction)) (initial : Full) :
    plain.bound (stack.map (Frame.seen task instruction)) (state initial) =
      full.bound stack initial := by
  unfold Agenda.bound
  rw [shows.frameWeights, shows.load]

/-- The work of a stack is seen as the work of the stack that is seen. -/
theorem work (stack : List (Frame FullTask FullInstruction)) :
    (full.work stack).ShowsAs state id
      (plain.work (stack.map (Frame.seen task instruction))) := by
  refine Attempt.showsAs_get_bind ?_
  intro initial
  rw [shows.bound stack initial]
  exact (shows.run _ stack).bind fun _ => Attempt.showsAs_pure _

theorem performed : full.perform.ShowsAs state id plain.perform := by
  refine Attempt.showsAs_get_bind ?_
  intro initial
  rw [shows.queue initial]
  cases full.queue initial with
  | nil => exact Attempt.showsAs_pure _
  | cons first others =>
    refine shows.clears.bind fun _ => ?_
    exact (shows.work [.batch (first :: others)]).bind fun _ => Attempt.showsAs_pure _

theorem drains {count : Nat} {initial later : Full} (drains : full.Drains count initial later) :
    plain.Drains count (state initial) (state later) := by
  induction drains with
  | last performed =>
    refine .last ?_
    rw [shows.performed, performed]
    rfl
  | more performed others ih =>
    refine .more ?_ ih
    rw [shows.performed, performed]
    rfl

/-- What is seen pays for everything only if what is there does. -/
theorem bounded (paid : plain.Bounded)
    (cleared : ∀ initial, full.queue (full.clear initial) = []) : full.Bounded where
  cleared := cleared
  act := by
    intro part effect ordered initial inserted later ran
    obtain ⟨shown, agreed, effects⟩ := shows.act part effect ordered
    have seen := effects initial
    rw [ran] at seen
    have paid := paid.act _ shown agreed _ _ _ seen
    rwa [shows.weights, shows.load, shows.weight, shows.load] at paid
  perform := by
    intro part next ordered any
    have paid := paid.perform _ _ (shows.perform part next ordered) any
    rwa [shows.weights, shows.weight] at paid
  flush := by
    intro part ordered
    have paid := paid.flush _ (shows.flush part ordered)
    rwa [shows.weight] at paid

end Shows

end Agenda

end DosText
