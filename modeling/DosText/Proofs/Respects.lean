import DosText.Proofs.AgendaWork

/-! Two runs side by side. An attempt respects a relation between states if from related states it
has the same outcome and leaves related states. What the parts of an attempt respect the whole
respects, and so does the work of an agenda of which every act does. -/

namespace DosText

namespace Attempt

variable {Error State Value Other : Type} {relation : State → State → Prop}

/-- From related states an attempt has one outcome and leaves related states. -/
def Respects (relation : State → State → Prop) (attempt : Attempt Error State Value) : Prop :=
  ∀ left right, relation left right →
    (attempt left).1 = (attempt right).1 ∧ relation (attempt left).2 (attempt right).2

theorem respects_pure (value : Value) :
    (pure value : Attempt Error State Value).Respects relation :=
  fun _ _ related => ⟨rfl, related⟩

theorem respects_throw (error : Error) :
    (throw error : Attempt Error State Value).Respects relation :=
  fun _ _ related => ⟨rfl, related⟩

theorem respects_ofExcept (outcome : Except Error Value) :
    (ofExcept outcome : Attempt Error State Value).Respects relation :=
  fun _ _ related => ⟨rfl, related⟩

theorem Respects.bind {first : Attempt Error State Value}
    {next : Value → Attempt Error State Other} (begun : first.Respects relation)
    (done : ∀ value, (next value).Respects relation) : (first >>= next).Respects relation := by
  intro left right related
  obtain ⟨same, after⟩ := begun left right related
  rw [bind_apply, bind_apply]
  rcases begins : first left with ⟨error | value, later⟩ <;>
    rcases follows : first right with ⟨failure | other, reached⟩ <;>
    rw [begins, follows] at same after <;> cases same
  · exact ⟨rfl, after⟩
  · exact done value later reached after

theorem Respects.recover {first : Attempt Error State Value}
    {handler : Error → Attempt Error State Value} (begun : first.Respects relation)
    (failed : ∀ error, (handler error).Respects relation) :
    (tryCatch first handler).Respects relation := by
  intro left right related
  obtain ⟨same, after⟩ := begun left right related
  rw [recover_apply, recover_apply]
  rcases begins : first left with ⟨error | value, later⟩ <;>
    rcases follows : first right with ⟨failure | other, reached⟩ <;>
    rw [begins, follows] at same after <;> cases same
  · exact failed error later reached after
  · exact ⟨rfl, after⟩

/-- What is looked at in the state must not tell related states apart. -/
theorem respects_get_bind {next : State → Attempt Error State Value}
    (same : ∀ left right, relation left right → next left = next right)
    (done : ∀ state, (next state).Respects relation) : (get >>= next).Respects relation := by
  intro left right related
  have run := done left left right related
  rw [bind_apply, bind_apply, get_apply, get_apply]
  simp only
  rwa [← same left right related]

theorem respects_modify {change : State → State}
    (keeps : ∀ left right, relation left right → relation (change left) (change right)) :
    (modify change : Attempt Error State PUnit).Respects relation :=
  fun left right related => ⟨rfl, keeps left right related⟩

/-- A condition as a relation: a state that meets it is related to itself. -/
def Same (condition : State → Prop) (left right : State) : Prop := left = right ∧ condition left

/-- Two runs from one state are one run, so what is respected is what is kept. -/
theorem respects_same_iff {condition : State → Prop} {attempt : Attempt Error State Value} :
    attempt.Respects (Same condition) ↔
      ∀ state, condition state → condition (attempt state).2 := by
  constructor
  · intro respects state met
    exact (respects state state ⟨rfl, met⟩).2.2
  · rintro keeps left _ ⟨rfl, met⟩
    exact ⟨rfl, rfl, keeps left met⟩

end Attempt

namespace Agenda

open Attempt (Respects)

variable {Error State Task Instruction : Type} {agenda : Agenda Error State Task Instruction}
variable {relation : State → State → Prop}

/-- In related states the same tasks wait, and no act tells the states apart. -/
structure Respectful (agenda : Agenda Error State Task Instruction)
    (relation : State → State → Prop) : Prop where
  queue : ∀ left right, relation left right → agenda.queue left = agenda.queue right
  cleared : ∀ left right, relation left right → relation (agenda.clear left) (agenda.clear right)
  act : ∀ instruction effect, agenda.order instruction = .act effect → effect.Respects relation

theorem Respectful.advance (respectful : agenda.Respectful relation)
    (stack : List (Frame Task Instruction)) : (agenda.advance stack).Respects relation := by
  have clears : (modify agenda.clear : Attempt Error State PUnit).Respects relation :=
    Attempt.respects_modify respectful.cleared
  cases stack with
  | nil => exact Attempt.respects_pure _
  | cons frame outer =>
    cases frame with
    | script script =>
      cases script with
      | nil => exact Attempt.respects_pure _
      | cons instruction rest =>
        cases ordered : agenda.order instruction with
        | act effect =>
          rw [advance_act ordered]
          exact (respectful.act instruction effect ordered).bind fun _ => Attempt.respects_pure _
        | perform next =>
          simp only [Agenda.advance, ordered]
          refine Attempt.respects_get_bind ?_ ?_
          · intro left right related
            rw [respectful.queue left right related]
          · intro state
            cases agenda.queue state with
            | nil => exact Attempt.respects_pure _
            | cons first others => exact clears.bind fun _ => Attempt.respects_pure _
        | flush =>
          rw [advance_flush ordered]
          exact Attempt.respects_pure _
    | batch tasks => cases tasks <;> exact Attempt.respects_pure _
    | flush =>
      simp only [Agenda.advance]
      refine Attempt.respects_get_bind ?_ ?_
      · intro left right related
        rw [respectful.queue left right related]
      · intro state
        cases agenda.queue state with
        | nil => exact Attempt.respects_pure _
        | cons first others => exact clears.bind fun _ => Attempt.respects_pure _

theorem Respectful.run (respectful : agenda.Respectful relation) (steps : Nat)
    (stack : List (Frame Task Instruction)) : (agenda.run steps stack).Respects relation := by
  induction steps generalizing stack with
  | zero => cases stack <;> exact Attempt.respects_pure _
  | succ steps ih =>
    cases stack with
    | nil => exact Attempt.respects_pure _
    | cons frame outer =>
      rw [run_succ_cons]
      exact (respectful.advance (frame :: outer)).bind ih

/-- The work of a stack does not tell related states apart either: it has the same bound in them. -/
theorem Respectful.work (respectful : agenda.Respectful relation)
    (stack : List (Frame Task Instruction)) : (agenda.work stack).Respects relation := by
  refine Attempt.respects_get_bind ?_ ?_
  · intro left right related
    unfold bound
    rw [load_congr (respectful.queue left right related)]
  · intro state
    exact (respectful.run (agenda.bound stack state) stack).bind fun _ => Attempt.respects_pure _

end Agenda

end DosText
