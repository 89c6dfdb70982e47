import DosText.Proofs.AgendaWork

/-! How the work of an agenda goes on and comes to an end. Step by step it leads from one stack to
the next, until nothing is left to do or a step fails; then the frames on the stack are abandoned.
Where the weights pay for everything, it always comes to an end. -/

namespace DosText.Agenda

variable {Error State Task Instruction : Type}

/-- The tasks of a batch that have not been begun. -/
def Frame.tasks : Frame Task Instruction → List Task
  | batch rest => rest
  | _ => []

/-- The instructions of a script that have not been carried out. -/
def Frame.instructions : Frame Task Instruction → List Instruction
  | script rest => rest
  | _ => []

/-- Steps that succeed lead from a stack to another one. -/
inductive Leads (agenda : Agenda Error State Task Instruction)
    (start : List (Frame Task Instruction)) (initial : State) :
    List (Frame Task Instruction) → State → Prop where
  | refl : Leads agenda start initial start initial
  | step {stack next : List (Frame Task Instruction)} {state later : State}
    (earlier : Leads agenda start initial stack state)
    (advanced : agenda.advance stack state = (.ok next, later)) :
    Leads agenda start initial next later

/-- Work ends when nothing is left to do, or when a step fails. The frames that a step that fails
finds on the stack are abandoned. -/
inductive Ends (agenda : Agenda Error State Task Instruction)
    (start : List (Frame Task Instruction)) (initial : State) :
    Except Error Unit → List (Frame Task Instruction) → State → Prop where
  | done {last : State} (leads : agenda.Leads start initial [] last) :
    Ends agenda start initial (.ok ()) [] last
  | failed {abandoned : List (Frame Task Instruction)} {state last : State} {error : Error}
    (leads : agenda.Leads start initial abandoned state)
    (fails : agenda.advance abandoned state = (.error error, last)) :
    Ends agenda start initial (.error error) abandoned last

/-- The stack at which a number of steps stops: the one at which a step fails, or the one that is
left behind the last step. -/
def stop (agenda : Agenda Error State Task Instruction) :
    Nat → List (Frame Task Instruction) → State → List (Frame Task Instruction)
  | 0, stack, _ => stack
  | steps + 1, stack, state =>
    match agenda.advance stack state with
    | (.ok next, later) => agenda.stop steps next later
    | (.error _, _) => stack

/-- The frames that are abandoned when the work of a stack fails. -/
def abandoned (agenda : Agenda Error State Task Instruction)
    (stack : List (Frame Task Instruction)) (state : State) : List (Frame Task Instruction) :=
  agenda.stop (agenda.bound stack state) stack state

variable {agenda : Agenda Error State Task Instruction} {state later last : State}
variable {start stack next final below abandoned : List (Frame Task Instruction)}

namespace Leads

theorem trans {initial : State} (first : agenda.Leads start initial stack state)
    (second : agenda.Leads stack state next later) : agenda.Leads start initial next later := by
  induction second with
  | refl => exact first
  | step earlier advanced ih => exact ih.step advanced

theorem head (advanced : agenda.advance stack state = (.ok next, later))
    (others : agenda.Leads next later final last) : agenda.Leads stack state final last :=
  (Leads.refl.step advanced).trans others

/-- What steps keep holds wherever they lead to. -/
theorem keeps {condition : List (Frame Task Instruction) → State → Prop} {initial : State}
    (leads : agenda.Leads start initial stack state) (holds : condition start initial)
    (kept : ∀ stack state next later, condition stack state →
      agenda.advance stack state = (.ok next, later) → condition next later) :
    condition stack state := by
  induction leads with
  | refl => exact holds
  | step earlier advanced ih => exact kept _ _ _ _ ih advanced

/-- From where there is nothing left to do, steps lead nowhere else. -/
theorem eq_of_nil {initial : State} (leads : agenda.Leads [] initial stack state) :
    stack = [] ∧ state = initial := by
  induction leads with
  | refl => exact ⟨rfl, rfl⟩
  | step earlier advanced ih =>
    obtain ⟨rfl, rfl⟩ := ih
    cases advanced
    exact ⟨rfl, rfl⟩

/-- The first step is the one that the stack begins with. -/
theorem cases_head {initial : State} (leads : agenda.Leads start initial stack state) :
    (stack = start ∧ state = initial) ∨
      ∃ next later, agenda.advance start initial = (.ok next, later) ∧
        agenda.Leads next later stack state := by
  induction leads with
  | refl => exact .inl ⟨rfl, rfl⟩
  | step earlier advanced ih =>
    rcases ih with ⟨rfl, rfl⟩ | ⟨next, later, first, others⟩
    · exact .inr ⟨_, _, advanced, .refl⟩
    · exact .inr ⟨next, later, first, others.step advanced⟩

/-- Of two stacks that steps lead to, steps lead from the one to the other. -/
theorem linear {initial : State} (first : agenda.Leads start initial stack state)
    (second : agenda.Leads start initial next later) :
    agenda.Leads stack state next later ∨ agenda.Leads next later stack state := by
  induction first with
  | refl => exact .inl second
  | step earlier advanced ih =>
    rcases ih with ahead | behind
    · rcases ahead.cases_head with ⟨rfl, rfl⟩ | ⟨middle, between, begun, others⟩
      · exact .inr (head advanced .refl)
      · cases advanced.symm.trans begun
        exact .inl others
    · exact .inr (behind.step advanced)

/-- Steps do not look at the frames below. -/
theorem append {initial : State} (leads : agenda.Leads start initial stack state)
    (below : List (Frame Task Instruction)) :
    agenda.Leads (start ++ below) initial (stack ++ below) state := by
  induction leads with
  | refl => exact .refl
  | @step stack next state later earlier advanced ih =>
    cases stack with
    | nil =>
      cases advanced
      exact ih
    | cons frame outer =>
      refine ih.step ?_
      rw [List.cons_append, advance_append, Attempt.bind_of_ok _ advanced]
      rfl

end Leads

theorem Ends.head {outcome : Except Error Unit}
    (advanced : agenda.advance stack state = (.ok next, later))
    (others : agenda.Ends next later outcome abandoned last) :
    agenda.Ends stack state outcome abandoned last := by
  cases others with
  | done leads => exact .done (leads.head advanced)
  | failed leads fails => exact .failed (leads.head advanced) fails

/-- Work that ends without a failure leaves nothing to do, and abandons nothing. -/
theorem Ends.leads {done : Unit} (ends : agenda.Ends stack state (.ok done) abandoned last) :
    agenda.Leads stack state [] last ∧ abandoned = [] := by
  cases ends with
  | done leads => exact ⟨leads, rfl⟩

/-- Wherever steps lead to on the way, they go on from there to the end. -/
theorem Leads.rest {initial : State} (ended : agenda.Leads start initial [] last)
    (leads : agenda.Leads start initial stack state) : agenda.Leads stack state [] last := by
  rcases leads.linear ended with ahead | ahead
  · exact ahead
  · obtain ⟨rfl, rfl⟩ := ahead.eq_of_nil
    exact .refl

theorem Bounded.run_ends (bounded : agenda.Bounded) {steps : Nat}
    (enough : agenda.bound stack state ≤ steps) :
    agenda.Ends stack state ((agenda.run steps stack >>= fun _ => pure ()) state).1
      (agenda.stop steps stack state) ((agenda.run steps stack >>= fun _ => pure ()) state).2 := by
  induction steps generalizing stack state with
  | zero =>
    cases stack with
    | nil => exact .done .refl
    | cons frame outer => exact absurd enough (Nat.not_le.mpr (bound_pos frame outer state))
  | succ steps ih =>
    cases stack with
    | nil =>
      have nothing (steps : Nat) : agenda.stop steps [] state = [] := by
        induction steps with
        | zero => rfl
        | succ steps ih => exact ih
      rw [run_nil, nothing]
      exact .done .refl
    | cons frame outer =>
      rw [run_succ_cons, bind_assoc]
      unfold stop
      rcases advanced : agenda.advance (frame :: outer) state with ⟨error | following, after⟩
      · rw [Attempt.bind_of_error _ advanced]
        exact .failed .refl advanced
      · rw [Attempt.bind_of_ok _ advanced]
        have smaller := bounded.advance_lt advanced
        exact (ih (by omega)).head advanced

/-- The work of a stack always ends. -/
theorem Bounded.work_ends (bounded : agenda.Bounded) (stack : List (Frame Task Instruction))
    (state : State) :
    agenda.Ends stack state (agenda.work stack state).1 (agenda.abandoned stack state)
      (agenda.work stack state).2 :=
  bounded.run_ends (Nat.le_refl _)

/-- Work that succeeds leads to where nothing is left to do. -/
theorem Bounded.leads_of_work (bounded : agenda.Bounded)
    (worked : agenda.work stack state = (.ok (), later)) :
    agenda.Leads stack state [] later := by
  have ends := bounded.work_ends stack state
  rw [worked] at ends
  exact ends.leads.1

/-- A flush stays on the stack until no task waits. -/
theorem Leads.flush_or_drained {initial : State}
    (leads : agenda.Leads [.flush] initial stack state) :
    (∃ above, stack = above ++ [.flush]) ∨ (stack = [] ∧ agenda.queue state = []) := by
  induction leads with
  | refl => exact .inl ⟨[], rfl⟩
  | @step stack next state later earlier advanced ih =>
    obtain ⟨above, rfl⟩ | ⟨rfl, drained⟩ := ih
    · cases above with
      | nil =>
        cases waiting : agenda.queue state with
        | nil =>
          cases (advance_flushing_none waiting).symm.trans advanced
          exact .inr ⟨rfl, waiting⟩
        | cons first others =>
          cases (advance_flushing_some waiting).symm.trans advanced
          exact .inl ⟨[.batch (first :: others)], rfl⟩
      | cons frame rest =>
        rw [List.cons_append, advance_append] at advanced
        rcases advance : agenda.advance (frame :: rest) state with ⟨error | following, after⟩
        · rw [Attempt.bind_of_error _ advance] at advanced
          cases advanced
        · rw [Attempt.bind_of_ok _ advance] at advanced
          cases advanced
          exact .inl ⟨following, rfl⟩
    · cases advanced
      exact .inr ⟨rfl, drained⟩

/-- Performing the queue until no task was waiting takes a number of performances. -/
inductive Drains (agenda : Agenda Error State Task Instruction) : Nat → State → State → Prop where
  | last {state later : State} (performed : agenda.perform state = (.ok false, later)) :
    Drains agenda 1 state later
  | more {count : Nat} {state between later : State}
    (performed : agenda.perform state = (.ok true, between))
    (others : Drains agenda count between later) : Drains agenda (count + 1) state later

/-- A flush performs the queue until no task was waiting. -/
theorem Bounded.flush_of_drains (bounded : agenda.Bounded) {count : Nat}
    (drains : agenda.Drains count state later) : agenda.flush state = (.ok (), later) := by
  induction drains with
  | last performed =>
    rw [bounded.flush_eq, Attempt.bind_of_ok _ performed]
    rfl
  | more performed others ih =>
    rw [bounded.flush_eq, Attempt.bind_of_ok _ performed]
    exact ih

/-- An instruction that inserts nothing is done with when it has acted. -/
theorem Bounded.carryOut_of_act (bounded : agenda.Bounded) {instruction : Instruction}
    {effect : Attempt Error State (List Instruction)} {rest : List Instruction}
    (ordered : agenda.order instruction = .act effect) (acted : effect state = (.ok [], later)) :
    agenda.carryOut (instruction :: rest) state = agenda.carryOut rest later := by
  rw [bounded.carryOut_act ordered, Attempt.bind_of_ok _ acted, bounded.carryOut_nil, pure_bind]

/-- To perform the queue is to work off all that waits as one batch. -/
theorem Bounded.perform_eq_work (bounded : agenda.Bounded)
    (unchanged : agenda.queue state = [] → agenda.clear state = state) :
    (agenda.perform >>= fun _ => pure ()) state =
      agenda.work [.batch (agenda.queue state)] (agenda.clear state) := by
  cases waiting : agenda.queue state with
  | nil =>
    rw [Attempt.bind_of_ok _ (perform_of_none waiting), unchanged waiting, bounded.work_cons]
    exact congrFun work_nil.symm state
  | cons first others =>
    rw [Attempt.bind_apply, perform_of_some waiting, ← Attempt.bind_apply, bind_assoc]
    exact congrFun (bind_pure_unit (x := agenda.work [.batch (first :: others)])) _

section Performing

variable {instruction : Instruction} {following : Bool → List Instruction}
variable {rest : List Instruction} {outer : List (Frame Task Instruction)} {any : Bool}

/-- A performance that succeeds does all that waited, as one batch. -/
theorem Bounded.leads_of_perform (bounded : agenda.Bounded) {first : Task} {others : List Task}
    (waiting : agenda.queue state = first :: others)
    (performed : agenda.perform state = (.ok any, later)) :
    any = true ∧ agenda.Leads [.batch (first :: others)] (agenda.clear state) [] later := by
  rw [perform_of_some waiting] at performed
  rcases worked : agenda.work [.batch (first :: others)] (agenda.clear state) with
    ⟨error | done, after⟩
  · rw [Attempt.bind_of_error _ worked] at performed
    cases performed
  · rw [Attempt.bind_of_ok _ worked] at performed
    cases performed
    exact ⟨rfl, bounded.leads_of_work worked⟩

/-- An instruction that has the queue performed goes on when that is done. -/
theorem Bounded.leads_performed (bounded : agenda.Bounded)
    (ordered : agenda.order instruction = .perform following)
    (performed : agenda.perform state = (.ok any, later)) :
    agenda.Leads (.script (instruction :: rest) :: outer) state
      (.script (following any) :: .script rest :: outer) later := by
  cases waiting : agenda.queue state with
  | nil =>
    cases (perform_of_none waiting).symm.trans performed
    exact Leads.refl.step (advance_perform_none ordered waiting)
  | cons first others =>
    obtain ⟨rfl, leads⟩ := bounded.leads_of_perform waiting performed
    exact (leads.append _).head (advance_perform_some ordered waiting)

/-- A flush that has the queue performed goes on, until no task was waiting. -/
theorem Bounded.leads_flushing (bounded : agenda.Bounded)
    (performed : agenda.perform state = (.ok any, later)) :
    agenda.Leads (.flush :: outer) state (if any then .flush :: outer else outer) later := by
  cases waiting : agenda.queue state with
  | nil =>
    cases (perform_of_none waiting).symm.trans performed
    exact Leads.refl.step (advance_flushing_none waiting)
  | cons first others =>
    obtain ⟨rfl, leads⟩ := bounded.leads_of_perform waiting performed
    exact (leads.append _).head (advance_flushing_some waiting)

end Performing

end DosText.Agenda
