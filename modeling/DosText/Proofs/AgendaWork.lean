import DosText.Agenda

/-! The work of an agenda whose weights pay for everything that instructions give rise to. Its
steps never run out, so the work can be described by what it does: instructions are carried out
one after the other, and a batch is the bodies of its tasks. -/

namespace DosText.Agenda

variable {Error State Task Instruction : Type} {agenda : Agenda Error State Task Instruction}
variable {state later : State} {frame : Frame Task Instruction}
variable {stack outer next : List (Frame Task Instruction)}

/-- The weight of an instruction pays for those that it inserts, for the tasks that it enqueues, and
for the steps that carry it out. -/
structure Bounded (agenda : Agenda Error State Task Instruction) : Prop where
  cleared : ∀ state, agenda.queue (agenda.clear state) = []
  act : ∀ instruction effect, agenda.order instruction = .act effect →
    ∀ state inserted later, effect state = (.ok inserted, later) →
      agenda.weights inserted + agenda.load later + 2 ≤
        agenda.weight instruction + agenda.load state
  perform : ∀ instruction next, agenda.order instruction = .perform next →
    ∀ any, agenda.weights (next any) + 2 ≤ agenda.weight instruction
  flush : ∀ instruction, agenda.order instruction = .flush → 2 ≤ agenda.weight instruction

@[simp] theorem weights_nil : agenda.weights [] = 0 := rfl

@[simp] theorem weights_cons (instruction : Instruction) (rest : List Instruction) :
    agenda.weights (instruction :: rest) = agenda.weight instruction + agenda.weights rest := rfl

theorem weights_append (first second : List Instruction) :
    agenda.weights (first ++ second) = agenda.weights first + agenda.weights second := by
  induction first with
  | nil => simp
  | cons instruction rest ih => simp [ih, Nat.add_assoc]

@[simp] theorem taskWeights_cons (task : Task) (rest : List Task) :
    agenda.taskWeights (task :: rest) =
      agenda.weights (agenda.body task) + 2 + agenda.taskWeights rest := rfl

theorem taskWeights_append (first second : List Task) :
    agenda.taskWeights (first ++ second) =
      agenda.taskWeights first + agenda.taskWeights second := by
  induction first with
  | nil => simp [taskWeights]
  | cons task rest ih => simp [ih, Nat.add_assoc]

theorem load_congr (same : agenda.queue later = agenda.queue state) :
    agenda.load later = agenda.load state := by
  unfold load
  rw [same]

/-- A task that waits behind the others adds its weight to the load. -/
theorem load_of_enqueued {task : Task}
    (enqueued : agenda.queue later = agenda.queue state ++ [task]) :
    agenda.load later = agenda.load state + agenda.weights (agenda.body task) + 4 := by
  unfold load
  rw [enqueued, taskWeights_append, List.length_append, taskWeights_cons]
  show _ + (_ + 2 + 0) + 2 * (_ + 1) = _
  omega

theorem bound_pos (frame : Frame Task Instruction) (outer : List (Frame Task Instruction))
    (state : State) : 0 < agenda.bound (frame :: outer) state := by
  unfold bound
  cases frame <;> simp only [frameWeights] <;> omega

/-- Tasks that are taken from the queue leave the steps behind that took them. -/
theorem Bounded.taken (bounded : agenda.Bounded) {first : Task} {others : List Task}
    (waiting : agenda.queue state = first :: others) :
    agenda.taskWeights (first :: others) + agenda.load (agenda.clear state) + 2 ≤
      agenda.load state := by
  unfold load
  rw [bounded.cleared, waiting, List.length_cons]
  show _ + (0 + 2 * 0) + 2 ≤ _
  omega

section Steps

variable {instruction : Instruction} {rest : List Instruction}

theorem advance_act {effect : Attempt Error State (List Instruction)}
    (ordered : agenda.order instruction = .act effect) :
    agenda.advance (.script (instruction :: rest) :: outer) =
      effect >>= fun inserted => pure (.script inserted :: .script rest :: outer) := by
  simp only [advance, ordered]

theorem advance_perform_none {following : Bool → List Instruction}
    (ordered : agenda.order instruction = .perform following)
    (waiting : agenda.queue state = []) :
    agenda.advance (.script (instruction :: rest) :: outer) state =
      (.ok (.script (following false) :: .script rest :: outer), state) := by
  simp only [advance, ordered, Attempt.bind_apply, Attempt.get_apply, waiting]
  rfl

theorem advance_perform_some {following : Bool → List Instruction} {first : Task}
    {others : List Task} (ordered : agenda.order instruction = .perform following)
    (waiting : agenda.queue state = first :: others) :
    agenda.advance (.script (instruction :: rest) :: outer) state =
      (.ok (.batch (first :: others) :: .script (following true) :: .script rest :: outer),
        agenda.clear state) := by
  simp only [advance, ordered, Attempt.bind_apply, Attempt.get_apply, waiting]
  rfl

theorem advance_flush (ordered : agenda.order instruction = .flush) :
    agenda.advance (.script (instruction :: rest) :: outer) =
      pure (.flush :: .script rest :: outer) := by
  simp only [advance, ordered]

theorem advance_flushing_none (waiting : agenda.queue state = []) :
    agenda.advance (.flush :: outer) state = (.ok outer, state) := by
  simp only [advance, Attempt.bind_apply, Attempt.get_apply, waiting]
  rfl

theorem advance_flushing_some {first : Task} {others : List Task}
    (waiting : agenda.queue state = first :: others) :
    agenda.advance (.flush :: outer) state =
      (.ok (.batch (first :: others) :: .flush :: outer), agenda.clear state) := by
  simp only [advance, Attempt.bind_apply, Attempt.get_apply, waiting]
  rfl

end Steps

/-- A step does not look at the frames below the innermost one. -/
theorem advance_append (frame : Frame Task Instruction)
    (outer below : List (Frame Task Instruction)) :
    agenda.advance (frame :: (outer ++ below)) =
      agenda.advance (frame :: outer) >>= fun next => pure (next ++ below) := by
  funext state
  cases frame with
  | script script =>
    cases script with
    | nil => rfl
    | cons instruction rest =>
      cases ordered : agenda.order instruction with
      | act effect =>
        rw [advance_act ordered, advance_act ordered, bind_assoc]
        rfl
      | perform following =>
        cases waiting : agenda.queue state with
        | nil =>
          rw [Attempt.bind_of_ok _ (advance_perform_none ordered waiting),
            advance_perform_none ordered waiting]
          rfl
        | cons first others =>
          rw [Attempt.bind_of_ok _ (advance_perform_some ordered waiting),
            advance_perform_some ordered waiting]
          rfl
      | flush =>
        rw [advance_flush ordered, advance_flush ordered]
        rfl
  | batch tasks => cases tasks <;> rfl
  | flush =>
    cases waiting : agenda.queue state with
    | nil =>
      rw [Attempt.bind_of_ok _ (advance_flushing_none waiting), advance_flushing_none waiting]
      rfl
    | cons first others =>
      rw [Attempt.bind_of_ok _ (advance_flushing_some waiting), advance_flushing_some waiting]
      rfl

/-- Every step uses up some of the bound. -/
theorem Bounded.advance_lt (bounded : agenda.Bounded)
    (advanced : agenda.advance (frame :: outer) state = (.ok next, later)) :
    agenda.bound next later < agenda.bound (frame :: outer) state := by
  unfold bound
  cases frame with
  | script script =>
    cases script with
    | nil =>
      cases advanced
      simp only [frameWeights]
      omega
    | cons instruction rest =>
      simp only [frameWeights, weights_cons]
      cases ordered : agenda.order instruction with
      | act effect =>
        rw [advance_act ordered] at advanced
        rcases ran : effect state with ⟨error | inserted, after⟩
        · rw [Attempt.bind_of_error _ ran] at advanced
          cases advanced
        · rw [Attempt.bind_of_ok _ ran] at advanced
          cases advanced
          have paid := bounded.act instruction effect ordered state inserted _ ran
          simp only [frameWeights]
          omega
      | perform following =>
        cases waiting : agenda.queue state with
        | nil =>
          cases (advance_perform_none ordered waiting).symm.trans advanced
          have paid := bounded.perform instruction following ordered false
          simp only [frameWeights]
          omega
        | cons first others =>
          cases (advance_perform_some ordered waiting).symm.trans advanced
          have paid := bounded.perform instruction following ordered true
          have taken := bounded.taken waiting
          simp only [frameWeights]
          omega
      | flush =>
        rw [advance_flush ordered] at advanced
        cases advanced
        have paid := bounded.flush instruction ordered
        simp only [frameWeights]
        omega
  | batch tasks =>
    cases tasks <;> cases advanced <;> simp only [frameWeights, taskWeights_cons] <;> omega
  | flush =>
    cases waiting : agenda.queue state with
    | nil =>
      cases (advance_flushing_none waiting).symm.trans advanced
      simp only [frameWeights]
      omega
    | cons first others =>
      cases (advance_flushing_some waiting).symm.trans advanced
      have taken := bounded.taken waiting
      simp only [frameWeights]
      omega

@[simp] theorem run_nil (steps : Nat) : agenda.run steps [] = pure [] := by
  cases steps <;> rfl

theorem run_succ_cons (steps : Nat) (frame : Frame Task Instruction)
    (outer : List (Frame Task Instruction)) :
    agenda.run (steps + 1) (frame :: outer) =
      agenda.advance (frame :: outer) >>= agenda.run steps := rfl

/-- As long as there are steps enough, it does not matter how many there are. -/
theorem Bounded.run_of_enough (bounded : agenda.Bounded) {steps others : Nat}
    (enough : agenda.bound stack state ≤ steps) (plenty : agenda.bound stack state ≤ others) :
    agenda.run steps stack state = agenda.run others stack state := by
  induction steps generalizing others stack state with
  | zero =>
    cases stack with
    | nil => rw [run_nil, run_nil]
    | cons frame outer => exact absurd enough (Nat.not_le.mpr (bound_pos frame outer state))
  | succ steps ih =>
    cases stack with
    | nil => rw [run_nil, run_nil]
    | cons frame outer =>
      cases others with
      | zero => exact absurd plenty (Nat.not_le.mpr (bound_pos frame outer state))
      | succ others =>
        rw [run_succ_cons, run_succ_cons]
        rcases advanced : agenda.advance (frame :: outer) state with ⟨error | following, after⟩
        · rw [Attempt.bind_of_error _ advanced, Attempt.bind_of_error _ advanced]
        · rw [Attempt.bind_of_ok _ advanced, Attempt.bind_of_ok _ advanced]
          have smaller := bounded.advance_lt advanced
          exact ih (by omega) (by omega)

@[simp] theorem work_nil : agenda.work [] = pure () := by
  funext state
  simp only [work, run_nil]
  rfl

theorem work_apply (stack : List (Frame Task Instruction)) (state : State) :
    agenda.work stack state =
      (agenda.run (agenda.bound stack state) stack >>= fun _ => pure ()) state := rfl

/-- The work of a stack is one step, and then the work of what that step leaves. -/
theorem Bounded.work_cons (bounded : agenda.Bounded) (frame : Frame Task Instruction)
    (outer : List (Frame Task Instruction)) :
    agenda.work (frame :: outer) = agenda.advance (frame :: outer) >>= agenda.work := by
  funext state
  have positive : 0 < agenda.bound (frame :: outer) state := bound_pos frame outer state
  obtain ⟨steps, same⟩ := Nat.exists_eq_add_one.mpr positive
  rw [work_apply, same, run_succ_cons, bind_assoc]
  rcases advanced : agenda.advance (frame :: outer) state with ⟨error | following, after⟩
  · rw [Attempt.bind_of_error _ advanced, Attempt.bind_of_error _ advanced]
  · have smaller := bounded.advance_lt advanced
    have enough : agenda.bound following after ≤ steps := by omega
    rw [Attempt.bind_of_ok _ advanced, Attempt.bind_of_ok _ advanced, work_apply]
    rw [Attempt.bind_apply, bounded.run_of_enough enough (Nat.le_refl _), ← Attempt.bind_apply]

/-- The frames of a stack are done one after the other. -/
theorem Bounded.work_append (bounded : agenda.Bounded)
    (stack below : List (Frame Task Instruction)) :
    agenda.work (stack ++ below) = agenda.work stack >>= fun _ => agenda.work below := by
  funext state
  -- A step may put frames on the stack, so the induction is on the bound and not on the stack.
  induction limit : agenda.bound stack state using Nat.strongRecOn generalizing stack state
  rename_i limit ih
  cases stack with
  | nil =>
    rw [work_nil]
    rfl
  | cons frame outer =>
    rw [List.cons_append, bounded.work_cons, bounded.work_cons, advance_append, bind_assoc,
      bind_assoc]
    rcases advanced : agenda.advance (frame :: outer) state with ⟨error | following, after⟩
    · rw [Attempt.bind_of_error _ advanced, Attempt.bind_of_error _ advanced]
    · have smaller := bounded.advance_lt advanced
      rw [Attempt.bind_of_ok _ advanced, Attempt.bind_of_ok _ advanced, pure_bind]
      exact ih _ (limit ▸ smaller) following after rfl

theorem perform_of_none (waiting : agenda.queue state = []) :
    agenda.perform state = (.ok false, state) := by
  simp only [perform, Attempt.bind_apply, Attempt.get_apply, waiting]
  rfl

/-- The queue is performed once: all that waits is taken from it, and carried out. -/
theorem perform_of_some {first : Task} {others : List Task}
    (waiting : agenda.queue state = first :: others) :
    agenda.perform state =
      (agenda.work [.batch (first :: others)] >>= fun _ => pure true) (agenda.clear state) := by
  simp only [perform, Attempt.bind_apply, Attempt.get_apply, waiting]
  rfl

section Scripts

variable {instruction : Instruction}

theorem Bounded.carryOut_nil (bounded : agenda.Bounded) : agenda.carryOut [] = pure () := by
  unfold carryOut
  rw [bounded.work_cons]
  show pure [] >>= agenda.work = _
  rw [pure_bind, work_nil]

/-- What an instruction inserts is carried out before the next one. -/
theorem Bounded.carryOut_act (bounded : agenda.Bounded)
    {effect : Attempt Error State (List Instruction)}
    (ordered : agenda.order instruction = .act effect) (rest : List Instruction) :
    agenda.carryOut (instruction :: rest) =
      effect >>= fun inserted => agenda.carryOut inserted >>= fun _ => agenda.carryOut rest := by
  unfold carryOut
  rw [bounded.work_cons, advance_act ordered, bind_assoc]
  refine congrArg (effect >>= ·) (funext fun inserted => ?_)
  rw [pure_bind]
  exact bounded.work_append [.script inserted] [.script rest]

theorem Bounded.carryOut_singleton (bounded : agenda.Bounded)
    {effect : Attempt Error State (List Instruction)}
    (ordered : agenda.order instruction = .act effect) :
    agenda.carryOut [instruction] = effect >>= agenda.carryOut := by
  rw [bounded.carryOut_act ordered, bounded.carryOut_nil]
  simp only [bind_pure_unit]

theorem Bounded.carryOut_perform (bounded : agenda.Bounded)
    {following : Bool → List Instruction}
    (ordered : agenda.order instruction = .perform following) (rest : List Instruction) :
    agenda.carryOut (instruction :: rest) =
      agenda.perform >>= fun any =>
        agenda.carryOut (following any) >>= fun _ => agenda.carryOut rest := by
  funext state
  unfold carryOut
  rw [bounded.work_cons]
  cases waiting : agenda.queue state with
  | nil =>
    rw [Attempt.bind_of_ok _ (advance_perform_none ordered waiting),
      Attempt.bind_of_ok _ (perform_of_none waiting)]
    exact congrFun (bounded.work_append [.script (following false)] [.script rest]) state
  | cons first others =>
    rw [Attempt.bind_of_ok _ (advance_perform_some ordered waiting), Attempt.bind_apply,
      perform_of_some waiting, ← Attempt.bind_apply, bind_assoc]
    simp only [pure_bind]
    rw [← bounded.work_append, ← bounded.work_append]
    rfl

theorem Bounded.carryOut_flush (bounded : agenda.Bounded)
    (ordered : agenda.order instruction = .flush) (rest : List Instruction) :
    agenda.carryOut (instruction :: rest) = agenda.flush >>= fun _ => agenda.carryOut rest := by
  unfold carryOut Agenda.flush
  rw [bounded.work_cons, advance_flush ordered, pure_bind]
  exact bounded.work_append [.flush] [.script rest]

/-- Instructions are carried out one after the other. -/
theorem Bounded.carryOut_append (bounded : agenda.Bounded) (first second : List Instruction) :
    agenda.carryOut (first ++ second) =
      agenda.carryOut first >>= fun _ => agenda.carryOut second := by
  induction first with
  | nil => rw [bounded.carryOut_nil, pure_bind, List.nil_append]
  | cons instruction rest ih =>
    rw [List.cons_append]
    cases ordered : agenda.order instruction with
    | act effect =>
      simp only [bounded.carryOut_act ordered, ih, bind_assoc]
    | perform following =>
      simp only [bounded.carryOut_perform ordered, ih, bind_assoc]
    | flush =>
      simp only [bounded.carryOut_flush ordered, ih, bind_assoc]

end Scripts

/-- A batch is the bodies of its tasks. -/
theorem Bounded.work_batch (bounded : agenda.Bounded) (tasks : List Task) :
    agenda.work [.batch tasks] = agenda.carryOut (tasks.flatMap agenda.body) := by
  induction tasks with
  | nil =>
    rw [List.flatMap_nil, bounded.carryOut_nil, bounded.work_cons]
    show pure [] >>= agenda.work = _
    rw [pure_bind, work_nil]
  | cons task rest ih =>
    rw [List.flatMap_cons, bounded.carryOut_append, ← ih, bounded.work_cons]
    show pure [.script (agenda.body task), .batch rest] >>= agenda.work = _
    rw [pure_bind]
    exact bounded.work_append [.script (agenda.body task)] [.batch rest]

/-- A flush goes on until no task was waiting. -/
theorem Bounded.flush_eq (bounded : agenda.Bounded) :
    agenda.flush = agenda.perform >>= fun any => if any then agenda.flush else pure () := by
  funext state
  refine (congrFun (bounded.work_cons .flush []) state).trans ?_
  cases waiting : agenda.queue state with
  | nil =>
    rw [Attempt.bind_of_ok _ (advance_flushing_none waiting),
      Attempt.bind_of_ok _ (perform_of_none waiting), work_nil]
    rfl
  | cons first others =>
    rw [Attempt.bind_of_ok _ (advance_flushing_some waiting), Attempt.bind_apply,
      perform_of_some waiting, ← Attempt.bind_apply, bind_assoc]
    simp only [pure_bind, if_true]
    exact congrFun (bounded.work_append [.batch (first :: others)] [.flush]) (agenda.clear state)

/-- A flush is over once the queue has been performed and nothing waits. -/
theorem Bounded.flush_of_perform (bounded : agenda.Bounded) {any : Bool}
    (performed : agenda.perform state = (.ok any, later)) (none : agenda.queue later = []) :
    agenda.flush state = (.ok (), later) := by
  have again : agenda.perform later = (.ok false, later) := perform_of_none none
  rw [bounded.flush_eq, Attempt.bind_of_ok _ performed]
  cases any with
  | false => rfl
  | true =>
    rw [if_pos rfl, bounded.flush_eq, Attempt.bind_of_ok _ again]
    rfl

end DosText.Agenda
