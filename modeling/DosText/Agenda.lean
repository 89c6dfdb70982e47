import DosText.Attempt

/-! Deferred work. Tasks wait in a queue until it is performed; performing takes all tasks
that wait at that moment as one batch and carries them out in order, and what they enqueue
waits for the next time. A task may itself have the queue performed, so batches can be half
done inside one another: they are kept as a stack of frames, and the work advances one frame
at a time. -/

namespace DosText

namespace Agenda

/-- What an instruction of a task asks for. -/
inductive Order (Error State Instruction : Type) where
  /-- Acts on the state; the instructions that it gives are carried out before the next one. -/
  | act (effect : Attempt Error State (List Instruction))
  /-- Has the queue performed once, then goes on according to whether a task was waiting. -/
  | perform (next : Bool → List Instruction)
  /-- Has the queue performed until no task waits. -/
  | flush

/-- Work that has been begun. -/
inductive Frame (Task Instruction : Type) where
  /-- Instructions of a task, or of the caller, still to be carried out. -/
  | script (rest : List Instruction)
  /-- Tasks taken from the queue together and not yet begun. -/
  | batch (rest : List Task)
  /-- A flush, to be gone on with when what stands above it is done. -/
  | flush

end Agenda

/-- How tasks that wait in a state are carried out on it. -/
structure Agenda (Error State Task Instruction : Type) where
  /-- The tasks that wait, in the order in which they were enqueued. -/
  queue : State → List Task
  /-- Takes all tasks from the queue. -/
  clear : State → State
  /-- The instructions that a task consists of. -/
  body : Task → List Instruction
  order : Instruction → Agenda.Order Error State Instruction
  /-- Bounds the work that an instruction gives rise to. -/
  weight : Instruction → Nat

namespace Agenda

variable {Error State Task Instruction : Type}

/-- Carries the innermost frame one step further. -/
def advance (agenda : Agenda Error State Task Instruction) :
    List (Frame Task Instruction) → Attempt Error State (List (Frame Task Instruction))
  | [] => pure []
  | .script [] :: outer => pure outer
  | .script (instruction :: rest) :: outer =>
    match agenda.order instruction with
    | .act effect => do
      let inserted ← effect
      return .script inserted :: .script rest :: outer
    | .perform next => do
      match agenda.queue (← get) with
      | [] => return .script (next false) :: .script rest :: outer
      | waiting =>
        modify agenda.clear
        return .batch waiting :: .script (next true) :: .script rest :: outer
    | .flush => return .flush :: .script rest :: outer
  | .batch [] :: outer => pure outer
  | .batch (task :: rest) :: outer => pure (.script (agenda.body task) :: .batch rest :: outer)
  | .flush :: outer => do
    match agenda.queue (← get) with
    | [] => return outer
    | waiting =>
      modify agenda.clear
      return .batch waiting :: .flush :: outer

/-- Advances a number of steps, or until nothing is left to do. -/
def run (agenda : Agenda Error State Task Instruction) :
    Nat → List (Frame Task Instruction) → Attempt Error State (List (Frame Task Instruction))
  | _, [] => pure []
  | 0, stack => pure stack
  | steps + 1, stack => do agenda.run steps (← agenda.advance stack)

/-- The sum of the weights of instructions. -/
def weights (agenda : Agenda Error State Task Instruction) (script : List Instruction) : Nat :=
  script.foldr (fun instruction total => agenda.weight instruction + total) 0

/-- The weight of tasks. Each weighs more than its instructions, for the steps that begin and
end it. -/
def taskWeights (agenda : Agenda Error State Task Instruction) (tasks : List Task) : Nat :=
  tasks.foldr (fun task total => agenda.weights (agenda.body task) + 2 + total) 0

/-- The weight of frames, with the step that leaves each. -/
def frameWeights (agenda : Agenda Error State Task Instruction) :
    List (Frame Task Instruction) → Nat
  | [] => 0
  | .script script :: outer => agenda.weights script + 1 + agenda.frameWeights outer
  | .batch tasks :: outer => agenda.taskWeights tasks + 1 + agenda.frameWeights outer
  | .flush :: outer => 1 + agenda.frameWeights outer

/-- The weight of the tasks that wait, each with the steps that take it from the queue. -/
def load (agenda : Agenda Error State Task Instruction) (state : State) : Nat :=
  agenda.taskWeights (agenda.queue state) + 2 * (agenda.queue state).length

/-- A bound on the steps that a stack and the waiting tasks take. -/
def bound (agenda : Agenda Error State Task Instruction) (stack : List (Frame Task Instruction))
    (state : State) : Nat :=
  agenda.frameWeights stack + agenda.load state

/-- Does all the work of a stack. An error abandons every frame, so the tasks of the batches
that were begun are lost; tasks in the queue stay there. -/
def work (agenda : Agenda Error State Task Instruction) (stack : List (Frame Task Instruction)) :
    Attempt Error State Unit := do
  let _ ← agenda.run (agenda.bound stack (← get)) stack

/-- Carries out instructions. -/
def carryOut (agenda : Agenda Error State Task Instruction) (script : List Instruction) :
    Attempt Error State Unit := agenda.work [.script script]

/-- Carries out the tasks that wait now, and tells whether there were any. -/
def perform (agenda : Agenda Error State Task Instruction) : Attempt Error State Bool := do
  match agenda.queue (← get) with
  | [] => return false
  | waiting =>
    modify agenda.clear
    agenda.work [.batch waiting]
    return true

/-- Performs until no task waits. -/
def flush (agenda : Agenda Error State Task Instruction) : Attempt Error State Unit :=
  agenda.work [.flush]

end Agenda

end DosText
