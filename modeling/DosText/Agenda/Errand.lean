import DosText.Agenda
import DosText.Bytes

/-! The simplest tasks: labelled errands that enqueue others, have the queue performed or fail,
and of which only the order is of interest. -/

namespace DosText

/-- A labelled task. It enqueues its follow-ups, then has the queue performed if it says so,
then fails if it says so. -/
inductive Errand where
  | mk (label : Bytes) (followUps : List Errand) (performs fails : Bool)

namespace Errand

instance : Inhabited Errand := ⟨.mk [] [] false false⟩

def label : Errand → Bytes
  | mk label _ _ _ => label

def followUps : Errand → List Errand
  | mk _ followUps _ _ => followUps

/-- What can be seen of errands being run. -/
inductive Event where
  /-- The errand with this label began. -/
  | ran (label : Bytes)
  /-- Performing the queue, on an errand's behalf, ended with this answer. -/
  | performed (any : Bool)
  deriving DecidableEq, Repr

/-- The errands that wait, and what has happened so far. -/
structure Board where
  queue : List Errand
  events : List Event

/-- The board on which nothing has happened. -/
def Board.empty : Board := ⟨[], []⟩

/-- What an errand, or the owner of the board, can have done. -/
inductive Instruction where
  | enqueue (errand : Errand)
  | note (event : Event)
  | perform
  | fail

/-- The instructions that an errand consists of. -/
def body : Errand → List Instruction
  | mk label followUps performs fails =>
    .note (.ran label) :: followUps.map .enqueue ++
      (if performs then [.perform] else []) ++ (if fails then [.fail] else [])

mutual

/-- A bound on the steps that an errand and its descendants take. -/
def weight : Errand → Nat
  | mk _ followUps _ _ => weights followUps + 12

def weights : List Errand → Nat
  | [] => 0
  | first :: rest => weight first + 4 + weights rest

end

/-- What an instruction does on the board. The error of an errand that fails is of the
caller's choice. -/
def order {Error : Type} (error : Error) : Instruction → Agenda.Order Error Board Instruction
  | .enqueue errand => .act do
    modify fun board => { board with queue := board.queue ++ [errand] }
    return []
  | .note event => .act do
    modify fun board => { board with events := board.events ++ [event] }
    return []
  | .perform => .perform fun any => [.note (.performed any)]
  | .fail => .act (throw error)

/-- How errands are carried out. -/
def agenda {Error : Type} (error : Error) : Agenda Error Board Errand Instruction where
  queue := Board.queue
  clear board := { board with queue := [] }
  body := body
  order := order error
  weight
    | .enqueue errand => errand.weight + 4
    | .note _ => 2
    | .perform => 6
    | .fail => 1

end Errand

end DosText
